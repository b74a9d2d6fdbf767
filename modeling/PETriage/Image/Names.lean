import PETriage.Number.Written

/-!
# Names of header codes

Machines, subsystems and header kinds are codes with names; characteristics are sets of
single bits. A code outside its table is shown by its number.
-/
namespace PETriage.Image

/-- Codes and their names; a code stands in a table once. -/
abbrev Codes := List (Nat × String)

def Codes.name? (table : Codes) (code : Int) : Option String :=
  (table.find? fun (c, _) => (c : Int) == code).map (·.2)

def Codes.code? (table : Codes) (name : String) : Option Nat :=
  (table.find? fun (_, n) => n == name).map (·.1)

def machines : Codes := [
  (0x0, "IMAGE_FILE_MACHINE_UNKNOWN"), (0x14c, "IMAGE_FILE_MACHINE_I386"),
  (0x162, "IMAGE_FILE_MACHINE_R3000"), (0x166, "IMAGE_FILE_MACHINE_R4000"),
  (0x168, "IMAGE_FILE_MACHINE_R10000"), (0x169, "IMAGE_FILE_MACHINE_WCEMIPSV2"),
  (0x184, "IMAGE_FILE_MACHINE_ALPHA"), (0x1a2, "IMAGE_FILE_MACHINE_SH3"),
  (0x1a3, "IMAGE_FILE_MACHINE_SH3DSP"), (0x1a4, "IMAGE_FILE_MACHINE_SH3E"),
  (0x1a6, "IMAGE_FILE_MACHINE_SH4"), (0x1a8, "IMAGE_FILE_MACHINE_SH5"),
  (0x1c0, "IMAGE_FILE_MACHINE_ARM"), (0x1c2, "IMAGE_FILE_MACHINE_THUMB"),
  (0x1c4, "IMAGE_FILE_MACHINE_ARMNT"), (0x1d3, "IMAGE_FILE_MACHINE_AM33"),
  (0x1f0, "IMAGE_FILE_MACHINE_POWERPC"), (0x1f1, "IMAGE_FILE_MACHINE_POWERPCFP"),
  (0x200, "IMAGE_FILE_MACHINE_IA64"), (0x266, "IMAGE_FILE_MACHINE_MIPS16"),
  (0x284, "IMAGE_FILE_MACHINE_ALPHA64"), (0x366, "IMAGE_FILE_MACHINE_MIPSFPU"),
  (0x466, "IMAGE_FILE_MACHINE_MIPSFPU16"), (0x520, "IMAGE_FILE_MACHINE_TRICORE"),
  (0xcef, "IMAGE_FILE_MACHINE_CEF"), (0xebc, "IMAGE_FILE_MACHINE_EBC"),
  (0x5032, "IMAGE_FILE_MACHINE_RISCV32"), (0x5064, "IMAGE_FILE_MACHINE_RISCV64"),
  (0x5128, "IMAGE_FILE_MACHINE_RISCV128"), (0x6232, "IMAGE_FILE_MACHINE_LOONGARCH32"),
  (0x6264, "IMAGE_FILE_MACHINE_LOONGARCH64"), (0x8664, "IMAGE_FILE_MACHINE_AMD64"),
  (0x9041, "IMAGE_FILE_MACHINE_M32R"), (0xaa64, "IMAGE_FILE_MACHINE_ARM64"),
  (0xc0ee, "IMAGE_FILE_MACHINE_CEE")]

def subsystems : Codes := [
  (0, "IMAGE_SUBSYSTEM_UNKNOWN"), (1, "IMAGE_SUBSYSTEM_NATIVE"),
  (2, "IMAGE_SUBSYSTEM_WINDOWS_GUI"), (3, "IMAGE_SUBSYSTEM_WINDOWS_CUI"),
  (5, "IMAGE_SUBSYSTEM_OS2_CUI"), (7, "IMAGE_SUBSYSTEM_POSIX_CUI"),
  (8, "IMAGE_SUBSYSTEM_NATIVE_WINDOWS"), (9, "IMAGE_SUBSYSTEM_WINDOWS_CE_GUI"),
  (10, "IMAGE_SUBSYSTEM_EFI_APPLICATION"), (11, "IMAGE_SUBSYSTEM_EFI_BOOT_SERVICE_DRIVER"),
  (12, "IMAGE_SUBSYSTEM_EFI_RUNTIME_DRIVER"), (13, "IMAGE_SUBSYSTEM_EFI_ROM"),
  (14, "IMAGE_SUBSYSTEM_XBOX"), (16, "IMAGE_SUBSYSTEM_WINDOWS_BOOT_APPLICATION")]

def pe32Magic : Nat := 0x10B
def pe32PlusMagic : Nat := 0x20B

def magics : Codes := [(pe32Magic, "PE32 (32-bit)"), (pe32PlusMagic, "PE32+ (64-bit)")]

def unknown : String := "Unknown"

def unknownCode (text : String) : String := unknown ++ " (" ++ text ++ ")"

def machineName (code : Int) : String :=
  (machines.name? code).getD (unknownCode (Number.hex code))

/-- A subsystem without a name is shown in decimal, which has a limit. -/
def subsystemName (code : Int) : Except Number.WrittenError String :=
  match subsystems.name? code with
  | some name => .ok name
  | none => (Number.decimal? code).map unknownCode

def magicName (code : Int) : String :=
  (magics.name? code).getD (unknownCode (Number.hex code))

/-- Single bits and their names, from the lowest bit up. -/
abbrev Flags := List (Nat × String)

def hasBit (value : Int) (bit : Nat) : Bool := value / bit % 2 == 1

def Flags.decode (table : Flags) (value : Int) : List String :=
  (table.filter fun (bit, _) => hasBit value bit).map (·.2)

def fileFlags : Flags := [
  (0x1, "IMAGE_FILE_RELOCS_STRIPPED"), (0x2, "IMAGE_FILE_EXECUTABLE_IMAGE"),
  (0x4, "IMAGE_FILE_LINE_NUMS_STRIPPED"), (0x8, "IMAGE_FILE_LOCAL_SYMS_STRIPPED"),
  (0x10, "IMAGE_FILE_AGGRESIVE_WS_TRIM"), (0x20, "IMAGE_FILE_LARGE_ADDRESS_AWARE"),
  (0x40, "IMAGE_FILE_16BIT_MACHINE"), (0x80, "IMAGE_FILE_BYTES_REVERSED_LO"),
  (0x100, "IMAGE_FILE_32BIT_MACHINE"), (0x200, "IMAGE_FILE_DEBUG_STRIPPED"),
  (0x400, "IMAGE_FILE_REMOVABLE_RUN_FROM_SWAP"), (0x800, "IMAGE_FILE_NET_RUN_FROM_SWAP"),
  (0x1000, "IMAGE_FILE_SYSTEM"), (0x2000, "IMAGE_FILE_DLL"),
  (0x4000, "IMAGE_FILE_UP_SYSTEM_ONLY"), (0x8000, "IMAGE_FILE_BYTES_REVERSED_HI")]

/-- The field for alignment holds a number and no flags. -/
def sectionFlags : Flags := [
  (0x1, "IMAGE_SCN_TYPE_DSECT"), (0x2, "IMAGE_SCN_TYPE_NOLOAD"),
  (0x4, "IMAGE_SCN_TYPE_GROUP"), (0x8, "IMAGE_SCN_TYPE_NO_PAD"),
  (0x10, "IMAGE_SCN_TYPE_COPY"), (0x20, "IMAGE_SCN_CNT_CODE"),
  (0x40, "IMAGE_SCN_CNT_INITIALIZED_DATA"), (0x80, "IMAGE_SCN_CNT_UNINITIALIZED_DATA"),
  (0x100, "IMAGE_SCN_LNK_OTHER"), (0x200, "IMAGE_SCN_LNK_INFO"),
  (0x400, "IMAGE_SCN_LNK_OVER"), (0x800, "IMAGE_SCN_LNK_REMOVE"),
  (0x1000, "IMAGE_SCN_LNK_COMDAT"), (0x4000, "IMAGE_SCN_MEM_PROTECTED"),
  (0x8000, "IMAGE_SCN_GPREL"), (0x10000, "IMAGE_SCN_MEM_SYSHEAP"),
  (0x20000, "IMAGE_SCN_MEM_PURGEABLE"), (0x40000, "IMAGE_SCN_MEM_LOCKED"),
  (0x80000, "IMAGE_SCN_MEM_PRELOAD"), (0x1000000, "IMAGE_SCN_LNK_NRELOC_OVFL"),
  (0x2000000, "IMAGE_SCN_MEM_DISCARDABLE"), (0x4000000, "IMAGE_SCN_MEM_NOT_CACHED"),
  (0x8000000, "IMAGE_SCN_MEM_NOT_PAGED"), (0x10000000, "IMAGE_SCN_MEM_SHARED"),
  (0x20000000, "IMAGE_SCN_MEM_EXECUTE"), (0x40000000, "IMAGE_SCN_MEM_READ"),
  (0x80000000, "IMAGE_SCN_MEM_WRITE")]

def executeFlag : Nat := 0x20000000
def writeFlag : Nat := 0x80000000

def directoryNames : List String := [
  "Export Table", "Import Table", "Resource Table", "Exception Table",
  "Certificate Table", "Base Relocation Table", "Debug", "Architecture",
  "Global Pointer", "TLS Table", "Load Config Table", "Bound Import",
  "Import Address Table", "Delay Import Descriptor", "CLR Runtime Header", "Reserved"]

def importTable : String := "Import Table"

theorem length_directoryNames : directoryNames.length = 16 := rfl

end PETriage.Image
