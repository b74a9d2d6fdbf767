import PETriage.Field.Lookup
import PETriage.Image.Names
import PETriage.Number.Written

/-!
# The fields of a payload

Where each fact about an image may stand in a payload, and what holds when it is absent.
-/
namespace PETriage.Field

def sectionName : Spec Text := named [textAt? "name" [], textAt? "info" ["name"]] "Unnamed"
def sectionAddress : Spec Nat := numericOr "virtual_address" [] "info" "virtualAddress"
def sectionVirtualSize : Spec Nat :=
  numericOr "virtual_size" ["Misc_VirtualSize"] "info" "virtualSize"
def sectionRawSize : Spec Nat :=
  numericOr "raw_size" ["size_of_raw_data", "sizeOfRawData"] "info" "sizeOfRawData"
def sectionCharacteristics : Spec Nat :=
  numericOr "characteristics" [] "info" "characteristics"
def sectionEntropy : Spec (Except RangeError Float) := real ["entropy"]
def sectionChiSquare : Spec (Except RangeError Float) :=
  real ["chi_square", "chiSquared", "chiSquare"]

def fileSize : Spec Nat := numeric "file_size" []
def machineType : Spec Text :=
  named [textAt? "machine_type" [], textAt? "machineType" []] Image.unknown
def timestamp : Spec Text := named [textAt? "timestamp" []] Image.unknown

def dosMagic : Spec Nat := numeric "e_magic" ["magic"]

def machineCode : Spec (Option Nat) := (numeric "machine_code" ["machine"]).optional
def machineLabel : Spec (Option Text) := ⟨[fun o => (labelAt? "machine" o).map some], none⟩
def timeDateStamp : Spec Nat := numeric "time_date_stamp" []

def optionalMagic : Spec Nat := numeric "magic_code" ["magic"]
def subsystemCode : Spec Nat := numeric "subsystem_code" ["subsystem"]
def baseOfData : Spec (Option Nat) := (numeric "base_of_data" []).optional
def checksum : Spec Nat := numeric "checksum" ["checkSum"]

def directoryIndex : Spec (Option Nat) := ⟨[fun o => (decimalAt? "index" o).map some], none⟩
def directoryName : Spec Text := named [textAt? "name" []] Image.unknown
def directoryAddress : Spec Nat := numeric "virtual_address" []
def directorySize : Spec Nat := numeric "size" []

def importLibrary : Spec Text :=
  named [textAt? "module" [], textAt? "dll" [], textAt? "name" []] Image.unknown

def resourceType : Spec Text := named [textAt? "type" []] Image.unknown
def resourceSize : Spec Nat := numeric "size" []
def resourceEntropy : Spec (Except RangeError Float) := real ["entropy"]
def resourceHash : Spec Text :=
  named [textAt? "hash" [], textAt? "sha256" [], textAt? "md5" []] ""

inductive Language
  | name (t : Text)
  | number (n : Nat)
  deriving DecidableEq, Repr

def Language.text : Language → Except Number.WrittenError Text
  | name t => .ok t
  | number n => (Number.decimal? n).map Text.ofString

def Language.toValue : Language → Value
  | name t => .str t
  | number n => .nat n

def resourceLanguage : Spec Language :=
  ⟨[fun o => (textAt? "language" [] o).map .name,
    fun o => (textAt? "language" ["name"] o).map .name,
    fun o => (nestedAt? "language" ["id"] o).map .number], .name Image.unknown⟩

end PETriage.Field
