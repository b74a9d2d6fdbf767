import PETriage.Report.Records

/-!
# An analysis as a value

The flat object that an analysis is printed as, in a fixed order of fields and without
the parts that are absent, and the reduced one that is kept between runs.
-/
namespace PETriage.Report

open Image (DosHeader FileHeader OptionalHeader DataDirectory)

def texts (xs : List Text) : Value := .list (xs.map .str)

def SectionEntry.toValue (s : SectionEntry) : Value := .object [
  ("name", .str s.name),
  ("virtual_address", .str s.address),
  ("virtual_size", .int s.virtualSize),
  ("raw_size", .int s.rawSize),
  ("entropy", .str s.entropy),
  ("chi_square", .str s.chiSquare),
  ("characteristics", .int s.characteristics)]

def Import.toValue (i : Import) : Value := .object [
  ("module", .str i.library),
  ("functions", texts i.functions)]

def Resource.toValue (r : Resource) : Value := .object [
  ("type", .str r.type),
  ("language", .str r.language),
  ("size", .nat r.size),
  ("entropy", .str r.entropy),
  ("hash", .str r.hash)]

def dosValue (h : DosHeader) : Value := .object [
  ("e_magic", .str h.magic),
  ("e_lfanew", .nat h.headerOffset),
  ("e_cblp", .nat h.lastPageBytes),
  ("e_cp", .nat h.pages),
  ("e_crlc", .nat h.relocations),
  ("e_cparhdr", .nat h.headerParagraphs),
  ("e_minalloc", .nat h.minParagraphs),
  ("e_maxalloc", .nat h.maxParagraphs),
  ("e_ss", .nat h.initialSS),
  ("e_sp", .nat h.initialSP),
  ("e_csum", .nat h.checksum),
  ("e_ip", .nat h.initialIP),
  ("e_cs", .nat h.initialCS),
  ("e_lfarlc", .nat h.relocationTable),
  ("e_ovno", .nat h.overlay)]

def fileValue (h : FileHeader) : Value := .object [
  ("machine", .str h.machine),
  ("machine_code", .nat h.machineCode),
  ("number_of_sections", .nat h.sectionCount),
  ("time_date_stamp", .nat h.timeDateStamp),
  ("timestamp", .str h.timestamp),
  ("pointer_to_symbol_table", .nat h.symbolTable),
  ("number_of_symbols", .nat h.symbolCount),
  ("size_of_optional_header", .nat h.optionalHeaderSize),
  ("characteristics", .nat h.characteristics),
  ("characteristics_flags", texts (h.flags.map .ofString))]

def optionalValue (h : OptionalHeader) : Value := .object [
  ("magic", .str h.magic),
  ("magic_code", .nat h.magicCode),
  ("major_linker_version", .nat h.majorLinkerVersion),
  ("minor_linker_version", .nat h.minorLinkerVersion),
  ("size_of_code", .nat h.sizeOfCode),
  ("size_of_initialized_data", .nat h.sizeOfInitializedData),
  ("size_of_uninitialized_data", .nat h.sizeOfUninitializedData),
  ("address_of_entry_point", .nat h.entryPoint),
  ("base_of_code", .nat h.baseOfCode),
  ("base_of_data", .orNull .nat h.baseOfData),
  ("image_base", .nat h.imageBase),
  ("section_alignment", .nat h.sectionAlignment),
  ("file_alignment", .nat h.fileAlignment),
  ("major_operating_system_version", .nat h.majorSystemVersion),
  ("minor_operating_system_version", .nat h.minorSystemVersion),
  ("major_image_version", .nat h.majorImageVersion),
  ("minor_image_version", .nat h.minorImageVersion),
  ("major_subsystem_version", .nat h.majorSubsystemVersion),
  ("minor_subsystem_version", .nat h.minorSubsystemVersion),
  ("win32_version_value", .nat h.win32Version),
  ("size_of_image", .nat h.sizeOfImage),
  ("size_of_headers", .nat h.sizeOfHeaders),
  ("checksum", .nat h.checksum),
  ("subsystem", .str h.subsystem),
  ("subsystem_code", .nat h.subsystemCode),
  ("dll_characteristics", .nat h.dllCharacteristics),
  ("size_of_stack_reserve", .nat h.stackReserve),
  ("size_of_stack_commit", .nat h.stackCommit),
  ("size_of_heap_reserve", .nat h.heapReserve),
  ("size_of_heap_commit", .nat h.heapCommit),
  ("loader_flags", .nat h.loaderFlags),
  ("number_of_rva_and_sizes", .nat h.directoryCount)]

def directoryValue (d : DataDirectory) : Value := .object [
  ("name", .str d.name),
  ("virtual_address", .nat d.address),
  ("size", .nat d.size)]

namespace Analysis

/-- A field that is left out when there is nothing in it. -/
def part {α : Type} (key : String) (f : α → Value) (value : Option α) : Fields :=
  value.toList.map fun a => (key, f a)

def toFields (a : Analysis) : Fields :=
  ([("file_size", .int a.fileSize),
    ("machine_type", .str a.machine),
    ("timestamp", .str a.timestamp),
    ("sections", .list (a.sections.map SectionEntry.toValue))] : Fields) ++
  part "imports" (fun xs => .list (xs.map Import.toValue)) a.imports ++
  part "resources" (fun xs => .list (xs.map Resource.toValue)) a.resources ++
  part "dos_header" dosValue a.dos ++
  part "file_header" fileValue a.file ++
  part "optional_header" optionalValue a.optional ++
  ([("data_directories", .list (a.directories.map directoryValue))] : Fields) ++
  part "error" .str a.error ++
  part "raw_payload" .object a.payload

def toValue (a : Analysis) : Value := .object a.toFields

def essentialSection (s : SectionEntry) : Value := .object [
  ("name", .str s.name),
  ("virtual_address", .str s.address),
  ("virtual_size", .int s.virtualSize),
  ("raw_size", .int s.rawSize),
  ("entropy", .str s.entropy)]

/-- What is kept of an analysis: no imports, resources or headers. -/
def essentialFields (a : Analysis) : Fields := [
  ("file_size", .int a.fileSize),
  ("machine_type", .str a.machine),
  ("timestamp", .str a.timestamp),
  ("sections", .list (a.sections.map essentialSection))]

def essential (a : Analysis) : Value := .object a.essentialFields

end Analysis
end PETriage.Report
