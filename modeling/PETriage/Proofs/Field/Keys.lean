import PETriage.Field.Lookup

/-!
# Keys of header fields

A number of a header is looked up under its name and under the name with capitals in place of
underscores. The two are listed here, so that no later proof has to put capitals in again.
-/
namespace PETriage.Field

/-! ## Capitals -/

def camelChars (cs : List Char) : List Char :=
  match cs.splitOn '_' with
  | [] => []
  | head :: parts => head ++ parts.flatMap Text.capitalize

theorem camel_ofList (cs : List Char) :
    camel (String.ofList cs) = String.ofList (camelChars cs) := by
  simp only [camel, camelChars, String.toList_ofList]
  cases cs.splitOn '_' with
  | nil => rfl
  | cons head parts => rfl

theorem keys_of_chars {cs ds : List Char} (h : camelChars cs = ds) (hne : cs ≠ ds) :
    keys (String.ofList cs) [] = [String.ofList cs, String.ofList ds] := by
  have hs : String.ofList cs ≠ String.ofList ds := fun he => hne (String.ofList_injective he)
  simp [keys, camel_ofList, h, hs.symm]

/-! ## Header fields -/

def headerKeys : List (String × String) := [
  ("e_lfanew", "eLfanew"), ("e_cblp", "eCblp"), ("e_cp", "eCp"), ("e_crlc", "eCrlc"),
  ("e_cparhdr", "eCparhdr"), ("e_minalloc", "eMinalloc"), ("e_maxalloc", "eMaxalloc"),
  ("e_ss", "eSs"), ("e_sp", "eSp"), ("e_csum", "eCsum"), ("e_ip", "eIp"), ("e_cs", "eCs"),
  ("e_lfarlc", "eLfarlc"), ("e_ovno", "eOvno"),
  ("number_of_sections", "numberOfSections"), ("time_date_stamp", "timeDateStamp"),
  ("pointer_to_symbol_table", "pointerToSymbolTable"), ("number_of_symbols", "numberOfSymbols"),
  ("size_of_optional_header", "sizeOfOptionalHeader"),
  ("major_linker_version", "majorLinkerVersion"), ("minor_linker_version", "minorLinkerVersion"),
  ("size_of_code", "sizeOfCode"), ("size_of_initialized_data", "sizeOfInitializedData"),
  ("size_of_uninitialized_data", "sizeOfUninitializedData"),
  ("address_of_entry_point", "addressOfEntryPoint"), ("base_of_code", "baseOfCode"),
  ("base_of_data", "baseOfData"), ("image_base", "imageBase"),
  ("section_alignment", "sectionAlignment"), ("file_alignment", "fileAlignment"),
  ("major_operating_system_version", "majorOperatingSystemVersion"),
  ("minor_operating_system_version", "minorOperatingSystemVersion"),
  ("major_image_version", "majorImageVersion"), ("minor_image_version", "minorImageVersion"),
  ("major_subsystem_version", "majorSubsystemVersion"),
  ("minor_subsystem_version", "minorSubsystemVersion"),
  ("win32_version_value", "win32VersionValue"), ("size_of_image", "sizeOfImage"),
  ("size_of_headers", "sizeOfHeaders"), ("dll_characteristics", "dllCharacteristics"),
  ("size_of_stack_reserve", "sizeOfStackReserve"), ("size_of_stack_commit", "sizeOfStackCommit"),
  ("size_of_heap_reserve", "sizeOfHeapReserve"), ("size_of_heap_commit", "sizeOfHeapCommit"),
  ("loader_flags", "loaderFlags"), ("number_of_rva_and_sizes", "numberOfRvaAndSizes")]

theorem keys_headerKeys : ∀ p ∈ headerKeys, keys p.1 [] = [p.1, p.2] := by
  simp only [headerKeys, List.forall_mem_cons]
  and_intros
  all_goals first | exact keys_of_chars rfl (by decide) | nofun

theorem numeric_headerKeys :
    ∀ p ∈ headerKeys, numeric p.1 [] = ⟨numericLookups [p.1, p.2], 0⟩ := by
  intro p hp
  rw [numeric, keys_headerKeys p hp]

end PETriage.Field
