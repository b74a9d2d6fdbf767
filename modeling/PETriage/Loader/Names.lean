import PETriage.Image.Names

/-!
# Names in a loader's view of an image

Names of data directories, resource types and languages as a loader lists them.
-/
namespace PETriage.Loader

open Image (Codes)

def directoryEntries : List String := [
  "IMAGE_DIRECTORY_ENTRY_EXPORT", "IMAGE_DIRECTORY_ENTRY_IMPORT",
  "IMAGE_DIRECTORY_ENTRY_RESOURCE", "IMAGE_DIRECTORY_ENTRY_EXCEPTION",
  "IMAGE_DIRECTORY_ENTRY_SECURITY", "IMAGE_DIRECTORY_ENTRY_BASERELOC",
  "IMAGE_DIRECTORY_ENTRY_DEBUG", "IMAGE_DIRECTORY_ENTRY_COPYRIGHT",
  "IMAGE_DIRECTORY_ENTRY_GLOBALPTR", "IMAGE_DIRECTORY_ENTRY_TLS",
  "IMAGE_DIRECTORY_ENTRY_LOAD_CONFIG", "IMAGE_DIRECTORY_ENTRY_BOUND_IMPORT",
  "IMAGE_DIRECTORY_ENTRY_IAT", "IMAGE_DIRECTORY_ENTRY_DELAY_IMPORT",
  "IMAGE_DIRECTORY_ENTRY_COM_DESCRIPTOR", "IMAGE_DIRECTORY_ENTRY_RESERVED"]

def resourceTypes : Codes := [
  (1, "RT_CURSOR"), (2, "RT_BITMAP"), (3, "RT_ICON"),
  (4, "RT_MENU"), (5, "RT_DIALOG"), (6, "RT_STRING"),
  (7, "RT_FONTDIR"), (8, "RT_FONT"), (9, "RT_ACCELERATOR"),
  (10, "RT_RCDATA"), (11, "RT_MESSAGETABLE"), (12, "RT_GROUP_CURSOR"),
  (14, "RT_GROUP_ICON"), (16, "RT_VERSION"), (17, "RT_DLGINCLUDE"),
  (19, "RT_PLUGPLAY"), (20, "RT_VXD"), (21, "RT_ANICURSOR"),
  (22, "RT_ANIICON"), (23, "RT_HTML"), (24, "RT_MANIFEST")]

def languages : Codes := [
  (0, "LANG_NEUTRAL"), (1, "LANG_ARABIC"), (2, "LANG_BULGARIAN"),
  (3, "LANG_CATALAN"), (4, "LANG_CHINESE"), (5, "LANG_CZECH"),
  (6, "LANG_DANISH"), (7, "LANG_GERMAN"), (8, "LANG_GREEK"),
  (9, "LANG_ENGLISH"), (10, "LANG_SPANISH"), (11, "LANG_FINNISH"),
  (12, "LANG_FRENCH"), (13, "LANG_HEBREW"), (14, "LANG_HUNGARIAN"),
  (15, "LANG_ICELANDIC"), (16, "LANG_ITALIAN"), (17, "LANG_JAPANESE"),
  (18, "LANG_KOREAN"), (19, "LANG_DUTCH"), (20, "LANG_NORWEGIAN"),
  (21, "LANG_POLISH"), (22, "LANG_PORTUGUESE"), (23, "LANG_RHAETO_ROMANCE"),
  (24, "LANG_ROMANIAN"), (25, "LANG_RUSSIAN"), (26, "LANG_SERBIAN"),
  (27, "LANG_SLOVAK"), (28, "LANG_ALBANIAN"), (29, "LANG_SWEDISH"),
  (30, "LANG_THAI"), (31, "LANG_TURKISH"), (32, "LANG_URDU"),
  (33, "LANG_INDONESIAN"), (34, "LANG_UKRAINIAN"), (35, "LANG_BELARUSIAN"),
  (36, "LANG_SLOVENIAN"), (37, "LANG_ESTONIAN"), (38, "LANG_LATVIAN"),
  (39, "LANG_LITHUANIAN"), (40, "LANG_MAORI"), (41, "LANG_FARSI"),
  (42, "LANG_VIETNAMESE"), (43, "LANG_ARMENIAN"), (44, "LANG_AZERI"),
  (45, "LANG_BASQUE"), (46, "LANG_SORBIAN"), (47, "LANG_MACEDONIAN"),
  (48, "LANG_SUTU"), (49, "LANG_TSONGA"), (50, "LANG_TSWANA"),
  (51, "LANG_VENDA"), (52, "LANG_XHOSA"), (53, "LANG_ZULU"),
  (54, "LANG_AFRIKAANS"), (55, "LANG_GEORGIAN"), (56, "LANG_FAEROESE"),
  (57, "LANG_HINDI"), (58, "LANG_MALTESE"), (59, "LANG_SAAMI"),
  (60, "LANG_GAELIC"), (62, "LANG_MALAY"), (63, "LANG_KAZAK"),
  (64, "LANG_KYRGYZ"), (65, "LANG_SWAHILI"), (67, "LANG_UZBEK"),
  (68, "LANG_TATAR"), (69, "LANG_BENGALI"), (70, "LANG_PUNJABI"),
  (71, "LANG_GUJARATI"), (72, "LANG_ORIYA"), (73, "LANG_TAMIL"),
  (74, "LANG_TELUGU"), (75, "LANG_KANNADA"), (76, "LANG_MALAYALAM"),
  (77, "LANG_ASSAMESE"), (78, "LANG_MARATHI"), (79, "LANG_SANSKRIT"),
  (80, "LANG_MONGOLIAN"), (86, "LANG_GALICIAN"), (87, "LANG_KONKANI"),
  (88, "LANG_MANIPURI"), (89, "LANG_SINDHI"), (90, "LANG_SYRIAC"),
  (96, "LANG_KASHMIRI"), (97, "LANG_NEPALI"), (101, "LANG_DIVEHI"),
  (127, "LANG_INVARIANT"), (143, "LANG_ESPERANTO"), (144, "LANG_WALON"),
  (145, "LANG_CORNISH"), (146, "LANG_WELSH"), (147, "LANG_BRETON")]

end PETriage.Loader
