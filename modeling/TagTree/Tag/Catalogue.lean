import TagTree.Tag

/-!
# Names of tags

The catalogue gives names to some tags of every kind but one, under the extensions zero and eight.
Most names can be used to ask for their tag; a few belong to entries that are only recognised.
-/

namespace TagTree.Tag

/-- The tags that can be asked for by name. -/
def wellKnown : List (UInt16 × String) :=
  [
    (0x1001, "INCLUDE"), (0x1002, "GENERAL"), (0x1003, "MATCH_LOGIC_NOT"),
    (0x1004, "APPLY_ALL_SHIMS"), (0x1005, "USE_SERVICE_PACK_FILES"), (0x1006, "MITIGATION_OS"),
    (0x1007, "BLOCK_UPGRADE"), (0x1008, "INCLUDEEXCLUDEDLL"), (0x1009, "RAC_EVENT_OFF"),
    (0x100A, "TELEMETRY_OFF"), (0x100B, "SHIM_ENGINE_OFF"), (0x100C, "LAYER_PROPAGATION_OFF"),
    (0x100D, "REINSTALL_UPGRADE"), (0x3001, "MATCH_MODE"), (0x3801, "TAG"), (0x3802, "INDEX_TAG"),
    (0x3803, "INDEX_KEY"), (0x4001, "SIZE"), (0x4002, "OFFSET"), (0x4003, "CHECKSUM"),
    (0x4004, "SHIM_TAGID"), (0x4005, "PATCH_TAGID"), (0x4006, "MODULE_TYPE"),
    (0x4007, "VERDATEHI"), (0x4008, "VERDATELO"), (0x4009, "VERFILEOS"), (0x400A, "VERFILETYPE"),
    (0x400B, "PE_CHECKSUM"), (0x4011, "LANGID"), (0x4012, "VER_LANGUAGE"), (0x4014, "ENGINE"),
    (0x4015, "HTMLHELPID"), (0x4016, "INDEX_FLAGS"), (0x4017, "FLAGS"), (0x4018, "DATA_VALUETYPE"),
    (0x4019, "DATA_DWORD"), (0x401A, "LAYER_TAGID"), (0x401B, "MSI_TRANSFORM_TAGID"),
    (0x401C, "LINKER_VERSION"), (0x401D, "LINK_DATE"), (0x401E, "UPTO_LINK_DATE"),
    (0x401F, "OS_SERVICE_PACK"), (0x4020, "FLAG_TAGID"), (0x4021, "RUNTIME_PLATFORM"),
    (0x4022, "OS_SKU"), (0x4023, "OS_PLATFORM"), (0x4030, "CONTEXT_TAGID"),
    (0x4031, "EXE_WRAPPER"), (0x4801, "TAGID"), (0x5001, "TIME"), (0x5002, "BIN_FILE_VERSION"),
    (0x5003, "BIN_PRODUCT_VERSION"), (0x5004, "MODTIME"), (0x5005, "FLAG_MASK_KERNEL"),
    (0x5006, "UPTO_BIN_PRODUCT_VERSION"), (0x5007, "DATA_QWORD"), (0x5008, "FLAG_MASK_USER"),
    (0x500C, "FLAG_MASK_SHELL"), (0x500D, "UPTO_BIN_FILE_VERSION"), (0x500E, "FLAG_MASK_FUSION"),
    (0x500F, "FLAG_PROCESSPARAM"), (0x5010, "FLAG_LUA"), (0x5011, "FLAG_INSTALL"),
    (0x6001, "NAME"), (0x6002, "DESCRIPTION"), (0x6003, "MODULE"), (0x6004, "API"),
    (0x6005, "VENDOR"), (0x6006, "APP_NAME"), (0x6008, "COMMAND_LINE"), (0x6009, "COMPANY_NAME"),
    (0x600A, "DLLFILE"), (0x600B, "WILDCARD_NAME"), (0x6010, "PRODUCT_NAME"),
    (0x6011, "PRODUCT_VERSION"), (0x6012, "FILE_DESCRIPTION"), (0x6013, "FILE_VERSION"),
    (0x6014, "ORIGINAL_FILENAME"), (0x6015, "INTERNAL_NAME"), (0x6016, "LEGAL_COPYRIGHT"),
    (0x6018, "APPHELP_DETAILS"), (0x6019, "LINK_URL"), (0x601A, "LINK_TEXT"),
    (0x601B, "APPHELP_TITLE"), (0x601C, "APPHELP_CONTACT"), (0x601D, "SXS_MANIFEST"),
    (0x601E, "DATA_STRING"), (0x601F, "MSI_TRANSFORM_FILE"), (0x6021, "LAYER_DISPLAYNAME"),
    (0x6022, "COMPILER_VERSION"), (0x6023, "ACTION_TYPE"), (0x6024, "EXPORT_NAME"),
    (0x7001, "DATABASE"), (0x7002, "LIBRARY"), (0x7003, "INEXCLUDE"), (0x7004, "SHIM"),
    (0x7005, "PATCH"), (0x7006, "APP"), (0x7007, "EXE"), (0x7008, "MATCHING_FILE"),
    (0x7009, "SHIM_REF"), (0x700A, "PATCH_REF"), (0x700B, "LAYER"), (0x700C, "FILE"),
    (0x700D, "APPHELP"), (0x700E, "LINK"), (0x700F, "DATA"), (0x7010, "MSI_TRANSFORM"),
    (0x7011, "MSI_TRANSFORM_REF"), (0x7012, "MSI_PACKAGE"), (0x7013, "FLAG"),
    (0x7014, "MSI_CUSTOM_ACTION"), (0x7015, "FLAG_REF"), (0x7016, "ACTION"), (0x7017, "LOOKUP"),
    (0x7018, "CONTEXT"), (0x7019, "CONTEXT_REF"), (0x7801, "STRINGTABLE"), (0x7802, "INDEXES"),
    (0x7803, "INDEX"), (0x8801, "STRINGTABLE_ITEM"), (0x9002, "PATCH_BITS"), (0x9003, "FILE_BITS"),
    (0x9004, "EXE_ID"), (0x9005, "DATA_BITS"), (0x9006, "MSI_PACKAGE_ID"), (0x9007, "DATABASE_ID"),
    (0x9008, "CONTEXT_PLATFORM_ID"), (0x9009, "CONTEXT_BRANCH_ID"), (0x9010, "FIX_ID"),
    (0x9011, "APP_ID"), (0x9801, "INDEX_BITS")]

/-- The tags that have a name only to be shown. -/
def recognised : List (UInt16 × String) :=
  [
    (0x400C, "PREVOSMAJORVER"), (0x400D, "PREVOSMINORVER"), (0x400E, "PREVOSPLATFORMID"),
    (0x400F, "PREVOSBUILDNO"), (0x4010, "PROBLEMSEVERITY"), (0x4024, "APP_NAME_RC_ID"),
    (0x4025, "VENDOR_NAME_RC_ID"), (0x4026, "SUMMARY_MSG_RC_ID"), (0x4027, "VISTA_SKU"),
    (0x4028, "DESCRIPTION_RC_ID"), (0x4029, "PARAMETER1_RC_ID"), (0x5009, "FLAGS_NTVDM1"),
    (0x500A, "FLAGS_NTVDM2"), (0x500B, "FLAGS_NTVDM3"), (0x6017, "16BIT_DESCRIPTION"),
    (0x6020, "16BIT_MODULE_NAME")]

/-- The name in a list of named tags. -/
def nameIn? (names : List (UInt16 × String)) (tag : Tag) : Option String :=
  names.findSome? fun (raw, name) => if raw = tag.raw then some name else none

/-- The name of a tag. A tag without one is called invalid. -/
def displayName (tag : Tag) : String :=
  if tag = null then "NULL"
  else ((nameIn? wellKnown tag).or (nameIn? recognised tag)).getD "InvalidTag"

/-- The tag that a name asks for. -/
def ofName? (name : String) : Option Tag :=
  wellKnown.findSome? fun (raw, known) => if known = name then some ⟨raw⟩ else none

end TagTree.Tag
