/-
# The dynamic section of an executable

From the entries of the dynamic section the parser finds the string table, the
two relocation tables and the symbol table in the image and decodes them. Tables
are given by addresses, which are looked up in the file data of the load segments,
or by offsets into the data segment of the vendor's format. Decoded strings are
charged to a budget, since many entries may refer to one string.

The parser works on one metadata record; here each stage takes the record and the
budget left over and returns them.
-/

import KajPS5.Loader.ElfImage

namespace KajPS5.Loader

open Math.DefinedRuns

def kProgramTypeLoad : ℕ := 1
def kProgramTypeDynamic : ℕ := 2
def kProgramTypeSceDynlibData : ℕ := 0x61000000
def kDynamicEntrySize : ℕ := 16
def kDynamicTagNull : ℕ := 0
def kDynamicTagNeeded : ℕ := 1
def kDynamicTagPltRelocationSize : ℕ := 2
def kDynamicTagHash : ℕ := 4
def kDynamicTagStringTable : ℕ := 5
def kDynamicTagSymbolTable : ℕ := 6
def kDynamicTagRela : ℕ := 7
def kDynamicTagRelaSize : ℕ := 8
def kDynamicTagRelaEntrySize : ℕ := 9
def kDynamicTagStringTableSize : ℕ := 10
def kDynamicTagSymbolEntrySize : ℕ := 11
def kDynamicTagInit : ℕ := 12
def kDynamicTagFini : ℕ := 13
def kDynamicTagSharedObjectName : ℕ := 14
def kDynamicTagPltRelocationFormat : ℕ := 20
def kDynamicTagJumpRelocation : ℕ := 23
def kDynamicTagInitArray : ℕ := 25
def kDynamicTagFiniArray : ℕ := 26
def kDynamicTagInitArraySize : ℕ := 27
def kDynamicTagFiniArraySize : ℕ := 28
def kDynamicTagPreinitArray : ℕ := 32
def kDynamicTagPreinitArraySize : ℕ := 33
def kDynamicTagSceModuleInfo : ℕ := 0x6100000d
def kDynamicTagSceNeededModule : ℕ := 0x6100000f
def kDynamicTagSceExportLibrary : ℕ := 0x61000013
def kDynamicTagSceImportLibrary : ℕ := 0x61000015
def kDynamicTagSceJumpRelocation : ℕ := 0x61000029
def kDynamicTagScePltRelocationFormat : ℕ := 0x6100002b
def kDynamicTagScePltRelocationSize : ℕ := 0x6100002d
def kDynamicTagSceRela : ℕ := 0x6100002f
def kDynamicTagSceRelaSize : ℕ := 0x61000031
def kDynamicTagSceRelaEntrySize : ℕ := 0x61000033
def kDynamicTagSceStringTable : ℕ := 0x61000035
def kDynamicTagSceStringTableSize : ℕ := 0x61000037
def kDynamicTagSceSymbolTable : ℕ := 0x61000039
def kDynamicTagSceSymbolEntrySize : ℕ := 0x6100003b
def kDynamicTagSceSymbolTableSize : ℕ := 0x6100003f
def kDynamicTagSceModuleInfoV2 : ℕ := 0x61000043
def kDynamicTagSceNeededModuleV2 : ℕ := 0x61000045
def kDynamicTagSceExportLibraryV2 : ℕ := 0x61000047
def kDynamicTagSceImportLibraryV2 : ℕ := 0x61000049
def kDynamicFormatRela : ℕ := 7
def kRelaEntrySize : ℕ := 24
def kSymbolEntrySize : ℕ := 24
def kMinimumDecodedStringBudget : ℕ := 64 * 1024
def kMaximumDecodedStringBudget : ℕ := 64 * 1024 * 1024
def kDecodedStringBudgetScale : ℕ := 4

/-! ## Entries -/

namespace ElfMetadata

variable (metadata : ElfMetadata)

def findDynamicEntry (tag : ℕ) : Option ElfDynamicEntry :=
  metadata.dynamicEntries.find? fun entry => entry.tag = tag

def hasDynamicEntry (tags : List ℕ) : Bool :=
  metadata.dynamicEntries.any fun entry => tags.contains entry.tag

def findProgramHeader (type : ℕ) : Option ElfProgramHeader :=
  metadata.programHeaders.find? fun header => header.type = type

/-- The value of an entry, or what the destination held before. -/
def lifecycleValue (tag : ℕ) (destination : Option ℕ) : Option ℕ :=
  match metadata.findDynamicEntry tag with
  | some entry => some entry.value
  | none => destination

def parseDynamicLifecycleMetadata : ElfMetadata :=
  let info := metadata.dynamicInfo
  { metadata with
    dynamicInfo :=
      { info with
        initFunction := metadata.lifecycleValue kDynamicTagInit info.initFunction
        finiFunction := metadata.lifecycleValue kDynamicTagFini info.finiFunction
        preinitArrayAddress :=
          metadata.lifecycleValue kDynamicTagPreinitArray info.preinitArrayAddress
        preinitArraySize :=
          metadata.lifecycleValue kDynamicTagPreinitArraySize info.preinitArraySize
        initArrayAddress := metadata.lifecycleValue kDynamicTagInitArray info.initArrayAddress
        initArraySize := metadata.lifecycleValue kDynamicTagInitArraySize info.initArraySize
        finiArrayAddress := metadata.lifecycleValue kDynamicTagFiniArray info.finiArrayAddress
        finiArraySize := metadata.lifecycleValue kDynamicTagFiniArraySize info.finiArraySize } }

def sceDynamicDataSource : ElfDynamicDataSource :=
  if metadata.programHeaders.any fun header => header.type = kProgramTypeSceDynlibData then
    .kSceDynlibData
  else .kLoadSegment

end ElfMetadata

structure DynamicEntrySelection where
  entry : Option ElfDynamicEntry := none
  source : ElfDynamicDataSource := .kNone
  deriving DecidableEq, Repr

namespace ElfMetadata

variable (metadata : ElfMetadata)

def selectDynamicEntry (standardTag sceTag : ℕ) : DynamicEntrySelection :=
  match metadata.findDynamicEntry sceTag with
  | some entry => { entry := some entry, source := metadata.sceDynamicDataSource }
  | none => match metadata.findDynamicEntry standardTag with
    | some entry => { entry := some entry, source := .kLoadSegment }
    | none => {}

def selectSceDynamicEntry (tag : ℕ) : DynamicEntrySelection :=
  match metadata.findDynamicEntry tag with
  | some entry => { entry := some entry, source := metadata.sceDynamicDataSource }
  | none => { entry := none, source := .kNone }

/-! ## From addresses to file offsets -/

/-- The file offset of a range of bytes in the file data of a load segment. -/
def resolveInHeader (address size : ℕ) (header : ElfProgramHeader) : Option ℕ :=
  if header.type ≠ kProgramTypeLoad || address < header.virtualAddress then none
  else
    let relativeAddress := address - header.virtualAddress
    if relativeAddress ≤ header.fileSize && size ≤ header.fileSize - relativeAddress then
      some (header.fileOffset + relativeAddress)
    else none

/-- The lowest address of a load segment, the largest word if there is none. -/
def imageBase : ℕ :=
  metadata.programHeaders.foldl
    (fun base header =>
      if header.type = kProgramTypeLoad then min base header.virtualAddress else base)
    Memory.uint64Max

/-- `ResolveFileOffset`: the address as it stands, or relative to the lowest one. -/
def resolveFileOffset (virtualAddress size : ℕ) : Option ℕ :=
  match metadata.programHeaders.findSome? (resolveInHeader virtualAddress size) with
  | some offset => some offset
  | none =>
    if metadata.imageBase ≠ Memory.uint64Max then
      match addWithoutOverflow metadata.imageBase virtualAddress with
      | some rebased => metadata.programHeaders.findSome? (resolveInHeader rebased size)
      | none => none
    else none

def resolveDynamicFileOffset (selection : DynamicEntrySelection) (size : ℕ) : Option ℕ :=
  match selection.entry with
  | none => none
  | some entry => match selection.source with
    | .kLoadSegment => metadata.resolveFileOffset entry.value size
    | .kNone => none
    | .kSceDynlibData => match metadata.findProgramHeader kProgramTypeSceDynlibData with
      | none => none
      | some header =>
        if rangeWithin header.fileSize entry.value size then some (header.fileOffset + entry.value)
        else none

end ElfMetadata

/-! ## Strings -/

def calculateDecodedStringBudget (imageSize : ℕ) : ℕ :=
  let scaled :=
    if imageSize ≥ kMaximumDecodedStringBudget / kDecodedStringBudgetScale then
      kMaximumDecodedStringBudget
    else imageSize * kDecodedStringBudgetScale
  max kMinimumDecodedStringBudget (min scaled kMaximumDecodedStringBudget)

/-- The outcomes of `ReadDynamicString`, with the string and the budget left. -/
inductive DynamicStringRead
  | ok (value : ByteString) (remainingBudget : ℕ)
  | unterminated
  | budgetExceeded
  deriving DecidableEq, Repr

/-- The loop of `ReadDynamicString` over the rest of the table. -/
def readStringBytes (remainingBudget : ℕ) : List UInt8 → ByteString → DynamicStringRead
  | [], _ => .unterminated
  | byte :: rest, value =>
    if byte = 0 then
      if value.length ≥ remainingBudget then .budgetExceeded
      else .ok value (remainingBudget - (value.length + 1))
    else if remainingBudget = 0 || value.length ≥ remainingBudget - 1 then .budgetExceeded
    else readStringBytes remainingBudget rest (value ++ [byte])

def readDynamicString (stringTable : List UInt8) (offset remainingBudget : ℕ) :
    DynamicStringRead :=
  if offset ≥ stringTable.length then .unterminated
  else readStringBytes remainingBudget (stringTable.drop offset) []

/-- The way the parser reads a string it needs, with the errors of the caller. -/
def readString (outOfRange unterminated : ElfError) (stringTable : List UInt8)
    (offset budget : ℕ) : Parse (ByteString × ℕ) :=
  if offset ≥ stringTable.length then throw outOfRange
  else match readDynamicString stringTable offset budget with
    | .budgetExceeded => throw .kDecodedStringBudgetExceeded
    | .unterminated => throw unterminated
    | .ok value remainingBudget => pure (value, remainingBudget)

/-- The strings of the needed libraries, one for each entry that names one. -/
def parseNeededLibraries (bytes : List UInt8) :
    List ElfDynamicEntry → List ByteString × ℕ → Parse (List ByteString × ℕ)
  | [], state => pure state
  | entry :: rest, (libraries, budget) =>
    if entry.tag ≠ kDynamicTagNeeded then parseNeededLibraries bytes rest (libraries, budget)
    else do
      let (value, budget) ← readString .kDynamicStringOffsetOutOfRange
        .kUnterminatedDynamicString bytes entry.value budget
      parseNeededLibraries bytes rest (libraries ++ [value], budget)

/-- The tags of module and library identities. -/
def sceIdentityTags : List ℕ :=
  [kDynamicTagSceNeededModule, kDynamicTagSceNeededModuleV2, kDynamicTagSceModuleInfo,
    kDynamicTagSceModuleInfoV2, kDynamicTagSceImportLibrary, kDynamicTagSceImportLibraryV2,
    kDynamicTagSceExportLibrary, kDynamicTagSceExportLibraryV2]

/-- The part of `ParseDynamicStrings` behind its completeness check. -/
def parseStringTable (image : List UInt8) (metadata : ElfMetadata) (budget : ℕ)
    (stringTable : DynamicEntrySelection) (stringTableSize : ElfDynamicEntry) :
    Parse (ElfMetadata × ℕ) :=
  match metadata.resolveDynamicFileOffset stringTable stringTableSize.value with
  | none => throw .kDynamicStringTableNotFileBacked
  | some fileOffset => do
      let bytes ← subspan image fileOffset stringTableSize.value
      let (neededLibraries, budget) ← parseNeededLibraries bytes metadata.dynamicEntries
        (metadata.dynamicInfo.neededLibraries, budget)
      let info :=
        { metadata.dynamicInfo with
          stringTableSource := stringTable.source
          stringTableFileOffset := some fileOffset
          stringTableSize := some stringTableSize.value
          neededLibraries }
      match metadata.findDynamicEntry kDynamicTagSharedObjectName with
      | none => pure ({ metadata with dynamicInfo := info }, budget)
      | some sharedObjectName => do
          let (value, budget) ← readString .kDynamicStringOffsetOutOfRange
            .kUnterminatedDynamicString bytes sharedObjectName.value budget
          pure ({ metadata with dynamicInfo := { info with sharedObjectName := some value } },
            budget)

def parseDynamicStrings (image : List UInt8) (metadata : ElfMetadata) (budget : ℕ) :
    Parse (ElfMetadata × ℕ) := do
  let stringTable := metadata.selectDynamicEntry kDynamicTagStringTable kDynamicTagSceStringTable
  let stringTableSize :=
    metadata.selectDynamicEntry kDynamicTagStringTableSize kDynamicTagSceStringTableSize
  let hasNeeded := (metadata.findDynamicEntry kDynamicTagNeeded).isSome
  let hasSharedObjectName := (metadata.findDynamicEntry kDynamicTagSharedObjectName).isSome
  let hasSceIdentities := metadata.hasDynamicEntry sceIdentityTags
  rejectIf
    (stringTable.entry.isNone ≠ stringTableSize.entry.isNone ||
      (stringTable.entry.isSome && stringTable.source ≠ stringTableSize.source) ||
      ((hasNeeded || hasSharedObjectName) && stringTable.entry.isNone) ||
      (hasSceIdentities && stringTable.entry.isNone))
    .kIncompleteDynamicStringTable
  match stringTable.entry, stringTableSize.entry with
  | some _, some size => parseStringTable image metadata budget stringTable size
  | _, _ => pure (metadata, budget)

def readMetadataString (image : List UInt8) (metadata : ElfMetadata) (offset budget : ℕ) :
    Parse (ByteString × ℕ) :=
  match metadata.dynamicInfo.stringTableFileOffset, metadata.dynamicInfo.stringTableSize with
  | some tableOffset, some tableSize => do
      rejectIf (!rangeWithin image.length tableOffset tableSize) .kDynamicStringTableNotFileBacked
      let bytes ← subspan image tableOffset tableSize
      readString .kDynamicStringOffsetOutOfRange .kUnterminatedDynamicString bytes offset budget
  | _, _ => throw .kIncompleteDynamicStringTable

/-! ## Identities -/

def ElfModuleIdentity.ofValue (value : ℕ) (name : ByteString) : ElfModuleIdentity where
  id := BitVec.ofNat 16 (value >>> 48)
  versionMajor := BitVec.ofNat 8 (value >>> 40)
  versionMinor := BitVec.ofNat 8 (value >>> 32)
  name := name

def ElfLibraryIdentity.ofValue (value : ℕ) (name : ByteString) : ElfLibraryIdentity where
  id := BitVec.ofNat 16 (value >>> 48)
  version := BitVec.ofNat 16 (value >>> 32)
  name := name

/-- Where `ParseSceIdentities` puts the identity of an entry. -/
def ElfDynamicInfo.addIdentity (info : ElfDynamicInfo) (entry : ElfDynamicEntry)
    (name : ByteString) : ElfDynamicInfo :=
  if entry.tag = kDynamicTagSceNeededModule ∨ entry.tag = kDynamicTagSceNeededModuleV2 then
    { info with importModules := info.importModules ++ [.ofValue entry.value name] }
  else if entry.tag = kDynamicTagSceModuleInfo ∨ entry.tag = kDynamicTagSceModuleInfoV2 then
    { info with exportModules := info.exportModules ++ [.ofValue entry.value name] }
  else if entry.tag = kDynamicTagSceImportLibrary ∨ entry.tag = kDynamicTagSceImportLibraryV2 then
    { info with importLibraries := info.importLibraries ++ [.ofValue entry.value name] }
  else { info with exportLibraries := info.exportLibraries ++ [.ofValue entry.value name] }

/-- One iteration of `ParseSceIdentities`. -/
def parseSceIdentity (image : List UInt8) (state : ElfMetadata × ℕ) (entry : ElfDynamicEntry) :
    Parse (ElfMetadata × ℕ) :=
  if !sceIdentityTags.contains entry.tag then pure state
  else do
    let (name, budget) ← readMetadataString image state.1 (entry.value % 2 ^ 32) state.2
    pure ({ state.1 with dynamicInfo := state.1.dynamicInfo.addIdentity entry name }, budget)

def parseSceIdentities (image : List UInt8) (metadata : ElfMetadata) (budget : ℕ) :
    Parse (ElfMetadata × ℕ) :=
  metadata.dynamicEntries.foldlM (parseSceIdentity image) (metadata, budget)

/-! ## Relocations -/

def isGuestRangeMapped (metadata : ElfMetadata) (address size : ℕ) : Bool :=
  metadata.programHeaders.any fun header =>
    header.type = kProgramTypeLoad && !(address < header.virtualAddress) &&
      address - header.virtualAddress ≤ header.memorySize &&
      size ≤ header.memorySize - (address - header.virtualAddress)

def readRelaEntry (image : List UInt8) (offset : ℕ) : Parse ElfRelaEntry := do
  let target ← read64 image offset
  let info ← read64 image (offset + 8)
  let addend ← read64 image (offset + 16)
  pure
    { offset := BitVec.ofNat 64 target
      info := BitVec.ofNat 64 info
      addend := BitVec.ofNat 64 addend }

/-- One iteration of `ParseRelaTable`. -/
def parseRelaEntry (image : List UInt8) (metadata : ElfMetadata) (offset : ℕ) :
    Parse ElfRelaEntry := do
  let entry ← readRelaEntry image offset
  rejectIf (entry.type ≠ 0 && !isGuestRangeMapped metadata entry.offset.toNat 1)
    .kRelocationTargetOutOfRange
  pure entry

def parseRelaTable (image : List UInt8) (metadata : ElfMetadata) (table : DynamicEntrySelection)
    (size : ℕ) : Parse (List ElfRelaEntry) := do
  rejectIf (size % kRelaEntrySize ≠ 0) .kInvalidRelaEntrySize
  match metadata.resolveDynamicFileOffset table size with
  | none => throw .kRelaTableNotFileBacked
  | some fileOffset =>
    (List.range (size / kRelaEntrySize)).mapM fun index =>
      parseRelaEntry image metadata (fileOffset + index * kRelaEntrySize)

/-- The tags of a relocation table: where it is, its size, and the tag that says
in which format it is. -/
structure RelocationTags where
  (table size format : ℕ)

/-- The two halves of `ParseDynamicRelocations`, which differ in their tags, in
the format they ask for and in the error for another one. -/
def parseRelocationTable (sce standard : RelocationTags) (format : ℕ) (unsupported : ElfError)
    (image : List UInt8) (metadata : ElfMetadata) : Parse (List ElfRelaEntry) := do
  let hasSce := metadata.hasDynamicEntry [sce.table, sce.size, sce.format]
  let tags := if hasSce then sce else standard
  let table :=
    if hasSce then metadata.selectSceDynamicEntry sce.table
    else { entry := metadata.findDynamicEntry standard.table, source := .kLoadSegment }
  let size := metadata.findDynamicEntry tags.size
  let formatEntry := metadata.findDynamicEntry tags.format
  let fields := [table.entry, size, formatEntry].countP Option.isSome
  -- The vendor's tables may leave the format out, the standard ones may not.
  rejectIf
    (if hasSce then table.entry.isNone || size.isNone else fields ≠ 0 && fields ≠ 3)
    .kIncompleteRelaMetadata
  match table.entry, size with
  | some _, some size => do
      rejectIf (formatEntry.any fun entry => entry.value ≠ format) unsupported
      parseRelaTable image metadata table size.value
  | _, _ => pure []

def parseRela : List UInt8 → ElfMetadata → Parse (List ElfRelaEntry) :=
  parseRelocationTable
    ⟨kDynamicTagSceRela, kDynamicTagSceRelaSize, kDynamicTagSceRelaEntrySize⟩
    ⟨kDynamicTagRela, kDynamicTagRelaSize, kDynamicTagRelaEntrySize⟩
    kRelaEntrySize .kInvalidRelaEntrySize

def parsePlt : List UInt8 → ElfMetadata → Parse (List ElfRelaEntry) :=
  parseRelocationTable
    ⟨kDynamicTagSceJumpRelocation, kDynamicTagScePltRelocationSize,
      kDynamicTagScePltRelocationFormat⟩
    ⟨kDynamicTagJumpRelocation, kDynamicTagPltRelocationSize, kDynamicTagPltRelocationFormat⟩
    kDynamicFormatRela .kUnsupportedPltRelocationFormat

def parseDynamicRelocations (image : List UInt8) (metadata : ElfMetadata) :
    Parse ElfMetadata := do
  let relocations ← parseRela image metadata
  let pltRelocations ← parsePlt image metadata
  pure { metadata with dynamicInfo := { metadata.dynamicInfo with relocations, pltRelocations } }

/-! ## Symbols -/

def readSymbol (image : List UInt8) (offset : ℕ) : Parse ElfSymbol := do
  let nameOffset ← read32 image offset
  let info ← read8 image (offset + 4)
  let other ← read8 image (offset + 5)
  let sectionIndex ← read16 image (offset + 6)
  let value ← read64 image (offset + 8)
  let size ← read64 image (offset + 16)
  pure
    { nameOffset
      info := BitVec.ofNat 8 info
      other := BitVec.ofNat 8 other
      sectionIndex := BitVec.ofNat 16 sectionIndex
      value := BitVec.ofNat 64 value
      size := BitVec.ofNat 64 size
      name := [] }

/-- One iteration of `ParseSymbolRecords`. -/
def parseSymbolRecord (image strings : List UInt8) (symbolFileOffset : ℕ)
    (state : List ElfSymbol × ℕ) (index : ℕ) : Parse (List ElfSymbol × ℕ) := do
  let symbol ← readSymbol image (symbolFileOffset + index * kSymbolEntrySize)
  let (name, budget) ← readString .kSymbolNameOffsetOutOfRange .kUnterminatedSymbolName strings
    symbol.nameOffset state.2
  pure (state.1 ++ [{ symbol with name }], budget)

def parseSymbolRecords (image : List UInt8) (metadata : ElfMetadata)
    (symbolFileOffset symbolCount budget : ℕ) : Parse (ElfMetadata × ℕ) :=
  match metadata.dynamicInfo.stringTableFileOffset, metadata.dynamicInfo.stringTableSize with
  | some stringFileOffset, some stringTableSize => do
      rejectIf (!rangeWithin image.length stringFileOffset stringTableSize)
        .kDynamicStringTableNotFileBacked
      let strings ← subspan image stringFileOffset stringTableSize
      let (symbols, budget) ← (List.range symbolCount).foldlM
        (parseSymbolRecord image strings symbolFileOffset)
        (metadata.dynamicInfo.symbols, budget)
      pure ({ metadata with dynamicInfo := { metadata.dynamicInfo with symbols } }, budget)
  | _, _ => throw .kIncompleteDynamicSymbolMetadata

/-- The largest symbol index of the relocation tables. -/
def ElfDynamicInfo.maximumSymbol (info : ElfDynamicInfo) : ℕ :=
  (info.relocations ++ info.pltRelocations).foldl
    (fun maximum relocation => max maximum relocation.symbol.toNat) 0

/-- The size of the vendor's symbol table: given by a tag, or large enough for
every symbol a relocation names. `none` is the return without symbols. -/
def ElfMetadata.sceSymbolTableBytes (metadata : ElfMetadata) : Option ℕ :=
  match metadata.findDynamicEntry kDynamicTagSceSymbolTableSize with
  | some size => some size.value
  | none =>
    if metadata.dynamicInfo.maximumSymbol = 0 then none
    else some ((metadata.dynamicInfo.maximumSymbol + 1) * kSymbolEntrySize)

/-- The first half of `ParseDynamicSymbols`, for the vendor's tags. -/
def parseSceSymbols (image : List UInt8) (metadata : ElfMetadata) (budget : ℕ) :
    Parse (ElfMetadata × ℕ) := do
  let symbolTable := metadata.selectDynamicEntry kDynamicTagSymbolTable kDynamicTagSceSymbolTable
  let symbolEntrySize :=
    (metadata.findDynamicEntry kDynamicTagSceSymbolEntrySize).or
      (metadata.findDynamicEntry kDynamicTagSymbolEntrySize)
  rejectIf
    (symbolTable.entry.isNone || metadata.dynamicInfo.stringTableSource = .kNone)
    .kIncompleteDynamicSymbolMetadata
  rejectIf (symbolEntrySize.any fun entry => entry.value ≠ kSymbolEntrySize)
    .kInvalidSymbolEntrySize
  match metadata.sceSymbolTableBytes with
  | none => pure (metadata, budget)
  | some symbolTableBytes => do
      rejectIf (symbolTableBytes % kSymbolEntrySize ≠ 0) .kInvalidSymbolTableSize
      match metadata.resolveDynamicFileOffset symbolTable symbolTableBytes with
      | none => throw .kSymbolTableNotFileBacked
      | some symbolFileOffset =>
        parseSymbolRecords image metadata symbolFileOffset (symbolTableBytes / kSymbolEntrySize)
          budget

/-- The second half of `ParseDynamicSymbols`: a symbol table counted by the hash
table. -/
def parseHashedSymbols (image : List UInt8) (metadata : ElfMetadata) (budget : ℕ)
    (hash : ElfDynamicEntry) : Parse (ElfMetadata × ℕ) :=
  match metadata.findDynamicEntry kDynamicTagSymbolTable,
    metadata.findDynamicEntry kDynamicTagSymbolEntrySize with
  | some symbolTable, some symbolEntrySize => do
      rejectIf
        (metadata.dynamicInfo.stringTableFileOffset.isNone ||
          metadata.dynamicInfo.stringTableSize.isNone)
        .kIncompleteDynamicSymbolMetadata
      rejectIf (symbolEntrySize.value ≠ kSymbolEntrySize) .kInvalidSymbolEntrySize
      match metadata.resolveFileOffset hash.value 8 with
      | none => throw .kHashTableNotFileBacked
      | some hashHeaderOffset => do
          let bucketCount ← read32 image hashHeaderOffset
          let symbolCount ← read32 image (hashHeaderOffset + 4)
          rejectIf
            (metadata.resolveFileOffset hash.value (8 + 4 * (bucketCount + symbolCount))).isNone
            .kHashTableNotFileBacked
          match metadata.resolveFileOffset symbolTable.value (symbolCount * kSymbolEntrySize) with
          | none => throw .kSymbolTableNotFileBacked
          | some symbolFileOffset =>
            parseSymbolRecords image metadata symbolFileOffset symbolCount budget
  | _, _ => throw .kIncompleteDynamicSymbolMetadata

def parseDynamicSymbols (image : List UInt8) (metadata : ElfMetadata) (budget : ℕ) :
    Parse (ElfMetadata × ℕ) :=
  if metadata.hasDynamicEntry
      [kDynamicTagSceSymbolTable, kDynamicTagSceSymbolTableSize, kDynamicTagSceSymbolEntrySize]
  then parseSceSymbols image metadata budget
  else match metadata.findDynamicEntry kDynamicTagHash with
    | none => pure (metadata, budget)
    | some hash => parseHashedSymbols image metadata budget hash

end KajPS5.Loader
