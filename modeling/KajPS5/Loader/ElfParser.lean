/-
# Parsing an executable

`ParseElf64WithLayout` reads the headers of an executable at the offset its
container gives, finds the file data of every segment, checks the segments against
the image and against each other, and hands the dynamic section over to the
decoders of its tables. The module translates it with its two entry points.
-/

import KajPS5.Loader.ElfDynamic
import Mathlib.Data.List.Sort

namespace KajPS5.Loader

open Math.DefinedRuns

def kElfClass64 : ℕ := 2
def kElfDataLittleEndian : ℕ := 1
def kElfVersionCurrent : ℕ := 1
def kAbiSystemV : ℕ := 0
def kAbiFreeBsd : ℕ := 9
def kTypeExecutable : ℕ := 2
def kTypeDynamic : ℕ := 3
def kTypeSceExecutable : ℕ := 0xfe10
def kTypeSceDynamic : ℕ := 0xfe18
def kMachineX86_64 : ℕ := 62

def isSupportedAbi (osAbi abiVersion : ℕ) : Bool :=
  if osAbi = kAbiSystemV then abiVersion = 0
  else if osAbi = kAbiFreeBsd then abiVersion = 0 || abiVersion = 2
  else false

def isSupportedType (type : ℕ) : Bool :=
  [kTypeExecutable, kTypeDynamic, kTypeSceExecutable, kTypeSceDynamic].contains type

/-- `std::has_single_bit`. -/
def hasSingleBit (value : ℕ) : Bool := value ≠ 0 && value &&& (value - 1) = 0

/-! ## The file header -/

/-- The fields of the file header the parser goes on with. -/
structure ElfHeader where
  metadata : ElfMetadata
  (programHeaderFileOffset programHeaderCount : ℕ)
  deriving DecidableEq, Repr

/-- The identification bytes. -/
def checkIdent (image : List UInt8) (elfOffset : ℕ) : Parse Unit := do
  let magic ← (List.range 4).mapM fun index => read8 image (elfOffset + index)
  rejectIf (magic ≠ [0x7f, 0x45, 0x4c, 0x46]) .kInvalidMagic
  let class_ ← read8 image (elfOffset + 4)
  rejectIf (class_ ≠ kElfClass64) .kUnsupportedClass
  let data ← read8 image (elfOffset + 5)
  rejectIf (data ≠ kElfDataLittleEndian) .kUnsupportedEndianness
  let version ← read8 image (elfOffset + 6)
  rejectIf (version ≠ kElfVersionCurrent) .kUnsupportedIdentVersion

def readElfHeader (image : List UInt8) (layout : ExecutableLayout) : Parse ElfHeader := do
  rejectIf (!rangeWithin image.length layout.elfOffset kElfHeaderSize) .kImageTooSmall
  let elfOffset := layout.elfOffset
  checkIdent image elfOffset
  let osAbi ← read8 image (elfOffset + 7)
  let abiVersion ← read8 image (elfOffset + 8)
  let type ← read16 image (elfOffset + 16)
  let machine ← read16 image (elfOffset + 18)
  let version ← read32 image (elfOffset + 20)
  let entryPoint ← read64 image (elfOffset + 24)
  let programHeaderOffset ← read64 image (elfOffset + 32)
  let headerSize ← read16 image (elfOffset + 52)
  let programHeaderSize ← read16 image (elfOffset + 54)
  let programHeaderCount ← read16 image (elfOffset + 56)
  rejectIf (!isSupportedAbi osAbi abiVersion) .kUnsupportedAbi
  rejectIf (!isSupportedType type) .kUnsupportedFileType
  rejectIf (machine ≠ kMachineX86_64) .kUnsupportedMachine
  rejectIf (version ≠ kElfVersionCurrent) .kUnsupportedVersion
  rejectIf (headerSize ≠ kElfHeaderSize) .kInvalidHeaderSize
  rejectIf (programHeaderSize ≠ kProgramHeaderSize) .kInvalidProgramHeaderSize
  match addWithoutOverflow elfOffset programHeaderOffset with
  | none => throw .kProgramHeaderTableOutOfRange
  | some programHeaderFileOffset => do
      rejectIf
        (!rangeWithin image.length programHeaderFileOffset
          (programHeaderCount * programHeaderSize))
        .kProgramHeaderTableOutOfRange
      pure
        { metadata :=
            { container := layout.container
              elfFileOffset := elfOffset
              selfSegmentCount := layout.selfSegments.length % 2 ^ 16
              osAbi
              abiVersion
              type
              machine
              version
              entryPoint }
          programHeaderFileOffset
          programHeaderCount }

/-! ## Program headers -/

def readProgramHeader (image : List UInt8) (entryOffset : ℕ) : Parse ElfProgramHeader := do
  let type ← read32 image entryOffset
  let flags ← read32 image (entryOffset + 4)
  let offset ← read64 image (entryOffset + 8)
  let virtualAddress ← read64 image (entryOffset + 16)
  let physicalAddress ← read64 image (entryOffset + 24)
  let fileSize ← read64 image (entryOffset + 32)
  let memorySize ← read64 image (entryOffset + 40)
  let alignment ← read64 image (entryOffset + 48)
  pure
    { type
      flags
      offset
      fileOffset := offset
      virtualAddress
      physicalAddress
      fileSize
      memorySize
      alignment }

/-- The checks on a load segment that need nothing but its header. -/
def checkProgramHeader (header : ElfProgramHeader) : Parse Unit :=
  if header.type = kProgramTypeLoad then do
    rejectIf (header.fileSize > header.memorySize) .kSegmentFileSizeExceedsMemorySize
    rejectIf (header.memorySize > Memory.uint64Max - header.virtualAddress)
      .kSegmentAddressRangeOverflow
    rejectIf
      (header.alignment > 1 && (!hasSingleBit header.alignment ||
        header.virtualAddress % header.alignment ≠ header.offset % header.alignment))
      .kInvalidSegmentAlignment
  else pure ()

def parseProgramHeader (image : List UInt8) (entryOffset : ℕ) : Parse ElfProgramHeader := do
  let header ← readProgramHeader image entryOffset
  checkProgramHeader header
  pure header

/-- The file offset of a header's data: a SELF may have it elsewhere. -/
def locateFileOffset (imageSize : ℕ) (layout : ExecutableLayout)
    (programHeaders : List ElfProgramHeader) (header : ElfProgramHeader) (index : ℕ) : Parse ℕ :=
  let needsFileData := header.fileSize ≠ 0 &&
    (header.type = kProgramTypeLoad || header.type = kProgramTypeDynamic ||
      header.type = kProgramTypeSceDynlibData)
  if needsFileData && layout.container = .kSelf then
    resolveSelfFileOffset imageSize layout programHeaders index header
  else pure header.fileOffset

/-- One iteration of the loop that finds the file data of the segments. -/
def locateFileData (image : List UInt8) (layout : ExecutableLayout)
    (programHeaders : List ElfProgramHeader) (indexed : ElfProgramHeader × ℕ) :
    Parse ElfProgramHeader := do
  let header := indexed.1
  let fileOffset ← locateFileOffset image.length layout programHeaders header indexed.2
  rejectIf
    (header.type = kProgramTypeLoad && !rangeWithin image.length fileOffset header.fileSize)
    .kSegmentFileRangeOutOfRange
  pure { header with fileOffset }

/-- The address ranges of the load segments that occupy memory. -/
def loadRanges (programHeaders : List ElfProgramHeader) : List (ℕ × ℕ) :=
  programHeaders.filterMap fun header =>
    if header.type = kProgramTypeLoad ∧ header.memorySize ≠ 0 then
      some (header.virtualAddress, header.virtualAddress + header.memorySize)
    else none

/-- The order of `std::pair`. -/
def rangeLE (a b : ℕ × ℕ) : Prop := a.1 < b.1 ∨ a.1 = b.1 ∧ a.2 ≤ b.2

instance : DecidableRel rangeLE := fun _ _ => inferInstanceAs (Decidable (_ ∨ _))

/-- Some range of a sorted list starts before the end of the one before it. -/
def anyOverlap : List (ℕ × ℕ) → Bool
  | first :: second :: rest => second.1 < first.2 || anyOverlap (second :: rest)
  | _ => false

/-- The loop that looks at the data segments of the vendor's format. -/
def checkSceDynlibData (image : List UInt8) : Bool → List ElfProgramHeader → Parse Unit
  | _, [] => pure ()
  | found, header :: rest =>
    if header.type ≠ kProgramTypeSceDynlibData then checkSceDynlibData image found rest
    else do
      rejectIf found .kMultipleSceDynlibDataSegments
      rejectIf (!rangeWithin image.length header.fileOffset header.fileSize)
        .kSceDynlibDataSegmentFileRangeOutOfRange
      checkSceDynlibData image true rest

/-- The loop that looks for the dynamic segment. -/
def findDynamicHeader : Option ElfProgramHeader → List ElfProgramHeader →
    Parse (Option ElfProgramHeader)
  | found, [] => pure found
  | found, header :: rest =>
    if header.type ≠ kProgramTypeDynamic then findDynamicHeader found rest
    else do
      rejectIf found.isSome .kMultipleDynamicSegments
      findDynamicHeader (some header) rest

/-- The headers, with their checks against the image and each other. -/
def parseProgramHeaders (image : List UInt8) (layout : ExecutableLayout) (header : ElfHeader) :
    Parse (List ElfProgramHeader) := do
  let programHeaders ← (List.range header.programHeaderCount).mapM fun index =>
    parseProgramHeader image (header.programHeaderFileOffset + index * kProgramHeaderSize)
  let programHeaders ← programHeaders.zipIdx.mapM (locateFileData image layout programHeaders)
  rejectIf (anyOverlap ((loadRanges programHeaders).insertionSort rangeLE))
    .kOverlappingLoadSegments
  checkSceDynlibData image false programHeaders
  pure programHeaders

/-! ## The dynamic segment -/

/-- The loop over the entries of the dynamic segment, up to the null entry. -/
def readDynamicEntries (image : List UInt8) : ℕ → ℕ → Parse (List ElfDynamicEntry)
  | _, 0 => throw .kUnterminatedDynamicTable
  | entryOffset, count + 1 => do
      let tag ← read64 image entryOffset
      if tag = kDynamicTagNull then pure []
      else do
        let value ← read64 image (entryOffset + 8)
        let rest ← readDynamicEntries image (entryOffset + kDynamicEntrySize) count
        pure (⟨tag, value⟩ :: rest)

def parseDynamicSegment (image : List UInt8) (metadata : ElfMetadata)
    (dynamicHeader : ElfProgramHeader) : Parse ElfMetadata := do
  rejectIf (dynamicHeader.fileSize % kDynamicEntrySize ≠ 0) .kInvalidDynamicSegmentSize
  rejectIf (!rangeWithin image.length dynamicHeader.fileOffset dynamicHeader.fileSize)
    .kDynamicSegmentFileRangeOutOfRange
  let dynamicEntries ← readDynamicEntries image dynamicHeader.fileOffset
    (dynamicHeader.fileSize / kDynamicEntrySize)
  let metadata := ElfMetadata.parseDynamicLifecycleMetadata { metadata with dynamicEntries }
  let (metadata, budget) ←
    parseDynamicStrings image metadata (calculateDecodedStringBudget image.length)
  let (metadata, budget) ← parseSceIdentities image metadata budget
  let metadata ← parseDynamicRelocations image metadata
  let (metadata, _) ← parseDynamicSymbols image metadata budget
  pure metadata

def parseElf64WithLayout (image : List UInt8) (layout : ExecutableLayout) :
    Parse ElfMetadata := do
  let header ← readElfHeader image layout
  let programHeaders ← parseProgramHeaders image layout header
  let dynamicHeader ← findDynamicHeader none programHeaders
  let metadata := { header.metadata with programHeaders }
  match dynamicHeader with
  | none => pure metadata
  | some dynamicHeader => parseDynamicSegment image metadata dynamicHeader

def parseElf64 (image : List UInt8) : Parse ElfMetadata := parseElf64WithLayout image {}

def parseExecutable64 (image : List UInt8) : Parse ElfMetadata := do
  let layout ← parseExecutableLayout image
  parseElf64WithLayout image layout

end KajPS5.Loader
