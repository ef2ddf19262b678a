/-
# Reading an executable image

The image is the byte string the parser was given. Every read of the source goes
through one of the four functions here or through a sub-range of the image; one
that leaves the image is undefined behaviour there and the undefined outcome of
`Parse` here. The module also has the errors of the loader, the container layout
of a SELF and the search for the file data of a program header in it.

Sizes and offsets are 64-bit words in the source. The tests of the parser keep
every sum it forms in range, so they are natural numbers here; `addWithoutOverflow`
keeps its test.
-/

import KajPS5.Math.DefinedRuns
import KajPS5.Memory.Generation
import KajPS5.Loader.ElfMetadata

namespace KajPS5.Loader

open Math.DefinedRuns

inductive ElfError
  | kImageTooSmall | kInvalidMagic | kSelfHeaderOutOfRange | kUnsupportedSelfHeader
  | kSelfEmbeddedElfOutOfRange | kSelfSegmentMappingNotFound | kMultipleSelfSegmentMappings
  | kSelfSegmentFileRangeOutOfRange | kUnsupportedEncryptedSelfSegment
  | kUnsupportedCompressedSelfSegment | kUnsupportedClass | kUnsupportedEndianness
  | kUnsupportedIdentVersion | kUnsupportedAbi | kUnsupportedFileType | kUnsupportedMachine
  | kUnsupportedVersion | kInvalidHeaderSize | kInvalidProgramHeaderSize
  | kProgramHeaderTableOutOfRange | kMultipleDynamicSegments | kMultipleSceDynlibDataSegments
  | kDynamicSegmentFileRangeOutOfRange | kSceDynlibDataSegmentFileRangeOutOfRange
  | kInvalidDynamicSegmentSize | kUnterminatedDynamicTable | kIncompleteDynamicStringTable
  | kDynamicStringTableNotFileBacked | kDynamicStringOffsetOutOfRange | kUnterminatedDynamicString
  | kDecodedStringBudgetExceeded | kIncompleteRelaMetadata | kInvalidRelaEntrySize
  | kRelaTableNotFileBacked | kRelocationTargetOutOfRange | kUnsupportedPltRelocationFormat
  | kIncompleteDynamicSymbolMetadata | kInvalidSymbolEntrySize | kInvalidSymbolTableSize
  | kHashTableNotFileBacked | kSymbolTableNotFileBacked | kSymbolNameOffsetOutOfRange
  | kUnterminatedSymbolName | kSegmentFileSizeExceedsMemorySize | kSegmentFileRangeOutOfRange
  | kSegmentAddressRangeOverflow | kInvalidSegmentAlignment | kOverlappingLoadSegments
  | kGuestRangeOutOfRange | kGuestMappingConflict | kLoadSizeOverflow
  deriving DecidableEq, Repr

/-- A piece of the parser: its value, its error, or an access outside the image. -/
abbrev Parse (α : Type) := ExceptT ElfError Option α

/-! ## Reads -/

def read8 (image : List UInt8) (offset : ℕ) : Parse ℕ :=
  match image[offset]? with
  | some byte => pure byte.toNat
  | none => undefined

def read16 (image : List UInt8) (offset : ℕ) : Parse ℕ := do
  let low ← read8 image offset
  let high ← read8 image (offset + 1)
  pure (low ||| high <<< 8)

/-- The loop of `Read32` and `Read64`. -/
def readBytes (image : List UInt8) (offset count : ℕ) : Parse ℕ :=
  (List.range count).foldlM
    (fun value index => do
      let byte ← read8 image (offset + index)
      pure (value ||| byte <<< (index * 8)))
    0

def read32 (image : List UInt8) (offset : ℕ) : Parse ℕ := readBytes image offset 4

def read64 (image : List UInt8) (offset : ℕ) : Parse ℕ := readBytes image offset 8

/-- `std::span::subspan`, undefined unless the sub-range lies in the span. -/
def subspan (image : List UInt8) (offset count : ℕ) : Parse (List UInt8) :=
  if offset + count ≤ image.length then pure ((image.drop offset).take count) else undefined

def rangeWithin (totalSize offset length : ℕ) : Bool :=
  offset ≤ totalSize && length ≤ totalSize - offset

def addWithoutOverflow (left right : ℕ) : Option ℕ :=
  if right > Memory.uint64Max - left then none else some (left + right)

/-! ## The container -/

def kElfHeaderSize : ℕ := 64
def kProgramHeaderSize : ℕ := 56
def kSelfHeaderSize : ℕ := 32
def kSelfSegmentSize : ℕ := 32

structure SelfSegment where
  (type offset compressedSize decompressedSize : ℕ)
  deriving DecidableEq, Repr

namespace SelfSegment

variable (s : SelfSegment)

def blocked : Bool := s.type &&& 0x800 ≠ 0

def encrypted : Bool := s.type &&& 0x2 ≠ 0

def compressed : Bool := s.type &&& 0x8 ≠ 0

def programHeaderIndex : ℕ := s.type >>> 20 &&& 0xfff

end SelfSegment

structure ExecutableLayout where
  container : ElfContainerKind := .kElf
  (elfOffset selfFileSize : ℕ := 0)
  selfSegments : List SelfSegment := []
  deriving DecidableEq, Repr

def isSelfMagic (image : List UInt8) : Parse Bool :=
  if image.length < 4 then pure false
  else do
    let magic ← (List.range 4).mapM (read8 image)
    pure (magic == [0x4f, 0x15, 0x3d, 0x1d] || magic == [0x54, 0x14, 0xf5, 0xee])

def hasKnownSelfLayout (image : List UInt8) : Parse Bool := do
  let magic ← isSelfMagic image
  if magic then
    let version ← read8 image 5
    let endianness ← read8 image 6
    let attributes ← read8 image 7
    pure (version == 0x01 && endianness == 0x01 && attributes == 0x12)
  else pure false

def readSelfSegment (image : List UInt8) (offset : ℕ) : Parse SelfSegment := do
  let type ← read64 image offset
  let segmentOffset ← read64 image (offset + 8)
  let compressedSize ← read64 image (offset + 16)
  let decompressedSize ← read64 image (offset + 24)
  pure { type, offset := segmentOffset, compressedSize, decompressedSize }

/-- The part of `ParseExecutableLayout` behind the magic number. -/
def parseSelfLayout (image : List UInt8) : Parse ExecutableLayout := do
  rejectIf (image.length < kSelfHeaderSize) .kSelfHeaderOutOfRange
  let known ← hasKnownSelfLayout image
  rejectIf (!known) .kUnsupportedSelfHeader
  let selfFileSize ← read64 image 16
  let segmentCount ← read16 image 24
  match addWithoutOverflow kSelfHeaderSize (segmentCount * kSelfSegmentSize) with
  | none => throw .kSelfEmbeddedElfOutOfRange
  | some elfOffset => do
      rejectIf (!rangeWithin image.length elfOffset kElfHeaderSize) .kSelfEmbeddedElfOutOfRange
      let selfSegments ← (List.range segmentCount).mapM fun index =>
        readSelfSegment image (kSelfHeaderSize + index * kSelfSegmentSize)
      pure { container := .kSelf, elfOffset, selfFileSize, selfSegments }

def parseExecutableLayout (image : List UInt8) : Parse ExecutableLayout := do
  let magic ← isSelfMagic image
  if magic then parseSelfLayout image else pure {}

def headerRangeContains (parent child : ElfProgramHeader) : Bool :=
  if child.offset < parent.offset then false
  else rangeWithin parent.fileSize (child.offset - parent.offset) child.fileSize

/-- The variables of the loop of `ResolveSelfFileOffset`. -/
structure SelfSearch where
  fileOffset : ℕ
  resolvedCount : ℕ := 0
  (sawMapping sawEncrypted sawCompressed : Bool := false)
  deriving DecidableEq, Repr

/-- Whether a segment of the container holds the data of the target header. -/
def SelfSegment.isSource (segment : SelfSegment) (programHeaders : List ElfProgramHeader)
    (hasExactMapping : Bool) (targetIndex : ℕ) (target : ElfProgramHeader) :
    Option ElfProgramHeader :=
  if segment.blocked then match programHeaders[segment.programHeaderIndex]? with
    | none => none
    | some source =>
      if (hasExactMapping && segment.programHeaderIndex ≠ targetIndex) ||
          (!hasExactMapping && !headerRangeContains source target) then none
      else some source
  else none

/-- One iteration of the loop of `ResolveSelfFileOffset`. -/
def SelfSearch.visit (imageSize : ℕ) (programHeaders : List ElfProgramHeader)
    (hasExactMapping : Bool) (targetIndex : ℕ) (target : ElfProgramHeader) (search : SelfSearch)
    (segment : SelfSegment) : SelfSearch :=
  match segment.isSource programHeaders hasExactMapping targetIndex target with
  | none => search
  | some source =>
    let search :=
      { search with
        sawMapping := true
        sawEncrypted := search.sawEncrypted || segment.encrypted
        sawCompressed := search.sawCompressed || segment.compressed }
    let relativeOffset := target.offset - source.offset
    if !rangeWithin segment.decompressedSize relativeOffset target.fileSize then search
    else match addWithoutOverflow segment.offset relativeOffset with
      | none => search
      | some candidate =>
        if !rangeWithin imageSize candidate target.fileSize then search
        else { search with fileOffset := candidate, resolvedCount := search.resolvedCount + 1 }

/-- The end of `ResolveSelfFileOffset`, for a header no segment of the container
holds: data at its offset behind the embedded header, at its offset in the file,
or behind the contents the container declares. -/
def resolveUnmappedSelf (imageSize : ℕ) (layout : ExecutableLayout) (target : ElfProgramHeader)
    (search : SelfSearch) : Parse ℕ :=
  let elfRelativeOffset := (addWithoutOverflow layout.elfOffset target.offset).filter
    fun offset => rangeWithin imageSize offset target.fileSize
  match elfRelativeOffset with
  | some offset => pure offset
  | none =>
    if rangeWithin imageSize target.offset target.fileSize then pure target.offset
    else if layout.selfFileSize ≤ imageSize &&
        imageSize - layout.selfFileSize = target.fileSize then pure layout.selfFileSize
    else if search.sawEncrypted then throw .kUnsupportedEncryptedSelfSegment
    else if search.sawCompressed then throw .kUnsupportedCompressedSelfSegment
    else if search.sawMapping then throw .kSelfSegmentFileRangeOutOfRange
    else throw .kSelfSegmentMappingNotFound

/-- `ResolveSelfFileOffset`: the file offset it stores. -/
def resolveSelfFileOffset (imageSize : ℕ) (layout : ExecutableLayout)
    (programHeaders : List ElfProgramHeader) (targetIndex : ℕ) (target : ElfProgramHeader) :
    Parse ℕ :=
  let hasExactMapping := layout.selfSegments.any fun segment =>
    segment.blocked && segment.programHeaderIndex = targetIndex
  let search := layout.selfSegments.foldl
    (SelfSearch.visit imageSize programHeaders hasExactMapping targetIndex target)
    { fileOffset := target.fileOffset }
  if search.resolvedCount > 1 then throw .kMultipleSelfSegmentMappings
  else if search.resolvedCount = 1 then pure search.fileOffset
  else resolveUnmappedSelf imageSize layout target search

end KajPS5.Loader
