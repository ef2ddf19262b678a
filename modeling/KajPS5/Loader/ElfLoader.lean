/-
# Loading an image

`LoadParsedElf64` plans before it touches the guest memory. It rounds every load
segment to whole pages, cuts the address space at the ends of the rounded ranges,
and gives each piece the protections of the ranges around it. Then it maps the
pieces and fills the segments. When a mapping or a filling fails, the mappings of
this load are undone in reverse order.
-/

import KajPS5.Loader.ElfParser
import KajPS5.Math.Cuts
import KajPS5.Memory.GuestStorage

namespace KajPS5.Loader

open Math Memory GuestMemoryProtection

structure PlannedLoadRange where
  /-- The program header, which the source keeps by its index. -/
  header : ElfProgramHeader
  (address mappingAddress mappingSize : ℕ)
  protection : GuestMemoryProtection
  deriving DecidableEq, Repr

structure PlannedMappingRange where
  (address size : ℕ)
  protection : GuestMemoryProtection
  deriving DecidableEq, Repr

/-- The planned ranges, their ends, and the counters of the result. -/
structure LoadPlan where
  ranges : List PlannedLoadRange := []
  boundaries : List ℕ := []
  (loadedFileBytes zeroFilledBytes loadedSegmentCount : ℕ := 0)
  deriving DecidableEq, Repr

structure ElfLoadResult where
  /-- `none` is `ElfError::kNone`. -/
  error : Option ElfError := none
  metadata : ElfMetadata := {}
  (loadedFileBytes zeroFilledBytes loadedSegmentCount : ℕ := 0)
  deriving DecidableEq, Repr

/-- What the host answers during one load: to each mapping, to each undoing of a
mapping, and to the two stores of each segment. -/
structure LoadHost where
  map : ℕ → HostCall := fun _ => {}
  unmap : ℕ → HostCall := fun _ => {}
  file : ℕ → HostCall := fun _ => {}
  zero : ℕ → HostCall := fun _ => {}

def protectionFromFlags (flags : ℕ) : GuestMemoryProtection :=
  (if flags &&& 4 ≠ 0 then kRead else kNone) |||
    (if flags &&& 2 ≠ 0 then kWrite else kNone) |||
      (if flags &&& 1 ≠ 0 then kExecute else kNone)

/-- `HasProtection` of the loader. -/
def hasFlag (value flag : GuestMemoryProtection) : Bool := value &&& flag ≠ 0

/-- The protection allows writing and executing. -/
def writesAndExecutes (protection : GuestMemoryProtection) : Bool :=
  hasFlag protection kWrite && hasFlag protection kExecute

/-! ## Planning -/

/-- A header the loader looks at. -/
def ElfProgramHeader.isLoaded (header : ElfProgramHeader) : Bool :=
  header.type = kProgramTypeLoad && header.memorySize ≠ 0

/-- One iteration of the loop over the program headers. -/
def LoadPlan.addHeader (plan : LoadPlan) (memory : GuestMemory) (granularity loadBias : ℕ)
    (header : ElfProgramHeader) : Except ElfError LoadPlan :=
  if !header.isLoaded then .ok plan
  else if header.virtualAddress > uint64Max - loadBias then .error .kSegmentAddressRangeOverflow
  else
    let loadAddress := loadBias + header.virtualAddress
    if header.memorySize > uint64Max - loadAddress then .error .kSegmentAddressRangeOverflow
    else
      let loadEnd := loadAddress + header.memorySize
      let mappingAddress := clearMask loadAddress (granularity - 1)
      if loadEnd > uint64Max - (granularity - 1) then .error .kSegmentAddressRangeOverflow
      else
        let mappingEnd := clearMask (loadEnd + (granularity - 1)) (granularity - 1)
        let mappingSize := mappingEnd - mappingAddress
        let zeroSize := header.memorySize - header.fileSize
        if !memory.contains mappingAddress mappingSize then .error .kGuestRangeOutOfRange
        else if plan.loadedFileBytes > uint64Max - header.fileSize ∨
            plan.zeroFilledBytes > uint64Max - zeroSize then .error .kLoadSizeOverflow
        else
          .ok
            { ranges := plan.ranges ++ [⟨header, loadAddress, mappingAddress, mappingSize,
                  protectionFromFlags header.flags⟩]
              boundaries := plan.boundaries ++ [mappingAddress, mappingEnd]
              loadedFileBytes := plan.loadedFileBytes + header.fileSize
              zeroFilledBytes := plan.zeroFilledBytes + zeroSize
              loadedSegmentCount := plan.loadedSegmentCount + 1 }

/-- The loop over the program headers. After an error the counters are those of the
headers before. -/
def LoadPlan.addHeaders (memory : GuestMemory) (granularity loadBias : ℕ) :
    LoadPlan → List ElfProgramHeader → Option ElfError × LoadPlan
  | plan, [] => (none, plan)
  | plan, header :: headers => match plan.addHeader memory granularity loadBias header with
    | .error error => (some error, plan)
    | .ok plan => addHeaders memory granularity loadBias plan headers

/-- The range lies around the piece. -/
def PlannedLoadRange.covers (range : PlannedLoadRange) (piece : ℕ × ℕ) : Bool :=
  !(range.mappingAddress > piece.1 || range.mappingAddress + range.mappingSize < piece.2)

/-- The protections of the ranges, together. -/
def unionOfProtections (protections : List GuestMemoryProtection) : GuestMemoryProtection :=
  protections.foldl (· ||| ·) kNone

/-- Append a mapping, or extend the last one. The last one is the head here. -/
def appendMapping (planned : List PlannedMappingRange) (mapping : PlannedMappingRange) :
    List PlannedMappingRange := match planned with
  | [] => [mapping]
  | last :: rest =>
    if last.address + last.size = mapping.address ∧ last.protection = mapping.protection then
      { last with size := last.size + mapping.size } :: rest
    else mapping :: last :: rest

/-- One iteration of the loop over the pieces between neighbouring boundaries. -/
def planPiece (s : GuestStorage) (ranges : List PlannedLoadRange)
    (planned : List PlannedMappingRange) (piece : ℕ × ℕ) :
    Except ElfError (List PlannedMappingRange) :=
  let protections := (ranges.filter (·.covers piece)).map PlannedLoadRange.protection
  let protection := unionOfProtections protections
  if protections = [] then .ok planned
  else if writesAndExecutes protection && !protections.any writesAndExecutes then
    .error .kGuestMappingConflict
  else if !s.canMap piece.1 (piece.2 - piece.1) then .error .kGuestMappingConflict
  else .ok (appendMapping planned ⟨piece.1, piece.2 - piece.1, protection⟩)

/-- The planned mappings, the last one first. -/
def planMappings (s : GuestStorage) (ranges : List PlannedLoadRange) :
    List PlannedMappingRange → List (ℕ × ℕ) → Except ElfError (List PlannedMappingRange)
  | planned, [] => .ok planned
  | planned, piece :: pieces => match planPiece s ranges planned piece with
    | .error error => .error error
    | .ok planned => planMappings s ranges planned pieces

/-! ## Mapping and filling -/

/-- Undo mappings, the last one first. What `Unmap` answers is ignored. -/
def unmapPlanned (host : LoadHost) (s : GuestStorage) : List PlannedMappingRange → GuestStorage
  | [] => s
  | mapping :: rest =>
    unmapPlanned host (s.unmap (host.unmap rest.length) mapping.address mapping.size).2 rest

/-- Map the rest of the plan after the given mappings, the last of which is first.
When one fails, those before it are undone. -/
def mapPlanned (host : LoadHost) (s : GuestStorage) (mapped : List PlannedMappingRange) :
    List PlannedMappingRange → Bool × GuestStorage
  | [] => (true, s)
  | mapping :: rest =>
    match s.map (host.map mapped.length) mapping.address mapping.size mapping.protection with
    | (false, s) => (false, unmapPlanned host s mapped)
    | (true, s) => mapPlanned host s (mapping :: mapped) rest

/-- The file data of a segment, or `none` when the sub-range leaves the image. -/
def fileData (image : List UInt8) (header : ElfProgramHeader) : Option (List UInt8) :=
  if header.fileOffset + header.fileSize ≤ image.length then
    some ((image.drop header.fileOffset).take header.fileSize)
  else none

/-- The first half of an iteration of the filling loop: the file data. -/
def fillFile (image : List UInt8) (host : HostCall) (s : GuestStorage)
    (range : PlannedLoadRange) : Option (Bool × GuestStorage) :=
  if range.header.fileSize = 0 then some (true, s)
  else (fileData image range.header).map (s.initializeBytes host range.address)

/-- The second half: the zeros after the file data. -/
def fillZero (host : HostCall) (range : PlannedLoadRange) (result : Bool × GuestStorage) :
    Bool × GuestStorage :=
  let zeroSize := range.header.memorySize - range.header.fileSize
  if result.1 && zeroSize ≠ 0 then
    result.2.initializeFill host (range.address + range.header.fileSize) zeroSize 0
  else result

/-- The filling loop; `index` numbers the segments. `none` is an access outside the
image. -/
def fillRanges (image : List UInt8) (host : LoadHost) :
    ℕ → GuestStorage → List PlannedLoadRange → Option (Bool × GuestStorage)
  | _, s, [] => some (true, s)
  | index, s, range :: rest =>
    match (fillFile image (host.file index) s range).map (fillZero (host.zero index) range) with
    | none => none
    | some (false, s) => some (false, s)
    | some (true, s) => fillRanges image host (index + 1) s rest

/-! ## The loaders -/

/-- The result of a load with the counters of its plan. -/
def LoadPlan.result (plan : LoadPlan) (metadata : ElfMetadata) (error : Option ElfError) :
    ElfLoadResult :=
  ⟨error, metadata, plan.loadedFileBytes, plan.zeroFilledBytes, plan.loadedSegmentCount⟩

/-- Map the plan and fill the segments. -/
def loadPlanned (image : List UInt8) (host : LoadHost) (s : GuestStorage)
    (metadata : ElfMetadata) (plan : LoadPlan) (planned : List PlannedMappingRange) :
    Option (ElfLoadResult × GuestStorage) := match mapPlanned host s [] planned.reverse with
  | (false, s) => some (plan.result metadata (some .kGuestMappingConflict), s)
  | (true, s) => match fillRanges image host 0 s plan.ranges with
    | none => none
    | some (true, s) => some (plan.result metadata none, s)
    | some (false, s) =>
      some (plan.result metadata (some .kGuestRangeOutOfRange), unmapPlanned host s planned)

/-- `LoadParsedElf64` for an image that was parsed. -/
def loadMetadata (image : List UInt8) (host : LoadHost) (s : GuestStorage)
    (metadata : ElfMetadata) (loadBias : ℕ) : Option (ElfLoadResult × GuestStorage) :=
  let granularity := s.mappingGranularity
  if granularity = 0 ∨ granularity &&& (granularity - 1) ≠ 0 then
    some (({} : LoadPlan).result metadata (some .kGuestMappingConflict), s)
  else match LoadPlan.addHeaders s.world.memory granularity loadBias {} metadata.programHeaders with
    | (some error, plan) => some (plan.result metadata (some error), s)
    | (none, plan) => match planMappings s plan.ranges [] (cuts plan.boundaries) with
      | .error error => some (plan.result metadata (some error), s)
      | .ok planned => loadPlanned image host s metadata plan planned

def loadParsedElf64 (image : List UInt8) (parsed : Parse ElfMetadata) (host : LoadHost)
    (s : GuestStorage) (loadBias : ℕ) : Option (ElfLoadResult × GuestStorage) :=
  match parsed.run with
  | none => none
  | some (.error error) => some ({ error := some error }, s)
  | some (.ok metadata) => loadMetadata image host s metadata loadBias

def loadElf64 (image : List UInt8) (host : LoadHost) (s : GuestStorage) (loadBias : ℕ) :
    Option (ElfLoadResult × GuestStorage) :=
  loadParsedElf64 image (parseElf64 image) host s loadBias

def loadExecutable64 (image : List UInt8) (host : LoadHost) (s : GuestStorage)
    (loadBias : ℕ) : Option (ElfLoadResult × GuestStorage) :=
  loadParsedElf64 image (parseExecutable64 image) host s loadBias

end KajPS5.Loader
