/-
# The resource coherence tracker

For each range of guest memory that the GPU side holds a copy of, the tracker
keeps a record: the mapping token the range had when it was registered, the
newest write generation it has heard of, and whether the copy is out of date. It
reads nothing from guest memory but tokens and generations and learns about
writes only through the events that guest memory delivers to it.

Every function is one critical section of the tracker's mutex.
-/

import KajPS5.Memory.Access

namespace KajPS5.Gpu

open Memory

abbrev GpuResourceId := ℕ

structure GpuResourceCoherenceState where
  (mapped mappingChanged needsCpuUpload gpuWritePending cpuGenerationPrecise : Bool)
  cpuWriteGeneration : GuestMemoryGeneration
  deriving DecidableEq, Repr

structure ResourceRecord where
  (address size : ℕ)
  mappingToken : GuestMemoryMappingToken
  cpuWriteGeneration : GuestMemoryGeneration
  (cpuGenerationPrecise needsCpuUpload gpuWritePending : Bool)
  deriving DecidableEq, Repr

/-- What `coherence_snapshot` returns. -/
structure CoherenceSnapshot where
  writeGeneration : GuestMemoryGeneration
  writeGenerationExhausted : Bool
  deriving DecidableEq, Repr

/-- The records by their identifier, and the next identifier. Zero, the value of
the 64-bit counter after its last identifier, is never handed out. -/
structure GpuResourceCoherence where
  records : GpuResourceId → Option ResourceRecord
  nextResourceId : ℕ

/-- `IsValidRange`. -/
def isValidRange (address size : ℕ) : Bool := size ≠ 0 && size ≤ uint64Max - address

/-- `RangesOverlap`. Both ranges have passed `isValidRange`, so the sums do not wrap. -/
def rangesOverlap (leftAddress leftSize rightAddress rightSize : ℕ) : Bool :=
  leftAddress < rightAddress + rightSize && rightAddress < leftAddress + leftSize

namespace ResourceRecord

/-- `RecordIsCurrent`. -/
def recordIsCurrent (memory : GuestMemory) (record : ResourceRecord) : Bool :=
  match memory.captureMappingTokenLocked record.address record.size with
  | none => false
  | some token => !token.generationExhausted && token = record.mappingToken

/-- The loop body of `OnGuestMemoryWrite` for an overlapping record. -/
def onWrite (event : GuestMemoryWriteEvent) (record : ResourceRecord) : ResourceRecord :=
  let isNewer := decide (record.cpuWriteGeneration < event.generation)
  let generation := if isNewer then event.generation else record.cpuWriteGeneration
  let precise := if event.generationExhausted then false else record.cpuGenerationPrecise
  { record with
    cpuWriteGeneration := generation
    cpuGenerationPrecise := precise
    needsCpuUpload :=
      if isNewer || event.generationExhausted || !precise then true else record.needsCpuUpload }

end ResourceRecord

namespace GpuResourceCoherence

open ResourceRecord

/-- A tracker without records. -/
def create : GpuResourceCoherence where
  records _ := none
  nextResourceId := 1

variable (c : GpuResourceCoherence)

/-- Replace one record. -/
def setRecord (resource : GpuResourceId) (record : Option ResourceRecord) : GpuResourceCoherence :=
  { c with records := Function.update c.records resource record }

/-- `RegisterResource`. The snapshot and the token come from guest memory, one
after the other; `alloc` is the outcome of the insertion. -/
def registerResource (memory : GuestMemory) (snapshot : CoherenceSnapshot) (alloc : Bool)
    (address size : ℕ) : Option GpuResourceId × GpuResourceCoherence :=
  if !isValidRange address size then (none, c)
  else match memory.captureMappingTokenLocked address size with
    | none => (none, c)
    | some token =>
      if token.generationExhausted || c.nextResourceId % 2 ^ 64 = 0 || !alloc then (none, c)
      else
        let record : ResourceRecord :=
          { address, size
            mappingToken := token
            cpuWriteGeneration := snapshot.writeGeneration
            cpuGenerationPrecise := !snapshot.writeGenerationExhausted
            needsCpuUpload := true
            gpuWritePending := false }
        (some c.nextResourceId, { c.setRecord c.nextResourceId (some record) with
            nextResourceId := c.nextResourceId + 1 })

/-- `UnregisterResource`. -/
def unregisterResource (resource : GpuResourceId) : Bool × GpuResourceCoherence :=
  ((c.records resource).isSome, c.setRecord resource none)

/-- `Query`. -/
def query (memory : GuestMemory) (resource : GpuResourceId) : Option GpuResourceCoherenceState :=
  (c.records resource).map fun record =>
    let token := memory.captureMappingTokenLocked record.address record.size
    { mapped := token.isSome
      mappingChanged := match token with
        | none => true
        | some token => token.generationExhausted || token ≠ record.mappingToken
      needsCpuUpload := record.needsCpuUpload
      gpuWritePending := record.gpuWritePending
      cpuGenerationPrecise := record.cpuGenerationPrecise
      cpuWriteGeneration := record.cpuWriteGeneration }

/-- `AcknowledgeCpuUpload`. -/
def acknowledgeCpuUpload (memory : GuestMemory) (resource : GpuResourceId)
    (generation : GuestMemoryGeneration) : Bool × GpuResourceCoherence :=
  match c.records resource with
  | none => (false, c)
  | some record =>
    if !record.recordIsCurrent memory then (false, c)
    else if !record.needsCpuUpload || !record.cpuGenerationPrecise ||
        record.cpuWriteGeneration ≠ generation then (false, c)
    else (true, c.setRecord resource (some { record with needsCpuUpload := false }))

/-- What `MarkGpuWrite` and `InvalidateGpuWrite` share. -/
def setGpuWritePending (pending : Bool) (c : GpuResourceCoherence) (memory : GuestMemory)
    (resource : GpuResourceId) : Bool × GpuResourceCoherence := match c.records resource with
  | none => (false, c)
  | some record =>
    if !record.recordIsCurrent memory then (false, c)
    else (true, c.setRecord resource (some { record with gpuWritePending := pending }))

/-- `OnGuestMemoryWrite`. -/
def onGuestMemoryWrite (event : GuestMemoryWriteEvent) : GpuResourceCoherence :=
  if !isValidRange event.address event.size then c
  else
    { c with
      records := fun resource => (c.records resource).map fun record =>
        if rangesOverlap record.address record.size event.address event.size then
          record.onWrite event
        else record }

end GpuResourceCoherence

end KajPS5.Gpu
