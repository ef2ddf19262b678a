/-
# Reading and writing guest memory

Accesses walk over a range in chunks: a part inside one shared mapping goes to
its backing, a part between shared mappings to the private bytes. Every stored
chunk is recorded in a mutation report under all its aliases, and the report is
turned into write events after the mapping lock is released.

The module translates the public reads and writes with their chunk loops, their
early exits and the reporting. A call returns, besides what the source returns,
the chunks it stored: they do not influence anything and serve the statements
about what a call did.
-/

import KajPS5.Memory.GuestMemory
import KajPS5.Memory.MutationReport

namespace KajPS5.Memory

open Math GuestMemoryProtection

/-- A guest memory together with the backings its shared mappings point to. -/
structure MemoryWorld where
  memory : GuestMemory
  backings : Backings

structure GuestMemoryWriteEvent where
  (address size : ℕ)
  generation : GuestMemoryGeneration
  generationExhausted : Bool
  deriving DecidableEq, Repr

/-- What a call that stores leaves behind. -/
structure StoreResult where
  completed : Bool
  world : MemoryWorld
  mutations : MutationReport
  bytesWritten : ℕ
  /-- The guest ranges stored to, in order. -/
  stored : List (ℕ × ℕ)

/-! ## Chunks -/

namespace GuestMemory

variable (m : GuestMemory)

/-- The shared mapping at an address, as the chunk loops look it up. -/
def sharedMappingAt (address : ℕ) : Option SharedMapping :=
  m.sharedMappings[m.findSharedMapping address]?

/-- How far one iteration of a chunk loop gets: to the end of the shared mapping
it is in, or to the beginning of the next one. -/
def chunkStep (current remaining : ℕ) : ℕ :=
  match m.sharedMappingAt current with
  | some mapping => min remaining (mapping.size - (current - mapping.address))
  | none => match m.sharedMappings[lowerBound m.sharedMappings current]? with
    | some next => min remaining (next.address - current)
    | none => remaining

/-- The chunks of a range, in the order the loops visit them. -/
def rangeChunks (address length : ℕ) : List (ℕ × ℕ) := chunksOf m.chunkStep address length

/-! ## Recording -/

/-- The loop of `RecordActualWriteRangeLocked` over the aliases of a backing
range, with whether an alias has been reported. -/
def recordAliases (backing : BackingId) (backingStart backingEnd : ℕ) :
    MutationReport → Bool → List SharedMapping → MutationReport × Bool
  | report, reported, [] => (report, reported)
  | report, reported, candidate :: rest =>
    if candidate.backing ≠ backing then
      recordAliases backing backingStart backingEnd report reported rest
    else
      let overlapStart := max backingStart candidate.backingOffset
      let overlapEnd := min backingEnd (candidate.backingOffset + candidate.size)
      if overlapStart ≥ overlapEnd then
        recordAliases backing backingStart backingEnd report reported rest
      else
        let report := report.add (candidate.address + overlapStart - candidate.backingOffset)
          (overlapEnd - overlapStart)
        if report.wholeMemory then (report, true)
        else recordAliases backing backingStart backingEnd report true rest

/-- One iteration of `RecordActualWriteRangeLocked`. -/
def recordChunk (report : MutationReport) (chunk : ℕ × ℕ) : MutationReport :=
  if report.wholeMemory then report
  else match m.sharedMappingAt chunk.1 with
    | none => report.add chunk.1 chunk.2
    | some source =>
      let backingStart := source.backingOffset + (chunk.1 - source.address)
      let backingEnd := backingStart + chunk.2
      match recordAliases source.backing backingStart backingEnd report false
        m.sharedMappings with
      | (report, true) => report
      | (report, false) => report.add chunk.1 chunk.2

/-- `RecordActualWriteRangeLocked`. -/
def recordActualWriteRangeLocked (report : MutationReport) (address length : ℕ) : MutationReport :=
  (m.rangeChunks address length).foldl m.recordChunk report

/-! ## Notifying -/

/-- The locked part of `NotifyWrite`: the next write generation, stamped on an
event. -/
def assignWriteGeneration (address length : ℕ) : GuestMemoryWriteEvent × GuestMemory :=
  let m :=
    if m.writeGenerationExhausted then m
    else match advanceGuestMemoryGeneration m.writeGeneration with
      | none => { m with writeGenerationExhausted := true }
      | some generation => { m with writeGeneration := generation }
  (⟨address, length, m.writeGeneration, m.writeGenerationExhausted⟩, m)

/-- The ranges `NotifyMutationReport` hands to `NotifyWrite`, without the empty
ones that it ignores. -/
def notifiedRanges (report : MutationReport) : List MutationRange :=
  (if report.wholeMemory then [⟨m.baseAddress, m.storageSize⟩] else report.ranges).filter
    fun r => r.size ≠ 0

/-- `NotifyMutationReport`, as the events it delivers. -/
def notifyMutationReport (report : MutationReport) : List GuestMemoryWriteEvent × GuestMemory :=
  (m.notifiedRanges report).foldl
    (fun (events, m) r =>
      let (event, m) := assignWriteGeneration m r.address r.size
      (events ++ [event], m))
    ([], m)

end GuestMemory

namespace MemoryWorld

/-! ## Reading -/

variable (w : MemoryWorld)

/-- One iteration of `ReadBytes`. -/
def readChunk (chunk : ℕ × ℕ) : Option (List UInt8) :=
  match w.memory.sharedMappingAt chunk.1 with
  | some mapping =>
    (w.backings mapping.backing).read (mapping.backingOffset + (chunk.1 - mapping.address))
      chunk.2
  | none => some ((List.range' (w.memory.offsetOf chunk.1) chunk.2).map w.memory.bytes)

/-- `ReadBytes`. -/
def readBytes (address length : ℕ) : Option (List UInt8) :=
  ((w.memory.rangeChunks address length).mapM w.readChunk).map List.flatten

/-- `Read`: the bytes, or `none` when it answers false. -/
def read (address length : ℕ) : Option (List UInt8) :=
  if w.memory.canAccessLocked address length kRead then w.readBytes address length else none

/-! ## Storing -/

/-- Overwrite a range of private bytes. -/
def setBytes (offset length : ℕ) (value : ℕ → UInt8) : MemoryWorld :=
  { w with
    memory :=
      { w.memory with
        bytes := fun o =>
          if offset ≤ o ∧ o < offset + length then value (o - offset) else w.memory.bytes o } }

/-- Replace a backing by the outcome of an operation on it. -/
def setBacking (id : BackingId) (result : Bool × SharedMemoryBacking) : Bool × MemoryWorld :=
  (result.1, { w with backings := Function.update w.backings id result.2 })

/-- One iteration of `WriteBytes`. `alloc` gives, for the chunk at an address,
the outcome of each page allocation. -/
def writeChunk (alloc : ℕ → ℕ → Bool) (address : ℕ) (source : List UInt8) (w : MemoryWorld)
    (chunk : ℕ × ℕ) : Bool × MemoryWorld :=
  let view := (source.drop (chunk.1 - address)).take chunk.2
  match w.memory.sharedMappingAt chunk.1 with
  | some mapping =>
    w.setBacking mapping.backing ((w.backings mapping.backing).write (alloc chunk.1)
      (mapping.backingOffset + (chunk.1 - mapping.address)) view)
  | none => (true, w.setBytes (w.memory.offsetOf chunk.1) chunk.2 fun i => view.getD i 0)

/-- One iteration of `FillBytes`. -/
def fillChunk (alloc : ℕ → ℕ → Bool) (value : UInt8) (w : MemoryWorld) (chunk : ℕ × ℕ) :
    Bool × MemoryWorld := match w.memory.sharedMappingAt chunk.1 with
  | some mapping =>
    w.setBacking mapping.backing ((w.backings mapping.backing).fill (alloc chunk.1)
      (mapping.backingOffset + (chunk.1 - mapping.address)) chunk.2 value)
  | none => (true, w.setBytes (w.memory.offsetOf chunk.1) chunk.2 fun _ => value)

/-- The loop `WriteBytes` and `FillBytes` share: store a chunk, stop if that
fails, record it, stop if the test fault is armed. -/
def storeChunks (fault : Bool) (store : MemoryWorld → ℕ × ℕ → Bool × MemoryWorld) :
    StoreResult → List (ℕ × ℕ) → StoreResult
  | result, [] => { result with completed := true }
  | result, chunk :: rest => match store result.world chunk with
    | (false, world) => { result with completed := false, world }
    | (true, world) =>
      let result : StoreResult :=
        { completed := false
          world
          mutations := world.memory.recordActualWriteRangeLocked result.mutations chunk.1 chunk.2
          bytesWritten := result.bytesWritten + chunk.2
          stored := result.stored ++ [chunk] }
      if fault then result else storeChunks fault store result rest

/-- A call before it has stored anything. -/
def begin (mutations : MutationReport) : StoreResult :=
  { completed := false, world := w, mutations, bytesWritten := 0, stored := [] }

/-- `WriteBytes`. -/
def writeBytes (fault : Bool) (alloc : ℕ → ℕ → Bool) (address : ℕ) (source : List UInt8)
    (mutations : MutationReport) : StoreResult :=
  storeChunks fault (writeChunk alloc address source) (w.begin mutations)
    (w.memory.rangeChunks address source.length)

/-- `FillBytes`. -/
def fillBytes (fault : Bool) (alloc : ℕ → ℕ → Bool) (address length : ℕ) (value : UInt8)
    (mutations : MutationReport) : StoreResult :=
  storeChunks fault (fillChunk alloc value) (w.begin mutations)
    (w.memory.rangeChunks address length)

/-- The locked part of `Write`. -/
def write (fault : Bool) (alloc : ℕ → ℕ → Bool) (address : ℕ) (source : List UInt8) : StoreResult :=
  if !w.memory.canAccessLocked address source.length kWrite then w.begin {}
  else w.writeBytes fault alloc address source {}

/-- The locked part of `Fill`. -/
def fill (fault : Bool) (alloc : ℕ → ℕ → Bool) (address length : ℕ) (value : UInt8) : StoreResult :=
  if !w.memory.canAccessLocked address length kWrite then w.begin {}
  else w.fillBytes fault alloc address length value {}

/-- The locked part of `Initialize`, which needs no write permission. -/
def initializeBytes (fault : Bool) (alloc : ℕ → ℕ → Bool) (address : ℕ) (source : List UInt8) :
    StoreResult :=
  if !w.memory.isMappedLocked address source.length then w.begin {}
  else w.writeBytes fault alloc address source {}

/-- The locked part of `InitializeFill`. -/
def initializeFill (fault : Bool) (alloc : ℕ → ℕ → Bool) (address length : ℕ) (value : UInt8) :
    StoreResult :=
  if !w.memory.isMappedLocked address length then w.begin {}
  else w.fillBytes fault alloc address length value {}

/-! ## Copying -/

/-- `kCopyChunkBytes`. -/
def kCopyChunkBytes : ℕ := 4096

/-- One `ReadBytes` and `WriteBytes` pair of `Copy`, continuing an earlier
result. `none` means that the read failed. -/
def copyPiece (fault : Bool) (alloc : ℕ → ℕ → Bool) (destination source chunk : ℕ)
    (result : StoreResult) : Option StoreResult :=
  (result.world.readBytes source chunk).map fun view =>
    let piece := result.world.writeBytes fault alloc destination view result.mutations
    { piece with stored := result.stored ++ piece.stored }

/-- The loop of `Copy` from the end of the ranges towards their beginning. The
first argument bounds the iterations. -/
def copyBackward (fault : Bool) (alloc : ℕ → ℕ → Bool) (destination source : ℕ) :
    ℕ → ℕ → StoreResult → StoreResult
  | 0, _, result => { result with completed := false }
  | fuel + 1, remaining, result =>
    if remaining = 0 then { result with completed := true }
    else
      let chunk := min kCopyChunkBytes remaining
      let offset := remaining - chunk
      match copyPiece fault alloc (destination + offset) (source + offset) chunk result with
      | none => { result with completed := false }
      | some piece =>
        if !piece.completed || piece.bytesWritten ≠ chunk then { piece with completed := false }
        else copyBackward fault alloc destination source fuel offset piece

/-- The loop of `Copy` from the beginning of the ranges on. -/
def copyForward (fault : Bool) (alloc : ℕ → ℕ → Bool) (destination source length : ℕ) :
    ℕ → ℕ → StoreResult → StoreResult
  | 0, _, result => { result with completed := false }
  | fuel + 1, copied, result =>
    if copied < length then
      let chunk := min kCopyChunkBytes (length - copied)
      match copyPiece fault alloc (destination + copied) (source + copied) chunk result with
      | none => { result with completed := false }
      | some piece =>
        if !piece.completed || piece.bytesWritten ≠ chunk then { piece with completed := false }
        else
          copyForward fault alloc destination source length fuel
            (copied + piece.bytesWritten) piece
    else { result with completed := copied = length }

/-- The locked part of `Copy`. Without shared mappings the bytes are moved at
once; otherwise in pieces, from the end when the destination overlaps the source
from behind. -/
def copy (fault : Bool) (alloc : ℕ → ℕ → Bool) (destination source length : ℕ) : StoreResult :=
  if !w.memory.canAccessLocked source length kRead ||
      !w.memory.canAccessLocked destination length kWrite then w.begin {}
  else if length = 0 ∨ destination = source then { w.begin {} with completed := true }
  else if w.memory.sharedMappings.isEmpty then
    let world := w.setBytes (w.memory.offsetOf destination) length
      fun i => w.memory.bytes (w.memory.offsetOf source + i)
    { completed := true
      world
      mutations := world.memory.recordActualWriteRangeLocked {} destination length
      bytesWritten := length
      stored := [(destination, length)] }
  else if destination > source ∧ destination - source < length then
    copyBackward fault alloc destination source (length + 1) length (w.begin {})
  else copyForward fault alloc destination source length (length + 1) 0 (w.begin {})

end MemoryWorld

/-- The calls that store to guest memory. -/
inductive StoreCall
  | write (address : ℕ) (source : List UInt8)
  | fill (address length : ℕ) (value : UInt8)
  | copy (destination source length : ℕ)
  | initializeBytes (address : ℕ) (source : List UInt8)
  | initializeFill (address length : ℕ) (value : UInt8)

namespace MemoryWorld

/-- Run the locked part of one storing call. -/
def store (w : MemoryWorld) (fault : Bool) (alloc : ℕ → ℕ → Bool) : StoreCall → StoreResult
  | .write address source => w.write fault alloc address source
  | .fill address length value => w.fill fault alloc address length value
  | .copy destination source length => w.copy fault alloc destination source length
  | .initializeBytes address source => w.initializeBytes fault alloc address source
  | .initializeFill address length value => w.initializeFill fault alloc address length value

/-- The events a storing call delivers once it has released the mapping lock. -/
def emitted (result : StoreResult) : List GuestMemoryWriteEvent :=
  (result.world.memory.notifyMutationReport result.mutations).1

end MemoryWorld

end KajPS5.Memory
