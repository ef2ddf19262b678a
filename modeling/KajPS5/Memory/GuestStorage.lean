/-
# The two kinds of guest memory

A `GuestMemory` keeps its bytes in a buffer of its own or in pages the host has
mapped for it. The tables are the same. Over host pages a call works on whole
pages, and it asks the host to change their protection, which the host may refuse.
A refusal before the tables have changed leaves them alone, and the call answers
false.
-/

import KajPS5.Math.Rounding
import KajPS5.Memory.Initialization

namespace KajPS5.Memory

open Math GuestMemoryProtection

/-- Where the bytes of a guest memory are. -/
inductive StorageMode
  | buffered
  | hostMapped (pageSize : ℕ)
  deriving DecidableEq, Repr

/-- A guest memory with its storage. -/
structure GuestStorage where
  mode : StorageMode
  world : MemoryWorld

/-- What the host answers during one call. -/
structure HostCall where
  /-- The allocations of the tables. -/
  tables : GuestMemory.MapAllocations := {}
  /-- The test fault and the pages of shared backings. -/
  store : HostAnswers := {}
  /-- Whether each `ProtectHostMapping` of the call succeeds, in order. -/
  protects : ℕ → Bool := fun _ => true

def alignLengthToPage (length pageSize : ℕ) : Option ℕ :=
  if length = 0 ∨ pageSize = 0 then none
  else
    let mask := pageSize - 1
    if pageSize &&& mask ≠ 0 ∨ length > uint64Max - mask then none
    else some (clearMask (length + mask) mask)

namespace GuestStorage

variable {s : GuestStorage}

variable (s)

def mappingGranularity : ℕ :=
  match s.mode with
  | .buffered => 1
  | .hostMapped pageSize => pageSize

/-- The memory with other tables and bytes. -/
def withMemory (m : GuestMemory) : GuestStorage :=
  { s with world := { s.world with memory := m } }

/-- The length a call works on: the one it was given, or whole host pages. -/
def pageLength (address length : ℕ) : Option ℕ :=
  match s.mode with
  | .buffered => some length
  | .hostMapped pageSize =>
    if pageSize = 0 ∨ address % pageSize ≠ 0 then none else alignLengthToPage length pageSize

/-- The host refuses the given protection change of the call. -/
def refuses (host : HostCall) (index : ℕ) : Bool :=
  match s.mode with
  | .buffered => false
  | .hostMapped _ => !host.protects index

/-! ## Mapping -/

def canMap (address length : ℕ) : Bool :=
  if length = 0 then false
  else match s.pageLength address length with
    | none => false
    | some length => s.world.memory.canMapLocked address length

/-- `MapLocked` once the length is known. A refused protection change comes after
the generation has been allocated. -/
def mapPages (host : HostCall) (address length : ℕ) (protection : GuestMemoryProtection) : Bool ×
    GuestStorage :=
  if !s.canMap address length then (false, s)
  else if s.refuses host 0 then
    (false, s.withMemory s.world.memory.allocateMappingGenerationLocked.2)
  else
    let result := s.world.memory.mapLocked host.tables address length protection
    (result.1, s.withMemory result.2)

def map (host : HostCall) (address length : ℕ) (protection : GuestMemoryProtection) : Bool ×
    GuestStorage :=
  if !isValidProtection protection || length = 0 then (false, s)
  else match s.pageLength address length with
    | none => (false, s)
    | some mappedLength => s.mapPages host address mappedLength protection

/-- `Protect` once the length is known. -/
def protectPages (host : HostCall) (address length : ℕ) (protection : GuestMemoryProtection) : Bool
    × GuestStorage :=
  if !s.world.memory.isMappedLocked address length || s.refuses host 0 then (false, s)
  else
    let result := s.world.memory.protect address length protection
    (result.1, s.withMemory result.2)

def protect (host : HostCall) (address length : ℕ) (protection : GuestMemoryProtection) : Bool ×
    GuestStorage :=
  if length = 0 || !isValidProtection protection then (false, s)
  else match s.pageLength address length with
    | none => (false, s)
    | some protectedLength => s.protectPages host address protectedLength protection

/-- `Unmap` once the length is known. Over host pages the bytes are cleared between
two protection changes; when the second is refused they stay cleared, the tables
keep the mapping, and the lost bytes are notified. -/
def unmapPages (host : HostCall) (address length : ℕ) : Bool × GuestStorage :=
  let m := s.world.memory
  if !m.isMappedLocked address length || s.refuses host 0 then (false, s)
  else if s.refuses host 1 then
    let cleared := s.world.setBytes (m.offsetOf address) length fun _ => 0
    (false, s.withMemory (cleared.memory.assignWriteGeneration address length).2)
  else
    let result := m.unmap address length
    (result.1, s.withMemory result.2)

def unmap (host : HostCall) (address length : ℕ) : Bool × GuestStorage :=
  if length = 0 then (false, s)
  else match s.pageLength address length with
    | none => (false, s)
    | some unmappedLength => s.unmapPages host address unmappedLength

/-! ## Initializing -/

/-- The bytes one iteration over host pages gets through: up to the end of the
region. -/
def regionStep (m : GuestMemory) (current remaining : ℕ) : ℕ :=
  match m.regions[m.findContainingRegion current]? with
  | some region => min remaining (region.address + region.size - current)
  | none => remaining

/-- The loop of `Initialize` and `InitializeFill` over host pages. Each iteration
makes its region writable, stores, and puts the protection back. -/
def storeRegions (protects : ℕ → Bool) (value : ℕ → UInt8) :
    ℕ → StoreResult → List (ℕ × ℕ) → StoreResult
  | _, result, [] => { result with completed := true }
  | index, result, chunk :: rest =>
    let m := result.world.memory
    if m.findContainingRegion chunk.1 = m.regions.length || !protects index then
      { result with completed := false }
    else
      let result : StoreResult :=
        { result with
          completed := false
          world := result.world.setBytes (m.offsetOf chunk.1) chunk.2 fun i => value (chunk.1 + i)
          bytesWritten := result.bytesWritten + chunk.2 }
      if !protects (index + 1) then result
      else storeRegions protects value (index + 2) result rest

/-- The locked part of an initialization over host pages. -/
def initializePages (w : MemoryWorld) (protects : ℕ → Bool) (address length : ℕ)
    (value : ℕ → UInt8) : StoreResult :=
  let result := storeRegions protects value 0 (w.begin {})
    (chunksOf (regionStep w.memory) address length)
  { result with
    mutations := w.memory.recordActualWriteRangeLocked {} address result.bytesWritten }

/-- The answer of a storing call and the memory after its events. -/
def finished (result : StoreResult) : Bool × GuestStorage :=
  (result.completed, { s with world := MemoryWorld.notified result })

/-- `Initialize`. -/
def initializeBytes (host : HostCall) (address : ℕ) (source : List UInt8) : Bool × GuestStorage :=
  if !s.world.memory.isMappedLocked address source.length then (false, s)
  else if source = [] ∨ s.mode = .buffered then
    s.finished (s.world.writeBytes host.store.fault host.store.alloc address source {})
  else
    s.finished (initializePages s.world host.protects address source.length
      fun a => source.getD (a - address) 0)

def initializeFill (host : HostCall) (address length : ℕ) (value : UInt8) : Bool × GuestStorage :=
  if !s.world.memory.isMappedLocked address length then (false, s)
  else if length = 0 ∨ s.mode = .buffered then
    s.finished (s.world.fillBytes host.store.fault host.store.alloc address length value {})
  else s.finished (initializePages s.world host.protects address length fun _ => value)

/-! ## Creating -/

/-- Map a new memory as a whole, unless it starts unmapped. -/
def mapWhole (host : HostCall) (initialProtection : GuestMemoryProtection) : Option GuestStorage :=
  if initialProtection = kNone then some s
  else
    let result := s.map host s.world.memory.baseAddress s.world.memory.storageSize
      initialProtection
    if result.1 then some result.2 else none

variable {s}

/-- `CreateHostMapped`. `mapping` is where the host has put the pages, and `granted`
whether it has given them and taken their protection. -/
def createHostMapped (pageSize mapping size : ℕ) (granted : Bool) (host : HostCall)
    (initialProtection : GuestMemoryProtection) (backings : Backings) : Option GuestStorage :=
  if size = 0 || !isValidProtection initialProtection || pageSize = 0 ||
      pageSize &&& (pageSize - 1) ≠ 0 || size % pageSize ≠ 0 || !granted then none
  else
    (GuestMemory.create mapping size kNone).bind fun memory =>
      mapWhole ⟨.hostMapped pageSize, ⟨memory, backings⟩⟩ host initialProtection

/-- The guest memories some sequence of calls reaches. A storing call may leave any
bytes; it keeps the tables and delivers its events. -/
inductive Reachable : GuestStorage → Prop
  | buffered {w : MemoryWorld} (hw : w.Reachable) : Reachable ⟨.buffered, w⟩
  | hostMapped {pageSize mapping size : ℕ} {granted : Bool} {host : HostCall}
      {initialProtection : GuestMemoryProtection} {backings : Backings} {s : GuestStorage}
      (h : createHostMapped pageSize mapping size granted host initialProtection backings =
        some s) : Reachable s
  | map {s : GuestStorage} (hs : Reachable s) (host : HostCall) (address length : ℕ)
      (protection : GuestMemoryProtection) : Reachable (s.map host address length protection).2
  | protect {s : GuestStorage} (hs : Reachable s) (host : HostCall) (address length : ℕ)
      (protection : GuestMemoryProtection) :
      Reachable (s.protect host address length protection).2
  | unmap {s : GuestStorage} (hs : Reachable s) (host : HostCall) (address length : ℕ) :
      Reachable (s.unmap host address length).2
  | stored {s : GuestStorage} (hs : Reachable s) {result : StoreResult}
      (hsame : MemoryWorld.SameTables s.world result.world) : Reachable (s.finished result).2

end GuestStorage

end KajPS5.Memory
