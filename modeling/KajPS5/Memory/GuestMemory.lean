/-
# The guest memory and its mapping tables

A buffered guest memory is a window of bytes with three tables over it: the
regions with their protections, the mapping identities with the generation each
mapping was created at, and the shared mappings that send a part of the window to
a backing. The module translates the mapping calls and the queries that walk
over the tables. Addresses and sizes are 64-bit words whose sums stay inside the
window, which ends below `2 ^ 64`, so they are natural numbers here. The host
mapped variant of the memory is left out.

Backings are shared between mappings by pointer. A pointer is a `BackingId`, and
the operations that reach through one take the backings as an argument.
-/

import KajPS5.Math.IntervalSlice
import KajPS5.Memory.AddressSpace
import KajPS5.Memory.Generation
import KajPS5.Memory.SharedMemoryBacking

namespace KajPS5.Memory

open Math

/-- The bits of a `GuestMemoryProtection`. -/
abbrev GuestMemoryProtection := BitVec 8

namespace GuestMemoryProtection

def kNone : GuestMemoryProtection := 0x00#8
def kRead : GuestMemoryProtection := 0x01#8
def kWrite : GuestMemoryProtection := 0x02#8
def kExecute : GuestMemoryProtection := 0x04#8
def kGpuRead : GuestMemoryProtection := 0x10#8
def kGpuWrite : GuestMemoryProtection := 0x20#8

end GuestMemoryProtection

open GuestMemoryProtection

/-- `IsValidProtection`: no bit outside the five protections is set. -/
def isValidProtection (protection : GuestMemoryProtection) : Bool :=
  protection &&& ~~~(kRead ||| kWrite ||| kExecute ||| kGpuRead ||| kGpuWrite) == 0

/-- All the requested bits are among the actual ones. -/
def hasProtection (actual required : GuestMemoryProtection) : Bool :=
  actual &&& required == required

/-- The address of a `SharedMemoryBacking` object. -/
abbrev BackingId := ℕ

/-- The backings by their addresses. -/
abbrev Backings := BackingId → SharedMemoryBacking

structure GuestMemoryRegion where
  (address size : ℕ)
  protection : GuestMemoryProtection
  deriving DecidableEq, Repr

structure MappingIdentityRegion where
  (address size : ℕ)
  generation : GuestMemoryGeneration
  deriving DecidableEq, Repr

structure SharedMapping where
  (address size backingOffset : ℕ)
  backing : BackingId
  deriving DecidableEq, Repr

/-- One byte of a backing. -/
abbrev BackingByte := BackingId × ℕ

/-! ## The records as interval tables -/

instance : MergingSpan GuestMemoryRegion GuestMemoryProtection where
  start r := r.address
  size r := r.size
  valueAt r _ := r.protection
  slice r lo hi := { r with address := lo, size := hi - lo }
  start_slice _ _ _ := rfl
  size_slice _ _ _ := rfl
  valueAt_slice _ _ _ _ _ _ := rfl
  mergeable previous current :=
    previous.address + previous.size == current.address && previous.protection == current.protection
  merge previous current := { previous with size := previous.size + current.size }
  start_merge _ _ := rfl
  size_merge _ _ := rfl
  adjacent _ _ h := beq_iff_eq.mp (Bool.and_eq_true_iff.mp h).1
  valueAt_merge_left _ _ _ _ _ := rfl
  valueAt_merge_right _ _ _ h _ := beq_iff_eq.mp (Bool.and_eq_true_iff.mp h).2
  mergeable_merge _ _ _ := rfl

instance : MergingSpan MappingIdentityRegion GuestMemoryGeneration where
  start r := r.address
  size r := r.size
  valueAt r _ := r.generation
  slice r lo hi := { r with address := lo, size := hi - lo }
  start_slice _ _ _ := rfl
  size_slice _ _ _ := rfl
  valueAt_slice _ _ _ _ _ _ := rfl
  mergeable previous current :=
    previous.address + previous.size == current.address && previous.generation == current.generation
  merge previous current := { previous with size := previous.size + current.size }
  start_merge _ _ := rfl
  size_merge _ _ := rfl
  adjacent _ _ h := beq_iff_eq.mp (Bool.and_eq_true_iff.mp h).1
  valueAt_merge_left _ _ _ _ _ := rfl
  valueAt_merge_right _ _ _ h _ := beq_iff_eq.mp (Bool.and_eq_true_iff.mp h).2
  mergeable_merge _ _ _ := rfl

/-- A shared mapping denotes a backing byte at each of its addresses; its
restriction moves the backing offset along. -/
instance : SlicedSpan SharedMapping BackingByte where
  start r := r.address
  size r := r.size
  valueAt r a := (r.backing, r.backingOffset + (a - r.address))
  slice r lo hi :=
    { r with address := lo, size := hi - lo, backingOffset := r.backingOffset + (lo - r.address) }
  start_slice _ _ _ := rfl
  size_slice _ _ _ := rfl
  valueAt_slice r lo _ a hlo ha := by
    simp only [Prod.mk.injEq, true_and]
    omega

/-! ## State -/

structure GuestMemory where
  (baseAddress storageSize : ℕ)
  /-- The stored bytes by their offset in the window. -/
  bytes : ℕ → UInt8
  regions : List GuestMemoryRegion
  mappingIdentityRegions : List MappingIdentityRegion
  sharedMappings : List SharedMapping
  nextMappingGeneration : GuestMemoryGeneration
  mappingGenerationExhausted : Bool
  writeGeneration : GuestMemoryGeneration
  writeGenerationExhausted : Bool

structure GuestMemoryMappingToken where
  generation : GuestMemoryGeneration
  generationExhausted : Bool
  deriving DecidableEq, Repr

namespace GuestMemory

variable (m : GuestMemory)

/-- `OffsetOf`. -/
def offsetOf (address : ℕ) : ℕ := address - m.baseAddress

/-- `Contains`. -/
def contains (address length : ℕ) : Bool :=
  if address < m.baseAddress then false
  else
    let offset := address - m.baseAddress
    if offset ≥ m.storageSize then false else length ≤ m.storageSize - offset

/-! ## Queries -/

/-- `FindContainingRegion`. -/
def findContainingRegion (address : ℕ) : ℕ := locate m.regions address

/-- `FindSharedMapping`. -/
def findSharedMapping (address : ℕ) : ℕ := locate m.sharedMappings address

/-- The loop of `CanAccessLocked` over the regions from the containing one on. -/
def accessWalk (required : GuestMemoryProtection) : List GuestMemoryRegion → ℕ → ℕ → Bool
  | [], _, _ => false
  | region :: rest, current, remaining =>
    let regionEnd := region.address + region.size
    if current < region.address ∨ current ≥ regionEnd then false
    else if !hasProtection region.protection required then false
    else if remaining = 0 then true
    else
      let chunk := min remaining (regionEnd - current)
      if remaining - chunk = 0 then true
      else accessWalk required rest (current + chunk) (remaining - chunk)

/-- `CanAccessLocked`. -/
def canAccessLocked (address length : ℕ) (required : GuestMemoryProtection) : Bool :=
  if !m.contains address length then false
  else
    let regionIndex := m.findContainingRegion address
    if regionIndex = m.regions.length then false
    else accessWalk required (m.regions.drop regionIndex) address length

/-- `IsMappedLocked`. -/
def isMappedLocked (address length : ℕ) : Bool := m.canAccessLocked address length kNone

/-- `CanMapLocked`: the range lies in the window, between two regions. -/
def canMapLocked (address length : ℕ) : Bool :=
  if length = 0 then false
  else if !m.contains address length then false
  else hasGap m.regions address (address + length)

/-- The loop of `CaptureMappingTokenLocked`, with the newest generation so far. -/
def tokenWalk : List MappingIdentityRegion → ℕ → ℕ → GuestMemoryGeneration →
    Option GuestMemoryGeneration
  | [], _, _, _ => none
  | identity :: rest, current, remaining, newest =>
    let identityEnd := identity.address + identity.size
    if current < identity.address ∨ current ≥ identityEnd then none
    else
      let newest := max newest identity.generation
      let chunk := min remaining (identityEnd - current)
      if remaining - chunk = 0 then some newest
      else tokenWalk rest (current + chunk) (remaining - chunk) newest

/-- Where the walk of `CaptureMappingTokenLocked` starts: the identity at or
before the address. -/
def identityStart (address : ℕ) : Option ℕ :=
  let insertion := lowerBound m.mappingIdentityRegions address
  if m.mappingIdentityRegions[insertion]?.any fun r => r.address = address then some insertion
  else if insertion = 0 then none
  else some (insertion - 1)

/-- `CaptureMappingTokenLocked`. -/
def captureMappingTokenLocked (address length : ℕ) : Option GuestMemoryMappingToken :=
  if length = 0 || !m.isMappedLocked address length then none
  else do
    let index ← m.identityStart address
    let newest ← tokenWalk (m.mappingIdentityRegions.drop index) address length {}
    return { generation := newest, generationExhausted := m.mappingGenerationExhausted }

/-! ## Mapping calls -/

/-- `AllocateMappingGenerationLocked`. -/
def allocateMappingGenerationLocked : Option GuestMemoryGeneration × GuestMemory :=
  if m.mappingGenerationExhausted then (none, m)
  else match advanceGuestMemoryGeneration m.nextMappingGeneration with
    | none => (none, { m with mappingGenerationExhausted := true })
    | some generation => (some generation, { m with nextMappingGeneration := generation })

/-- Which of the table insertions of one call find memory. -/
structure MapAllocations where
  (shared region identity : Bool := true)
  deriving DecidableEq, Repr

/-- `MapLocked`. An insertion that throws is undone and the call answers false;
the generation it allocated is not reused. -/
def mapLocked (alloc : MapAllocations) (address length : ℕ) (protection : GuestMemoryProtection) :
    Bool × GuestMemory :=
  if !isValidProtection protection || length = 0 then (false, m)
  else if !m.canMapLocked address length then (false, m)
  else match m.allocateMappingGenerationLocked with
    | (none, m) => (false, m)
    | (some generation, m) =>
      let insertion := lowerBound m.regions address
      if !alloc.region then (false, m)
      else
        let regions := insertSorted m.regions ⟨address, length, protection⟩
        if !alloc.identity then (false, { m with regions := regions.eraseIdx insertion })
        else
          (true, { m with
            regions := coalesce regions
            mappingIdentityRegions := coalesce
              (insertSorted m.mappingIdentityRegions ⟨address, length, generation⟩) })

/-- `MapShared`. `none` is the null pointer. -/
def mapShared (backings : Backings) (alloc : MapAllocations) (address length : ℕ)
    (protection : GuestMemoryProtection) (backing : Option BackingId) (backingOffset : ℕ) : Bool ×
    GuestMemory := match backing with
  | none => (false, m)
  | some backing =>
    if !(backings backing).contains backingOffset length || !isValidProtection protection ||
        !m.canMapLocked address length then (false, m)
    else
      let index := lowerBound m.sharedMappings address
      if !alloc.shared then (false, m)
      else
        let inserted :=
          { m with
            sharedMappings :=
              insertSorted m.sharedMappings ⟨address, length, backingOffset, backing⟩ }
        match inserted.mapLocked alloc address length protection with
        | (true, m) => (true, m)
        | (false, m) => (false, { m with sharedMappings := m.sharedMappings.eraseIdx index })

/-- What `Protect` puts in place of one region. -/
def protectRegion (address rangeEnd : ℕ) (protection : GuestMemoryProtection)
    (region : GuestMemoryRegion) : List GuestMemoryRegion :=
  let regionEnd := region.address + region.size
  if rangeEnd ≤ region.address ∨ address ≥ regionEnd then [region]
  else
    let protectedStart := max region.address address
    let protectedEnd := min regionEnd rangeEnd
    (if region.address < address then
        [⟨region.address, address - region.address, region.protection⟩] else []) ++
      [⟨protectedStart, protectedEnd - protectedStart, protection⟩] ++
      (if rangeEnd < regionEnd then [⟨rangeEnd, regionEnd - rangeEnd, region.protection⟩] else [])

/-- `Protect`. -/
def protect (address length : ℕ) (protection : GuestMemoryProtection) : Bool × GuestMemory :=
  if length = 0 || !isValidProtection protection then (false, m)
  else if !m.isMappedLocked address length then (false, m)
  else
    let rangeEnd := address + length
    (true, { m with
      regions := coalesce (m.regions.flatMap (protectRegion address rangeEnd protection)) })

/-- What `Unmap` leaves of one region. -/
def unmapRegion (address rangeEnd : ℕ) (region : GuestMemoryRegion) : List GuestMemoryRegion :=
  let regionEnd := region.address + region.size
  if rangeEnd ≤ region.address ∨ address ≥ regionEnd then [region]
  else
    (if region.address < address then
        [⟨region.address, address - region.address, region.protection⟩] else []) ++
      (if rangeEnd < regionEnd then [⟨rangeEnd, regionEnd - rangeEnd, region.protection⟩] else [])

/-- What `Unmap` leaves of one shared mapping: all of it, nothing, its end, its
beginning, or both. -/
def unmapSharedMapping (address rangeEnd : ℕ) (mapping : SharedMapping) : List SharedMapping :=
  let mappingEnd := mapping.address + mapping.size
  let overlapStart := max address mapping.address
  let overlapEnd := min rangeEnd mappingEnd
  if overlapStart ≥ overlapEnd then [mapping]
  else if overlapStart = mapping.address ∧ overlapEnd = mappingEnd then []
  else if overlapStart = mapping.address then
    let removed := overlapEnd - mapping.address
    [{ mapping with
      address := overlapEnd
      backingOffset := mapping.backingOffset + removed
      size := mapping.size - removed }]
  else if overlapEnd = mappingEnd then [{ mapping with size := overlapStart - mapping.address }]
  else
    [{ mapping with size := overlapStart - mapping.address }, { mapping with
        address := overlapEnd
        backingOffset := mapping.backingOffset + (overlapEnd - mapping.address)
        size := mappingEnd - overlapEnd }]

/-- What `Unmap` leaves of one mapping identity, by the same cases. -/
def unmapIdentity (address rangeEnd : ℕ) (identity : MappingIdentityRegion) :
    List MappingIdentityRegion :=
  let identityEnd := identity.address + identity.size
  let overlapStart := max address identity.address
  let overlapEnd := min rangeEnd identityEnd
  if overlapStart ≥ overlapEnd then [identity]
  else if overlapStart = identity.address ∧ overlapEnd = identityEnd then []
  else if overlapStart = identity.address then
    let removed := overlapEnd - identity.address
    [{ identity with address := overlapEnd, size := identity.size - removed }]
  else if overlapEnd = identityEnd then [{ identity with size := overlapStart - identity.address }]
  else
    [{ identity with size := overlapStart - identity.address },
      { identity with address := overlapEnd, size := identityEnd - overlapEnd }]

/-- `Unmap`. The private bytes of the range are cleared, also those a shared
mapping hides; backing bytes are not touched. -/
def unmap (address length : ℕ) : Bool × GuestMemory :=
  if length = 0 then (false, m)
  else if !m.isMappedLocked address length then (false, m)
  else
    let rangeEnd := address + length
    let offset := m.offsetOf address
    (true, { m with
      bytes := fun o => if offset ≤ o ∧ o < offset + length then 0 else m.bytes o
      regions := coalesce (m.regions.flatMap (unmapRegion address rangeEnd))
      mappingIdentityRegions :=
        coalesce (m.mappingIdentityRegions.flatMap (unmapIdentity address rangeEnd))
      sharedMappings := m.sharedMappings.flatMap (unmapSharedMapping address rangeEnd) })

/-- The buffered constructor. `none` is a thrown `std::invalid_argument`. -/
def create (baseAddress size : ℕ) (initialProtection : GuestMemoryProtection) :
    Option GuestMemory :=
  if size > uint64Max - baseAddress then none
  else if !isValidProtection initialProtection then none
  else
    let empty : GuestMemory :=
      { baseAddress := baseAddress
        storageSize := size
        bytes := fun _ => 0
        regions := []
        mappingIdentityRegions := []
        sharedMappings := []
        nextMappingGeneration := {}
        mappingGenerationExhausted := false
        writeGeneration := {}
        writeGenerationExhausted := false }
    if size ≠ 0 ∧ initialProtection ≠ kNone then match empty.allocateMappingGenerationLocked with
      | (none, _) => none
      | (some generation, m) =>
        some { m with
          regions := [⟨baseAddress, size, initialProtection⟩]
          mappingIdentityRegions := [⟨baseAddress, size, generation⟩] }
    else some empty

end GuestMemory

end KajPS5.Memory
