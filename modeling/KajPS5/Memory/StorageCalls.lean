/-
# Calls on either kind of guest memory

On a range of whole pages the mapping calls do the same over a buffer and over
host pages, as long as the host does not refuse. An initialization of private
pages keeps the mappings, touches no byte outside its range, and has stored every
byte when it answers true.
-/

import KajPS5.Memory.GuestStorage
import KajPS5.Memory.Regions

namespace KajPS5.Memory

open Math Spanned GuestMemoryProtection GuestMemory List

namespace GuestMemory

variable {m : GuestMemory}

/-- Allocating a generation touches no table. -/
theorem unchanged_allocate (m : GuestMemory) : m.Unchanged m.allocateMappingGenerationLocked.2 := by
  rw [allocateMappingGenerationLocked]
  split_ifs with hspent
  · exact Unchanged.refl m
  · cases hadvance : advanceGuestMemoryGeneration m.nextMappingGeneration with
    | none => exact ⟨rfl, rfl, rfl, rfl, rfl, rfl, le_rfl, fun _ => rfl⟩
    | some generation => exact ⟨rfl, rfl, rfl, rfl, rfl, rfl, le_of_lt (lt_of_advance hadvance), id⟩

theorem mapLocked_bytes (m : GuestMemory) (alloc : MapAllocations) (address length : ℕ)
    (protection : GuestMemoryProtection) :
    (m.mapLocked alloc address length protection).2.bytes = m.bytes := by
  rcases mapLocked_cases m alloc address length protection with
    ⟨_, _, -, -, heq⟩ | ⟨-, -, _, -, heq⟩
  · rw [heq]
    rfl
  · rw [heq]
    rfl

end GuestMemory

namespace MemoryWorld

variable {w w' : MemoryWorld}

theorem WellFormed.of_unchanged (h : w.WellFormed) {m' : GuestMemory}
    (hsame : w.memory.Unchanged m') : ({ w with memory := m' } : MemoryWorld).WellFormed where
  tables := h.tables.of_unchanged hsame
  backed a id offset ha := by
    rw [sharing, hsame.sharedMappings] at ha
    exact h.backed a _ _ ha

/-- An initialization of private bytes, with its answer. -/
structure Filled (w : MemoryWorld) (address length : ℕ) (value : ℕ → UInt8) (completed : Bool)
    (w' : MemoryWorld) : Prop where
  wellFormed : w'.WellFormed
  space : w'.memory.space = w.memory.space
  frame : ∀ cell, (∀ a, InRange address length a → cell ≠ .own a) →
    w'.contents cell = w.contents cell
  contents : completed = true → ∀ a, InRange address length a → w'.contents (.own a) = value a

namespace Filled

variable {address length : ℕ} {value : ℕ → UInt8} {completed : Bool}

/-- Filling nothing. -/
theorem refl (h : w.WellFormed) (address : ℕ) (value : ℕ → UInt8) :
    Filled w address 0 value true w :=
  ⟨h, rfl, fun _ _ => rfl, fun _ _ ha => absurd ha.2 (Nat.not_lt.mpr ha.1)⟩

/-- Only the values along the range matter. -/
theorem congr (h : Filled w address length value completed w') {value' : ℕ → UInt8}
    (hvalue : ∀ a, InRange address length a → value a = value' a) :
    Filled w address length value' completed w' :=
  ⟨h.wellFormed, h.space, h.frame, fun hdone a ha => (h.contents hdone a ha).trans (hvalue a ha)⟩

/-- A filling that stopped stopped in every longer range. -/
theorem widen (h : Filled w address length value false w') {length' : ℕ}
    (hle : length ≤ length') : Filled w address length' value false w' := by
  refine ⟨h.wellFormed, h.space, fun cell hcell => ?_, fun hdone => ?_⟩
  · exact h.frame _ fun a ha => hcell a ⟨ha.1, lt_of_lt_of_le ha.2 (by omega)⟩
  · cases hdone

/-- Two fillings next to each other. -/
theorem append (h : Filled w address length value true w') {rest : ℕ} {w'' : MemoryWorld}
    (h' : Filled w' (address + length) rest value completed w'') :
    Filled w address (length + rest) value completed w'' := by
  refine ⟨h'.wellFormed, h'.space.trans h.space, fun cell hcell => ?_, fun hdone a ha => ?_⟩
  · rw [h'.frame cell fun a ha => hcell a ⟨by have := ha.1; omega, by have := ha.2; omega⟩,
      h.frame cell fun a ha => hcell a ⟨ha.1, by have := ha.2; omega⟩]
  by_cases hlater : address + length ≤ a
  · exact h'.contents hdone a ⟨hlater, by have := ha.2; omega⟩
  have hmissed : ∀ b, InRange (address + length) rest b → Cell.own a ≠ .own b := by
    intro b hb heq
    obtain rfl := Cell.own.inj heq
    exact hlater hb.1
  rw [h'.frame _ hmissed]
  exact h.contents rfl a ⟨ha.1, by omega⟩

end Filled

variable {result : StoreResult}

/-- Delivering the events of a call keeps the mappings. -/
theorem space_notified (hsame : SameTables w result.world) :
    (notified result).memory.space = w.memory.space := by
  have hnotified : (notified result).memory.space = result.world.memory.space := by
    have hgen := sameButGeneration_notify result.world.memory result.mutations
    simp only [notified]
    rw [hgen]
    rfl
  rw [hnotified, hsame.memory]
  rfl

/-- The account of a buffered loop over private bytes. -/
theorem Filled.of_stored (h : w.WellFormed) {address length : ℕ} {value : ℕ → UInt8}
    {reaches : ℕ → Prop} {passed rest : List (ℕ × ℕ)}
    (hsplit : w.memory.rangeChunks address length = passed ++ rest)
    (hstore : Stored (w.begin {}) result passed value reaches)
    (hdone : result.completed = true → rest = [])
    (hreach : ∀ a, InRange address length a → reaches a)
    (hown : ∀ a, InRange address length a → w.memory.sharing a = none) :
    Filled w address length value result.completed (notified result) := by
  have hsame : SameTables w result.world := hstore.same
  obtain ⟨haddrs, -, hall⟩ := passed_addresses h hsplit
  obtain ⟨-, -, -, hcont⟩ := sameTables_notified result
  have hcell : ∀ a, InRange address length a → w.memory.cellOf a = .own a :=
    fun a ha => cellOf_of_none (hown a ha)
  have hin := inRange_of_passed h hsplit
  refine ⟨wellFormed_notified (hsame.wellFormed h), space_notified hsame, ?_, ?_⟩
  · intro cell hframe
    rw [hcont]
    exact hstore.frame _ fun a ha => (hcell a (hin a ha)).symm ▸ hframe a (hin a ha)
  intro hcompleted a ha
  have hlen := hall (hdone hcompleted)
  have hmem : a ∈ passed.flatMap chunkAddresses := by
    rw [haddrs, hlen, mem_range'_1]
    exact ha
  rw [hcont, hstore.contents fun b hb => hreach b (hin b hb), ← hcell a ha]
  refine storeCells_of_injective ?_ ?_ _ hmem
  · rw [haddrs]
    exact nodup_range'
  · intro b hb c hc heq
    rw [show (w.begin {}).world = w from rfl, hcell b (hin b hb), hcell c (hin c hc)] at heq
    exact Cell.own.inj heq

end MemoryWorld

namespace GuestStorage

open MemoryWorld

variable {s : GuestStorage}

/-! ## Mapping calls on whole pages -/

/-- What a call that maps a range of whole pages can do. -/
structure MapOutcome (s : GuestStorage) (tables : GuestMemory.MapAllocations)
    (address length : ℕ) (protection : GuestMemoryProtection) (result : Bool × GuestStorage) :
    Prop where
  mode : result.2.mode = s.mode
  wellFormed : result.2.world.WellFormed
  contents : result.2.world.contents = s.world.contents
  cases : (result.1 = false ∧ s.world.memory.Unchanged result.2.world.memory) ∨
    (result.1 = true ∧ s.world.memory.Performed (.map tables address length protection)
      result.2.world.memory)

variable {address length : ℕ} {m : GuestMemory}

theorem MapOutcome.unchanged (h : s.world.WellFormed) {tables : GuestMemory.MapAllocations}
    {protection : GuestMemoryProtection} (hsame : s.world.memory.Unchanged m) :
    MapOutcome s tables address length protection (false, s.withMemory m) :=
  ⟨rfl, h.of_unchanged hsame, contents_unchanged hsame, .inl ⟨rfl, hsame⟩⟩

theorem mapPages_outcome (h : s.world.WellFormed) (host : HostCall) (address length : ℕ)
    (protection : GuestMemoryProtection) :
    MapOutcome s host.tables address length protection
      (s.mapPages host address length protection) := by
  rw [mapPages]
  split_ifs
  · exact .unchanged h (GuestMemory.Unchanged.refl _)
  · exact .unchanged h (unchanged_allocate _)
  have hout := mapLocked_outcome address length h.tables host.tables protection
  refine ⟨rfl, ?_, ?_, hout.cases⟩
  · exact wellFormed_step h (.mapping (.map _ _ _ _))
  have hbase := (perform_frame s.world.backings s.world.memory
    (.map host.tables address length protection)).1
  have hbytes := mapLocked_bytes s.world.memory host.tables address length protection
  funext cell
  cases cell with
  | backing id offset => rfl
  | own a =>
    rw [perform] at hbase
    simp [withMemory, contents, offsetOf, hbase, hbytes]

/-- A mapping call works on whole pages or does nothing. -/
theorem map_cases (s : GuestStorage) (host : HostCall) (address length : ℕ)
    (protection : GuestMemoryProtection) :
    s.map host address length protection = (false, s) ∨
      ∃ mappedLength, s.pageLength address length = some mappedLength ∧
        s.map host address length protection = s.mapPages host address mappedLength protection := by
  rw [map]
  split_ifs with hinvalid
  · exact .inl rfl
  · cases s.pageLength address length with
    | none => exact .inl rfl
    | some mappedLength => exact .inr ⟨mappedLength, rfl, rfl⟩

theorem map_outcome (h : s.world.WellFormed) (host : HostCall)
    (haligned : s.pageLength address length = some length) (protection : GuestMemoryProtection) :
    MapOutcome s host.tables address length protection
      (s.map host address length protection) := by
  rcases map_cases s host address length protection with heq | ⟨mappedLength, hlen, heq⟩
  · rw [heq]
    exact .unchanged h (GuestMemory.Unchanged.refl _)
  · rw [haligned] at hlen
    cases hlen
    rw [heq]
    exact mapPages_outcome h _ _ _ _

/-- The host grants both protection changes of an unmapping. -/
def Grants (s : GuestStorage) (host : HostCall) : Prop :=
  s.refuses host 0 = false ∧ s.refuses host 1 = false

/-- A granted unmapping of mapped pages. -/
theorem unmap_performed (h : s.world.WellFormed) {host : HostCall}
    (haligned : s.pageLength address length = some length) (hlen : length ≠ 0)
    (hmap : s.world.memory.isMappedLocked address length = true) (hgrants : s.Grants host) :
    (s.unmap host address length).2.mode = s.mode ∧
      (s.unmap host address length).2.world.WellFormed ∧
      s.world.memory.Performed (.unmap address length)
        (s.unmap host address length).2.world.memory := by
  have heq : s.unmap host address length = ((s.world.memory.unmap address length).1,
        s.withMemory (s.world.memory.unmap address length).2) := by
    rw [unmap, if_neg hlen, haligned]
    simp [unmapPages, hmap, hgrants.1, hgrants.2]
  rw [heq]
  refine ⟨rfl, wellFormed_step h (.mapping (.unmap address length)), ?_⟩
  rcases (unmap_outcome address length h.tables).cases with ⟨hfail, -⟩ | ⟨-, hdone⟩
  · rw [GuestMemory.unmap, if_neg hlen, hmap] at hfail
    exact absurd hfail.symm Bool.false_ne_true
  · exact hdone

/-! ## Every guest memory is well formed -/

section

variable (h : s.world.WellFormed) (host : HostCall) (address length : ℕ)
include h host

theorem wellFormed_map (protection : GuestMemoryProtection) :
    (s.map host address length protection).2.world.WellFormed := by
  rcases map_cases s host address length protection with heq | ⟨mappedLength, -, heq⟩
  · rw [heq]
    exact h
  · rw [heq]
    exact (mapPages_outcome h _ _ _ _).wellFormed

theorem wellFormed_protect (protection : GuestMemoryProtection) :
    (s.protect host address length protection).2.world.WellFormed := by
  rw [protect]
  split_ifs
  · exact h
  cases s.pageLength address length with
  | none => exact h
  | some protectedLength =>
    simp only [protectPages]
    split_ifs
    · exact h
    · exact wellFormed_step h (.mapping (.protect _ _ _))

theorem wellFormed_unmap : (s.unmap host address length).2.world.WellFormed := by
  rw [unmap]
  split_ifs
  · exact h
  cases s.pageLength address length with
  | none => exact h
  | some unmappedLength =>
    simp only [unmapPages]
    split_ifs
    · exact h
    · have hcleared := (sameTables_setBytes _ (s.world.memory.offsetOf address)
        unmappedLength fun _ => 0).wellFormed h
      exact hcleared.of_sameButGeneration (assignWriteGeneration_memory _ _ _)
    · exact wellFormed_step h (.mapping (.unmap _ _))

end

theorem wellFormed_createHostMapped {pageSize mapping size : ℕ} {granted : Bool} {host : HostCall}
    {initialProtection : GuestMemoryProtection} {backings : Backings}
    (h : createHostMapped pageSize mapping size granted host initialProtection backings =
      some s) : s.world.WellFormed := by
  rw [createHostMapped] at h
  split_ifs at h
  obtain ⟨memory, hcreate, hmap⟩ := Option.bind_eq_some_iff.mp h
  have hwf : (⟨memory, backings⟩ : MemoryWorld).WellFormed :=
    (MemoryWorld.Reachable.create hcreate backings).wellFormed
  rw [mapWhole] at hmap
  split_ifs at hmap
  · cases hmap
    exact hwf
  · simp only [Option.ite_none_right_eq_some, Option.some.injEq] at hmap
    rw [← hmap.2]
    exact wellFormed_map (s := ⟨.hostMapped _, ⟨memory, backings⟩⟩) hwf _ _ _ _

/-- Every guest memory a sequence of calls reaches is well formed. -/
theorem Reachable.wellFormed (h : s.Reachable) : s.world.WellFormed := by
  induction h with
  | buffered hw => exact hw.wellFormed
  | hostMapped h => exact wellFormed_createHostMapped h
  | map _ host address length protection ih => exact wellFormed_map ih _ _ _ _
  | protect _ host address length protection ih => exact wellFormed_protect ih _ _ _ _
  | unmap _ host address length ih => exact wellFormed_unmap ih _ _ _
  | stored _ hsame ih => exact wellFormed_notified (hsame.wellFormed ih)

/-- Over a buffer or over host pages, and whatever the host refuses, the regions are non-empty,
sorted, disjoint, inside the window and coalesced. -/
theorem regionTable_reachable (h : s.Reachable) : RegionTable s.world.memory.baseAddress
    s.world.memory.storageSize s.world.memory.regions :=
  h.wellFormed.tables.regionTable

/-- The host refuses to give up the second of two pages. -/
theorem regionTable_reachable_refused :
    ∃ s, createHostMapped 16 0 32 true {} kRead (fun _ => .create 0) = some s ∧
      let t := (s.unmap { protects := (· = 0) } 16 16).2
      RegionTable t.world.memory.baseAddress t.world.memory.storageSize t.world.memory.regions := by
  obtain ⟨s, hs⟩ : ∃ s, createHostMapped 16 0 32 true {} kRead (fun _ => .create 0) = some s :=
    ⟨_, rfl⟩
  exact ⟨s, hs, regionTable_reachable (.unmap (.hostMapped hs) _ _ _)⟩

/-! ## Initializing private bytes -/

theorem advances_regionStep (h : m.WellFormed) : Advances (regionStep m) := by
  intro current remaining hpos
  rw [regionStep, findContainingRegion, getElem?_locate h.regions]
  cases hentry : entryAt m.regions current with
  | none => exact ⟨hpos, le_rfl⟩
  | some region =>
    have hcovers : current < region.address + region.size := (mem_of_entryAt hentry).2.2
    simp only
    omega

/-- The loop over host pages: outside the chunks nothing changes, and a completed
loop has stored every byte of them. -/
theorem storeRegions_spec (protects : ℕ → Bool) (value : ℕ → UInt8) {chunks : List (ℕ × ℕ)}
    (index : ℕ) (result : StoreResult)
    (hbase : ∀ chunk ∈ chunks, result.world.memory.baseAddress ≤ chunk.1) :
    SameTables result.world (storeRegions protects value index result chunks).world ∧
      (∀ cell, (∀ a ∈ chunks.flatMap chunkAddresses, cell ≠ .own a) →
        (storeRegions protects value index result chunks).world.contents cell =
          result.world.contents cell) ∧
      ((storeRegions protects value index result chunks).completed = true →
        ∀ a ∈ chunks.flatMap chunkAddresses,
          (storeRegions protects value index result chunks).world.contents (.own a) = value a) := by
  induction chunks generalizing index result with
  | nil => exact ⟨SameTables.refl _, fun _ _ => rfl, fun _ a ha => absurd ha not_mem_nil⟩
  | cons chunk chunks ih =>
    rw [forall_mem_cons] at hbase
    rw [storeRegions]
    by_cases hstop : (decide (result.world.memory.findContainingRegion chunk.1 =
        result.world.memory.regions.length) || !protects index) = true
    · rw [if_pos hstop]
      exact ⟨SameTables.refl _, fun _ _ => rfl, fun h => absurd h Bool.false_ne_true⟩
    rw [if_neg hstop]
    generalize hmid : (⟨false, result.world.setBytes
      (result.world.memory.offsetOf chunk.1) chunk.2 fun i => value (chunk.1 + i),
      result.mutations, result.bytesWritten + chunk.2, result.stored⟩ : StoreResult) = middle
    have hsame : SameTables result.world middle.world := by
      subst hmid
      exact ⟨rfl, fun _ => rfl⟩
    have hown : ∀ a, middle.world.contents (.own a) = if InRange chunk.1 chunk.2 a then
        value (chunk.1 + (a - chunk.1)) else result.world.contents (.own a) := by
      subst hmid
      exact contents_setBytes hbase.1 _ _
    have hframe : ∀ cell, (∀ a ∈ chunkAddresses chunk, cell ≠ .own a) →
        middle.world.contents cell = result.world.contents cell := by
      intro cell hcell
      cases cell with
      | backing id offset =>
        rw [← hmid]
        rfl
      | own a => exact (hown a).trans (if_neg fun ha => hcell a (mem_chunkAddresses.mpr ha) rfl)
    simp only [flatMap_cons, mem_append]
    split_ifs with hback
    · refine ⟨hsame, fun cell hcell => hframe cell fun a ha => hcell a (.inl ha), ?_⟩
      intro hdone
      rw [← hmid] at hdone
      cases hdone
    · obtain ⟨hrest, hrestFrame, hrestValue⟩ := ih (index + 2) _ (by
        rw [hsame.baseAddress]
        exact hbase.2)
      refine ⟨hsame.trans hrest, ?_, ?_⟩
      · intro cell hcell
        rw [hrestFrame cell fun a ha => hcell a (.inr ha),
          hframe cell fun a ha => hcell a (.inl ha)]
      intro hdone a ha
      by_cases hlater : a ∈ chunks.flatMap chunkAddresses
      · exact hrestValue hdone a hlater
      have hmissed : ∀ b ∈ chunks.flatMap chunkAddresses, Cell.own a ≠ .own b := by
        intro b hb heq
        rw [Cell.own.inj heq] at hlater
        exact hlater hb
      have hin := mem_chunkAddresses.mp (ha.resolve_right hlater)
      rw [hrestFrame _ hmissed, hown, if_pos ⟨hin.1, hin.2⟩, Nat.add_sub_cancel' hin.1]

theorem filled_initializePages {w : MemoryWorld} (h : w.WellFormed) (protects : ℕ → Bool)
    (hbase : w.memory.baseAddress ≤ address) (value : ℕ → UInt8) :
    Filled w address length value (initializePages w protects address length value).completed
      (notified (initializePages w protects address length value)) := by
  have hadvances := advances_regionStep h.tables
  have haddrs := flatMap_chunksOf hadvances address length
  have hchunks : ∀ chunk ∈ chunksOf (regionStep w.memory) address length,
      w.memory.baseAddress ≤ chunk.1 :=
    fun chunk hchunk => le_trans hbase (mem_chunksOf hadvances hchunk).1
  obtain ⟨hsame, hframe, hvalue⟩ := storeRegions_spec protects value 0 (w.begin {}) hchunks
  rw [haddrs] at hframe hvalue
  simp only [mem_range'_1] at hframe hvalue
  obtain ⟨-, -, -, hcont⟩ := sameTables_notified (initializePages w protects address length value)
  refine ⟨wellFormed_notified (hsame.wellFormed h), space_notified hsame, ?_, ?_⟩
  · intro cell hcell
    rw [hcont]
    exact hframe _ hcell
  · intro hdone a ha
    rw [hcont]
    exact hvalue hdone a ha

/-- What an initialization of private pages has done. -/
structure StorageFilled (s : GuestStorage) (address length : ℕ) (value : ℕ → UInt8)
    (result : Bool × GuestStorage) : Prop where
  mode : result.2.mode = s.mode
  filled : Filled s.world address length value result.1 result.2.world

theorem filled_initializeBytes (h : s.world.WellFormed) (host : HostCall)
    {source : List UInt8} (hmap : s.world.memory.isMappedLocked address source.length = true)
    (hown : ∀ a, InRange address source.length a → s.world.memory.sharing a = none) :
    StorageFilled s address source.length (fun a => source.getD (a - address) 0)
      (s.initializeBytes host address source) := by
  have hbase := (mapped_of_canAccessLocked h hmap).1
  rw [initializeBytes, hmap]
  by_cases hbuffered : source = [] ∨ s.mode = .buffered
  · rw [if_pos hbuffered]
    obtain ⟨passed, rest, hsplit, hstore, hdone⟩ := writeBytes_spec h _ _ hbase source {}
    exact ⟨rfl, .of_stored h hsplit hstore hdone (fun _ _ => trivial) hown⟩
  · rw [if_neg hbuffered]
    exact ⟨rfl, filled_initializePages h _ hbase _⟩

theorem filled_initializeFill (h : s.world.WellFormed) (host : HostCall)
    (hmap : s.world.memory.isMappedLocked address length = true) (value : UInt8)
    (hown : ∀ a, InRange address length a → s.world.memory.sharing a = none) :
    StorageFilled s address length (fun _ => value)
      (s.initializeFill host address length value) := by
  have hbase := (mapped_of_canAccessLocked h hmap).1
  rw [initializeFill, hmap]
  by_cases hbuffered : length = 0 ∨ s.mode = .buffered
  · rw [if_pos hbuffered]
    obtain ⟨passed, rest, hsplit, hstore, hdone⟩ := fillBytes_spec h _ _ hbase length value {}
    refine ⟨rfl, .of_stored h hsplit hstore hdone ?_ hown⟩
    intro a ha id offset hshare
    rw [hown a ha] at hshare
    cases hshare
  · rw [if_neg hbuffered]
    exact ⟨rfl, filled_initializePages h _ hbase _⟩

end GuestStorage

end KajPS5.Memory
