/-
# Initializing mapped memory

The loaders fill the ranges they have mapped through `Initialize`, which asks for
a mapped range and no permission. Over a mapped range the call is one pass over
the cells behind it. It can only stop early when the test fault is armed or when
the host has no page for a shared backing the range lies in, and then everything
outside the range is as it was.
-/

import KajPS5.Memory.CellHistory

namespace KajPS5.Memory

open Math GuestMemory

/-- What the host and the test hooks answer during one storing call. -/
structure HostAnswers where
  /-- The test fault that stops a store after its first chunk. -/
  fault : Bool := false
  /-- For the chunk at an address, which page allocations succeed. -/
  alloc : ℕ → ℕ → Bool := fun _ _ => true

namespace SharedMemoryBacking

variable {alloc : ℕ → Bool} {b : SharedMemoryBacking}

/-- Only a refused allocation keeps the pages of a range from being there. -/
theorem refused_of_ensurePagesFrom {l : List ℕ} (h : (ensurePagesFrom alloc b l).1 = false) :
    ∃ page, alloc page = false := by
  induction l generalizing b with
  | nil => exact absurd h (by simp [ensurePagesFrom])
  | cons page rest ih =>
    rw [ensurePagesFrom] at h
    split_ifs at h with hsome halloc
    · exact ih h
    · exact ih h
    · exact ⟨page, by simpa using halloc⟩

/-- A write inside the backing fails only for want of a page. -/
theorem refused_of_write {offset : ℕ} {source : List UInt8}
    (hin : b.contains offset source.length = true)
    (h : (b.write alloc offset source).1 = false) : ∃ page, alloc page = false := by
  rw [write, if_pos hin] at h
  cases hensure : b.ensurePagesLocked alloc offset source.length with
  | mk ok b' =>
    rw [hensure] at h
    cases ok with
    | true => exact absurd h.symm Bool.false_ne_true
    | false =>
      rw [ensurePagesLocked] at hensure
      split_ifs at hensure with hlen
      · exact absurd (congrArg Prod.fst hensure).symm Bool.false_ne_true
      · exact refused_of_ensurePagesFrom (congrArg _ hensure)

end SharedMemoryBacking

namespace MemoryWorld

variable {w w' : MemoryWorld}

/-- `Initialize`: its answer and the memory it leaves. -/
def initialized (w : MemoryWorld) (host : HostAnswers) (address : ℕ) (source : List UInt8) :
    Bool × MemoryWorld :=
  let result := w.store host.fault host.alloc (.initializeBytes address source)
  (result.completed, notified result)

/-- A store to the range may be stopped: the fault is armed, or the host refuses
a page while part of the range shows a backing. -/
def MayStop (w : MemoryWorld) (host : HostAnswers) (address length : ℕ) : Prop :=
  host.fault = true ∨ ∃ a, InRange address length a ∧ (w.memory.sharing a).isSome = true ∧
      ∃ chunk page, host.alloc chunk page = false

/-- Two worlds with the same mappings, both in shape. -/
structure SameSpace (w w' : MemoryWorld) : Prop where
  wellFormed : w'.WellFormed
  protections : w'.memory.protections = w.memory.protections
  sharing : w'.memory.sharing = w.memory.sharing

namespace SameSpace

theorem refl (h : w.WellFormed) : SameSpace w w := ⟨h, rfl, rfl⟩

theorem trans {w'' : MemoryWorld} (h : SameSpace w w') (h' : SameSpace w' w'') : SameSpace w w'' :=
  ⟨h'.wellFormed, h'.protections.trans h.protections, h'.sharing.trans h.sharing⟩

theorem cellOf (h : SameSpace w w') : w'.memory.cellOf = w.memory.cellOf := by
  funext a
  rw [GuestMemory.cellOf, GuestMemory.cellOf, h.sharing]

variable {length : ℕ}

theorem isMappedLocked (hw : w.WellFormed) (h : SameSpace w w') {address : ℕ} (hlen : length ≠ 0) :
    w'.memory.isMappedLocked address length = w.memory.isMappedLocked address length := by
  rw [Bool.eq_iff_iff, isMappedLocked_iff h.wellFormed.tables hlen,
    isMappedLocked_iff hw.tables hlen, Mapped, Mapped,
    h.protections]

theorem mayStop (h : SameSpace w w') {host : HostAnswers} {address : ℕ} :
    w'.MayStop host address length ↔ w.MayStop host address length := by
  rw [MayStop, MayStop, h.sharing]

end SameSpace

/-! ## What keeps a loop from completing -/

variable {address : ℕ} {source : List UInt8}

/-- A chunk that cannot be written lies in a shared mapping, and the host has
refused a page. -/
theorem refused_of_writeChunk (h : w.WellFormed) {alloc : ℕ → ℕ → Bool} {chunk : ℕ × ℕ}
    (hchunk : w.memory.IsChunk chunk) (hlo : address ≤ chunk.1)
    (hhi : chunk.1 + chunk.2 ≤ address + source.length)
    (hfail : (writeChunk alloc address source w chunk).1 = false) :
    (w.memory.sharing chunk.1).isSome = true ∧ ∃ page, alloc chunk.1 page = false := by
  rw [writeChunk] at hfail
  cases hat : w.memory.sharedMappingAt chunk.1 with
  | none =>
    rw [hat] at hfail
    exact absurd hfail.symm Bool.false_ne_true
  | some mapping =>
    obtain ⟨-, hin⟩ := h.contains_chunk hchunk hat
    have hlen : ((source.drop (chunk.1 - address)).take chunk.2).length = chunk.2 := by
      rw [List.length_take, List.length_drop]
      omega
    simp only [hat] at hfail
    have hfirst := hchunk.sharing _ (mem_chunkAddresses.mpr
      ⟨le_rfl, Nat.lt_add_of_pos_right hchunk.size_pos⟩)
    refine ⟨by rw [hfirst, hat]; rfl, SharedMemoryBacking.refused_of_write ?_ hfail⟩
    rw [hlen]
    exact hin

/-- A loop that does not complete has the fault armed or stopped at a chunk. -/
theorem stopped_of_storeChunks {before : StoreResult} {fault : Bool}
    {store : MemoryWorld → ℕ × ℕ → Bool × MemoryWorld} {chunks : List (ℕ × ℕ)}
    (hsame : ∀ w, SameTables before.world w → ∀ chunk ∈ chunks, SameTables w (store w chunk).2)
    (h : (storeChunks fault store before chunks).completed = false) :
    fault = true ∨ ∃ chunk ∈ chunks, ∃ w, SameTables before.world w ∧
      (store w chunk).1 = false := by
  induction chunks generalizing before with
  | nil => exact absurd h.symm Bool.false_ne_true
  | cons chunk chunks ih =>
    have hfirst := hsame _ (SameTables.refl _) chunk List.mem_cons_self
    rw [storeChunks] at h
    cases hres : store before.world chunk with
    | mk ok world =>
      rw [hres] at h hfirst
      cases ok with
      | false =>
        exact .inr ⟨chunk, List.mem_cons_self, before.world, SameTables.refl _, by rw [hres]⟩
      | true =>
        cases fault with
        | true => exact .inl rfl
        | false =>
          have hrest := ih (fun w hw c hc => hsame w (hfirst.trans hw) c
            (List.mem_cons_of_mem _ hc)) h
          refine hrest.imp_right ?_
          rintro ⟨c, hc, w, hw, hfail⟩
          exact ⟨c, List.mem_cons_of_mem _ hc, w, hfirst.trans hw, hfail⟩

variable {host : HostAnswers}

theorem mayStop_of_writeBytes (h : w.WellFormed) (hbase : w.memory.baseAddress ≤ address)
    (hfail : (w.writeBytes host.fault host.alloc address source {}).completed = false) :
    w.MayStop host address source.length := by
  have hchunk : ∀ chunk ∈ w.memory.rangeChunks address source.length,
      w.memory.IsChunk chunk ∧ address ≤ chunk.1 ∧ 0 < chunk.2 ∧
        chunk.1 + chunk.2 ≤ address + source.length := by
    intro chunk hmem
    obtain ⟨hlo, hpos, hhi, -⟩ := mem_chunksOf (advances_chunkStep h.tables.shared) hmem
    exact ⟨isChunk_of_mem h.tables.shared hmem, hlo, hpos, hhi⟩
  have hsame : ∀ w', SameTables (w.begin {}).world w' →
      ∀ chunk ∈ w.memory.rangeChunks address source.length,
        SameTables w' (writeChunk host.alloc address source w' chunk).2 := by
    intro w' hsame chunk hmem
    obtain ⟨hchunk, hlo, -, hhi⟩ := hchunk _ hmem
    exact (chunkStored_writeChunk (hsame.wellFormed h) _ (hsame.isChunk hchunk)
      (by rw [hsame.baseAddress]; exact le_trans hbase hlo) hlo hhi).same
  rcases stopped_of_storeChunks hsame hfail with hfault | ⟨chunk, hmem, w', hsame, hstop⟩
  · exact .inl hfault
  obtain ⟨hchunk, hlo, hpos, hhi⟩ := hchunk _ hmem
  obtain ⟨hshared, page, halloc⟩ := refused_of_writeChunk (hsame.wellFormed h)
    (hsame.isChunk hchunk) hlo hhi hstop
  rw [hsame.sharing] at hshared
  exact .inr ⟨chunk.1, ⟨hlo, by omega⟩, hshared, chunk.1, page, halloc⟩

/-! ## The call -/

/-- What a call that initializes a mapped range has done. -/
structure Initialization (w : MemoryWorld) (host : HostAnswers) (address length : ℕ)
    (value : ℕ → UInt8) (result : Bool × MemoryWorld) : Prop where
  space : SameSpace w result.2
  /-- A call that answers true has stored every byte. -/
  contents : result.1 = true → result.2.contents =
    storeCells w.memory.cellOf value (List.range' address length) w.contents
  /-- A call that answers false was stopped by the host or the test fault. -/
  stopped : result.1 = false → w.MayStop host address length
  frame : ∀ cell, (∀ a, InRange address length a → cell ≠ w.memory.cellOf a) →
    result.2.contents cell = w.contents cell

/-- The account of a loop over a mapped range, once its events are delivered. -/
theorem Initialization.of_stored (h : w.WellFormed) {length : ℕ} {value : ℕ → UInt8}
    {reaches : ℕ → Prop} {result : StoreResult} {passed rest : List (ℕ × ℕ)}
    (hsplit : w.memory.rangeChunks address length = passed ++ rest)
    (hstore : Stored (w.begin {}) result passed value reaches)
    (hdone : result.completed = true → rest = [])
    (hreach : ∀ a, InRange address length a → reaches a)
    (hstop : result.completed = false → w.MayStop host address length) :
    Initialization w host address length value (result.completed, notified result) := by
  have hsame : SameTables w result.world := hstore.same
  obtain ⟨hshare, hprot, -, hcont⟩ := sameTables_notified result
  obtain ⟨haddrs, -, hall⟩ := passed_addresses h hsplit
  have hin := inRange_of_passed h hsplit
  exact
    { space :=
        { wellFormed := wellFormed_notified (hsame.wellFormed h)
          protections := hprot.trans hsame.protections
          sharing := hshare.trans hsame.sharing }
      contents := fun hok => by
        have hlen := hall (hdone hok)
        rw [hlen] at haddrs
        rw [hcont, hstore.contents fun a ha => hreach a (hin a ha), haddrs]
        rfl
      stopped := hstop
      frame := fun cell hcell => by
        rw [hcont]
        exact hstore.frame _ fun a ha => hcell a (hin a ha) }

/-- Initializing a mapped range. -/
theorem initialization_initialized (h : w.WellFormed) (host : HostAnswers)
    (hmap : w.memory.isMappedLocked address source.length = true) :
    Initialization w host address source.length (fun a => source.getD (a - address) 0)
      (w.initialized host address source) := by
  have hbase := (mapped_of_canAccessLocked h hmap).1
  obtain ⟨passed, rest, hsplit, hstore, hdone⟩ := writeBytes_spec h _ _ hbase source {}
  have hcall : w.store host.fault host.alloc (.initializeBytes address source) =
      w.writeBytes host.fault host.alloc address source {} := by
    rw [store, initializeBytes, hmap]
    rfl
  rw [initialized, hcall]
  exact .of_stored h hsplit hstore hdone (fun _ _ => trivial) (mayStop_of_writeBytes h hbase)

end MemoryWorld

end KajPS5.Memory
