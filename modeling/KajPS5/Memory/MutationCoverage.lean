/-
# Mutation events cover what was stored

Each chunk a call stores is recorded under every alias of its backing bytes,
clipped to the alias. The report of a call therefore describes the set of guest
addresses whose cell was stored, whatever the order in which ranges arrived and
however early the call stopped. The events are the ranges of the report, or the
whole window once the report has given up.

One call records more than it stores: filling with zero clears the backing, and
clearing skips the last page of the 64-bit offset space.
-/

import KajPS5.Memory.Reachable

namespace KajPS5.Memory

open Math Spanned GuestMemoryProtection GuestMemory List

namespace MutationReport

variable {report : MutationReport} {addresses : Set ℕ}

/-- A report that has given up describes anything. -/
theorem Describes.of_wholeMemory (h : report.Describes addresses)
    (hwhole : report.wholeMemory = true) (addresses' : Set ℕ) : report.Describes addresses' :=
  ⟨h.apart, h.length_le, fun hexact => absurd hexact (by simp [hwhole])⟩

theorem Describes.congr {addresses' : Set ℕ} (h : report.Describes addresses)
    (heq : ∀ a, a ∈ addresses ↔ a ∈ addresses') : report.Describes addresses' :=
  ⟨h.apart, h.length_le, fun hexact a => (h.covers hexact a).trans (heq a)⟩

end MutationReport

namespace GuestMemory

open MutationReport

variable {m : GuestMemory}

/-- The addresses through which a list of mappings shows a range of a backing. -/
def AliasOf (mappings : List SharedMapping) (backing : BackingId)
    (backingStart backingEnd : ℕ) : Set ℕ :=
  {a | ∃ mapping ∈ mappings, mapping.backing = backing ∧ Covers mapping a ∧
    backingStart ≤ mapping.backingOffset + (a - mapping.address) ∧
      mapping.backingOffset + (a - mapping.address) < backingEnd}

variable {candidate : SharedMapping} {backingStart backingEnd a : ℕ}

theorem mem_aliasOf_cons {rest : List SharedMapping} {backing : BackingId} :
    a ∈ AliasOf (candidate :: rest) backing backingStart backingEnd ↔
      (candidate.backing = backing ∧ Covers candidate a ∧
        backingStart ≤ candidate.backingOffset + (a - candidate.address) ∧
          candidate.backingOffset + (a - candidate.address) < backingEnd) ∨
        a ∈ AliasOf rest backing backingStart backingEnd := by
  constructor
  · rintro ⟨mapping, hmem, hmap⟩
    rcases mem_cons.mp hmem with rfl | hmem
    · exact .inl hmap
    · exact .inr ⟨mapping, hmem, hmap⟩
  · rintro (hcandidate | ⟨mapping, hmem, hmap⟩)
    · exact ⟨candidate, mem_cons_self, hcandidate⟩
    · exact ⟨mapping, mem_cons_of_mem _ hmem, hmap⟩

/-- A mapping that shows nothing of the range is passed over. -/
theorem aliasOf_cons_of_not {rest : List SharedMapping} {backing : BackingId}
    (hnot : ∀ a, ¬(candidate.backing = backing ∧ Covers candidate a ∧
      backingStart ≤ candidate.backingOffset + (a - candidate.address) ∧
        candidate.backingOffset + (a - candidate.address) < backingEnd)) :
    AliasOf (candidate :: rest) backing backingStart backingEnd =
      AliasOf rest backing backingStart backingEnd :=
  Set.ext fun a => mem_aliasOf_cons.trans (or_iff_right (hnot a))

/-- The clipped range of one alias. -/
theorem inRange_alias_iff (a : ℕ) (hover : max backingStart candidate.backingOffset <
      min backingEnd (candidate.backingOffset + candidate.size)) :
    InRange (candidate.address + max backingStart candidate.backingOffset -
          candidate.backingOffset)
        (min backingEnd (candidate.backingOffset + candidate.size) -
          max backingStart candidate.backingOffset) a ↔
      Covers candidate a ∧ backingStart ≤ candidate.backingOffset + (a - candidate.address) ∧
        candidate.backingOffset + (a - candidate.address) < backingEnd := by
  have hcovers : Covers candidate a ↔
      candidate.address ≤ a ∧ a < candidate.address + candidate.size := Iff.rfl
  rw [hcovers, InRange]
  omega

variable {report : MutationReport} {addresses : Set ℕ}

/-- The loop over the aliases adds their clipped ranges. It reports an alias as
soon as one of the mappings overlaps the range. -/
theorem recordAliases_spec (backing : BackingId) (backingStart backingEnd : ℕ)
    (mappings : List SharedMapping) (h : report.Describes addresses) (reported : Bool) :
    (recordAliases backing backingStart backingEnd report reported mappings).1.Describes
        (addresses ∪ AliasOf mappings backing backingStart backingEnd) ∧
      ((reported = true ∨ ∃ a, a ∈ AliasOf mappings backing backingStart backingEnd) →
        (recordAliases backing backingStart backingEnd report reported mappings).2 = true) := by
  induction mappings generalizing report addresses reported with
  | nil => simpa [AliasOf, recordAliases] using h
  | cons candidate rest ih =>
    rw [recordAliases]
    by_cases hbacking : candidate.backing = backing
    · rw [if_neg (not_not.mpr hbacking)]
      by_cases hover : max backingStart candidate.backingOffset ≥
          min backingEnd (candidate.backingOffset + candidate.size)
      · rw [if_pos hover, aliasOf_cons_of_not]
        · exact ih h reported
        rintro a ⟨-, hcov, hlo, hhi⟩
        have hcov1 : candidate.address ≤ a := hcov.1
        have hcov2 : a < candidate.address + candidate.size := hcov.2
        omega
      · simp only
        have hadd := h.add
          (candidate.address + max backingStart candidate.backingOffset - candidate.backingOffset)
          (min backingEnd (candidate.backingOffset + candidate.size) -
            max backingStart candidate.backingOffset)
        split_ifs with hwhole
        · exact ⟨hadd.of_wholeMemory hwhole _, fun _ => rfl⟩
        obtain ⟨hdesc, hreported⟩ := ih hadd true
        refine ⟨hdesc.congr fun a => ?_, fun _ => hreported (.inl rfl)⟩
        have hclip := inRange_alias_iff a (not_le.mp hover)
        simp only [Set.mem_union, mem_aliasOf_cons, hbacking, true_and, or_assoc]
        rw [← hclip]
        exact Iff.rfl
    · rw [if_pos hbacking, aliasOf_cons_of_not fun a hcandidate => hbacking hcandidate.1]
      exact ih h reported

/-- The addresses that denote the same cell as one of the given ones. -/
def sameCells (m : GuestMemory) (addresses : List ℕ) : Set ℕ :=
  {a | ∃ b ∈ addresses, m.cellOf a = m.cellOf b}

/-- Recording a chunk adds all addresses of its cells. -/
theorem recordChunk_spec (hord : IsOrdered m.sharedMappings) {chunk : ℕ × ℕ}
    (hchunk : m.IsChunk chunk) (h : report.Describes addresses) :
    (m.recordChunk report chunk).Describes
      (addresses ∪ m.sameCells (chunkAddresses chunk)) := by
  rw [recordChunk]
  split_ifs with hwhole
  · exact h.of_wholeMemory hwhole _
  cases hat : m.sharedMappingAt chunk.1 with
  | none =>
    refine (h.add chunk.1 chunk.2).congr fun a => or_congr Iff.rfl ?_
    constructor
    · intro ha
      exact ⟨a, mem_chunkAddresses.mpr ha, rfl⟩
    · rintro ⟨b, hb, heq⟩
      rw [hchunk.cellOf_of_none hb hat, cellOf_eq_own_iff] at heq
      rw [heq.1]
      exact mem_chunkAddresses.mp hb
  | some source =>
    have hfound := hat
    rw [sharedMappingAt_eq hord] at hfound
    obtain ⟨hmem, hcov⟩ := mem_of_entryAt hfound
    have hlo : source.address ≤ chunk.1 := hcov.1
    have hpos := hchunk.size_pos
    -- The aliases of the chunk's backing range are the addresses of its cells.
    have hset : ∀ a, a ∈ AliasOf m.sharedMappings source.backing
          (source.backingOffset + (chunk.1 - source.address))
          (source.backingOffset + (chunk.1 - source.address) + chunk.2) ↔
        a ∈ m.sameCells (chunkAddresses chunk) := by
      intro a
      constructor
      · rintro ⟨mapping, hmap, hbacking, hcova, hfirst, hlast⟩
        have hshare : m.sharing a =
            some (mapping.backing, mapping.backingOffset + (a - mapping.address)) :=
          denote_of_mem hord hmap hcova
        have hb : chunk.1 + (mapping.backingOffset + (a - mapping.address) -
            (source.backingOffset + (chunk.1 - source.address))) ∈ chunkAddresses chunk :=
          mem_chunkAddresses.mpr ⟨by omega, by omega⟩
        refine ⟨_, hb, ?_⟩
        rw [cellOf_of_some hshare, hchunk.cellOf_of_some hb hat, hbacking]
        simp only [Cell.backing.injEq, true_and]
        omega
      · rintro ⟨b, hb, heq⟩
        rw [hchunk.cellOf_of_some hb hat, cellOf_eq_backing_iff] at heq
        obtain ⟨mapping, hmap, hcova, hvalue⟩ := (denote_eq_some_iff hord).mp heq
        have hboth : (mapping.backing, mapping.backingOffset + (a - mapping.address)) =
            (source.backing, source.backingOffset + (b - source.address)) := hvalue
        rw [Prod.mk.injEq] at hboth
        have hb' := mem_chunkAddresses.mp hb
        exact ⟨mapping, hmap, hboth.1, hcova, by omega, by omega⟩
    obtain ⟨hdesc, hreported⟩ := recordAliases_spec _
      (source.backingOffset + (chunk.1 - source.address))
      (source.backingOffset + (chunk.1 - source.address) + chunk.2) _ h false
    have htrue := hreported (.inr ⟨chunk.1, (hset chunk.1).mpr
      ⟨chunk.1, mem_chunkAddresses.mpr ⟨le_rfl, by omega⟩, rfl⟩⟩)
    simp only
    rcases hloop : recordAliases _ (source.backingOffset + (chunk.1 - source.address))
      (source.backingOffset + (chunk.1 - source.address) + chunk.2) report false
      m.sharedMappings with ⟨next, done⟩
    rw [hloop] at hdesc htrue
    obtain rfl : done = true := htrue
    exact hdesc.congr fun a => or_congr Iff.rfl (hset a)

theorem sameCells_append (first second : List ℕ) :
    m.sameCells (first ++ second) = m.sameCells first ∪ m.sameCells second := by
  ext a
  simp [sameCells, or_and_right, exists_or]

/-- A loop over chunks adds all addresses of their cells if each step adds those of its chunk. -/
theorem foldl_record_spec {record : MutationReport → ℕ × ℕ → MutationReport}
    {chunks : List (ℕ × ℕ)} (hrecord : ∀ chunk ∈ chunks, ∀ ⦃report addresses⦄,
      report.Describes addresses →
        (record report chunk).Describes (addresses ∪ m.sameCells (chunkAddresses chunk)))
    (h : report.Describes addresses) :
    (chunks.foldl record report).Describes
      (addresses ∪ m.sameCells (chunks.flatMap chunkAddresses)) := by
  induction chunks generalizing report addresses with
  | nil => simpa [sameCells] using h
  | cons chunk chunks ih =>
    rw [forall_mem_cons] at hrecord
    rw [flatMap_cons, sameCells_append, ← Set.union_assoc]
    exact ih hrecord.2 (hrecord.1 h)

section

variable (hord : IsOrdered m.sharedMappings)
include hord

/-- Recording a range adds all addresses of its cells. -/
theorem recordActualWriteRangeLocked_spec (address length : ℕ) (h : report.Describes addresses) :
    (m.recordActualWriteRangeLocked report address length).Describes
      (addresses ∪ m.sameCells (List.range' address length)) := by
  rw [← rangeChunks_addresses hord address length]
  exact foldl_record_spec (fun _ hmem _ _ => recordChunk_spec hord (isChunk_of_mem hord hmem)) h

theorem recordAll_spec (chunks : List (ℕ × ℕ)) (h : report.Describes addresses) :
    (MemoryWorld.recordAll m report chunks).Describes
      (addresses ∪ m.sameCells (chunks.flatMap chunkAddresses)) :=
  foldl_record_spec (fun chunk _ _ _ => recordActualWriteRangeLocked_spec hord chunk.1 chunk.2) h

end

/-! ## Events -/

theorem notifyMutationReport_fold (ranges : List MutationRange)
    (events : List GuestMemoryWriteEvent) (m : GuestMemory) :
    (ranges.foldl (fun (acc : List GuestMemoryWriteEvent × GuestMemory) r =>
        (acc.1 ++ [(acc.2.assignWriteGeneration r.address r.size).1],
          (acc.2.assignWriteGeneration r.address r.size).2)) (events, m)).1.map
        (fun e => (⟨e.address, e.size⟩ : MutationRange)) =
      events.map (fun e => (⟨e.address, e.size⟩ : MutationRange)) ++ ranges := by
  induction ranges generalizing events m with
  | nil => simp
  | cons r ranges ih =>
    rw [foldl_cons, ih]
    simp [assignWriteGeneration]

/-- The ranges of the delivered events are the notified ones. -/
theorem notifyMutationReport_ranges (m : GuestMemory) (report : MutationReport) :
    (m.notifyMutationReport report).1.map (fun e => (⟨e.address, e.size⟩ : MutationRange)) =
      m.notifiedRanges report :=
  notifyMutationReport_fold (m.notifiedRanges report) [] m

end GuestMemory

namespace StoreCall

/-- The addresses a call is asked to store. -/
def range : StoreCall → List ℕ
  | write address source | initializeBytes address source => List.range' address source.length
  | fill address length _ | initializeFill address length _ | copy address _ length =>
    List.range' address length

/-- The value a call stores behind an address. A copy moves bytes instead. -/
def value : StoreCall → ℕ → UInt8
  | write address source, a | initializeBytes address source, a => source.getD (a - address) 0
  | fill _ _ value, _ | initializeFill _ _ value, _ => value
  | copy _ _ _, _ => 0

def isCopy : StoreCall → Bool
  | copy _ _ _ => true
  | write _ _ | fill _ _ _ | initializeBytes _ _ | initializeFill _ _ _ => false

end StoreCall

namespace MemoryWorld

open MutationReport

variable {w : MemoryWorld}

/-- The range of an event. -/
def eventRange (event : GuestMemoryWriteEvent) : MutationRange := ⟨event.address, event.size⟩

theorem describes_store (h : w.WellFormed) (fault : Bool) (alloc : ℕ → ℕ → Bool)
    (call : StoreCall) :
    (w.store fault alloc call).mutations.Describes
      (w.memory.sameCells ((w.store fault alloc call).stored.flatMap chunkAddresses)) := by
  have hcall := callStored_store h fault alloc call
  rw [hcall.mutations]
  simpa using recordAll_spec h.tables.shared _ describes_empty

/-- An address that shares its cell with a mapped one is mapped. -/
theorem mapped_of_mem_sameCells (h : w.WellFormed) {addresses : List ℕ}
    (hmap : ∀ b ∈ addresses, (w.memory.protections b).isSome = true) {a : ℕ}
    (ha : a ∈ w.memory.sameCells addresses) : (w.memory.protections a).isSome = true := by
  obtain ⟨b, hb, heq⟩ := ha
  cases hshare : w.memory.sharing a with
  | some byte => exact h.tables.sharing_mapped a _ hshare
  | none =>
    rw [cellOf_of_none hshare] at heq
    obtain ⟨rfl, -⟩ := cellOf_eq_own_iff.mp heq.symm
    exact hmap b hb

theorem window_store {result : StoreResult} (hcall : CallStored w result) :
    result.world.memory.baseAddress = w.memory.baseAddress ∧
      result.world.memory.storageSize = w.memory.storageSize := by
  rw [hcall.same.memory]
  exact ⟨rfl, rfl⟩

/-- The events of a call cover the addresses of all chunks it got through. Unless
the report gave up, they cover no other address, and no two of them overlap or
touch. -/
theorem emitted_spec (h : w.WellFormed) (fault : Bool) (alloc : ℕ → ℕ → Bool) (call : StoreCall) :
    (∀ a ∈ w.memory.sameCells ((w.store fault alloc call).stored.flatMap chunkAddresses),
        ∃ event ∈ emitted (w.store fault alloc call), (eventRange event).Contains a) ∧
      ((w.store fault alloc call).mutations.wholeMemory = false →
        (∀ a, (∃ event ∈ emitted (w.store fault alloc call), (eventRange event).Contains a) →
          a ∈ w.memory.sameCells ((w.store fault alloc call).stored.flatMap chunkAddresses)) ∧
        ((emitted (w.store fault alloc call)).map eventRange).Pairwise
          MutationRange.Separated) := by
  have hcall := callStored_store h fault alloc call
  have hdesc := describes_store h fault alloc call
  generalize w.store fault alloc call = result at hcall hdesc ⊢
  have hranges : (emitted result).map eventRange =
      result.world.memory.notifiedRanges result.mutations :=
    notifyMutationReport_ranges _ _
  have hevent : ∀ r, r ∈ result.world.memory.notifiedRanges result.mutations ↔
      ∃ event ∈ emitted result, eventRange event = r := by
    intro r
    rw [← hranges, mem_map]
  cases hwhole : result.mutations.wholeMemory with
  | true =>
    refine ⟨fun a ha => ?_, by simp⟩
    have hmap := mapped_of_mem_sameCells h hcall.mapped ha
    obtain ⟨p, hp⟩ := Option.isSome_iff_exists.mp hmap
    have hwin := h.tables.inWindow a p hp
    obtain ⟨hbase, hsize⟩ := window_store hcall
    have hmem : (⟨result.world.memory.baseAddress, result.world.memory.storageSize⟩ :
        MutationRange) ∈ result.world.memory.notifiedRanges result.mutations := by
      simp only [notifiedRanges, hwhole, if_true, mem_filter, mem_singleton, true_and,
        decide_eq_true_eq]
      simp only [GuestMemory.InWindow, InRange] at hwin
      omega
    obtain ⟨event, hmemEvent, heq⟩ := (hevent _).mp hmem
    refine ⟨event, hmemEvent, ?_⟩
    rw [heq, hbase, hsize]
    exact hwin
  | false =>
    have hexact := hdesc.covers hwhole
    have hnotified : result.world.memory.notifiedRanges result.mutations =
        result.mutations.ranges := by
      rw [notifiedRanges, hwhole, if_neg (by simp), filter_eq_self]
      intro r hr
      have hpos := hdesc.apart.size_pos r hr
      simp only [decide_eq_true_eq]
      omega
    rw [hnotified] at hevent hranges
    refine ⟨fun a ha => ?_, fun _ => ⟨fun a hevents => ?_, ?_⟩⟩
    · obtain ⟨r, hr, hra⟩ := (hexact a).mpr ha
      obtain ⟨event, hmem, rfl⟩ := (hevent r).mp hr
      exact ⟨event, hmem, hra⟩
    · obtain ⟨event, hmem, ha⟩ := hevents
      exact (hexact a).mp ⟨eventRange _, (hevent _).mpr ⟨event, hmem, rfl⟩, ha⟩
    · rw [hranges]
      exact hdesc.apart.separated

/-! ## What a zero fill stores -/

variable (w)

/-- A store of the call to the address reaches its cell. -/
def Reaches : StoreCall → ℕ → Prop
  | .fill _ _ value, a | .initializeFill _ _ value, a => w.FillReaches value a
  | .write _ _, _ | .copy _ _ _, _ | .initializeBytes _ _, _ => True

/-- The addresses whose cell a call has stored, directly or through an alias. -/
def storedAddresses (call : StoreCall) (result : StoreResult) : Set ℕ :=
  {a | ∃ b ∈ result.stored.flatMap chunkAddresses,
    w.Reaches call b ∧ w.memory.cellOf a = w.memory.cellOf b}

/-- The chunks a fill with zero gets through. It allocates no page, so only the
test fault stops it, and that after the first chunk. -/
def clearedChunks (fault : Bool) (address length : ℕ) : List (ℕ × ℕ) :=
  if fault then (w.memory.rangeChunks address length).take 1
  else w.memory.rangeChunks address length

/-- The addresses a call fills with zero. -/
def clearedAddresses (fault : Bool) : StoreCall → List ℕ
  | .fill address length value =>
    if value = 0 ∧ w.memory.canAccessLocked address length kWrite then
      (w.clearedChunks fault address length).flatMap chunkAddresses
    else []
  | .initializeFill address length value =>
    if value = 0 ∧ w.memory.isMappedLocked address length then
      (w.clearedChunks fault address length).flatMap chunkAddresses
    else []
  | .write _ _ | .copy _ _ _ | .initializeBytes _ _ => []

variable {w}

theorem fillChunk_zero (h : w.WellFormed) (alloc : ℕ → ℕ → Bool) {chunk : ℕ × ℕ}
    (hchunk : w.memory.IsChunk chunk) : (fillChunk alloc 0 w chunk).1 = true := by
  rw [fillChunk]
  cases hat : w.memory.sharedMappingAt chunk.1 with
  | none => rfl
  | some mapping =>
    obtain ⟨-, hin⟩ := h.contains_chunk hchunk hat
    simp [setBacking, SharedMemoryBacking.fill, hin]

/-- A loop whose chunks all go through stores all of them, or just the first one
when the test fault is armed. -/
theorem storeChunks_stored (before : StoreResult) (fault : Bool)
    {store : MemoryWorld → ℕ × ℕ → Bool × MemoryWorld} {chunks : List (ℕ × ℕ)}
    (hstore : ∀ w, SameTables before.world w → ∀ chunk ∈ chunks,
      SameTables w (store w chunk).2 ∧ (store w chunk).1 = true) :
    (storeChunks fault store before chunks).stored =
      before.stored ++ if fault then chunks.take 1 else chunks := by
  induction chunks generalizing before with
  | nil => cases fault <;> simp [storeChunks]
  | cons chunk chunks ih =>
    obtain ⟨hfirst, hok⟩ := hstore _ (SameTables.refl _) chunk mem_cons_self
    rw [storeChunks]
    rcases hres : store before.world chunk with ⟨ok, world⟩
    rw [hres] at hfirst hok
    obtain rfl : ok = true := hok
    cases fault with
    | true => simp
    | false =>
      simp only [Bool.false_eq_true, if_false]
      rw [ih _ fun w hsame c hc => hstore w (hfirst.trans hsame) c (mem_cons_of_mem _ hc)]
      simp

theorem fillReaches_of_ne_zero (w : MemoryWorld) {value : UInt8} (hvalue : value ≠ 0) (a : ℕ) :
    w.FillReaches value a :=
  fun _ _ _ hzero => absurd hzero hvalue

section

variable (h : w.WellFormed) (fault : Bool) (alloc : ℕ → ℕ → Bool)
include h

theorem stored_fillBytes_zero {address : ℕ} (hbase : w.memory.baseAddress ≤ address) (length : ℕ) :
    (w.fillBytes fault alloc address length 0 {}).stored =
      w.clearedChunks fault address length := by
  rw [fillBytes, storeChunks_stored (w.begin {}) fault]
  · rfl
  intro w' hsame chunk hmem
  have hw' := hsame.wellFormed h
  have hchunk := hsame.isChunk (isChunk_of_mem h.tables.shared hmem)
  have hlo := (mem_chunksOf (advances_chunkStep h.tables.shared) hmem).1
  refine ⟨(chunkStored_fillChunk hw' alloc 0 hchunk ?_).same, fillChunk_zero hw' _ hchunk⟩
  rw [hsame.baseAddress]
  exact le_trans hbase hlo

variable {b : ℕ} (call : StoreCall)

/-- The two fills with zero store the chunks they clear. -/
theorem stored_zero (address length : ℕ) :
    (w.store fault alloc (.fill address length 0)).stored.flatMap chunkAddresses =
        w.clearedAddresses fault (.fill address length 0) ∧
      (w.store fault alloc (.initializeFill address length 0)).stored.flatMap chunkAddresses =
        w.clearedAddresses fault (.initializeFill address length 0) := by
  constructor
  · rw [store, fill, clearedAddresses]
    cases hacc : w.memory.canAccessLocked address length kWrite with
    | false => simp [begin]
    | true => simp [stored_fillBytes_zero h _ _ (mapped_of_canAccessLocked h hacc).1]
  · rw [store, initializeFill, clearedAddresses]
    cases hacc : w.memory.isMappedLocked address length with
    | false => simp [begin]
    | true => simp [stored_fillBytes_zero h _ _ (mapped_of_canAccessLocked h hacc).1]

/-- Every stored chunk address is reached, or it is one that a zero fill clears. -/
theorem reaches_or_mem_clearedAddresses
    (hb : b ∈ (w.store fault alloc call).stored.flatMap chunkAddresses) :
    w.Reaches call b ∨ b ∈ w.clearedAddresses fault call := by
  cases call with
  | write | copy | initializeBytes => exact .inl trivial
  | fill address length value =>
    by_cases hvalue : value = 0
    · subst hvalue
      exact .inr ((stored_zero h _ _ _ _).1 ▸ hb)
    · exact .inl (w.fillReaches_of_ne_zero hvalue b)
  | initializeFill address length value =>
    by_cases hvalue : value = 0
    · subst hvalue
      exact .inr ((stored_zero h _ _ _ _).2 ▸ hb)
    · exact .inl (w.fillReaches_of_ne_zero hvalue b)

/-- An address that a zero fill clears is a stored chunk address, and the stores
of the call reach a cell exactly below the last page. -/
theorem mem_stored_of_mem_clearedAddresses (hb : b ∈ w.clearedAddresses fault call) :
    b ∈ (w.store fault alloc call).stored.flatMap chunkAddresses ∧
      ∀ c, w.Reaches call c ↔ w.FillReaches 0 c := by
  cases call with
  | write | copy | initializeBytes => simp [clearedAddresses] at hb
  | fill address length value =>
    by_cases hvalue : value = 0
    · subst hvalue
      exact ⟨(stored_zero h _ _ _ _).1.symm ▸ hb, fun _ => Iff.rfl⟩
    · simp [clearedAddresses, hvalue] at hb
  | initializeFill address length value =>
    by_cases hvalue : value = 0
    · subst hvalue
      exact ⟨(stored_zero h _ _ _ _).2.symm ▸ hb, fun _ => Iff.rfl⟩
    · simp [clearedAddresses, hvalue] at hb

/-- No address that the call fills with zero shows a byte of the last page of a
backing's offset space. -/
def ClearsBelowLimit (w : MemoryWorld) (fault : Bool) (call : StoreCall) : Prop :=
  ∀ a ∈ w.clearedAddresses fault call, ∀ id offset,
    w.memory.sharing a = some (id, offset) → offset < SharedMemoryBacking.clearLimit

theorem reaches_of_clearsBelowLimit (hbelow : w.ClearsBelowLimit fault call)
    (hb : b ∈ (w.store fault alloc call).stored.flatMap chunkAddresses) : w.Reaches call b := by
  rcases reaches_or_mem_clearedAddresses h _ _ _ hb with hreach | hcleared
  · exact hreach
  · rw [(mem_stored_of_mem_clearedAddresses h _ alloc _ hcleared).2 b]
    exact fun id offset hsharing _ => hbelow b hcleared _ _ hsharing

end

/-! ## What a call stores in the contents -/

/-- A call gets through its range from the front, all of it if it completes, and
the contents are one pass over the cells behind what it got through, where its
stores reach them. -/
structure StoresRange (w : MemoryWorld) (call : StoreCall) (result : StoreResult) : Prop where
  front : result.stored.flatMap chunkAddresses <+: call.range
  whole : result.completed = true → result.stored.flatMap chunkAddresses = call.range
  contents : (∀ a ∈ result.stored.flatMap chunkAddresses, w.Reaches call a) →
    result.world.contents = storeCells w.memory.cellOf call.value
      (result.stored.flatMap chunkAddresses) w.contents

theorem StoresRange.of_stored (h : w.WellFormed) {call : StoreCall} {result : StoreResult}
    {passed rest : List (ℕ × ℕ)} {address length : ℕ} (hrange : call.range = range' address length)
    (hsplit : w.memory.rangeChunks address length = passed ++ rest)
    (hstored : Stored (w.begin {}) result passed call.value (w.Reaches call))
    (hdone : result.completed = true → rest = []) : w.StoresRange call result := by
  have hpassed : result.stored = passed := hstored.stored
  obtain ⟨haddresses, hle, hall⟩ := passed_addresses h hsplit
  refine ⟨?_, fun hcompleted => ?_, ?_⟩ <;> rw [hpassed]
  · rw [hrange, haddresses, ← Nat.add_sub_of_le hle, ← range'_append_1]
    exact prefix_append _ _
  · rw [hrange, haddresses, hall (hdone hcompleted)]
  · exact hstored.contents

theorem storesRange_store (h : w.WellFormed) (fault : Bool) (alloc : ℕ → ℕ → Bool)
    {call : StoreCall} (hcopy : call.isCopy = false) :
    w.StoresRange call (w.store fault alloc call) := by
  rcases store_cases h fault alloc call with hno | ⟨_, _, _, rfl⟩ |
    ⟨address, source, hcall, hacc, hstore⟩ | ⟨address, length, value, hcall, hacc, hstore⟩
  · rw [hno]
    exact ⟨ nil_prefix, nofun, fun _ => rfl⟩
  · cases hcopy
  · obtain ⟨passed, rest, hsplit, hstored, hdone⟩ := writeBytes_spec h fault alloc
      (mapped_of_canAccessLocked h hacc).1 source {}
    rw [hstore]
    rcases hcall with rfl | rfl <;> exact .of_stored h rfl hsplit hstored hdone
  · obtain ⟨passed, rest, hsplit, hstored, hdone⟩ := fillBytes_spec h fault alloc
      (mapped_of_canAccessLocked h hacc).1 length value {}
    rw [hstore]
    rcases hcall with rfl | rfl <;> exact .of_stored h rfl hsplit hstored hdone

/-- Every storing call on a reachable memory, also one that fails part way: the
events cover every address whose byte was stored, directly or through an alias,
and every address whose byte has changed. A call that is no copy has stored its
range from the front. Unless the report gave up, no two events overlap or touch,
and they cover no other address exactly when the call does not clear a byte of
the last page. -/
theorem emitted_exact_iff_clearsBelowLimit (hw : Reachable w) (fault : Bool)
    (alloc : ℕ → ℕ → Bool) (call : StoreCall) :
    (∀ a ∈ w.storedAddresses call (w.store fault alloc call),
        ∃ event ∈ emitted (w.store fault alloc call), (eventRange event).Contains a) ∧
      (∀ a, (w.store fault alloc call).world.contents (w.memory.cellOf a) ≠
          w.contents (w.memory.cellOf a) →
        ∃ event ∈ emitted (w.store fault alloc call), (eventRange event).Contains a) ∧
      (call.isCopy = false → w.StoresRange call (w.store fault alloc call)) ∧
      ((w.store fault alloc call).mutations.wholeMemory = false →
        ((emitted (w.store fault alloc call)).map eventRange).Pairwise MutationRange.Separated ∧
        ((∀ a, (∃ event ∈ emitted (w.store fault alloc call), (eventRange event).Contains a) →
            a ∈ w.storedAddresses call (w.store fault alloc call)) ↔
          w.ClearsBelowLimit fault call)) := by
  have h := hw.wellFormed
  obtain ⟨hcovered, hexact⟩ := emitted_spec h fault alloc call
  refine ⟨fun a ha => hcovered a ?_, fun a ha => hcovered a ?_, storesRange_store h fault alloc,
    fun hwhole => ⟨(hexact hwhole).2, ?_, ?_⟩⟩
  · obtain ⟨b, hb, -, heq⟩ := ha
    exact ⟨b, hb, heq⟩
  · by_contra hnot
    exact ha ((callStored_store h fault alloc call).frame _ fun b hb heq => hnot ⟨b, hb, heq⟩)
  · intro hall b hb id offset hsharing
    obtain ⟨hmem, hzero⟩ := mem_stored_of_mem_clearedAddresses h _ _ _ hb
    obtain ⟨c, hc, hreach, heq⟩ := hall b (hcovered b ⟨b, hmem, rfl⟩)
    -- The store that reached the cell went to the same backing byte.
    rw [cellOf_of_some hsharing] at heq
    exact (hzero c).mp hreach _ _ (cellOf_eq_backing_iff.mp heq.symm) rfl
  · intro hbelow a hevent
    obtain ⟨b, hb, heq⟩ := (hexact hwhole).1 a hevent
    exact ⟨b, hb, reaches_of_clearsBelowLimit h _ _ _ hbelow hb, heq⟩

/-- The statement for a write to a private page. -/
theorem emitted_cover_private_write : ∃ m, create 0x1000 0x8000 (kRead ||| kWrite) = some m ∧
      ∀ a ∈ (⟨m, fun _ => .create 0⟩ : MemoryWorld).storedAddresses (.write 0x1ffe [1, 2, 3])
          ((⟨m, fun _ => .create 0⟩ : MemoryWorld).store false (fun _ _ => true)
            (.write 0x1ffe [1, 2, 3])),
        ∃ event ∈ emitted ((⟨m, fun _ => .create 0⟩ : MemoryWorld).store false (fun _ _ => true)
            (.write 0x1ffe [1, 2, 3])), (eventRange event).Contains a := by
  have hcreate : create 0x1000 0x8000 (kRead ||| kWrite) = some _ := rfl
  exact ⟨_, hcreate, (emitted_exact_iff_clearsBelowLimit (Reachable.create hcreate _) _ _ _).1⟩

/-- One mapped page behind the last page of a backing of the largest size, with a
byte written to it. -/
def lastPageWorld (m : GuestMemory) : MemoryWorld :=
  ((⟨m, fun _ => .create (2 ^ 64 - 1)⟩ : MemoryWorld).step (.mapping
    (.mapShared {} 0x1000 0x1000 (kRead ||| kWrite) (some 0) (2 ^ 64 - 0x4000)))).step
      (.store false (fun _ _ => true) (.write 0x1000 [1]))

/-- Filling the byte with zero succeeds and is announced, but the byte stays. -/
theorem fill_announces_unstored_byte : ∃ m, create 0x1000 0x8000 kNone = some m ∧
      ((lastPageWorld m).fill false (fun _ _ => true) 0x1000 1 0).completed = true ∧
      ((lastPageWorld m).fill false (fun _ _ => true) 0x1000 1 0).mutations.wholeMemory = false ∧
      (emitted ((lastPageWorld m).fill false (fun _ _ => true) 0x1000 1 0)).map eventRange =
        [⟨0x1000, 1⟩] ∧
      0x1000 ∉ (lastPageWorld m).storedAddresses (.fill 0x1000 1 0)
        ((lastPageWorld m).fill false (fun _ _ => true) 0x1000 1 0) ∧
      (lastPageWorld m).byteAt 0x1000 = 1 ∧
      ((lastPageWorld m).fill false (fun _ _ => true) 0x1000 1 0).world.byteAt 0x1000 = 1 := by
  refine ⟨_, rfl, rfl, rfl, rfl, ?_, rfl, rfl⟩
  rintro ⟨b, hb, hreach, -⟩
  have hb' : b ∈ [0x1000] := hb
  obtain rfl := mem_singleton.mp hb'
  have hlimit : 2 ^ 64 - 0x4000 < SharedMemoryBacking.clearLimit :=
    hreach 0 (2 ^ 64 - 0x4000) rfl rfl
  exact absurd hlimit (by decide)

end MemoryWorld

end KajPS5.Memory
