/-
# Searching for an unmapped range

`FindUnmappedRange` goes once over the regions. Its candidate is always the next
aligned address behind the regions it has passed, so no address it jumps over can
start a free range. The answer is the least address at which the mapping is
allowed, and there is no answer only if there is no such address: a rounding that
leaves the words leaves the window as well.
-/

import KajPS5.Memory.StorageCalls

namespace KajPS5.Memory

open Math Spanned List GuestStorage

/-- `align_up` of the search. -/
def alignUp (alignment address : ℕ) : Option ℕ :=
  let mask := alignment - 1
  if uint64Max - mask < address then none else some (clearMask (address + mask) mask)

namespace GuestMemory

variable (m : GuestMemory) (length alignment : ℕ)

/-- The loop over the regions and the check behind it. -/
def searchRegions : List GuestMemoryRegion → ℕ → Option ℕ
  | [], candidate => if m.contains candidate length then some candidate else none
  | region :: rest, candidate =>
    let regionEnd := region.address + region.size
    if regionEnd ≤ candidate then searchRegions rest candidate
    else if candidate < region.address ∧ length ≤ region.address - candidate then some candidate
    else (alignUp alignment regionEnd).bind (searchRegions rest)

/-- The search once length and alignment are known. -/
def searchUnmapped (searchStart : ℕ) : Option ℕ :=
  (alignUp alignment (max searchStart m.baseAddress)).bind
    (m.searchRegions length alignment m.regions)

end GuestMemory

def GuestStorage.findUnmappedRange (s : GuestStorage) (searchStart length alignment : ℕ) :
    Option ℕ :=
  if length = 0 ∨ alignment = 0 ∨ alignment &&& (alignment - 1) ≠ 0 then none
  else match s.mode with
    | .buffered => s.world.memory.searchUnmapped length alignment searchStart
    | .hostMapped pageSize =>
      (alignLengthToPage length pageSize).bind fun length =>
        s.world.memory.searchUnmapped length (max alignment pageSize) searchStart

/-! ## The least address -/

/-- The bound of `align_up` only refuses addresses without a multiple behind them. -/
theorem leastOf_alignUp {k : ℕ} (hk : k < 64) (address : ℕ) :
    LeastOf (fun a => 2 ^ k ∣ a ∧ address ≤ a ∧ a ≤ uint64Max) (alignUp (2 ^ k) address) := by
  have hpos := Nat.two_pow_pos k
  have hwords : 2 ^ k ∣ uint64Max + 1 := Nat.pow_dvd_pow 2 hk.le
  rw [alignUp]
  split
  next h =>
    rintro a ⟨hdvd, hle, hword⟩
    -- The words are a multiple of the alignment, so the next multiple is outside.
    have := Nat.le_of_lt_add_of_dvd (show uint64Max + 1 < a + 2 ^ k by omega) hwords hdvd
    omega
  next h =>
    have hle := @roundDown_le (2 ^ k) (address + (2 ^ k - 1))
    have := Nat.le_of_dvd (Nat.succ_pos _) hwords
    rw [clearMask_two_pow]
    exact ⟨⟨dvd_roundDown, le_roundUp hpos, by omega⟩, fun a ha =>
      roundUp_le_of_dvd hpos ha.1 ha.2.1⟩

namespace GuestMemory

variable {m : GuestMemory} {length : ℕ} {p : ℕ → Prop}

theorem leastOf_searchRegions {k : ℕ} (hk : k < 64) (hlen : 0 < length)
    (hwin : m.storageSize ≤ uint64Max - m.baseAddress) {regions : List GuestMemoryRegion}
    (hord : IsOrdered regions)
    (hinside : ∀ r ∈ regions, start r ≤ m.baseAddress + m.storageSize) (candidate : ℕ)
    (haligned : 2 ^ k ∣ candidate) (hbase : m.baseAddress ≤ candidate)
    (hp : ∀ a, p a ↔ 2 ^ k ∣ a ∧ candidate ≤ a ∧ m.contains a length = true ∧
      ∀ r ∈ regions, stop r ≤ a ∨ a + length ≤ start r) :
    LeastOf p (m.searchRegions length (2 ^ k) regions candidate) := by
  induction regions generalizing candidate with
  | nil =>
    rw [searchRegions]
    split
    next h => exact ⟨(hp _).mpr ⟨haligned, le_rfl, h, by simp⟩, fun a ha => ((hp a).mp ha).2.1⟩
    next h =>
      intro a ha
      obtain ⟨-, hle, hin, -⟩ := (hp a).mp ha
      rw [contains_iff] at hin h
      omega
  | cons region rest ih =>
    have hrest := ih hord.tail fun r hr => hinside r (mem_cons_of_mem _ hr)
    simp only [searchRegions]
    split
    next hpassed =>
      refine hrest candidate haligned hbase fun a => (hp a).trans ?_
      rw [forall_mem_cons]
      exact ⟨fun ⟨hdvd, hle, hin, _, hfree⟩ => ⟨hdvd, hle, hin, hfree⟩,
        fun ⟨hdvd, hle, hin, hfree⟩ => ⟨hdvd, hle, hin, .inl (hpassed.trans hle), hfree⟩⟩
    next hpassed =>
    split
    next hfits =>
      have hregion : region.address ≤ _ := hinside region mem_cons_self
      have hfirst : candidate + length ≤ region.address := by omega
      refine ⟨(hp _).mpr ⟨haligned, le_rfl, contains_iff.mpr (by omega),
        forall_mem_cons.mpr ⟨.inr hfirst, fun r hr => .inr ?_⟩⟩, fun a ha =>
        ((hp a).mp ha).2.1⟩
      exact (hfirst.trans (Nat.le_add_right _ _)).trans (hord.head_before hr)
    next hfits =>
      -- No free range starts in front of the region's end.
      have hbehind : ∀ a, p a → 2 ^ k ∣ a ∧ region.address + region.size ≤ a ∧ a ≤ uint64Max := by
        intro a ha
        obtain ⟨hdvd, hle, hin, hfree⟩ := (hp a).mp ha
        have hregion : region.address + region.size ≤ a ∨ a + length ≤ region.address :=
          hfree region mem_cons_self
        rw [contains_iff] at hin
        exact ⟨hdvd, by omega⟩
      refine (leastOf_alignUp hk _).bind hbehind ?_
      rintro next ⟨hdvd, hle, -⟩ hleast
      refine hrest next hdvd (by omega) fun a => ⟨fun ha => ?_, fun ⟨hdvd, hnext, hfree⟩ => ?_⟩
      · obtain ⟨hdvd, -, hin, hfree⟩ := (hp a).mp ha
        exact ⟨hdvd, hleast a ha, hin, (forall_mem_cons.mp hfree).2⟩
      · exact (hp a).mpr ⟨hdvd, by omega, hfree.1,
          forall_mem_cons.mpr ⟨.inl (hle.trans hnext), hfree.2⟩⟩

/-- The search finds the least aligned address at which the range can be mapped. -/
theorem leastOf_searchUnmapped {k : ℕ} (hk : k < 64) (hlen : 0 < length) (h : m.WellFormed)
    (searchStart : ℕ) (hp : ∀ a, p a ↔ 2 ^ k ∣ a ∧ searchStart ≤ a ∧ m.baseAddress ≤ a ∧
      m.canMapLocked a length = true) :
    LeastOf p (m.searchUnmapped length (2 ^ k) searchStart) := by
  have hmap : ∀ a, m.canMapLocked a length = true ↔ m.contains a length = true ∧
      ∀ r ∈ m.regions, stop r ≤ a ∨ a + length ≤ start r := by
    intro a
    rw [canMapLocked, if_neg hlen.ne', ← hasGap_iff h.regions (Nat.le_add_right _ _)]
    cases m.contains a length <;> simp
  simp only [hmap] at hp
  refine (leastOf_alignUp hk _).bind (fun a ha => ?_) ?_
  · obtain ⟨hdvd, hstart, hbase, hin, -⟩ := (hp a).mp ha
    rw [contains_iff] at hin
    have hwin := h.window
    exact ⟨hdvd, max_le hstart hbase, by omega⟩
  · rintro first ⟨hdvd, hle, -⟩ hleast
    rw [max_le_iff] at hle
    refine leastOf_searchRegions hk hlen h.window h.regions (fun r hr => ?_) first hdvd hle.2
      fun a => ⟨fun ha => ⟨((hp a).mp ha).1, hleast a ha, ((hp a).mp ha).2.2.2⟩, fun ha => ?_⟩
    · exact (Nat.le_add_right _ _).trans (h.region_inWindow hr).2
    · exact (hp a).mpr ⟨ha.1, hle.1.trans ha.2.1, hle.2.trans ha.2.1, ha.2.2⟩

end GuestMemory

/-- Lengths are only rounded to pages whose size is a power of two. -/
theorem exists_two_pow_of_alignLengthToPage {length pageSize pages : ℕ}
    (h : alignLengthToPage length pageSize = some pages) :
    0 < pages ∧ ∃ j < 64, pageSize = 2 ^ j := by
  simp only [alignLengthToPage, Option.ite_none_left_eq_some, Option.some.injEq, not_or,
    not_not] at h
  obtain ⟨⟨hlen, hpage⟩, ⟨hbits, hle⟩, rfl⟩ := h
  obtain ⟨j, rfl⟩ := exists_eq_two_pow hpage hbits
  rw [clearMask_two_pow]
  refine ⟨(Nat.pos_of_ne_zero hlen).trans_le (le_roundUp (Nat.two_pow_pos j)), j, ?_, rfl⟩
  rw [← Nat.pow_lt_pow_iff_right Nat.one_lt_two]
  have hmax : uint64Max = 2 ^ 64 - 1 := rfl
  omega

/-- The answer is the least aligned address from the start of the search on at which the mapping
is allowed; without an answer there is none. -/
theorem findUnmappedRange_least (s : GuestStorage) (h : s.world.memory.WellFormed)
    (k : ℕ) (hk : k < 64) (searchStart length : ℕ) :
    LeastOf (fun a => 2 ^ k ∣ a ∧ searchStart ≤ a ∧ s.world.memory.baseAddress ≤ a ∧
      s.canMap a length = true) (s.findUnmappedRange searchStart length (2 ^ k)) := by
  have hbits : 2 ^ k &&& (2 ^ k - 1) = 0 := by rw [Nat.and_two_pow_sub_one_eq_mod, Nat.mod_self]
  rw [findUnmappedRange]
  split
  next hnone =>
    have hlength : length = 0 := by simpa [hbits] using hnone
    rintro a ⟨-, -, -, hcan⟩
    simp [canMap, hlength] at hcan
  next hsome =>
    rw [not_or] at hsome
    have hlength := Nat.pos_of_ne_zero hsome.1
    split
    next hmode =>
      refine GuestMemory.leastOf_searchUnmapped hk hlength h _ fun a => ?_
      simp [canMap, pageLength, hmode, hsome.1]
    next pageSize hmode =>
      cases hpages : alignLengthToPage length pageSize with
      | none =>
        rintro a ⟨-, -, -, hcan⟩
        simp [canMap, pageLength, hmode, hpages] at hcan
      | some pages =>
        obtain ⟨hpos, j, hj, rfl⟩ := exists_two_pow_of_alignLengthToPage hpages
        rw [← (pow_right_mono₀ one_le_two).map_max, Option.bind_some]
        refine GuestMemory.leastOf_searchUnmapped (max_lt hk hj) hpos h _ fun a => ?_
        rw [two_pow_max_dvd_iff, Nat.dvd_iff_mod_eq_zero (m := 2 ^ j)]
        by_cases hoff : a % 2 ^ j = 0 <;>
          simp [canMap, pageLength, hmode, hsome.1, hpages, hoff]

/-- Two regions are in the way: the first covers the first candidate, and the gap in front of the
second is too short. -/
theorem searched_behind_regions : ∃ m, GuestMemory.create 20 64 0 = some m ∧
    let m := m.run (fun _ => .create 0) [.map {} 24 8 GuestMemoryProtection.kRead,
      .map {} 44 4 GuestMemoryProtection.kRead]
    m.regions.map (·.address) = [24, 44] ∧
    LeastOf (fun a => 2 ^ 3 ∣ a ∧ 5 ≤ a ∧ m.baseAddress ≤ a ∧
      GuestStorage.canMap ⟨.buffered, ⟨m, fun _ => .create 0⟩⟩ a 16 = true) (some 48) := by
  have hm := GuestMemory.run_wellFormed (fun _ => .create 0)
    (@GuestMemory.create_spec _ 20 64 0 rfl).1 [.map {} 24 8 GuestMemoryProtection.kRead,
      .map {} 44 4 GuestMemoryProtection.kRead]
  exact ⟨_, rfl, rfl, findUnmappedRange_least ⟨.buffered, ⟨_, _⟩⟩ hm 3 (by decide) 5 16⟩

end KajPS5.Memory
