/-
# What the mapping tables denote

Each table of a guest memory denotes a map of the address space: the regions
denote the protections, the identities the mapping generations, the shared
mappings the backing bytes. This module states what a well-formed set of tables
is and reduces every query to those three maps: a mappability check asks that a
range is unmapped, an access check that every byte of it has the requested bits,
and a mapping token is the newest generation along it.
-/

import Mathlib.Order.Bounds.Basic
import KajPS5.Memory.GuestMemory

namespace KajPS5.Memory

open Math Spanned GuestMemoryProtection

namespace GuestMemory

/-- The protection of every mapped address. -/
def protections (m : GuestMemory) : AddressMap GuestMemoryProtection := denote m.regions

/-- The generation at which every mapped address was mapped. -/
def identities (m : GuestMemory) : AddressMap GuestMemoryGeneration :=
  denote m.mappingIdentityRegions

/-- The backing byte behind every shared address. -/
def sharing (m : GuestMemory) : AddressMap BackingByte := denote m.sharedMappings

/-- The address lies in the window. -/
def InWindow (m : GuestMemory) (a : ℕ) : Prop := InRange m.baseAddress m.storageSize a

/-- The shape every table keeps, and how the tables agree with each other. -/
structure WellFormed (m : GuestMemory) : Prop where
  window : m.storageSize ≤ uint64Max - m.baseAddress
  regions : IsOrdered m.regions
  coalesced : m.regions.IsChain fun r s => mergeable r s = false
  inWindow : ∀ a p, m.protections a = some p → m.InWindow a
  identityRegions : IsOrdered m.mappingIdentityRegions
  identities_isSome : ∀ a, (m.identities a).isSome = (m.protections a).isSome
  identities_le : ∀ a g, m.identities a = some g → g ≤ m.nextMappingGeneration
  shared : IsOrdered m.sharedMappings
  sharing_mapped : ∀ a b, m.sharing a = some b → (m.protections a).isSome = true

variable {m : GuestMemory}

variable {address length : ℕ}

theorem contains_iff : m.contains address length = true ↔ m.baseAddress ≤ address ∧
      address < m.baseAddress + m.storageSize ∧
        address + length ≤ m.baseAddress + m.storageSize := by
  simp only [contains]
  split_ifs with hbelow habove
  · simp only [false_iff]
    omega
  · simp only [false_iff]
    omega
  · rw [decide_eq_true_iff]
    omega

/-- Every byte of a region is mapped with its protection, so a region lies in
the window as a whole. -/
theorem WellFormed.region_inWindow (h : m.WellFormed) {r : GuestMemoryRegion} (hr : r ∈ m.regions) :
    m.baseAddress ≤ r.address ∧ r.address + r.size ≤ m.baseAddress + m.storageSize := by
  have hpos : 0 < r.size := h.regions.size_pos r hr
  have hfirst : Covers r r.address := ⟨le_rfl, Nat.lt_add_of_pos_right hpos⟩
  have hlast : Covers r (r.address + (r.size - 1)) :=
    ⟨Nat.le_add_right _ _, Nat.add_lt_add_left (Nat.sub_lt hpos Nat.one_pos) _⟩
  have hlo := h.inWindow _ _ (denote_of_mem h.regions hr hfirst)
  have hhi := h.inWindow _ _ (denote_of_mem h.regions hr hlast)
  simp only [InWindow, InRange] at hlo hhi
  omega

/-! ## Mappability -/

theorem canMapLocked_iff (h : m.WellFormed) :
    m.canMapLocked address length = true ↔ 0 < length ∧ m.contains address length = true ∧
      ∀ a, InRange address length a → m.protections a = none := by
  simp only [canMapLocked]
  split_ifs with hlen hin
  · simp [hlen]
  · simp only [Bool.not_eq_true'] at hin
    simp [hin]
  have hlt : address < address + length := by omega
  simp only [Bool.not_eq_true', Bool.not_eq_false] at hin
  rw [hasGap_iff h.regions (le_of_lt hlt), ← forall_denote_eq_none_iff h.regions hlt]
  constructor
  · exact fun hfree => ⟨by omega, hin, fun a ha => hfree a ha.1 ha.2⟩
  · exact fun hfree a hlo hhi => hfree.2.2 a ⟨hlo, hhi⟩

/-- An unmapped address is in no table. -/
theorem WellFormed.free_of_unmapped (h : m.WellFormed) {a : ℕ} (ha : m.protections a = none) :
    m.identities a = none ∧ m.sharing a = none := by
  have hidentity : (m.identities a).isSome = false := by rw [h.identities_isSome, ha]; rfl
  refine ⟨by simpa using hidentity, ?_⟩
  cases hshared : m.sharing a with
  | none => rfl
  | some b =>
    have hmap := h.sharing_mapped a b hshared
    rw [ha] at hmap
    cases hmap

/-- A mappable range is free in every table. -/
theorem WellFormed.free_of_canMapLocked (h : m.WellFormed)
    (hmap : m.canMapLocked address length = true) {a : ℕ} (ha : InRange address length a) :
    m.protections a = none ∧ m.identities a = none ∧ m.sharing a = none := by
  have hfree := ((canMapLocked_iff h).mp hmap).2.2 a ha
  exact ⟨hfree, h.free_of_unmapped hfree⟩

/-! ## Access -/

/-- The access loop is a walk over consecutive regions that looks at each
region's bits. -/
theorem accessWalk_eq (required : GuestMemoryProtection) (t : List GuestMemoryRegion)
    (current remaining : ℕ) :
    accessWalk required t current remaining = (coverWalk t current remaining).any fun l =>
        l.all fun r => hasProtection r.protection required := by
  induction t generalizing current remaining with
  | nil => rfl
  | cons region rest ih =>
    have hstop : stop region = region.address + region.size := rfl
    rw [accessWalk, coverWalk]
    by_cases hcov : Covers region current
    · have hlo : region.address ≤ current := hcov.1
      have hhi : current < region.address + region.size := hcov.2
      rw [if_neg (by omega), if_pos hcov]
      by_cases hbits : hasProtection region.protection required = true
      · rw [hbits, Bool.not_true, if_neg (by simp)]
        by_cases hlast : remaining ≤ stop region - current
        · rw [if_pos hlast]
          rw [if_pos (show remaining - min remaining (region.address + region.size - current) = 0
            by omega), ite_self]
          simp [hbits]
        · rw [if_neg hlast]
          rw [hstop] at hlast ⊢
          rw [if_neg (by omega), if_neg (by omega), ih]
          have hmin : min remaining (region.address + region.size - current) =
              region.address + region.size - current := by omega
          have hnext : current + (region.address + region.size - current) =
              region.address + region.size := by omega
          rw [hmin, hnext]
          cases coverWalk rest (region.address + region.size)
            (remaining - (region.address + region.size - current)) <;> simp [hbits]
      · simp only [Bool.not_eq_true] at hbits
        rw [hbits, Bool.not_false, if_pos rfl]
        split_ifs with hlast
        · simp [hbits]
        · cases coverWalk rest (stop region) (remaining - (stop region - current)) <;> simp [hbits]
    · have hout : current < region.address ∨ current ≥ region.address + region.size :=
        not_covers_iff.mp hcov
      rw [if_pos hout, if_neg hcov]
      rfl

/-- Every address of the range is mapped with all the requested bits. An empty
range stands for its first address. -/
def Accessible (m : GuestMemory) (address length : ℕ) (required : GuestMemoryProtection) : Prop :=
  ∀ a, InRange address (max length 1) a →
    ∃ p, m.protections a = some p ∧ hasProtection p required = true

theorem canAccessLocked_iff (h : m.WellFormed) {required : GuestMemoryProtection} :
    m.canAccessLocked address length required = true ↔ m.Accessible address length required := by
  have hbytes : m.Accessible address length required ↔
      ∀ a, address ≤ a → a < address + max length 1 →
        ∃ r ∈ m.regions, Covers r a ∧ hasProtection r.protection required = true := by
    refine forall_congr' fun a => ?_
    rw [InRange, and_imp]
    refine imp_congr_right fun _ => imp_congr_right fun _ => ?_
    simp only [protections, denote_eq_some_iff h.regions]
    constructor
    · rintro ⟨p, ⟨r, hr, hra, rfl⟩, hbits⟩
      exact ⟨r, hr, hra, hbits⟩
    · rintro ⟨r, hr, hra, hbits⟩
      exact ⟨r.protection, ⟨r, hr, hra, rfl⟩, hbits⟩
  -- An accessible range is mapped, so it lies in the window and its first region is found.
  have hin : m.Accessible address length required → m.contains address length = true := by
    intro hacc
    obtain ⟨p, hp, -⟩ := hacc _ ⟨le_rfl, by omega⟩
    obtain ⟨p', hp', -⟩ := hacc (address + (max length 1 - 1)) ⟨by omega, by omega⟩
    have hlo := h.inWindow _ _ hp
    have hhi := h.inWindow _ _ hp'
    simp only [InWindow, InRange] at hlo hhi
    rw [contains_iff]
    omega
  rw [hbytes] at hin ⊢
  rw [canAccessLocked]
  by_cases hwin : m.contains address length = true
  · by_cases hfound : m.findContainingRegion address = m.regions.length
    · simp only [hwin, hfound, Bool.not_true, Bool.false_eq_true, if_false, if_true, false_iff]
      intro hacc
      obtain ⟨r, hr, hra, -⟩ := hacc _ le_rfl (by omega)
      rw [findContainingRegion, locate_eq_length_iff h.regions, entryAt_eq_none_iff] at hfound
      exact hfound r hr hra
    simp only [hwin, hfound, Bool.not_true, Bool.false_eq_true, if_false, accessWalk_eq]
    rw [findContainingRegion]
    rcases coverWalk_drop_locate h.regions address length with
      ⟨hrange, l, hl, hmem⟩ | ⟨hrange, hnone⟩
    · rw [hl, Option.any_some, List.all_eq_true]
      constructor
      · intro hall a hlo hhi
        obtain ⟨r, hr, hra⟩ := hrange a hlo hhi
        exact ⟨r, hr, hra, hall r ((hmem r).mpr ⟨hr, a, hlo, hhi, hra⟩)⟩
      · intro hacc r hr
        obtain ⟨hrt, a, hlo, hhi, hra⟩ := (hmem r).mp hr
        obtain ⟨s, hs, hsa, hbits⟩ := hacc a hlo hhi
        rwa [h.regions.eq_of_covers hrt hs hra hsa]
    · rw [hnone]
      simp only [Option.any_none, Bool.false_eq_true, false_iff]
      exact fun hacc => hrange fun a hlo hhi => (hacc a hlo hhi).imp fun r hr => ⟨hr.1, hr.2.1⟩
  · simp only [hwin, Bool.not_false, if_true, Bool.false_eq_true, false_iff]
    exact fun hacc => hwin (hin hacc)

/-- Every address of the range is mapped. -/
def Mapped (m : GuestMemory) (address length : ℕ) : Prop :=
  ∀ a, InRange address length a → (m.protections a).isSome = true

theorem hasProtection_kNone (p : GuestMemoryProtection) : hasProtection p kNone = true := by
  simp [hasProtection, kNone]

theorem isMappedLocked_iff (h : m.WellFormed) (hlen : length ≠ 0) :
    m.isMappedLocked address length = true ↔ m.Mapped address length := by
  have hmax : max length 1 = length := by omega
  rw [isMappedLocked, canAccessLocked_iff h, Accessible, hmax]
  simp [hasProtection_kNone, Mapped, Option.isSome_iff_exists]

/-! ## Tokens -/

theorem tokenWalk_eq (t : List MappingIdentityRegion) (current remaining : ℕ)
    (newest : GuestMemoryGeneration) :
    tokenWalk t current remaining newest = (coverWalk t current remaining).map fun l =>
        l.foldl (fun newest identity => max newest identity.generation) newest := by
  induction t generalizing current remaining newest with
  | nil => rfl
  | cons identity rest ih =>
    have hstop : stop identity = identity.address + identity.size := rfl
    rw [tokenWalk, coverWalk]
    by_cases hcov : Covers identity current
    · have hlo : identity.address ≤ current := hcov.1
      have hhi : current < identity.address + identity.size := hcov.2
      rw [if_neg (by omega), if_pos hcov, hstop]
      by_cases hlast : remaining ≤ identity.address + identity.size - current
      · rw [if_pos hlast, if_pos (by omega)]
        rfl
      have hmin : min remaining (identity.address + identity.size - current) =
          identity.address + identity.size - current := by omega
      have hnext : current + (identity.address + identity.size - current) =
          identity.address + identity.size := by omega
      rw [if_neg hlast, if_neg (by omega), ih, hmin, hnext]
      cases coverWalk rest (identity.address + identity.size)
        (remaining - (identity.address + identity.size - current)) <;> rfl
    · have hout : current < identity.address ∨ current ≥ identity.address + identity.size :=
        not_covers_iff.mp hcov
      rw [if_pos hout, if_neg hcov]
      rfl

/-- The walk of the token starts at the identity covering the address, if there
is one. -/
theorem identityStart_eq (h : m.WellFormed) {r : MappingIdentityRegion}
    (hr : r ∈ m.mappingIdentityRegions) (hra : Covers r address) :
    m.identityStart address = some (locate m.mappingIdentityRegions address) := by
  have hfound : locate m.mappingIdentityRegions address ≠ m.mappingIdentityRegions.length := by
    rw [Ne, locate_eq_length_iff h.identityRegions, entryAt_eq_none_iff]
    exact fun hnone => hnone r hr hra
  have hstart : ∀ s : MappingIdentityRegion, start s = s.address := fun _ => rfl
  simp only [locate, identityStart, hstart] at hfound ⊢
  split_ifs at hfound ⊢ with hexact hzero hprev
  · rfl
  · exact absurd rfl hfound
  · rfl
  · exact absurd rfl hfound

theorem generation_zero_le (g : GuestMemoryGeneration) : ({} : GuestMemoryGeneration) ≤ g := by
  rw [← not_lt, GuestMemoryGeneration.lt_iff]
  simp

/-- The newest generation of a list that is not empty is one of its own. -/
theorem foldl_max_isGreatest (l : List MappingIdentityRegion) (newest : GuestMemoryGeneration) :
    IsGreatest {g | g = newest ∨ ∃ r ∈ l, r.generation = g}
      (l.foldl (fun newest identity => max newest identity.generation) newest) := by
  induction l generalizing newest with
  | nil => exact ⟨.inl rfl, fun g hg => by simpa using le_of_eq (hg.resolve_right (by simp))⟩
  | cons identity rest ih =>
    obtain ⟨hmem, hupper⟩ := ih (max newest identity.generation)
    refine ⟨?_, ?_⟩
    · rcases hmem with hmax | ⟨r, hr, hgen⟩
      · rcases max_choice newest identity.generation with hleft | hright
        · exact .inl (hmax.trans hleft)
        · exact .inr ⟨identity, List.mem_cons_self, (hmax.trans hright).symm⟩
      · exact .inr ⟨r, List.mem_cons_of_mem _ hr, hgen⟩
    · rintro g (rfl | ⟨r, hr, rfl⟩)
      · exact le_trans (le_max_left _ _) (hupper (.inl rfl))
      · rcases List.mem_cons.mp hr with rfl | hr
        · exact le_trans (le_max_right _ _) (hupper (.inl rfl))
        · exact hupper (.inr ⟨r, hr, rfl⟩)

/-- The generations along a range. -/
def generationsOn (m : GuestMemory) (address length : ℕ) : Set GuestMemoryGeneration :=
  {g | ∃ a, InRange address length a ∧ m.identities a = some g}

theorem generationsOn_congr {m' : GuestMemory}
    (h : ∀ a, InRange address length a → m'.identities a = m.identities a) :
    m'.generationsOn address length = m.generationsOn address length := by
  ext g
  exact exists_congr fun a => and_congr_right fun ha => by rw [h a ha]

theorem WellFormed.exists_identity (h : m.WellFormed) (hmap : m.Mapped address length) {a : ℕ}
    (ha : InRange address length a) : ∃ g, m.identities a = some g := by
  rw [← Option.isSome_iff_exists, h.identities_isSome, hmap a ha]

/-- Over a mapped range a token is captured, and its generation is the newest one
along the range. -/
theorem captureMappingTokenLocked_spec (h : m.WellFormed) (hlen : length ≠ 0)
    (hmap : m.Mapped address length) :
    ∃ generation, IsGreatest (m.generationsOn address length) generation ∧
      m.captureMappingTokenLocked address length =
        some ⟨generation, m.mappingGenerationExhausted⟩ := by
  have hcheck := (isMappedLocked_iff h hlen).mpr hmap
  have hcover : ∀ a, InRange address length a → ∃ r ∈ m.mappingIdentityRegions, Covers r a := by
    intro a ha
    obtain ⟨g, hg⟩ := h.exists_identity hmap ha
    obtain ⟨r, hr, hra, -⟩ := (denote_eq_some_iff h.identityRegions).mp hg
    exact ⟨r, hr, hra⟩
  have hmax : max length 1 = length := by omega
  obtain ⟨first, hfirst, hfirsta⟩ := hcover _ (inRange_self (by omega))
  rcases coverWalk_drop_locate h.identityRegions address length with
    ⟨-, l, hl, hmem⟩ | ⟨hrange, -⟩
  · rw [hmax] at hmem
    have hwalk : m.captureMappingTokenLocked address length =
        some ⟨l.foldl (fun newest identity => max newest identity.generation) {},
          m.mappingGenerationExhausted⟩ := by
      simp [captureMappingTokenLocked, identityStart_eq h hfirst hfirsta, hlen, hcheck,
        tokenWalk_eq, hl, Option.pure_def]
    refine ⟨_, ?_, hwalk⟩
    -- The records the walk passed carry exactly the generations along the range.
    have hset : m.generationsOn address length = {g | ∃ r ∈ l, r.generation = g} := by
      ext g
      constructor
      · rintro ⟨a, ha, hg⟩
        obtain ⟨r, hr, hra, hval⟩ := (denote_eq_some_iff h.identityRegions).mp hg
        exact ⟨r, (hmem r).mpr ⟨hr, a, ha.1, ha.2, hra⟩, hval⟩
      · rintro ⟨r, hr, rfl⟩
        obtain ⟨hrt, a, hlo, hhi, hra⟩ := (hmem r).mp hr
        exact ⟨a, ⟨hlo, hhi⟩, denote_of_mem h.identityRegions hrt hra⟩
    obtain ⟨hin, hupper⟩ := foldl_max_isGreatest l {}
    rw [hset]
    refine ⟨?_, fun g hg => hupper (.inr hg)⟩
    rcases hin with hzero | hin
    · have hfirstl : first ∈ l := (hmem first).mpr ⟨hfirst, address, le_rfl, by omega, hfirsta⟩
      have hle := hupper (.inr ⟨first, hfirstl, rfl⟩)
      rw [hzero] at hle ⊢
      exact ⟨first, hfirstl, le_antisymm hle (generation_zero_le _)⟩
    · exact hin
  · rw [CoversRange, hmax] at hrange
    exact absurd (fun a hlo hhi => hcover a ⟨hlo, hhi⟩) hrange

end GuestMemory

end KajPS5.Memory
