/-
# Mapping the plan and undoing it

While the loader maps its plan, the address space is the one before the load with
the mappings made so far laid over it. Each mapping needs free addresses, so it
lies apart from those before it, and unmapping it takes it off again. Undoing all
of them gives back the address space before the load, provided the host lets
their pages go.
-/

import KajPS5.Loader.ElfPlans
import KajPS5.Memory.StorageCalls

namespace KajPS5.Loader

open Math Memory GuestMemoryProtection GuestStorage List

/-! ## Mappings laid over an address space -/

/-- Nothing is mapped at the address. -/
def FreeAt (space : AddressSpace) (a : ℕ) : Prop :=
  space.protections a = none ∧ space.identities a = none ∧ space.sharing a = none

/-- The address space with mappings of free addresses laid over it. -/
structure Overlay (base laid : AddressSpace) (mapped : List PlannedMappingRange) : Prop where
  free : ∀ mapping ∈ mapped, ∀ a, mapping.Holds a → FreeAt base a
  inside : ∀ mapping ∈ mapped, ∀ a, mapping.Holds a → laid.protections a = some mapping.protection
  outside : ∀ a, (∀ mapping ∈ mapped, ¬mapping.Holds a) →
    laid.protections a = base.protections a ∧ laid.identities a = base.identities a
  sharing : laid.sharing = base.sharing
  apart : mapped.Pairwise fun first second => ∀ a, first.Holds a → ¬second.Holds a

namespace Overlay

variable {base laid : AddressSpace} {mapped : List PlannedMappingRange}
  {mapping : PlannedMappingRange}

theorem nil (base : AddressSpace) : Overlay base base [] :=
  ⟨forall_mem_nil _, forall_mem_nil _, fun _ _ => ⟨rfl, rfl⟩, rfl, .nil⟩

theorem eq_of_nil (h : Overlay base laid []) : laid = base :=
  AddressSpace.ext (funext fun a => (h.outside a (forall_mem_nil _)).1)
    (funext fun a => (h.outside a (forall_mem_nil _)).2) h.sharing

/-- A new mapping of free addresses comes on top. -/
theorem map (h : Overlay base laid mapped) (hfree : ∀ a, mapping.Holds a → FreeAt laid a)
    (tables : GuestMemory.MapAllocations) (generation : GuestMemoryGeneration) :
    Overlay base (MappingCall.effect generation laid
      (.map tables mapping.address mapping.size mapping.protection)) (mapping :: mapped) := by
  have hapart : ∀ other ∈ mapped, ∀ a, mapping.Holds a → ¬other.Holds a := by
    intro other hother a ha hholds
    have hinside := h.inside _ hother a hholds
    rw [(hfree a ha).1] at hinside
    cases hinside
  refine ⟨?_, ?_, ?_, h.sharing, pairwise_cons.mpr ⟨hapart, h.apart⟩⟩
  · refine forall_mem_cons.mpr ⟨fun a ha => ?_, h.free⟩
    obtain ⟨hprot, hidentity, hshare⟩ := hfree a ha
    obtain ⟨houtside, houtside'⟩ := h.outside a fun other hother => hapart _ hother a ha
    rw [houtside] at hprot
    rw [houtside'] at hidentity
    rw [h.sharing] at hshare
    exact ⟨hprot, hidentity, hshare⟩
  · refine forall_mem_cons.mpr ⟨fun a ha => if_pos ha, fun other hother a ha => ?_⟩
    have hout : ¬mapping.Holds a := fun hholds => hapart _ hother a hholds ha
    exact (if_neg hout).trans (h.inside _ hother a ha)
  · intro a ha
    rw [forall_mem_cons] at ha
    obtain ⟨hprot, hidentity⟩ := h.outside a ha.2
    exact ⟨(if_neg ha.1).trans hprot, (if_neg ha.1).trans hidentity⟩

/-- Unmapping the topmost mapping takes it off. -/
theorem unmap (h : Overlay base laid (mapping :: mapped)) (generation : GuestMemoryGeneration) :
    Overlay base (MappingCall.effect generation laid (.unmap mapping.address mapping.size))
      mapped := by
  obtain ⟨hapart, hrest⟩ := pairwise_cons.mp h.apart
  obtain ⟨hfree, hfreeRest⟩ := forall_mem_cons.mp h.free
  refine ⟨hfreeRest, ?_, ?_, ?_, hrest⟩
  · intro other hother a ha
    have hout : ¬mapping.Holds a := fun hholds => hapart _ hother a hholds ha
    exact (if_neg hout).trans (h.inside _ (mem_cons_of_mem _ hother) a ha)
  · intro a ha
    by_cases hholds : mapping.Holds a
    · obtain ⟨hprot, hidentity, -⟩ := hfree a hholds
      exact ⟨(if_pos hholds).trans hprot.symm, (if_pos hholds).trans hidentity.symm⟩
    · obtain ⟨hprot, hidentity⟩ := h.outside a (forall_mem_cons.mpr ⟨hholds, ha⟩)
      exact ⟨(if_neg hholds).trans hprot, (if_neg hholds).trans hidentity⟩
  · funext a
    by_cases hholds : mapping.Holds a
    · exact (if_pos hholds).trans (hfree a hholds).2.2.symm
    · exact (if_neg hholds).trans (congrFun h.sharing a)

end Overlay

/-! ## Whole pages -/

variable {s s' : GuestStorage}

theorem pageLength_of_wholePages {k : ℕ} (hgran : s.mappingGranularity = 2 ^ k)
    {mapping : PlannedMappingRange} (h : mapping.WholePages (2 ^ k)) :
    s.pageLength mapping.address mapping.size = some mapping.size := by
  rw [pageLength]
  rw [mappingGranularity] at hgran
  cases hmode : s.mode with
  | buffered => rfl
  | hostMapped pageSize =>
    rw [hmode] at hgran
    subst hgran
    have hpos : 0 < 2 ^ k := Nat.two_pow_pos k
    have hstop := h.stop_le
    have hsize := h.size_pos
    have hbits : 2 ^ k &&& (2 ^ k - 1) = 0 := by rw [Nat.and_two_pow_sub_one_eq_mod, Nat.mod_self]
    have haddr := Nat.mod_eq_zero_of_dvd h.address
    simp only
    rw [if_neg (by omega), alignLengthToPage, if_neg (by omega)]
    rw [if_neg (by omega), clearMask_two_pow]
    exact congrArg _ (roundUp_of_dvd hpos h.size)

/-- The host lets the pages of the load go. -/
def LoadHost.Releases (host : LoadHost) (s : GuestStorage) : Prop :=
  ∀ index, s.Grants (host.unmap index)

theorem LoadHost.Releases.of_mode {host : LoadHost} (h : host.Releases s)
    (hmode : s'.mode = s.mode) :
    host.Releases s' := by
  intro index
  have hrefuses : ∀ call n, s'.refuses call n = s.refuses call n := by
    intro call n
    rw [refuses, refuses, hmode]
  exact ⟨(hrefuses _ _).trans (h _).1, (hrefuses _ _).trans (h _).2⟩

theorem mappingGranularity_of_mode (hmode : s'.mode = s.mode) :
    s'.mappingGranularity = s.mappingGranularity := by
  rw [mappingGranularity, mappingGranularity, hmode]

/-! ## Undoing -/

section

variable {k : ℕ} {base : AddressSpace} {host : LoadHost}

theorem space_unmapPlanned {mapped : List PlannedMappingRange} (hs : s.world.WellFormed)
    (hgran : s.mappingGranularity = 2 ^ k) (hwhole : ∀ mapping ∈ mapped, mapping.WholePages (2 ^ k))
    (hreleases : host.Releases s) (h : Overlay base s.world.memory.space mapped) :
    (unmapPlanned host s mapped).world.memory.space = base := by
  induction mapped generalizing s with
  | nil => exact h.eq_of_nil
  | cons mapping mapped ih =>
    obtain ⟨hfirst, hrest⟩ := forall_mem_cons.mp hwhole
    have hsize : mapping.size ≠ 0 := Nat.ne_of_gt hfirst.size_pos
    have hmap : s.world.memory.isMappedLocked mapping.address mapping.size = true := by
      rw [GuestMemory.isMappedLocked_iff hs.tables hsize]
      intro a ha
      have hinside : s.world.memory.protections a = some mapping.protection :=
        h.inside _ mem_cons_self a ha
      rw [hinside]
      rfl
    obtain ⟨hmode, hwf, hdone⟩ := unmap_performed hs
      (pageLength_of_wholePages hgran hfirst) hsize hmap (hreleases mapped.length)
    apply ih hwf
    · rw [mappingGranularity_of_mode hmode, hgran]
    · exact hrest
    · exact hreleases.of_mode hmode
    · rw [hdone.space]
      exact h.unmap _

/-! ## Mapping -/

/-- What mapping the rest of a plan has done. -/
structure PlanMapped (base : AddressSpace) (host : LoadHost) (s : GuestStorage)
    (planned : List PlannedMappingRange) (result : Bool × GuestStorage) : Prop where
  mode : result.2.mode = s.mode
  mapped : result.1 = true → result.2.world.WellFormed ∧
    Overlay base result.2.world.memory.space planned ∧ result.2.world.contents = s.world.contents
  /-- After a failure nothing of the plan is left. -/
  undone : result.1 = false → host.Releases s → result.2.world.memory.space = base

theorem mode_unmapPlanned (host : LoadHost) (s : GuestStorage)
    (mapped : List PlannedMappingRange) : (unmapPlanned host s mapped).mode = s.mode := by
  induction mapped generalizing s with
  | nil => rfl
  | cons mapping mapped ih =>
    rw [unmapPlanned, ih, unmap]
    split_ifs
    · rfl
    cases s.pageLength mapping.address mapping.size with
    | none => rfl
    | some length =>
      simp only [unmapPages]
      split_ifs <;> rfl

theorem planMapped_mapPlanned {mapped rest : List PlannedMappingRange} (hs : s.world.WellFormed)
    (hgran : s.mappingGranularity = 2 ^ k) (hmap : ∀ mapping ∈ mapped, mapping.WholePages (2 ^ k))
    (hrest : ∀ mapping ∈ rest, mapping.WholePages (2 ^ k))
    (h : Overlay base s.world.memory.space mapped) :
    PlanMapped base host s (rest.reverse ++ mapped) (mapPlanned host s mapped rest) := by
  induction rest generalizing s mapped with
  | nil => exact ⟨rfl, fun _ => ⟨hs, h, rfl⟩, fun hfail => absurd hfail.symm Bool.false_ne_true⟩
  | cons mapping rest ih =>
    rw [forall_mem_cons] at hrest
    have hout := map_outcome hs (host.map mapped.length)
      (pageLength_of_wholePages hgran hrest.1) mapping.protection
    rw [mapPlanned]
    generalize s.map (host.map mapped.length) mapping.address mapping.size
      mapping.protection = result at hout
    obtain ⟨ok, s'⟩ := result
    have hmode : s'.mode = s.mode := hout.mode
    have hgran' : s'.mappingGranularity = 2 ^ k := by rw [mappingGranularity_of_mode hmode, hgran]
    rcases hout.cases with ⟨hfalse, hsame⟩ | ⟨htrue, hdone⟩
    · obtain rfl : ok = false := hfalse
      refine ⟨(mode_unmapPlanned host s' mapped).trans hmode,
        fun htrue => absurd htrue Bool.false_ne_true, fun _ hreleases => ?_⟩
      apply space_unmapPlanned hout.wellFormed hgran' hmap (hreleases.of_mode hmode)
      rw [GuestMemory.space, GuestMemory.protections, GuestMemory.identities, GuestMemory.sharing,
        hsame.regions, hsame.mappingIdentityRegions, hsame.sharedMappings]
      exact h
    · obtain rfl : ok = true := htrue
      have hfree : ∀ a, mapping.Holds a → FreeAt s.world.memory.space a := by
        intro a ha
        have hrange : (s.world.memory.protections a).isSome = false := (hdone.range a ha).2
        have hnone : s.world.memory.protections a = none := by simpa using hrange
        exact ⟨hnone, hs.tables.free_of_unmapped hnone⟩
      have hover : Overlay base s'.world.memory.space (mapping :: mapped) := by
        rw [hdone.space]
        exact h.map hfree _ _
      have hnext := ih hout.wellFormed hgran'
        (forall_mem_cons.mpr ⟨hrest.1, hmap⟩) hrest.2 hover
      rw [reverse_cons, append_assoc]
      refine ⟨hnext.mode.trans hmode, fun htrue => ?_, fun hfalse hreleases => ?_⟩
      · obtain ⟨hwf, hoverlay, hcont⟩ := hnext.mapped htrue
        exact ⟨hwf, hoverlay, hcont.trans hout.contents⟩
      · exact hnext.undone hfalse (hreleases.of_mode hmode)

end

end KajPS5.Loader
