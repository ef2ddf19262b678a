/-
# The region table refines a map of protections

Protecting and unmapping split, trim, drop and re-coalesce any number of
regions, and the access check walks over what is left. Over every sequence of
mapping calls the table stays in its canonical form, and it denotes the map
that the successful calls produce when each byte is handled on its own.
-/

import KajPS5.Memory.MappingCalls

namespace KajPS5.Memory

open Math Spanned GuestMemoryProtection List

/-- The canonical form of a region table over a window. -/
structure RegionTable (baseAddress size : ℕ) (regions : List GuestMemoryRegion) : Prop where
  nonempty : ∀ r ∈ regions, 0 < r.size
  sorted : regions.Pairwise fun r s => r.address < s.address
  disjoint : regions.Pairwise fun r s =>
    ∀ a, ¬ (InRange r.address r.size a ∧ InRange s.address s.size a)
  inside : ∀ r ∈ regions, baseAddress ≤ r.address ∧ r.address + r.size ≤ baseAddress + size
  coalesced : ∀ r ∈ regions, ∀ s ∈ regions,
    r.address + r.size = s.address → r.protection ≠ s.protection

namespace MappingCall

/-- What a successful call does to the protection of each byte. -/
def protectionsEffect (f : AddressMap GuestMemoryProtection) :
    MappingCall → AddressMap GuestMemoryProtection
  | map _ address length protection => f.assign address length fun _ => protection
  | mapShared _ address length protection _ _ => f.assign address length fun _ => protection
  | protect address length protection => f.repaint address length protection
  | unmap address length => f.remove address length

theorem effect_protections (generation : GuestMemoryGeneration) (space : AddressSpace)
    (call : MappingCall) :
    (call.effect generation space).protections = call.protectionsEffect space.protections := by
  cases call <;> rfl

end MappingCall

/-- Replay the successful calls of a sequence on a map of protections. -/
def replayProtections (f : AddressMap GuestMemoryProtection) :
    List (MappingCall × Bool) → AddressMap GuestMemoryProtection
  | [] => f
  | (call, answer) :: rest =>
    replayProtections (if answer then call.protectionsEffect f else f) rest

namespace GuestMemory

variable {m : GuestMemory}

/-- In an ordered table a record that ends where another begins is the one right
before it, so a chain condition on neighbours is a condition on all pairs. -/
theorem coalesced_of_isChain {t : List GuestMemoryRegion} (h : IsOrdered t)
    (hchain : t.IsChain fun r s => mergeable r s = false) {r s : GuestMemoryRegion} (hr : r ∈ t)
    (hs : s ∈ t) (hadj : r.address + r.size = s.address) : r.protection ≠ s.protection := by
  induction t with
  | nil => simp at hr
  | cons x t ih =>
    rw [isChain_cons] at hchain
    rcases mem_cons.mp hr with rfl | hrt
    · rcases mem_cons.mp hs with rfl | hst
      · have hpos : 0 < s.size := h.size_pos s hr
        omega
      obtain ⟨y, t', rfl⟩ := exists_cons_of_ne_nil (ne_nil_of_mem hst)
      have hry : r.address + r.size ≤ y.address := h.head_before mem_cons_self
      -- Only the next record can start where this one stops.
      rcases mem_cons.mp hst with rfl | hst'
      · intro hprot
        have hmerge := hchain.1 s rfl
        simp [mergeable, hadj, hprot] at hmerge
      · have hys : y.address + y.size ≤ s.address := h.tail.head_before hst'
        have hpos : 0 < y.size := h.tail.size_pos y mem_cons_self
        omega
    · rcases mem_cons.mp hs with rfl | hst
      · have hsr : s.address + s.size ≤ r.address := h.head_before hrt
        have hpos : 0 < r.size := h.size_pos r hr
        omega
      · exact ih h.tail hchain.2 hrt hst

theorem WellFormed.regionTable (h : m.WellFormed) :
    RegionTable m.baseAddress m.storageSize m.regions where
  nonempty := h.regions.size_pos
  sorted := by
    refine h.regions.before.imp_of_mem fun {r s} hr _ hpre => ?_
    have hpos : 0 < r.size := h.regions.size_pos r hr
    exact Nat.lt_of_lt_of_le (Nat.lt_add_of_pos_right hpos) hpre
  disjoint := by
    refine h.regions.before.imp fun {r s} hpre a hboth => ?_
    have hstop : r.address + r.size ≤ s.address := hpre
    simp only [InRange] at hboth
    omega
  inside _ hr := h.region_inWindow hr
  coalesced _ hr _ hs := coalesced_of_isChain h.regions h.coalesced hr hs

section

variable (backings : Backings) (h : m.WellFormed)
include h

/-- A call changes the protections by its effect when it succeeds and not at all
when it fails. -/
theorem protections_perform (call : MappingCall) : (m.perform backings call).2.protections =
      if (m.perform backings call).1 then call.protectionsEffect m.protections
      else m.protections := by
  rcases (perform_outcome _ h call).cases with ⟨hfalse, hsame⟩ | ⟨htrue, hdone⟩
  · rw [hfalse, protections, hsame.regions]
    rfl
  · rw [htrue]
    exact (congrArg _ hdone.space).trans (MappingCall.effect_protections _ _ call)

theorem protections_run (calls : List MappingCall) : (m.run backings calls).protections =
      replayProtections m.protections (m.answers backings calls) := by
  induction calls generalizing m with
  | nil => rfl
  | cons call calls ih =>
    rw [answers, replayProtections, ← protections_perform _ h]
    exact ih (perform_outcome _ h call).wellFormed

theorem window_perform (call : MappingCall) :
    (m.perform backings call).2.baseAddress = m.baseAddress ∧
      (m.perform backings call).2.storageSize = m.storageSize := by
  rcases (perform_outcome _ h call).cases with ⟨-, hsame⟩ | ⟨-, hdone⟩
  · exact ⟨hsame.baseAddress, hsame.storageSize⟩
  · exact ⟨hdone.baseAddress, hdone.storageSize⟩

theorem window_run (calls : List MappingCall) : (m.run backings calls).baseAddress = m.baseAddress ∧
      (m.run backings calls).storageSize = m.storageSize := by
  induction calls generalizing m with
  | nil => exact ⟨rfl, rfl⟩
  | cons call calls ih =>
    obtain ⟨hbase, hsize⟩ := ih (perform_outcome _ h call).wellFormed
    obtain ⟨hbase', hsize'⟩ := window_perform _ h call
    exact ⟨hbase.trans hbase', hsize.trans hsize'⟩

end

/-- After every sequence of mapping calls on a constructed memory the region
table is canonical and denotes the replay of the successful calls, the next call
leaves it alone if it fails, and an access check answers true exactly when all
bytes of the range are mapped with the requested bits; over an empty range it
looks at the first address. -/
theorem regions_refine_replay (backings : Backings) {baseAddress size : ℕ}
    {initialProtection : GuestMemoryProtection}
    (hcreate : create baseAddress size initialProtection = some m) (calls : List MappingCall) :
    RegionTable baseAddress size (m.run backings calls).regions ∧
      (m.run backings calls).protections =
        replayProtections (initialSpace baseAddress size initialProtection)
          (m.answers backings calls) ∧
      (∀ call, ((m.run backings calls).perform backings call).1 = false →
        ((m.run backings calls).perform backings call).2.regions = (m.run backings calls).regions) ∧
      ∀ address length required,
        (m.run backings calls).canAccessLocked address length required = true ↔
          (m.run backings calls).Accessible address length required := by
  obtain ⟨hwf, hinitial, hbase, hsize, -⟩ := create_spec hcreate
  have hrun := run_wellFormed backings hwf calls
  obtain ⟨hbase', hsize'⟩ := window_run _ hwf calls
  refine ⟨?_, ?_, fun call hfailed => ?_, fun address length required => canAccessLocked_iff hrun⟩
  · have htable := hrun.regionTable
    rwa [hbase', hsize', hbase, hsize] at htable
  · rw [protections_run _ hwf, hinitial]
  · rcases (perform_outcome _ hrun call).cases with ⟨-, hsame⟩ | ⟨htrue, -⟩
    · exact hsame.regions
    · rw [htrue] at hfailed
      cases hfailed

/-- The statement on a window with a mapping that is split by a protection
change and by an unmapping. -/
theorem regions_refine_replay_split : ∃ m, create 0x1000 0x8000 kNone = some m ∧
      RegionTable 0x1000 0x8000 (m.run (fun _ => .create 0) [.map {} 0x1000 0x6000 kRead,
        .protect 0x2000 0x2000 (kRead ||| kWrite), .unmap 0x5000 0x1000]).regions :=
  ⟨_, rfl, (@regions_refine_replay _ _ _ _ kNone rfl _).1⟩

/-- An access check over an empty range that starts at an unmapped address fails,
although no byte of the range lacks the requested bits. -/
theorem canAccessLocked_empty_unmapped : ∃ m, create 0x1000 0x8000 kNone = some m ∧
      (∀ a, InRange 0x1000 0 a → ∃ p, m.protections a = some p ∧ hasProtection p kRead = true) ∧
      m.canAccessLocked 0x1000 0 kRead = false := by
  refine ⟨_, rfl, fun a ha => ?_, rfl⟩
  simp only [InRange] at ha
  omega

end GuestMemory

end KajPS5.Memory
