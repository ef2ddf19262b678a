/-
# Mutation reports

A mutation report collects the address ranges a call has stored to. It keeps at
most 64 ranges, merging a new range with every one it overlaps or touches; when
the 65th separate range arrives it gives up on ranges and stands for the whole
memory. As long as it has not given up, its ranges are separated from each other
and cover exactly the addresses that were added.
-/

import Mathlib.Data.List.Basic
import KajPS5.Memory.AddressSpace

namespace KajPS5.Memory

structure MutationRange where
  (address size : ℕ)
  deriving DecidableEq, Repr

namespace MutationRange

/-- The address lies in the range. -/
def Contains (r : MutationRange) (a : ℕ) : Prop := InRange r.address r.size a

/-- Two ranges with at least one address between them: they neither overlap nor
touch. -/
def Separated (r s : MutationRange) : Prop :=
  r.address + r.size < s.address ∨ s.address + s.size < r.address

theorem Separated.symm {r s : MutationRange} (h : Separated r s) : Separated s r := Or.symm h

end MutationRange

open MutationRange List

/-- The ranges in use, and whether the report stands for the whole memory. -/
structure MutationReport where
  ranges : List MutationRange := []
  wholeMemory : Bool := false
  deriving DecidableEq, Repr

namespace MutationReport

/-- `kMaximumExactRanges`. -/
def kMaximumExactRanges : ℕ := 64

/-- Remove the range at an index by moving the last one into its place. -/
def moveLast (ranges : List MutationRange) (index : ℕ) : List MutationRange :=
  match ranges.getLast? with
  | none => []
  | some last => (ranges.set index last).dropLast

/-- The loop of `Add` from an index on, with the merged range so far. The first
argument bounds the iterations: each one looks at a range not looked at before. -/
def absorb : ℕ → List MutationRange → ℕ → ℕ → ℕ → List MutationRange × ℕ × ℕ
  | 0, ranges, _, mergedStart, mergedEnd => (ranges, mergedStart, mergedEnd)
  | fuel + 1, ranges, index, mergedStart, mergedEnd => match ranges[index]? with
    | none => (ranges, mergedStart, mergedEnd)
    | some existing =>
      let existingEnd := existing.address + existing.size
      if existing.address > mergedEnd ∨ mergedStart > existingEnd then
        absorb fuel ranges (index + 1) mergedStart mergedEnd
      else
        absorb fuel (moveLast ranges index) index (min mergedStart existing.address)
          (max mergedEnd existingEnd)

/-- `Add`. -/
def add (report : MutationReport) (address size : ℕ) : MutationReport :=
  if report.wholeMemory ∨ size = 0 then report
  else match absorb report.ranges.length report.ranges 0 address (address + size) with
    | (ranges, mergedStart, mergedEnd) =>
      if ranges.length = kMaximumExactRanges then { ranges := [], wholeMemory := true }
      else { report with ranges := ranges ++ [⟨mergedStart, mergedEnd - mergedStart⟩] }

/-! ## The merge loop -/

theorem moveLast_append (pre : List MutationRange) (x : MutationRange) (post : List MutationRange) :
    ∃ post', List.Perm post' post ∧ moveLast (pre ++ x :: post) pre.length = pre ++ post' := by
  rcases eq_nil_or_concat' post with rfl | ⟨front, last, rfl⟩
  · simp [moveLast]
  refine ⟨last :: front, @perm_append_comm _ [last] _, ?_⟩
  have hlast : (pre ++ x :: (front ++ [last])).getLast? = some last := by
    rw [← cons_append, ← append_assoc, getLast?_concat]
  rw [moveLast, hlast]
  simp only
  rw [set_append_right _ _ le_rfl, Nat.sub_self, set_cons_zero, ← cons_append,
    ← append_assoc, dropLast_concat]

/-- The ranges of a list, all nonempty and separated from each other. -/
structure Apart (ranges : List MutationRange) : Prop where
  size_pos : ∀ r ∈ ranges, 0 < r.size
  separated : ranges.Pairwise Separated

variable {l l' : List MutationRange}

theorem Apart.of_perm (h : Apart l) (hperm : List.Perm l' l) : Apart l' where
  size_pos r hr := h.size_pos r (hperm.mem_iff.mp hr)
  separated := (hperm.pairwise_iff fun {_ _} hsep => hsep.symm).mpr h.separated

theorem Apart.sublist (h : Apart l) (hsub : l'.Sublist l) : Apart l' where
  size_pos r hr := h.size_pos r (hsub.subset hr)
  separated := h.separated.sublist hsub

/-- What the loop leaves behind, from the ranges it started with. -/
structure Absorbed (ranges : List MutationRange) (start stop : ℕ)
    (result : List MutationRange × ℕ × ℕ) : Prop where
  apart : Apart result.1
  length_le : result.1.length ≤ ranges.length
  lt : result.2.1 < result.2.2
  clear : ∀ r ∈ result.1, r.address + r.size < result.2.1 ∨ result.2.2 < r.address
  covers : ∀ a, ((result.2.1 ≤ a ∧ a < result.2.2) ∨ ∃ r ∈ result.1, r.Contains a) ↔
    ((start ≤ a ∧ a < stop) ∨ ∃ r ∈ ranges, r.Contains a)

/-- The ranges already passed stay clear of the merged range while it grows,
because they were separated from every range it swallows. -/
theorem absorb_spec (fuel : ℕ) (pre post : List MutationRange) (start stop : ℕ)
    (hfuel : post.length ≤ fuel) (hlt : start < stop) (happart : Apart (pre ++ post))
    (hpre : ∀ r ∈ pre, r.address + r.size < start ∨ stop < r.address) :
    Absorbed (pre ++ post) start stop (absorb fuel (pre ++ post) pre.length start stop) := by
  induction fuel generalizing pre post start stop with
  | zero =>
    obtain rfl := length_eq_zero_iff.mp (Nat.le_zero.mp hfuel)
    rw [append_nil] at happart ⊢
    exact ⟨happart, le_rfl, hlt, hpre, fun a => Iff.rfl⟩
  | succ fuel ih =>
    cases post with
    | nil =>
      rw [append_nil] at happart ⊢
      rw [absorb, getElem?_eq_none le_rfl]
      exact ⟨happart, le_rfl, hlt, hpre, fun a => Iff.rfl⟩
    | cons x post =>
      have hget : (pre ++ x :: post)[pre.length]? = some x := by simp
      rw [absorb, hget]
      simp only
      split_ifs with hclear
      · have hnext := ih (pre ++ [x]) _ _ _ (by simpa using hfuel) hlt
          (by simpa using happart) (by
            intro r hr
            rcases mem_append.mp hr with hr | hr
            · exact hpre r hr
            · obtain rfl := mem_singleton.mp hr
              omega)
        simpa using hnext
      · obtain ⟨post', hperm, hmove⟩ := moveLast_append pre x post
        rw [hmove]
        have hsub : List.Sublist (pre ++ post) (pre ++ x :: post) :=
          (sublist_cons_self x post).append_left pre
        have hrest : Apart (pre ++ post') := (happart.sublist hsub).of_perm (hperm.append_left pre)
        have hsep : ∀ r ∈ pre, Separated r x := fun r hr =>
          (pairwise_append.mp happart.separated).2.2 r hr x mem_cons_self
        have hnext := ih _ _ (min start x.address) (max stop (x.address + x.size))
          (by rw [hperm.length_eq]; simpa using hfuel) (by omega) hrest (by
            intro r hr
            have hsx := hsep r hr
            have hrs := hpre r hr
            simp only [Separated] at hsx
            omega)
        refine ⟨hnext.apart, le_trans hnext.length_le ?_, hnext.lt, hnext.clear,
          fun a => (hnext.covers a).trans ?_⟩
        · rw [length_append, hperm.length_eq, ← length_append]
          exact hsub.length_le
        have hunion : (min start x.address ≤ a ∧ a < max stop (x.address + x.size)) ↔
            (start ≤ a ∧ a < stop) ∨ x.Contains a := by
          simp only [MutationRange.Contains, InRange]
          omega
        simp only [hunion, mem_append, mem_cons, hperm.mem_iff, or_and_right, exists_or,
          exists_eq_left, or_assoc]
        rw [or_left_comm (a := x.Contains a)]

/-! ## What a report describes -/

/-- Unless it has given up, the report is a list of separated ranges covering
exactly the given addresses. -/
structure Describes (report : MutationReport) (addresses : Set ℕ) : Prop where
  apart : Apart report.ranges
  length_le : report.ranges.length ≤ kMaximumExactRanges
  covers : report.wholeMemory = false → ∀ a, (∃ r ∈ report.ranges, r.Contains a) ↔ a ∈ addresses

theorem describes_empty : Describes {} ∅ where
  apart := ⟨by simp, List.Pairwise.nil⟩
  length_le := Nat.zero_le _
  covers _ a := by simp

/-- Adding a range adds its addresses. -/
theorem Describes.add {report : MutationReport} {addresses : Set ℕ}
    (h : report.Describes addresses) (address size : ℕ) :
    (report.add address size).Describes (addresses ∪ {a | InRange address size a}) := by
  rw [MutationReport.add]
  split_ifs with hskip
  · refine ⟨h.apart, h.length_le, fun hwhole a => ?_⟩
    rcases hskip with hskip | rfl
    · rw [hskip] at hwhole
      cases hwhole
    rw [h.covers hwhole]
    have hempty : ¬ InRange address 0 a := by
      simp only [InRange]
      omega
    simp [hempty]
  · rw [not_or, Bool.not_eq_true] at hskip
    have hloop := absorb_spec report.ranges.length [] _ address (address + size)
      le_rfl (by omega) h.apart (by simp)
    simp only [nil_append, length_nil] at hloop
    rcases habsorb : absorb report.ranges.length report.ranges 0 address (address + size) with
      ⟨ranges, mergedStart, mergedEnd⟩
    rw [habsorb] at hloop
    have hlt : mergedStart < mergedEnd := hloop.lt
    simp only
    split_ifs with hfull
    · exact ⟨⟨by simp, List.Pairwise.nil⟩, Nat.zero_le _, by simp⟩
    have hmerged : ∀ a, (⟨mergedStart, mergedEnd - mergedStart⟩ : MutationRange).Contains a ↔
        mergedStart ≤ a ∧ a < mergedEnd := by
      simp only [MutationRange.Contains, InRange]
      omega
    refine ⟨⟨?_, ?_⟩, ?_, fun _ a => ?_⟩
    · intro r hr
      rcases mem_append.mp hr with hr | hr
      · exact hloop.apart.size_pos r hr
      · obtain rfl := mem_singleton.mp hr
        exact Nat.sub_pos_of_lt hlt
    · refine pairwise_append.mpr ⟨hloop.apart.separated, pairwise_singleton _ _, ?_⟩
      intro r hr s hs
      obtain rfl := mem_singleton.mp hs
      have hclear : r.address + r.size < mergedStart ∨ mergedEnd < r.address := hloop.clear r hr
      simp only [Separated]
      omega
    · have hle := le_trans hloop.length_le h.length_le
      simp only [length_append, length_singleton] at hle ⊢
      omega
    · have hcovers := hloop.covers a
      rw [h.covers hskip.1, or_comm, or_comm (b := a ∈ addresses)] at hcovers
      simp only [mem_append, mem_singleton, or_and_right, exists_or, exists_eq_left,
        hmerged]
      exact hcovers

end MutationReport

end KajPS5.Memory
