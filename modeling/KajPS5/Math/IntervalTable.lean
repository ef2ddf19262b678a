/-
# Ordered tables of half-open intervals

A table is a list of records, each occupying a half-open interval of natural
numbers. When the intervals are nonempty and listed in order, every address is
covered by at most one record, so the table denotes a partial function from
addresses to records. This module fixes that denotation and shows that binary
search by `lowerBound` computes it, that insertion at the lower bound extends
it, and that a walk over consecutive records decides whether a whole range is
covered.

Nothing here depends on what a record carries besides its interval.
-/

import Mathlib.Data.List.Basic
import Mathlib.Data.List.Pairwise
import Mathlib.Data.Nat.Basic

namespace KajPS5.Math

universe u

/-- A record that occupies the half-open interval from `start` of length
`size`. -/
class Spanned (ρ : Type u) where
  start : ρ → ℕ
  size : ρ → ℕ

namespace Spanned

variable {ρ : Type u} [Spanned ρ]

/-- The first address after the record. -/
def stop (r : ρ) : ℕ := start r + size r

/-- The record occupies the address. -/
def Covers (r : ρ) (a : ℕ) : Prop := start r ≤ a ∧ a < stop r

instance (r : ρ) (a : ℕ) : Decidable (Covers r a) := inferInstanceAs (Decidable (_ ∧ _))

theorem not_covers_iff {r : ρ} {a : ℕ} : ¬ Covers r a ↔ a < start r ∨ a ≥ stop r := by
  simp only [Covers]
  omega

end Spanned

open Spanned List

variable {ρ : Type u} [Spanned ρ]

/-- Nonempty intervals, each ending before the next begins. -/
structure IsOrdered (t : List ρ) : Prop where
  size_pos : ∀ r ∈ t, 0 < size r
  before : t.Pairwise fun r s => stop r ≤ start s

namespace IsOrdered

theorem nil : IsOrdered ([] : List ρ) := ⟨by simp, List.Pairwise.nil⟩

variable {l r t : List ρ}

theorem tail {r : ρ} (h : IsOrdered (r :: t)) : IsOrdered t :=
  ⟨fun s hs => h.size_pos s (mem_cons_of_mem r hs), (pairwise_cons.mp h.before).2⟩

theorem head_before {r s : ρ} (h : IsOrdered (r :: t)) (hs : s ∈ t) : stop r ≤ start s :=
  (pairwise_cons.mp h.before).1 s hs

theorem cons {r : ρ} (hpos : 0 < size r) (hpre : ∀ s ∈ t, stop r ≤ start s) (h : IsOrdered t) :
    IsOrdered (r :: t) where
  size_pos s hs := by
    rcases mem_cons.mp hs with rfl | hs
    · exact hpos
    · exact h.size_pos s hs
  before := pairwise_cons.mpr ⟨hpre, h.before⟩

theorem append (hl : IsOrdered l) (hr : IsOrdered r) (hcross : ∀ x ∈ l, ∀ y ∈ r, stop x ≤ start y) :
    IsOrdered (l ++ r) where
  size_pos s hs := (mem_append.mp hs).elim (hl.size_pos s) (hr.size_pos s)
  before := pairwise_append.mpr ⟨hl.before, hr.before, hcross⟩

theorem append_left (h : IsOrdered (l ++ r)) : IsOrdered l :=
  ⟨fun s hs => h.size_pos s (mem_append_left r hs), (pairwise_append.mp h.before).1⟩

theorem append_right (h : IsOrdered (l ++ r)) : IsOrdered r :=
  ⟨fun s hs => h.size_pos s (mem_append_right l hs), (pairwise_append.mp h.before).2.1⟩

theorem append_cross (h : IsOrdered (l ++ r)) {x y : ρ} (hx : x ∈ l) (hy : y ∈ r) :
    stop x ≤ start y :=
  (pairwise_append.mp h.before).2.2 x hx y hy

end IsOrdered

variable {t : List ρ} {r : ρ} {a current : ℕ}

theorem start_lt_stop_of_mem (h : IsOrdered t) (hr : r ∈ t) : start r < stop r := by
  have hpos := h.size_pos r hr
  simp only [stop]
  omega

theorem covers_start (h : IsOrdered t) (hr : r ∈ t) : Covers r (start r) :=
  ⟨le_rfl, start_lt_stop_of_mem h hr⟩

variable {s x : ρ}

/-- An ordered table covers each address at most once. -/
theorem IsOrdered.eq_of_covers (h : IsOrdered t) (hr : r ∈ t) (hs : s ∈ t) (hra : Covers r a)
    (hsa : Covers s a) : r = s := by
  have hapart : t.Pairwise fun r s => ¬ (Covers r a ∧ Covers s a) := h.before.imp fun hle hcov =>
    absurd (lt_of_lt_of_le hcov.1.2 hle) (not_lt.mpr hcov.2.1)
  have : Std.Symm fun r s : ρ => ¬ (Covers r a ∧ Covers s a) := ⟨fun _ _ h hcov => h hcov.symm⟩
  by_contra hne
  exact hapart.forall hr hs hne ⟨hra, hsa⟩

/-! ## The record at an address -/

/-- The record covering an address, if there is one. -/
def entryAt (t : List ρ) (a : ℕ) : Option ρ := t.find? fun r => decide (Covers r a)

@[simp]
theorem entryAt_nil (a : ℕ) : entryAt ([] : List ρ) a = none := rfl

theorem entryAt_cons (r : ρ) (t : List ρ) (a : ℕ) :
    entryAt (r :: t) a = if Covers r a then some r else entryAt t a := by
  by_cases h : Covers r a <;> simp [entryAt, h]

theorem entryAt_append (l r : List ρ) (a : ℕ) :
    entryAt (l ++ r) a = (entryAt l a).or (entryAt r a) := by
  simp [entryAt]

theorem entryAt_eq_none_iff : entryAt t a = none ↔ ∀ r ∈ t, ¬ Covers r a := by simp [entryAt]

theorem mem_of_entryAt (h : entryAt t a = some r) : r ∈ t ∧ Covers r a :=
  ⟨mem_of_find?_eq_some h, by simpa using find?_some h⟩

theorem entryAt_eq_some_iff (h : IsOrdered t) : entryAt t a = some r ↔ r ∈ t ∧ Covers r a := by
  constructor
  · exact mem_of_entryAt
  rintro ⟨hr, hra⟩
  cases hfound : entryAt t a with
  | none => exact absurd hra (entryAt_eq_none_iff.mp hfound r hr)
  | some s =>
    obtain ⟨hs, hsa⟩ := mem_of_entryAt hfound
    rw [h.eq_of_covers hs hr hsa hra]

/-! ## Binary search

`lowerBound` is the index of the first record starting at or after the address,
which is what `std::lower_bound` returns on a list partitioned by that test. -/

/-- Index of the first record that starts at or after the address. -/
def lowerBound (t : List ρ) (a : ℕ) : ℕ := t.findIdx fun r => decide (a ≤ start r)

/-- The lower bound splits an ordered table into the records starting before
the address and those starting at or after it. -/
theorem lowerBound_split (h : IsOrdered t) (a : ℕ) : ∃ l r, t = l ++ r ∧ l.length = lowerBound t a ∧
      (∀ s ∈ l, start s < a) ∧ ∀ s ∈ r, a ≤ start s := by
  induction t with
  | nil => exact ⟨[], [], rfl, rfl, by simp, by simp⟩
  | cons x t ih =>
    by_cases hx : a ≤ start x
    · refine ⟨[], x :: t, rfl, ?_, by simp, ?_⟩
      · simp [lowerBound, findIdx_cons, hx]
      intro s hs
      rcases mem_cons.mp hs with rfl | hs
      · exact hx
      · have hxs := h.head_before hs
        simp only [stop] at hxs
        omega
    · obtain ⟨l, r, ht, hlen, hl, hr⟩ := ih h.tail
      refine ⟨x :: l, r, by rw [ht, cons_append], ?_, ?_, hr⟩
      · simp [lowerBound, findIdx_cons, hx, hlen]
      · intro s hs
        rcases mem_cons.mp hs with rfl | hs
        · exact not_le.mp hx
        · exact hl s hs

variable {p n : ρ}

theorem start_lt_of_prev (hzero : lowerBound t a ≠ 0) (hp : t[lowerBound t a - 1]? = some p) :
    start p < a := by
  obtain ⟨_, rfl⟩ := List.getElem?_eq_some_iff.mp hp
  simpa [lowerBound] using List.not_of_lt_findIdx (Nat.sub_one_lt hzero)

theorem le_start_of_next (hn : t[lowerBound t a]? = some n) : a ≤ start n := by
  obtain ⟨hlt, rfl⟩ := List.getElem?_eq_some_iff.mp hn
  exact of_decide_eq_true (List.findIdx_getElem (w := hlt))

/-- A record that starts before the address is the one before the lower bound or ends before it. -/
theorem IsOrdered.exists_prev (h : IsOrdered t) (hs : s ∈ t) (hsa : start s < a) :
    lowerBound t a ≠ 0 ∧ ∃ p, t[lowerBound t a - 1]? = some p ∧ (s = p ∨ stop s ≤ start p) := by
  obtain ⟨l, r, ht, hlen, -, hr⟩ := lowerBound_split h a
  rw [← hlen, ht]
  rw [ht] at h hs
  have hsl : s ∈ l := (mem_append.mp hs).resolve_right fun hsr =>
    absurd hsa (not_lt.mpr (hr s hsr))
  obtain ⟨front, p, rfl⟩ := (eq_nil_or_concat' l).resolve_left (ne_nil_of_mem hsl)
  refine ⟨by simp, p, by simp, ?_⟩
  rcases mem_append.mp hsl with hsf | hsp
  · exact .inr (h.append_left.append_cross hsf (mem_singleton.mpr rfl))
  · exact .inl (mem_singleton.mp hsp)

/-- A record that starts at the address or after it is the one at the lower bound or starts after
the end of that one. -/
theorem IsOrdered.exists_next (h : IsOrdered t) (hs : s ∈ t) (has : a ≤ start s) :
    ∃ n ∈ t, t[lowerBound t a]? = some n ∧ (n = s ∨ stop n ≤ start s) := by
  obtain ⟨l, r, ht, hlen, hl, -⟩ := lowerBound_split h a
  rw [← hlen, ht]
  rw [ht] at h hs
  have hsr : s ∈ r := (mem_append.mp hs).resolve_left fun hsl =>
    absurd (hl s hsl) (not_lt.mpr has)
  obtain ⟨n, rest, rfl⟩ := exists_cons_of_ne_nil (ne_nil_of_mem hsr)
  refine ⟨n, by simp, by simp, ?_⟩
  rcases mem_cons.mp hsr with rfl | hrest
  · exact .inl rfl
  · exact .inr (h.append_right.head_before hrest)

/-- Search for the record containing an address: the record starting exactly
there, or else the one before the lower bound. The length of the table means
that there is none. -/
def locate (t : List ρ) (a : ℕ) : ℕ :=
  let insertion := lowerBound t a
  if t[insertion]?.any fun r => start r = a then insertion
  else if insertion = 0 then t.length
  else if t[insertion - 1]?.any fun r => a < stop r then insertion - 1
  else t.length

/-- The search reads the table at exactly the record covering the address. -/
theorem getElem?_locate (h : IsOrdered t) (a : ℕ) : t[locate t a]? = entryAt t a := by
  simp only [locate]
  by_cases hexact : t[lowerBound t a]?.any (fun x => decide (start x = a)) = true
  · rw [if_pos hexact]
    obtain ⟨x, hx, hxa⟩ := (Option.any_eq_true _ _).mp hexact
    have hxt : x ∈ t := mem_of_getElem? hx
    rw [hx, eq_comm, entryAt_eq_some_iff h]
    exact ⟨hxt, of_decide_eq_true hxa ▸ covers_start h hxt⟩
  · rw [if_neg hexact]
    cases hentry : entryAt t a with
    | some s =>
      obtain ⟨hs, hsa⟩ := mem_of_entryAt hentry
      -- A record that starts at the address would be the one at the lower bound.
      have hlt : start s < a := by
        refine lt_of_le_of_ne hsa.1 fun heq => ?_
        obtain ⟨n, hn, hget, rfl | hle⟩ := h.exists_next hs (le_of_eq heq.symm)
        · exact hexact (by simp [hget, heq])
        · have hna := le_start_of_next hget
          have hnn := start_lt_stop_of_mem h hn
          omega
      obtain ⟨hzero, p, hget, rfl | hle⟩ := h.exists_prev hs hlt
      · simp [hzero, hget, hsa.2]
      · have hlt := lt_of_le_of_lt hle (start_lt_of_prev hzero hget)
        exact absurd hsa.2 (not_lt.mpr (le_of_lt hlt))
    | none =>
      by_cases hzero : lowerBound t a = 0
      · simp [hzero]
      cases hget : t[lowerBound t a - 1]? with
      | none => simp [hzero]
      | some p =>
        have hout : ¬ a < stop p := fun hlt => entryAt_eq_none_iff.mp hentry p
          (mem_of_getElem? hget) ⟨le_of_lt (start_lt_of_prev hzero hget), hlt⟩
        simp [hzero, hout]

theorem locate_eq_length_iff (h : IsOrdered t) (a : ℕ) :
    locate t a = t.length ↔ entryAt t a = none := by
  rw [← getElem?_locate h, getElem?_eq_none_iff]
  constructor
  · intro heq
    exact le_of_eq heq.symm
  intro hle
  refine le_antisymm ?_ hle
  simp only [locate]
  have hlb : lowerBound t a ≤ t.length := findIdx_le_length
  split_ifs <;> omega

/-! ## Gaps and insertion -/

/-- The neighbours of the lower bound leave room for the range: the record
before it ends by `lo` and the record at it starts at or after `hi`. -/
def hasGap (t : List ρ) (lo hi : ℕ) : Bool :=
  let insertion := lowerBound t lo
  !(insertion ≠ 0 && t[insertion - 1]?.any fun p => lo < stop p) &&
    !(t[insertion]?.any fun n => start n < hi)

/-- Looking at the two neighbours is enough to see that no record meets the
range. -/
theorem hasGap_iff (h : IsOrdered t) {lo hi : ℕ} (hle : lo ≤ hi) :
    hasGap t lo hi = true ↔ ∀ s ∈ t, stop s ≤ lo ∨ hi ≤ start s := by
  simp only [hasGap, Bool.and_eq_true, Bool.not_eq_true', Bool.and_eq_false_iff]
  constructor
  · rintro ⟨hpre, hafter⟩ s hs
    rcases lt_or_ge (start s) lo with hslo | hslo
    · obtain ⟨hzero, p, hget, hsp⟩ := h.exists_prev hs hslo
      have hp : stop p ≤ lo := by simpa [hzero, hget] using hpre
      have hplo := start_lt_of_prev hzero hget
      rcases hsp with rfl | hsp <;> omega
    · obtain ⟨n, hn, hget, hns⟩ := h.exists_next hs hslo
      have hhi : hi ≤ start n := by simpa [hget] using hafter
      have hnn := start_lt_stop_of_mem h hn
      rcases hns with rfl | hns <;> omega
  · intro hfree
    refine ⟨?_, ?_⟩
    · by_cases hzero : lowerBound t lo = 0
      · simp [hzero]
      cases hget : t[lowerBound t lo - 1]? with
      | none => simp
      | some p =>
        have hp := hfree p (mem_of_getElem? hget)
        have hplo := start_lt_of_prev hzero hget
        simp only [Option.any_some, decide_eq_false_iff_not]
        omega
    · cases hget : t[lowerBound t lo]? with
      | none => rfl
      | some n =>
        have hn := hfree n (mem_of_getElem? hget)
        have hlon := le_start_of_next hget
        have hnn := start_lt_stop_of_mem h (mem_of_getElem? hget)
        simp only [Option.any_some, decide_eq_false_iff_not]
        omega

/-- Insert a record at the lower bound of its start. -/
def insertSorted (t : List ρ) (x : ρ) : List ρ := t.insertIdx (lowerBound t (start x)) x

private theorem insertIdx_length_append {α : Type u} (l r : List α) (x : α) :
    (l ++ r).insertIdx l.length x = l ++ x :: r := by
  induction l with
  | nil => rfl
  | cons y l ih => simpa using ih

theorem insertSorted_split (h : IsOrdered t) (x : ρ) :
    ∃ l r, t = l ++ r ∧ insertSorted t x = l ++ x :: r ∧
      (∀ s ∈ l, start s < start x) ∧ ∀ s ∈ r, start x ≤ start s := by
  obtain ⟨l, r, ht, hlen, hl, hr⟩ := lowerBound_split h (start x)
  refine ⟨l, r, ht, ?_, hl, hr⟩
  rw [insertSorted, ← hlen, ht, insertIdx_length_append]

/-- Inserting a nonempty record into a gap keeps the table ordered. -/
theorem IsOrdered.insertSorted (h : IsOrdered t) (hpos : 0 < size x)
    (hgap : ∀ s ∈ t, stop s ≤ start x ∨ stop x ≤ start s) : IsOrdered (insertSorted t x) := by
  obtain ⟨l, r, ht, hins, hl, hr⟩ := insertSorted_split h x
  have hxx : start x < stop x := by simp only [stop]; omega
  rw [hins]
  rw [ht] at h hgap
  have hlx : ∀ s ∈ l, stop s ≤ start x := by
    intro s hs
    have hsx := hl s hs
    have := hgap s (mem_append_left r hs)
    omega
  have hxr : ∀ s ∈ r, stop x ≤ start s := by
    intro s hs
    have hsx := hr s hs
    have hss := start_lt_stop_of_mem h (mem_append_right l hs)
    have := hgap s (mem_append_right l hs)
    omega
  refine h.append_left.append (IsOrdered.cons hpos hxr h.append_right) ?_
  intro s hs y hy
  rcases mem_cons.mp hy with rfl | hy
  · exact hlx s hs
  · exact h.append_cross hs hy

/-- After an insertion into a gap the new record answers for its own interval
and the table answers as before elsewhere. -/
theorem entryAt_insertSorted (h : IsOrdered t) (hgap : ∀ s ∈ t, stop s ≤ start x ∨ stop x ≤ start s)
    (a : ℕ) : entryAt (insertSorted t x) a = if Covers x a then some x else entryAt t a := by
  obtain ⟨l, r, ht, hins, hl, hr⟩ := insertSorted_split h x
  rw [hins, entryAt_append, entryAt_cons]
  by_cases hxa : Covers x a
  · have hlnone : entryAt l a = none := by
      rw [entryAt_eq_none_iff]
      intro s hs hsa
      have hs' := hgap s (by rw [ht]; exact mem_append_left r hs)
      simp only [Covers] at hsa hxa
      omega
    simp [hxa, hlnone]
  · rw [if_neg hxa, if_neg hxa, ht, entryAt_append]

/-! ## Walking over consecutive records -/

/-- Follow the table from a record covering `current` until `remaining`
addresses have been seen, collecting the records passed. The walk fails as soon
as the next record does not continue where the last one stopped. -/
def coverWalk : List ρ → ℕ → ℕ → Option (List ρ)
  | [], _, _ => none
  | r :: rest, current, remaining =>
    if Covers r current then
      if remaining ≤ stop r - current then some [r]
      else (coverWalk rest (stop r) (remaining - (stop r - current))).map (r :: ·)
    else none

/-- A finished walk passed records of the table only, each of them meeting the
range, and between them they cover it. The range of a walk over zero addresses
is the current address itself. -/
theorem coverWalk_sound {l : List ρ} {remaining : ℕ} (h : coverWalk t current remaining = some l) :
    (∀ r ∈ l, r ∈ t ∧ ∃ a, current ≤ a ∧ a < current + max remaining 1 ∧ Covers r a) ∧
      ∀ a, current ≤ a → a < current + max remaining 1 → ∃ r ∈ l, Covers r a := by
  induction t generalizing current remaining l with
  | nil => simp [coverWalk] at h
  | cons r rest ih =>
    rw [coverWalk] at h
    split_ifs at h with hcov hlast
    · obtain rfl : [r] = l := by simpa using h
      have hstop := hcov.2
      refine ⟨?_, ?_⟩
      · intro s hs
        obtain rfl := mem_singleton.mp hs
        exact ⟨mem_cons_self, current, le_rfl, by omega, hcov⟩
      · intro a hlo hhi
        exact ⟨r, mem_singleton.mpr rfl, le_trans hcov.1 hlo, by omega⟩
    · cases hrest : coverWalk rest (stop r) (remaining - (stop r - current)) with
      | none => simp [hrest] at h
      | some l' =>
        obtain rfl : r :: l' = l := by simpa [hrest] using h
        have hstop := hcov.2
        obtain ⟨hmem, hall⟩ := ih hrest
        refine ⟨?_, ?_⟩
        · intro s hs
          rcases mem_cons.mp hs with rfl | hs
          · exact ⟨mem_cons_self, current, le_rfl, by omega, hcov⟩
          · obtain ⟨hst, a, hlo, hhi, hsa⟩ := hmem s hs
            exact ⟨mem_cons_of_mem r hst, a, by omega, by omega, hsa⟩
        · intro a hlo hhi
          by_cases har : a < stop r
          · exact ⟨r, mem_cons_self, le_trans hcov.1 hlo, har⟩
          · obtain ⟨s, hs, hsa⟩ := hall a (not_lt.mp har) (by omega)
            exact ⟨s, mem_cons_of_mem r hs, hsa⟩

/-- A walk that starts inside its first record finishes whenever the table
covers the whole range. -/
theorem coverWalk_complete {rest : List ρ} (h : IsOrdered (r :: rest)) (remaining : ℕ)
    (hcov : Covers r current)
    (hall : ∀ a, current ≤ a → a < current + remaining → ∃ s ∈ r :: rest, Covers s a) :
    ∃ l, coverWalk (r :: rest) current remaining = some l := by
  induction rest generalizing r current remaining with
  | nil =>
    refine ⟨[r], ?_⟩
    rw [coverWalk, if_pos hcov, if_pos]
    by_contra hlong
    obtain ⟨s, hs, hsa⟩ := hall (stop r) (le_of_lt hcov.2) (by have := hcov.2; omega)
    obtain rfl := mem_singleton.mp hs
    exact absurd hsa.2 (lt_irrefl _)
  | cons s rest ih =>
    rw [coverWalk, if_pos hcov]
    by_cases hlast : remaining ≤ stop r - current
    · exact ⟨[r], if_pos hlast⟩
    rw [if_neg hlast]
    have hcur := hcov.2
    -- The address right after the first record can only belong to the second one.
    have hnext : Covers s (stop r) := by
      obtain ⟨x, hx, hxa⟩ := hall (stop r) (le_of_lt hcur) (by omega)
      rcases mem_cons.mp hx with rfl | hx
      · exact absurd hxa.2 (lt_irrefl _)
      rcases mem_cons.mp hx with rfl | hx
      · exact hxa
      have hsx := h.tail.head_before hx
      have hrs := h.head_before (mem_cons_self (a := s) (l := rest))
      have hss := start_lt_stop_of_mem h.tail (mem_cons_self (a := s) (l := rest))
      have hxa' := hxa.1
      omega
    obtain ⟨l, hl⟩ := ih h.tail (remaining - (stop r - current)) hnext (by
      intro a hlo hhi
      obtain ⟨x, hx, hxa⟩ := hall a (by omega) (by omega)
      rcases mem_cons.mp hx with rfl | hx
      · exact absurd hxa.2 (not_lt.mpr hlo)
      · exact ⟨x, hx, hxa⟩)
    exact ⟨r :: l, by rw [hl]; rfl⟩

/-- Records of an ordered table that cover an address at or after one covered at
an index are found from that index on. -/
theorem IsOrdered.mem_drop_of_covers (h : IsOrdered t) {i : ℕ} (hi : t[i]? = some r) (hs : s ∈ t)
    (hr : Covers r current) (hle : current ≤ a) (hsa : Covers s a) : s ∈ t.drop i := by
  rw [← take_append_drop i t] at hs h
  rcases mem_append.mp hs with hs | hs
  · have hrdrop : r ∈ t.drop i := mem_of_getElem? (i := 0) (by simpa using hi)
    have hcross := h.append_cross hs hrdrop
    have hr1 := hr.1
    have hsa2 := hsa.2
    omega
  · exact hs

/-- The table covers every address of a range, or just its first address if the
range is empty. -/
def CoversRange (t : List ρ) (current remaining : ℕ) : Prop :=
  ∀ a, current ≤ a → a < current + max remaining 1 → ∃ r ∈ t, Covers r a

/-- Walking from the record found by the search succeeds exactly on covered
ranges, and then passes exactly the records meeting the range. -/
theorem coverWalk_drop_locate (h : IsOrdered t) (current remaining : ℕ) :
    (CoversRange t current remaining ∧
        ∃ l, coverWalk (t.drop (locate t current)) current remaining = some l ∧ ∀ r, r ∈ l ↔ r ∈ t ∧
            ∃ a, current ≤ a ∧ a < current + max remaining 1 ∧ Covers r a) ∨
      (¬ CoversRange t current remaining ∧
        coverWalk (t.drop (locate t current)) current remaining = none) := by
  have hmemDrop : ∀ {r}, r ∈ t.drop (locate t current) → r ∈ t := List.mem_of_mem_drop
  cases hwalk : coverWalk (t.drop (locate t current)) current remaining with
  | some l =>
    obtain ⟨hsound, hcovered⟩ := coverWalk_sound hwalk
    have hrange : CoversRange t current remaining := fun a hlo hhi =>
      (hcovered a hlo hhi).imp fun r hr => ⟨hmemDrop (hsound r hr.1).1, hr.2⟩
    refine .inl ⟨hrange, l, rfl, fun r => ⟨fun hr => ?_, ?_⟩⟩
    · exact ⟨hmemDrop (hsound r hr).1, (hsound r hr).2⟩
    · rintro ⟨hr, a, hlo, hhi, hra⟩
      obtain ⟨s, hs, hsa⟩ := hcovered a hlo hhi
      rwa [h.eq_of_covers hr (hmemDrop (hsound s hs).1) hra hsa]
  | none =>
    refine .inr ⟨fun hrange => ?_, rfl⟩
    obtain ⟨r, hr, hra⟩ := hrange _ le_rfl (by omega)
    have hfound := (getElem?_locate h current).trans ((entryAt_eq_some_iff h).mpr ⟨hr, hra⟩)
    obtain ⟨hlt, hget⟩ := List.getElem?_eq_some_iff.mp hfound
    have hdrop : t.drop (locate t current) = r :: t.drop (locate t current + 1) := by
      rw [List.drop_eq_getElem_cons hlt, hget]
    have hord : IsOrdered (r :: t.drop (locate t current + 1)) := by
      rw [← hdrop]
      rw [← List.take_append_drop (locate t current) t] at h
      exact h.append_right
    obtain ⟨l, hl⟩ := coverWalk_complete hord remaining hra (by
      intro a hlo hhi
      obtain ⟨s, hs, hsa⟩ := hrange a hlo (by omega)
      exact ⟨s, hdrop ▸ h.mem_drop_of_covers hfound hs hra hlo hsa, hsa⟩)
    rw [← hdrop, hwalk] at hl
    cases hl

end KajPS5.Math
