/-
# Cutting, repainting and coalescing interval tables

A record may carry a payload that varies along its interval: a constant tag, or
a reference into another space that advances with the address. `SlicedSpan`
records how a payload is read at an address and how a record is restricted to a
subinterval without changing what it denotes there. A table then denotes a
partial function from addresses to values, and the operations of this module
are stated as equations about that function: cutting a range makes it
undefined, repainting replaces its values there, coalescing leaves it alone.
-/

import Mathlib.Data.List.Chain
import KajPS5.Math.IntervalTable

namespace KajPS5.Math

universe u v

open Spanned List IsOrdered

/-- Interval records whose payload denotes a value at every address, together
with restriction to a subinterval. -/
class SlicedSpan (ρ : Type u) (ν : outParam (Type v)) extends Spanned ρ where
  valueAt : ρ → ℕ → ν
  slice : ρ → ℕ → ℕ → ρ
  start_slice : ∀ r lo hi, start (slice r lo hi) = lo
  size_slice : ∀ r lo hi, size (slice r lo hi) = hi - lo
  valueAt_slice : ∀ r lo hi a, start r ≤ lo → lo ≤ a → valueAt (slice r lo hi) a = valueAt r a

export SlicedSpan (valueAt slice start_slice size_slice valueAt_slice)

attribute [simp] start_slice size_slice

variable {ρ : Type u} {ν : Type v} [SlicedSpan ρ ν]

variable {r p : ρ} {lo hi a : ℕ} {t : List ρ}

theorem stop_slice (h : lo ≤ hi) : stop (slice r lo hi) = hi := by
  simp only [stop, start_slice, size_slice]
  omega

theorem covers_slice_iff : Covers (slice r lo hi) a ↔ lo ≤ a ∧ a < hi := by
  simp only [Covers, stop, start_slice, size_slice]
  omega

/-- The value a table assigns to an address. -/
def denote (t : List ρ) (a : ℕ) : Option ν := (entryAt t a).map fun r => valueAt r a

@[simp]
theorem denote_nil (a : ℕ) : denote ([] : List ρ) a = none := rfl

theorem denote_cons (r : ρ) (t : List ρ) (a : ℕ) :
    denote (r :: t) a = if Covers r a then some (valueAt r a) else denote t a := by
  rw [denote, entryAt_cons]
  split_ifs <;> rfl

theorem denote_append (l r : List ρ) (a : ℕ) :
    denote (l ++ r) a = (denote l a).or (denote r a) := by
  rw [denote, entryAt_append]
  cases h : entryAt l a <;> simp [denote, h]

theorem denote_eq_none_iff : denote t a = none ↔ ∀ r ∈ t, ¬ Covers r a := by
  rw [denote, Option.map_eq_none_iff, entryAt_eq_none_iff]

theorem denote_eq_some_iff (h : IsOrdered t) {v : ν} :
    denote t a = some v ↔ ∃ r ∈ t, Covers r a ∧ valueAt r a = v := by
  simp [denote, entryAt_eq_some_iff h, and_assoc]

theorem denote_of_mem (h : IsOrdered t) (hr : r ∈ t) (ha : Covers r a) :
    denote t a = some (valueAt r a) :=
  (denote_eq_some_iff h).mpr ⟨r, hr, ha, rfl⟩

theorem denote_insertSorted (h : IsOrdered t) {x : ρ}
    (hgap : ∀ s ∈ t, stop s ≤ start x ∨ stop x ≤ start s) (a : ℕ) :
    denote (insertSorted t x) a = if Covers x a then some (valueAt x a) else denote t a := by
  rw [denote, entryAt_insertSorted h hgap]
  split_ifs <;> rfl

/-- No record meets a nonempty range exactly when the table is undefined all
along it. -/
theorem forall_denote_eq_none_iff (h : IsOrdered t) (hlt : lo < hi) :
    (∀ a, lo ≤ a → a < hi → denote t a = none) ↔ ∀ s ∈ t, stop s ≤ lo ∨ hi ≤ start s := by
  constructor
  · intro hnone s hs
    by_contra hmeets
    have hss := start_lt_stop_of_mem h hs
    have hcov : Covers s (max lo (start s)) := ⟨le_max_right _ _, by omega⟩
    have hfree := hnone (max _ (start s)) (le_max_left _ _) (by omega)
    exact denote_eq_none_iff.mp hfree s hs hcov
  · intro hfree a hlo hhi
    rw [denote_eq_none_iff]
    intro s hs hsa
    have := hfree s hs
    have := hsa.1
    have := hsa.2
    omega

/-! ## Expanding every record in place

Cutting and repainting both replace each record by pieces of itself, so their
order argument is shared. -/

/-- The pieces of a record are ordered and lie inside it. -/
structure PiecesOf (r : ρ) (pieces : List ρ) : Prop where
  ordered : IsOrdered pieces
  inside : ∀ p ∈ pieces, start r ≤ start p ∧ stop p ≤ stop r

theorem PiecesOf.covers {pieces : List ρ} (h : PiecesOf r pieces) (hp : p ∈ pieces)
    (ha : Covers p a) : Covers r a :=
  ⟨le_trans (h.inside p hp).1 ha.1, lt_of_lt_of_le ha.2 (h.inside p hp).2⟩

variable {f : ρ → List ρ}

theorem IsOrdered.flatMap (h : IsOrdered t) (hf : ∀ r ∈ t, PiecesOf r (f r)) :
    IsOrdered (t.flatMap f) := by
  induction t with
  | nil => exact nil
  | cons r t ih =>
    refine (hf r mem_cons_self).ordered.append
      (ih h.tail fun s hs => hf s (mem_cons_of_mem r hs)) ?_
    intro x hx y hy
    obtain ⟨s, hs, hys⟩ := mem_flatMap.mp hy
    have hxr := ((hf r mem_cons_self).inside x hx).2
    have hsy := ((hf s (mem_cons_of_mem r hs)).inside y hys).1
    exact le_trans hxr (le_trans (h.head_before hs) hsy)

/-- If the pieces of each record denote `g` of what the record denoted, so does
the whole table. -/
theorem denote_flatMap (h : IsOrdered t) (hf : ∀ r ∈ t, PiecesOf r (f r)) {g : Option ν → Option ν}
    (hg : g none = none) (hval : ∀ r ∈ t, Covers r a → denote (f r) a = g (some (valueAt r a))) :
    denote (t.flatMap f) a = g (denote t a) := by
  induction t with
  | nil => simp [hg]
  | cons r t ih =>
    rw [flatMap_cons, denote_append, denote_cons]
    have hrest := ih h.tail (fun s hs => hf s (mem_cons_of_mem r hs))
      (fun s hs => hval s (mem_cons_of_mem r hs))
    by_cases hcov : Covers r a
    · rw [if_pos hcov, hrest, hval r mem_cons_self hcov]
      have hnone : denote t a = none := by
        rw [denote_eq_none_iff]
        intro s hs hsa
        exact absurd (lt_of_lt_of_le hcov.2 (h.head_before hs)) (not_lt.mpr hsa.1)
      rw [hnone, hg, Option.or_none]
    · have hnone : denote (f r) a = none := by
        rw [denote_eq_none_iff]
        intro p hp hpa
        exact hcov ((hf r mem_cons_self).covers hp hpa)
      rw [if_neg hcov, hrest, hnone, Option.none_or]

/-! ## Replacing the part of each record inside a range -/

theorem piecesOf_self (h : IsOrdered t) (hr : r ∈ t) : PiecesOf r [r] where
  ordered := cons (h.size_pos r hr) (by simp) nil
  inside p hp := by
    obtain rfl := mem_singleton.mp hp
    exact ⟨le_rfl, le_rfl⟩

theorem PiecesOf.nil (r : ρ) : PiecesOf r ([] : List ρ) := ⟨IsOrdered.nil, by simp⟩

theorem PiecesOf.append {l m : List ρ} (hl : PiecesOf r l) (hm : PiecesOf r m)
    (hcross : ∀ x ∈ l, ∀ y ∈ m, stop x ≤ start y) : PiecesOf r (l ++ m) where
  ordered := hl.ordered.append hm.ordered hcross
  inside p hp := (mem_append.mp hp).elim (hl.inside p) (hm.inside p)

/-- The part of a record before an address, when there is one. -/
def piecesBefore (lo : ℕ) (r : ρ) : List ρ := if start r < lo then [slice r (start r) lo] else []

/-- The part of a record from an address on, when there is one. -/
def piecesFrom (hi : ℕ) (r : ρ) : List ρ := if hi < stop r then [slice r hi (stop r)] else []

theorem piecesOf_slice (hlo : start r ≤ lo) (hlt : lo < hi) (hhi : hi ≤ stop r) :
    PiecesOf r [slice r lo hi] where
  ordered := cons (by rw [size_slice]; omega) (by simp) nil
  inside p hp := by
    obtain rfl := mem_singleton.mp hp
    rw [stop_slice (le_of_lt hlt), start_slice]
    exact ⟨hlo, hhi⟩

theorem stop_le_of_mem_piecesBefore (hp : p ∈ piecesBefore lo r) : stop p ≤ lo := by
  rw [piecesBefore] at hp
  split_ifs at hp with hlt
  · obtain rfl := mem_singleton.mp hp
    exact le_of_eq (stop_slice (le_of_lt hlt))
  · simp at hp

theorem le_start_of_mem_piecesFrom (hp : p ∈ piecesFrom hi r) : hi ≤ start p := by
  rw [piecesFrom] at hp
  split_ifs at hp with hlt
  · obtain rfl := mem_singleton.mp hp
    exact le_of_eq (start_slice r _ (stop r)).symm
  · simp at hp

theorem piecesOf_piecesBefore (h : lo ≤ stop r) : PiecesOf r (piecesBefore lo r) := by
  rw [piecesBefore]
  split_ifs with hlt
  · exact piecesOf_slice le_rfl hlt h
  · exact PiecesOf.nil r

theorem piecesOf_piecesFrom (h : start r ≤ hi) : PiecesOf r (piecesFrom hi r) := by
  rw [piecesFrom]
  split_ifs with hlt
  · exact piecesOf_slice h hlt le_rfl
  · exact PiecesOf.nil r

theorem denote_piecesBefore (ha : Covers r a) :
    denote (piecesBefore lo r) a = if a < lo then some (valueAt r a) else none := by
  have ha1 := ha.1
  rw [piecesBefore]
  by_cases hlt : a < lo
  · rw [if_pos (by omega), denote_cons, if_pos (covers_slice_iff.mpr ⟨ha1, hlt⟩), if_pos hlt,
      valueAt_slice r _ _ _ le_rfl ha1]
  rw [if_neg hlt, denote_eq_none_iff]
  intro p hp hpa
  have hstop : stop p ≤ lo := stop_le_of_mem_piecesBefore hp
  have hpa2 := hpa.2
  omega

theorem denote_piecesFrom (hstart : start r ≤ hi) (ha : Covers r a) :
    denote (piecesFrom hi r) a = if hi ≤ a then some (valueAt r a) else none := by
  have ha2 := ha.2
  rw [piecesFrom]
  by_cases hle : hi ≤ a
  · rw [if_pos (by omega), denote_cons, if_pos (covers_slice_iff.mpr ⟨hle, ha2⟩), if_pos hle,
      valueAt_slice r _ _ _ hstart hle]
  rw [if_neg hle, denote_eq_none_iff]
  intro p hp hpa
  have hge : hi ≤ start p := le_start_of_mem_piecesFrom hp
  have hpa1 := hpa.1
  omega

/-- Keep a record outside a range and put `middle` in place of its part inside
the range. -/
def resect (middle : ρ → List ρ) (lo hi : ℕ) (r : ρ) : List ρ :=
  if hi ≤ start r ∨ lo ≥ stop r then [r]
  else piecesBefore lo r ++ middle (slice r (max (start r) lo) (min (stop r) hi)) ++ piecesFrom hi r

variable {middle : ρ → List ρ}

theorem piecesOf_resect (hmiddle : ∀ p, 0 < size p → PiecesOf p (middle p)) (h : IsOrdered t)
    (hlt : lo < hi) (hr : r ∈ t) : PiecesOf r (resect middle lo hi r) := by
  have hrr := start_lt_stop_of_mem h hr
  rw [resect]
  split_ifs with hout
  · exact piecesOf_self h hr
  have hlo : max (start r) lo < min (stop r) hi := by omega
  have hmid := hmiddle (slice r (max (start r) lo) (min (stop r) hi))
    (by rw [size_slice]; omega)
  have hstop : stop (slice r (max (start r) lo) (min (stop r) hi)) = min (stop r) hi :=
    stop_slice (le_of_lt hlo)
  have hinside : ∀ p ∈ middle (slice r (max (start r) lo) (min (stop r) hi)),
      max (start r) lo ≤ start p ∧ stop p ≤ min (stop r) hi := by
    intro p hp
    have hpin := hmid.inside p hp
    rwa [start_slice, hstop] at hpin
  have hmid' : PiecesOf r (middle (slice r (max (start r) lo) (min (stop r) hi))) :=
    ⟨hmid.ordered, fun p hp => by have := hinside p hp; omega⟩
  refine PiecesOf.append (PiecesOf.append (piecesOf_piecesBefore (by omega)) hmid' ?_)
    (piecesOf_piecesFrom (by omega)) ?_
  · intro x hx y hy
    have hxlo := stop_le_of_mem_piecesBefore hx
    have hylo := (hinside y hy).1
    omega
  · intro x hx y hy
    have hyhi := le_start_of_mem_piecesFrom hy
    rcases mem_append.mp hx with hx | hx
    · have hxlo := stop_le_of_mem_piecesBefore hx
      omega
    · have hxhi := (hinside x hx).2
      omega

/-- Apply `resect` to every record of a table. -/
def resectTable (middle : ρ → List ρ) (lo hi : ℕ) (t : List ρ) : List ρ :=
  t.flatMap (resect middle lo hi)

theorem IsOrdered.resectTable (hmiddle : ∀ p, 0 < size p → PiecesOf p (middle p)) (h : IsOrdered t)
    (hlt : lo < hi) : IsOrdered (resectTable middle lo hi t) :=
  h.flatMap fun _ hr => piecesOf_resect hmiddle h hlt hr

/-- Inside the range the table denotes what the replacements denote, outside it
what it denoted before. -/
theorem denote_resectTable (hmiddle : ∀ p, 0 < size p → PiecesOf p (middle p)) {g : ν → Option ν}
    (hvalue : ∀ p a, Covers p a → denote (middle p) a = g (valueAt p a)) (h : IsOrdered t)
    (hlt : lo < hi) (a : ℕ) :
    denote (resectTable middle lo hi t) a =
      if lo ≤ a ∧ a < hi then (denote t a).bind g else denote t a := by
  rw [resectTable, denote_flatMap h (fun _ hr => piecesOf_resect hmiddle h hlt hr)
    (g := fun v => if lo ≤ a ∧ a < hi then v.bind g else v) (by simp)]
  intro r hr ha
  have ha1 := ha.1
  have ha2 := ha.2
  rw [resect]
  by_cases hout : hi ≤ start r ∨ lo ≥ stop r
  · rw [if_pos hout, denote_cons, if_pos ha, if_neg (by omega)]
  rw [if_neg hout, denote_append, denote_append, denote_piecesBefore ha,
    denote_piecesFrom (by omega) ha]
  have hpieces := hmiddle (slice r (max (start r) lo) (min (stop r) hi))
    (by rw [size_slice]; omega)
  by_cases hin : lo ≤ a ∧ a < hi
  · have hcov : Covers (slice r (max (start r) lo) (min (stop r) hi)) a :=
      covers_slice_iff.mpr ⟨by omega, by omega⟩
    have hsame : valueAt (slice r (max (start r) lo) (min (stop r) hi)) a = valueAt r a :=
      valueAt_slice r _ _ _ (le_max_left _ _) (by omega)
    rw [if_pos hin, if_neg (by omega), if_neg (by omega), hvalue _ a hcov, hsame]
    simp
  · have hnone : denote (middle (slice r (max (start r) lo) (min (stop r) hi))) a = none := by
      rw [denote_eq_none_iff]
      intro p hp hpa
      have hcov := covers_slice_iff.mp (hpieces.covers hp hpa)
      omega
    rw [if_neg hin, hnone]
    by_cases hpre : a < lo
    · rw [if_pos hpre]
      rfl
    · rw [if_neg hpre, if_pos (by omega)]
      rfl

/-! ## Removing a range -/

/-- What is left of a record when a range is removed, by how the range meets it:
all of the record, nothing, its end, its beginning, or both. -/
def cut (lo hi : ℕ) (r : ρ) : List ρ :=
  let overlapStart := max lo (start r)
  let overlapEnd := min hi (stop r)
  if overlapStart ≥ overlapEnd then [r]
  else if overlapStart = start r ∧ overlapEnd = stop r then []
  else if overlapStart = start r then [slice r overlapEnd (stop r)]
  else if overlapEnd = stop r then [slice r (start r) overlapStart]
  else [slice r (start r) overlapStart, slice r overlapEnd (stop r)]

theorem cut_eq_resect (hlt : lo < hi) (hpos : 0 < size r) :
    cut lo hi r = resect (fun _ => []) lo hi r := by
  have hrr : start r < stop r := by simp only [stop]; omega
  simp only [cut, resect, piecesBefore, piecesFrom]
  by_cases hout : hi ≤ start r ∨ lo ≥ stop r
  · rw [if_pos hout, if_pos (by omega)]
  rw [if_neg hout, if_neg (by omega)]
  by_cases hfront : start r < lo <;> by_cases hback : hi < stop r
  · rw [if_neg (by omega), if_neg (by omega), if_neg (by omega), if_pos hfront, if_pos hback]
    have hlo : max lo (start r) = lo := by omega
    have hhi : min hi (stop r) = hi := by omega
    rw [hlo, hhi]
    rfl
  · rw [if_neg (by omega), if_neg (by omega), if_pos (by omega), if_pos hfront, if_neg hback]
    have hlo : max lo (start r) = lo := by omega
    rw [hlo]
    rfl
  · rw [if_neg (by omega), if_pos (by omega), if_neg hfront, if_pos hback]
    have hhi : min hi (stop r) = hi := by omega
    rw [hhi]
    rfl
  · rw [if_pos (by omega), if_neg hfront, if_neg hback]
    rfl

/-- Removing a range keeps a table ordered and forgets its values there. -/
theorem resectTable_nil (h : IsOrdered t) (hlt : lo < hi) :
    IsOrdered (resectTable (fun _ => []) lo hi t) ∧
      ∀ a, denote (resectTable (fun _ => []) lo hi t) a =
        if lo ≤ a ∧ a < hi then none else denote t a := by
  have hmiddle : ∀ p : ρ, 0 < size p → PiecesOf p ((fun _ => []) p) := fun p _ => PiecesOf.nil p
  refine ⟨h.resectTable hmiddle hlt, fun a => ?_⟩
  rw [denote_resectTable hmiddle (g := fun _ => none) (fun _ _ _ => rfl) h hlt]
  simp

/-! ## Coalescing neighbours -/

/-- Records that may be merged with a neighbour: adjacent, and denoting along
both intervals what the merged record denotes. -/
class MergingSpan (ρ : Type u) (ν : outParam (Type v)) extends SlicedSpan ρ ν where
  mergeable : ρ → ρ → Bool
  merge : ρ → ρ → ρ
  start_merge : ∀ r s, start (merge r s) = start r
  size_merge : ∀ r s, size (merge r s) = size r + size s
  adjacent : ∀ r s, mergeable r s = true → stop r = start s
  valueAt_merge_left : ∀ r s a, mergeable r s = true → a < stop r →
    valueAt (merge r s) a = valueAt r a
  valueAt_merge_right : ∀ r s a, mergeable r s = true → start s ≤ a →
    valueAt (merge r s) a = valueAt s a
  mergeable_merge : ∀ x r s, mergeable x (merge r s) = mergeable x r

export MergingSpan (mergeable merge start_merge size_merge)

section Coalesce

variable {ρ : Type u} {ν : Type v} [MergingSpan ρ ν]

variable {t : List ρ} {r s : ρ}

theorem stop_merge (h : mergeable r s = true) : stop (merge r s) = stop s := by
  have hadj := MergingSpan.adjacent r s h
  simp only [stop, start_merge, size_merge] at hadj ⊢
  omega

/-- Sweep over a table, growing the last output record while the next input
record continues it. -/
def coalesceFrom (previous : ρ) : List ρ → List ρ
  | [] => [previous]
  | current :: rest =>
    if mergeable previous current then coalesceFrom (merge previous current) rest
    else previous :: coalesceFrom current rest

/-- Merge all mergeable neighbours of a table. -/
def coalesce : List ρ → List ρ
  | [] => []
  | first :: rest => coalesceFrom first rest

theorem IsOrdered.merge_head (h : IsOrdered (r :: s :: t)) (hm : mergeable r s = true) :
    IsOrdered (merge r s :: t) := by
  refine cons ?_ ?_ h.tail.tail
  · have hr := h.size_pos r mem_cons_self
    rw [size_merge]
    omega
  · intro x hx
    rw [stop_merge hm]
    exact h.tail.head_before hx

theorem denote_merge_head (h : IsOrdered (r :: s :: t)) (hm : mergeable r s = true) (a : ℕ) :
    denote (merge r s :: t) a = denote (r :: s :: t) a := by
  have hadj := MergingSpan.adjacent r s hm
  have hrr := start_lt_stop_of_mem h mem_cons_self
  have hss := start_lt_stop_of_mem h.tail mem_cons_self
  have hcov : Covers (merge r s) a ↔ Covers r a ∨ Covers s a := by
    simp only [Covers, stop_merge hm, start_merge]
    omega
  rw [denote_cons, denote_cons, denote_cons]
  by_cases hr : Covers r a
  · rw [if_pos (hcov.mpr (.inl hr)), if_pos hr, MergingSpan.valueAt_merge_left r s a hm hr.2]
  · by_cases hs : Covers s a
    · rw [if_pos (hcov.mpr (.inr hs)), if_neg hr, if_pos hs,
        MergingSpan.valueAt_merge_right r s a hm hs.1]
    · rw [if_neg (fun hc => (hcov.mp hc).elim hr hs), if_neg hr, if_neg hs]

/-- The start of the sweep's accumulator is the start of its first output. -/
theorem le_start_of_mem_coalesceFrom (h : IsOrdered (r :: t)) {x : ρ} (hx : x ∈ coalesceFrom r t) :
    start r ≤ start x := by
  induction t generalizing r with
  | nil =>
    rw [coalesceFrom, mem_singleton] at hx
    rw [hx]
  | cons s t ih =>
    rw [coalesceFrom] at hx
    split_ifs at hx with hm
    · rw [← start_merge r s]
      exact ih (h.merge_head hm) hx
    rcases mem_cons.mp hx with rfl | hx
    · exact le_rfl
    · have hrs := h.head_before (mem_cons_self (a := s) (l := t))
      have hrr := start_lt_stop_of_mem h mem_cons_self
      have hsx := ih h.tail hx
      omega

theorem isOrdered_coalesceFrom (h : IsOrdered (r :: t)) : IsOrdered (coalesceFrom r t) := by
  induction t generalizing r with
  | nil => exact h
  | cons s t ih =>
    rw [coalesceFrom]
    split_ifs with hm
    · exact ih (h.merge_head hm)
    · refine cons (h.size_pos r mem_cons_self) ?_ (ih h.tail)
      intro x hx
      exact le_trans (h.head_before mem_cons_self) (le_start_of_mem_coalesceFrom h.tail hx)

theorem denote_coalesceFrom (h : IsOrdered (r :: t)) (a : ℕ) :
    denote (coalesceFrom r t) a = denote (r :: t) a := by
  induction t generalizing r with
  | nil => rfl
  | cons s t ih =>
    rw [coalesceFrom]
    split_ifs with hm
    · rw [ih (h.merge_head hm), denote_merge_head h hm]
    · rw [denote_cons, denote_cons r, ih h.tail]

theorem IsOrdered.coalesce (h : IsOrdered t) : IsOrdered (coalesce t) := by
  cases t with
  | nil => exact h
  | cons r t => exact isOrdered_coalesceFrom h

/-- Coalescing does not change what a table denotes. -/
theorem denote_coalesce (h : IsOrdered t) (a : ℕ) : denote (coalesce t) a = denote t a := by
  cases t with
  | nil => rfl
  | cons r t => exact denote_coalesceFrom h a

/-- A grown record is mergeable from the left exactly when it was before it
grew, so an output record is never mergeable with the next one. -/
theorem mergeable_head_coalesceFrom (x r : ρ) (t : List ρ) :
    ∀ y ∈ (coalesceFrom r t).head?, mergeable x y = mergeable x r := by
  induction t generalizing r with
  | nil =>
    intro y hy
    obtain rfl : r = y := by simpa [coalesceFrom] using hy
    rfl
  | cons s t ih =>
    intro y hy
    rw [coalesceFrom] at hy
    split_ifs at hy with hm
    · rw [ih (merge r s) y hy, MergingSpan.mergeable_merge]
    · obtain rfl : r = y := by simpa using hy
      rfl

theorem isChain_coalesceFrom (r : ρ) (t : List ρ) :
    (coalesceFrom r t).IsChain fun x y => mergeable x y = false := by
  induction t generalizing r with
  | nil => exact isChain_singleton r
  | cons s t ih =>
    rw [coalesceFrom]
    split_ifs with hm
    · exact ih (merge r s)
    · rw [isChain_cons]
      refine ⟨fun y hy => ?_, ih s⟩
      rw [mergeable_head_coalesceFrom r s t y hy]
      simpa using hm

/-- No two neighbours of a coalesced table can be merged. -/
theorem isChain_coalesce (t : List ρ) : (coalesce t).IsChain fun x y => mergeable x y = false := by
  cases t with
  | nil => exact isChain_nil
  | cons r t => exact isChain_coalesceFrom r t

end Coalesce

end KajPS5.Math
