/-
# Cutting a line at marks

A finite set of marks cuts the line of natural numbers into the pieces between
neighbouring marks. An interval that begins and ends at marks contains a piece or
misses it, so a question about the intervals around a point is a question about
the piece the point lies in.
-/

import Mathlib.Data.List.Dedup
import Mathlib.Data.List.Sort

namespace KajPS5.Math

open List

/-- The marks in order, each once. -/
def sortedMarks (marks : List ℕ) : List ℕ := (marks.insertionSort (· ≤ ·)).dedup

/-- The pieces between neighbouring marks. -/
def cuts (marks : List ℕ) : List (ℕ × ℕ) := (sortedMarks marks).zip (sortedMarks marks).tail

variable {marks : List ℕ} {piece : ℕ × ℕ} {a : ℕ}

theorem mem_sortedMarks {mark : ℕ} : mark ∈ sortedMarks marks ↔ mark ∈ marks := by
  rw [sortedMarks, mem_dedup, mem_insertionSort]

theorem pairwise_sortedMarks (marks : List ℕ) : (sortedMarks marks).Pairwise (· < ·) := by
  have hle : (sortedMarks marks).Pairwise (· ≤ ·) :=
    (pairwise_insertionSort (· ≤ ·) marks).sublist (dedup_sublist _)
  have hne : (sortedMarks marks).Pairwise (· ≠ ·) := nodup_dedup _
  exact (hle.and hne).imp fun h => lt_of_le_of_ne h.1 h.2

variable {l : List ℕ} {lo hi : ℕ}

/-- A piece between neighbours of a strictly increasing list. -/
theorem mem_zip_tail (hl : l.Pairwise (· < ·)) (hpiece : piece ∈ l.zip l.tail) :
    piece.1 < piece.2 ∧ piece.1 ∈ l ∧ piece.2 ∈ l ∧
      ∀ mark ∈ l, mark ≤ piece.1 ∨ piece.2 ≤ mark := by
  induction l with
  | nil => exact absurd hpiece not_mem_nil
  | cons first rest ih =>
    rw [pairwise_cons] at hl
    cases rest with
    | nil => exact absurd hpiece not_mem_nil
    | cons second rest =>
      rw [tail_cons, zip_cons_cons, mem_cons] at hpiece
      rcases hpiece with rfl | hpiece
      · refine ⟨hl.1 second mem_cons_self, mem_cons_self,
          mem_cons_of_mem _ mem_cons_self, ?_⟩
        intro mark hmark
        rcases mem_cons.mp hmark with rfl | hmark
        · exact .inl le_rfl
        · rcases mem_cons.mp hmark with rfl | hmark
          · exact .inr le_rfl
          · exact .inr (le_of_lt ((pairwise_cons.mp hl.2).1 mark hmark))
      · obtain ⟨hlt, hlo, hhi, hmarks⟩ := ih hl.2 hpiece
        refine ⟨hlt, mem_cons_of_mem _ hlo, mem_cons_of_mem _ hhi, ?_⟩
        intro mark hmark
        rcases mem_cons.mp hmark with rfl | hmark
        · exact .inl (le_of_lt (hl.1 _ hlo))
        · exact hmarks _ hmark

/-- Between two of the values of the list every point lies in a piece. -/
theorem exists_zip_tail (hlo : ∃ mark ∈ l.head?, mark ≤ a) (hhi : ∃ mark ∈ l, a < mark) :
    ∃ piece ∈ l.zip l.tail, piece.1 ≤ a ∧ a < piece.2 := by
  induction l with
  | nil =>
    obtain ⟨mark, hmark, -⟩ := hhi
    exact absurd hmark not_mem_nil
  | cons first rest ih =>
    obtain ⟨_, hfirst, hle⟩ := hlo
    cases hfirst
    obtain ⟨mark, hmark, hlt⟩ := hhi
    have hrest : mark ∈ rest := by
      rcases mem_cons.mp hmark with rfl | hmark
      · omega
      · exact hmark
    cases rest with
    | nil => exact absurd hrest not_mem_nil
    | cons second rest =>
      by_cases hsecond : second ≤ a
      · obtain ⟨piece, hpiece, hin⟩ := ih ⟨second, rfl, hsecond⟩ ⟨mark, hrest, hlt⟩
        exact ⟨piece, mem_cons_of_mem _ hpiece, hin⟩
      · exact ⟨(first, second), mem_cons_self, hle, by omega⟩

/-- No mark lies inside a piece. -/
theorem mem_cuts (hpiece : piece ∈ cuts marks) :
    piece.1 < piece.2 ∧ piece.1 ∈ marks ∧ piece.2 ∈ marks ∧
      ∀ mark ∈ marks, mark ≤ piece.1 ∨ piece.2 ≤ mark := by
  have h := mem_zip_tail (pairwise_sortedMarks marks) hpiece
  simp only [mem_sortedMarks] at h
  exact h

/-- A point between two marks lies in a piece. -/
theorem exists_cut (hlo : lo ∈ marks) (hhi : hi ∈ marks) (hle : lo ≤ a) (hlt : a < hi) :
    ∃ piece ∈ cuts marks, piece.1 ≤ a ∧ a < piece.2 := by
  rw [← mem_sortedMarks] at hlo hhi
  refine exists_zip_tail ?_ ⟨hi, hhi, hlt⟩
  cases hsorted : sortedMarks marks with
  | nil =>
    rw [hsorted] at hlo
    exact absurd hlo not_mem_nil
  | cons first rest =>
    have hpairwise := pairwise_sortedMarks marks
    rw [hsorted, pairwise_cons] at hpairwise
    rw [hsorted] at hlo
    refine ⟨first, rfl, ?_⟩
    rcases mem_cons.mp hlo with rfl | hlo
    · exact hle
    · exact le_trans (le_of_lt (hpairwise.1 _ hlo)) hle

/-- An interval between two marks contains a piece or misses it: it holds one
point of the piece exactly if it holds the whole piece. -/
theorem within_iff_of_cut (hpiece : piece ∈ cuts marks) (hlo : lo ∈ marks) (hhi : hi ∈ marks)
    (hle : piece.1 ≤ a) (hlt : a < piece.2) :
    (lo ≤ a ∧ a < hi) ↔ (lo ≤ piece.1 ∧ piece.2 ≤ hi) := by
  obtain ⟨-, -, -, hmarks⟩ := mem_cuts hpiece
  have := hmarks _ hlo
  have := hmarks _ hhi
  omega

end KajPS5.Math
