/-
# First matches

Lists are searched for the first entry with a property, which is then erased or
replaced. Where at most one entry has the property, this is a filter or a map.
-/

import Mathlib.Data.List.Basic

namespace KajPS5.Math.FirstMatches

open List

universe u

variable {α : Type u} {p : α → Bool} {l : List α}

/-- At most one entry has the property. -/
def AtMostOne (p : α → Bool) (l : List α) : Prop := l.Pairwise fun a b => p a = true → p b = false

theorem find?_eq_of_mem (h : AtMostOne p l) {a : α} (hmem : a ∈ l) (ha : p a = true) :
    l.find? p = some a := by
  induction l with
  | nil => cases hmem
  | cons b l ih =>
    obtain ⟨hhead, htail⟩ := pairwise_cons.mp h
    rcases mem_cons.mp hmem with rfl | hmem
    · exact find?_cons_of_pos ha
    · have hb : ¬ p b = true := fun hb => by simp [hhead a hmem hb] at ha
      rw [find?_cons_of_neg hb, ih htail hmem]

theorem eraseP_eq_filter (h : AtMostOne p l) : l.eraseP p = l.filter fun a => !p a := by
  induction l with
  | nil => rfl
  | cons a l ih =>
    obtain ⟨hhead, htail⟩ := pairwise_cons.mp h
    cases ha : p a with
    | true =>
      rw [eraseP_cons_of_pos ha, filter_cons_of_neg (by simp [ha])]
      exact (filter_eq_self.mpr fun b hb => by simp [hhead b hb ha]).symm
    | false =>
      rw [eraseP_cons_of_neg (by simp [ha]), filter_cons_of_pos (by simp [ha]), ih htail]

/-- Replace the first entry with the property. -/
def replaceFirst (p : α → Bool) (f : α → α) (l : List α) : List α :=
  l.replaceF fun a => if p a then some (f a) else none

theorem replaceFirst_cons (f : α → α) (a : α) :
    replaceFirst p f (a :: l) = if p a then f a :: l else a :: replaceFirst p f l := by
  rw [replaceFirst, replaceF_cons]
  cases p a <;> rfl

theorem replaceFirst_eq_map (f : α → α) (h : AtMostOne p l) :
    replaceFirst p f l = l.map fun a => if p a then f a else a := by
  induction l with
  | nil => rfl
  | cons a l ih =>
    obtain ⟨hhead, htail⟩ := pairwise_cons.mp h
    rw [replaceFirst_cons, map_cons]
    split
    next ha =>
      congr 1
      symm
      calc l.map (fun a => if p a then f a else a) = l.map id :=
            map_congr_left fun b hb => by simp [hhead b hb ha]
        _ = l := map_id l
    · rw [ih htail]

/-- Replacing an entry exchanges it in every count. -/
theorem count_replaceFirst [DecidableEq α] (f : α → α) {a : α} (h : l.find? p = some a) (e : α) :
    (replaceFirst p f l).count e + (if a = e then 1 else 0) =
      l.count e + if f a = e then 1 else 0 := by
  induction l with
  | nil => cases h
  | cons b l ih =>
    rw [replaceFirst_cons]
    split
    next hb =>
      rw [find?_cons_of_pos hb, Option.some.injEq] at h
      simp only [h, count_cons, beq_iff_eq]
      omega
    next hb =>
      rw [find?_cons_of_neg hb] at h
      simp only [count_cons]
      have := ih h
      omega

theorem mem_replaceFirst (f : α → α) {x : α} (h : x ∈ replaceFirst p f l) :
    x ∈ l ∨ ∃ a ∈ l, p a = true ∧ x = f a := by
  induction l with
  | nil => cases h
  | cons b l ih =>
    rw [replaceFirst_cons] at h
    split at h
    next hb =>
      rcases mem_cons.mp h with rfl | hmem
      · exact .inr ⟨b, mem_cons_self, hb, rfl⟩
      · exact .inl (mem_cons_of_mem _ hmem)
    rcases mem_cons.mp h with rfl | hmem
    · exact .inl mem_cons_self
    · rcases ih hmem with hold | ⟨a, ha, hpa, rfl⟩
      · exact .inl (mem_cons_of_mem _ hold)
      · exact .inr ⟨a, mem_cons_of_mem _ ha, hpa, rfl⟩

end KajPS5.Math.FirstMatches
