/-
# Computations that stay defined

A program that reads an array by computed indices either ends with a value, ends
with an error of its own, or has done something its language leaves undefined.
Here such a program is a computation in `ExceptT ε Option`, where `none` is the
undefined outcome. `Ensures` says that a computation is defined and what holds of
its value; its rules follow the shape of a program, so that a proof walks through
the text once, collecting the tests that were passed on the way.
-/

import Mathlib.Tactic.Common

namespace KajPS5.Math.DefinedRuns

open List

universe u

variable {ε α β : Type u}

/-- Something undefined has happened. -/
def undefined : ExceptT ε Option α := ExceptT.mk none

/-- End with the error when the condition holds. -/
def rejectIf (condition : Bool) (error : ε) : ExceptT ε Option PUnit :=
  if condition then throw error else pure ⟨⟩

/-- The computation is defined, and its value, if it has one, satisfies `post`. -/
def Ensures (post : α → Prop) (x : ExceptT ε Option α) : Prop :=
  ∃ r, x.run = some r ∧ ∀ a, r = .ok a → post a

theorem exists_of_forall₂ {relation : β → α → Prop} {l : List β} {values : List α}
    (h : List.Forall₂ relation l values) {a : α} (ha : a ∈ values) : ∃ b ∈ l, relation b a := by
  induction h with
  | nil => exact absurd ha not_mem_nil
  | @cons b _ l values hfirst _ ih =>
    rcases mem_cons.mp ha with rfl | ha
    · exact ⟨b, mem_cons_self, hfirst⟩
    · obtain ⟨b', hb', hrelation⟩ := ih ha
      exact ⟨b', mem_cons_of_mem b hb', hrelation⟩

namespace Ensures

variable {post : α → Prop} {post' : β → Prop} {x : ExceptT ε Option α}

variable {a : α} {l : List β} {f : β → ExceptT ε Option α}

theorem pure (h : post a) : Ensures post (Pure.pure a : ExceptT ε Option α) :=
  ⟨.ok a, rfl, fun b hb => by
    rw [← Except.ok.inj hb]
    exact h⟩

theorem throw (error : ε) : Ensures post (MonadExcept.throw error : ExceptT ε Option α) :=
  ⟨.error error, rfl, fun b hb => by simp at hb⟩

theorem bind {f : α → ExceptT ε Option β} (hx : Ensures post x)
    (hf : ∀ a, post a → Ensures post' (f a)) : Ensures post' (x >>= f) := by
  obtain ⟨r, hr, hpost⟩ := hx
  cases r with
  | error e =>
    refine ⟨.error e, ?_, fun b hb => by simp at hb⟩
    rw [ExceptT.run_bind, hr]
    rfl
  | ok a =>
    obtain ⟨r', hr', hpost'⟩ := hf a (hpost a rfl)
    refine ⟨r', ?_, hpost'⟩
    rw [ExceptT.run_bind, hr]
    exact hr'

theorem mono {weaker : α → Prop} (h : Ensures post x) (himp : ∀ a, post a → weaker a) :
    Ensures weaker x := by
  obtain ⟨r, hr, hpost⟩ := h
  exact ⟨r, hr, fun a ha => himp a (hpost a ha)⟩

theorem ite {condition : Prop} [Decidable condition] {y : ExceptT ε Option α}
    (hx : condition → Ensures post x) (hy : ¬condition → Ensures post y) :
    Ensures post (if condition then x else y) := by
  split_ifs with h
  · exact hx h
  · exact hy h

theorem rejectIf (condition : Bool) (error : ε) :
    Ensures (fun _ => condition = false) (DefinedRuns.rejectIf condition error) := by
  cases condition with
  | true => exact .throw _
  | false => exact .pure rfl

/-- A test that has to be passed. -/
theorem check {condition : Bool} {error : ε} {rest : PUnit → ExceptT ε Option α}
    (h : condition = false → Ensures post (rest ⟨⟩)) :
    Ensures post (DefinedRuns.rejectIf condition error >>= rest) :=
  (rejectIf condition error).bind fun _ => h

/-- Mapping over a list: the values are those of the elements, one by one. -/
theorem mapM {post : β → α → Prop} (h : ∀ b ∈ l, Ensures (post b) (f b)) :
    Ensures (List.Forall₂ post l) (l.mapM f) := by
  induction l with
  | nil => exact .pure .nil
  | cons b l ih =>
    rw [mapM_cons]
    refine (h b mem_cons_self).bind fun a ha => ?_
    refine (ih fun b' hb' => h _ (mem_cons_of_mem b hb')).bind fun as has => ?_
    exact .pure (.cons ha has)

/-- Mapping over a list: every value comes from some element. -/
theorem mapM_mem {post : β → α → Prop} (h : ∀ b ∈ l, Ensures (post b) (f b)) :
    Ensures (fun values => ∀ a ∈ values, ∃ b ∈ l, post b a) (l.mapM f) :=
  (mapM h).mono fun _ hvalues _ => exists_of_forall₂ hvalues

/-- Folding over a list keeps what every step keeps. -/
theorem foldlM {f : α → β → ExceptT ε Option α} (h : post a)
    (hstep : ∀ a, post a → ∀ b ∈ l, Ensures post (f a b)) : Ensures post (l.foldlM f a) := by
  induction l generalizing a with
  | nil => exact .pure h
  | cons b l ih =>
    refine (hstep a h b mem_cons_self).bind fun a' ha' => ?_
    exact ih ha' fun a ha b' hb' => hstep a ha _ (mem_cons_of_mem b hb')

/-- A defined computation never has the undefined outcome. -/
theorem ne_undefined (h : Ensures post x) : x.run ≠ none := by
  obtain ⟨r, hr, -⟩ := h
  rw [hr]
  exact Option.some_ne_none r

theorem of_ok (h : Ensures post x) (hx : x.run = some (.ok a)) : post a := by
  obtain ⟨r, hr, hpost⟩ := h
  exact hpost a (Option.some.inj (hr.symm.trans hx))

end Ensures

end KajPS5.Math.DefinedRuns
