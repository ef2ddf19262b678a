/-
# Postconditions of fallible computations

A computation in `Except` ends with an error or with a value. `Ensures` states what
holds of either, and its rules follow the shape of a program: a chain of tests is
checked branch by branch, without looking at the tests.
-/

import Mathlib.Tactic.SplitIfs

namespace KajPS5.Math.Postconditions

variable {ε α : Type}

/-- Errors satisfy `failure`, values satisfy `post`. -/
def Ensures (failure : ε → Prop) (post : α → Prop) : Except ε α → Prop
  | .error e => failure e
  | .ok a => post a

namespace Ensures

variable {failure : ε → Prop} {post : α → Prop} {result : Except ε α}

variable {e : ε} {a : α}

theorem error (h : failure e) : Ensures failure post (.error e) := h

theorem ok (h : post a) : Ensures failure post (.ok a) := h

theorem ite {condition : Prop} [Decidable condition] {left right : Except ε α}
    (hleft : Ensures failure post left) (hright : Ensures failure post right) :
    Ensures failure post (if condition then left else right) := by
  split_ifs
  · exact hleft
  · exact hright

theorem bind {β : Type} {x : Except ε β} {f : β → Except ε α}
    (herror : ∀ e, x = .error e → failure e)
    (hok : ∀ b, x = .ok b → Ensures failure post (f b)) : Ensures failure post (x >>= f) := by
  cases x with
  | error e => exact herror e rfl
  | ok b => exact hok b rfl

theorem map {β : Type} {x : Except ε β} {f : β → α} (h : Ensures failure (post ∘ f) x) :
    Ensures failure post (x.map f) := by
  cases x with
  | error e => exact h
  | ok b => exact h

theorem of_error (h : Ensures failure post result) (hres : result = .error e) : failure e := by
  subst hres
  exact h

theorem of_ok (h : Ensures failure post result) (hres : result = .ok a) : post a := by
  subst hres
  exact h

end Ensures

/-- What comes out of a step that can fail came out of its parts. -/
theorem exists_of_bind_eq_ok {β : Type} {x : Except ε α} {f : α → Except ε β} {b : β}
    (h : x >>= f = .ok b) : ∃ a, x = .ok a ∧ f a = .ok b := by
  cases x with
  | error e => cases h
  | ok a => exact ⟨a, rfl, h⟩

end KajPS5.Math.Postconditions
