/-
# The address space, one byte at a time

What the tables of a guest memory are for: each address of the window is either
unmapped or carries a value, its protection, its mapping generation or the
backing byte behind it. Mapping a range gives its addresses values, protecting
it replaces the values that are there, unmapping it removes them. Nothing here
mentions tables; the tables are later shown to denote these maps.
-/

import Mathlib.Algebra.Order.Ring.Nat

namespace KajPS5.Memory

universe u

/-- The address lies in the range of the given start and length. -/
def InRange (address length a : ℕ) : Prop := address ≤ a ∧ a < address + length

instance (address length a : ℕ) : Decidable (InRange address length a) :=
  inferInstanceAs (Decidable (_ ∧ _))

/-- The first address of a nonempty range lies in it. -/
theorem inRange_self {address length : ℕ} (h : 0 < length) : InRange address length address :=
  ⟨le_rfl, Nat.lt_add_of_pos_right h⟩

/-- A value for every mapped address. -/
abbrev AddressMap (ν : Type u) := ℕ → Option ν

namespace AddressMap

variable {ν : Type u}

/-- Give every address of a range a value. -/
def assign (f : AddressMap ν) (address length : ℕ) (value : ℕ → ν) : AddressMap ν := fun a =>
  if InRange address length a then some (value a) else f a

/-- Replace the values along a range, mapping nothing new. -/
def repaint (f : AddressMap ν) (address length : ℕ) (value : ν) : AddressMap ν := fun a =>
  if InRange address length a then (f a).map fun _ => value else f a

/-- Forget the values along a range. -/
def remove (f : AddressMap ν) (address length : ℕ) : AddressMap ν := fun a =>
  if InRange address length a then none else f a

end AddressMap

end KajPS5.Memory
