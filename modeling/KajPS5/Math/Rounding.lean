/-
# Rounding to a power of two

Programs that work in pages test that a number has a single bit set and clear the
low bits of an address with a mask. For a number with a single bit, clearing the
bits of its mask is rounding down to a multiple of it, and adding the mask first
is rounding up.
-/

import Mathlib.Algebra.Order.Ring.Nat
import Mathlib.Order.Bounds.Basic

namespace KajPS5.Math

open Nat

/-- The largest multiple of the unit that is not above the number. -/
def roundDown (unit number : ℕ) : ℕ := number / unit * unit

/-- The least multiple of the unit that is not below the number. -/
def roundUp (unit number : ℕ) : ℕ := (number + (unit - 1)) / unit * unit

/-- The number without the bits of the mask. -/
def clearMask (number mask : ℕ) : ℕ := number - (number &&& mask)

/-- The usual test for a power of two. -/
theorem exists_eq_two_pow {n : ℕ} (hn : n ≠ 0) (hbits : n &&& (n - 1) = 0) : ∃ k, n = 2 ^ k := by
  have hlo : 2 ^ n.log2 ≤ n := log2_self_le hn
  have hhi : n < 2 ^ (n.log2 + 1) := lt_log2_self
  refine ⟨n.log2, ?_⟩
  by_contra hne
  -- Otherwise the number and its predecessor share their highest bit.
  have hbit : ∀ m, 2 ^ n.log2 ≤ m → m < 2 ^ (n.log2 + 1) → m.testBit n.log2 = true := by
    intro m hle hlt
    have hdiv : m / 2 ^ n.log2 = 1 := by
      apply Nat.div_eq_of_lt_le
      · rwa [Nat.one_mul]
      · rwa [pow_succ, mul_comm] at hlt
    rw [testBit_eq_decide_div_mod_eq, hdiv]
    rfl
  have hboth := testBit_and n (n - 1) n.log2
  rw [hbits, hbit n hlo hhi, hbit (n - 1) (by omega) (by omega), zero_testBit] at hboth
  exact Bool.false_ne_true hboth

/-- Clearing the bits below a power of two rounds down. -/
theorem clearMask_two_pow (number k : ℕ) : clearMask number (2 ^ k - 1) =
    roundDown (2 ^ k) number := by
  rw [clearMask, roundDown, and_two_pow_sub_one_eq_mod]
  have := div_add_mod' number (2 ^ k)
  omega

section Bounds

variable {unit number : ℕ}

theorem dvd_roundDown : unit ∣ roundDown unit number := Nat.dvd_mul_left _ _

theorem dvd_roundUp : unit ∣ roundUp unit number := Nat.dvd_mul_left _ _

theorem roundDown_le : roundDown unit number ≤ number := Nat.div_mul_le_self _ _

theorem le_roundUp (hunit : 0 < unit) : number ≤ roundUp unit number := by
  have h := div_add_mod' (number + (unit - 1)) unit
  have hlt := mod_lt (number + (unit - 1)) hunit
  rw [roundUp]
  omega

theorem roundUp_le : roundUp unit number ≤ number + (unit - 1) := Nat.div_mul_le_self _ _

/-- A multiple of the unit is already rounded. -/
theorem roundUp_of_dvd (hunit : 0 < unit) (h : unit ∣ number) : roundUp unit number = number := by
  obtain ⟨count, rfl⟩ := h
  rw [roundUp, mul_add_div hunit, div_eq_of_lt (by omega), add_zero, mul_comm]

/-- Nothing between a number and a multiple of the unit is skipped. -/
theorem roundUp_le_of_dvd {bound : ℕ} (hunit : 0 < unit) (h : unit ∣ bound)
    (hle : number ≤ bound) : roundUp unit number ≤ bound := by
  rw [← roundUp_of_dvd hunit h]
  exact Nat.mul_le_mul_right _ (Nat.div_le_div_right (Nat.add_le_add_right hle _))

theorem roundDown_of_dvd (h : unit ∣ number) : roundDown unit number = number :=
  Nat.div_mul_cancel h

end Bounds

theorem two_pow_max_dvd_iff {k j number : ℕ} :
    2 ^ max k j ∣ number ↔ 2 ^ k ∣ number ∧ 2 ^ j ∣ number := by
  rcases le_total k j with hle | hle
  · rw [max_eq_right hle]
    exact ⟨fun h => ⟨(pow_dvd_pow 2 hle).trans h, h⟩, And.right⟩
  · rw [max_eq_left hle]
    exact ⟨fun h => ⟨h, (pow_dvd_pow 2 hle).trans h⟩, And.left⟩

/-- The answer of a search for the least number with a property. -/
def LeastOf (p : ℕ → Prop) : Option ℕ → Prop
  | some a => IsLeast {a | p a} a
  | none => ∀ a, ¬ p a

/-- A search that starts at the least number with a weaker property. -/
theorem LeastOf.bind {p q : ℕ → Prop} {answer : Option ℕ} {next : ℕ → Option ℕ}
    (h : LeastOf p answer) (hsub : ∀ a, q a → p a)
    (hnext : ∀ c, p c → (∀ a, q a → c ≤ a) → LeastOf q (next c)) :
    LeastOf q (answer.bind next) := by
  cases answer with
  | none => exact fun a ha => h a (hsub a ha)
  | some c => exact hnext c h.1 fun a ha => h.2 (hsub a ha)

end KajPS5.Math
