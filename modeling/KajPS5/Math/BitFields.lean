/-
# Bit fields

A field of a word is a run of bits. `place` puts the low bits of a value into a
field of an otherwise clear word, `field` reads a field back. A word built by or-ing
fields together is read field by field: the reader distributes over the or, finds its
own field and sees nothing of the fields that lie elsewhere.
-/

import Mathlib.Algebra.Order.Ring.Nat

namespace KajPS5.Math.BitFields

open BitVec

variable {w : ℕ}

/-- The word with the low `width` bits set. -/
def mask (w width : ℕ) : BitVec w := .ofNat w (2 ^ width - 1)

/-- The `width` bits of a word from `offset` up. -/
def field (offset width : ℕ) (x : BitVec w) : BitVec w := x >>> offset &&& mask w width

/-- The low `width` bits of a value, moved up to `offset`. -/
def place (offset width : ℕ) (x : BitVec w) : BitVec w := (x &&& mask w width) <<< offset

theorem getLsbD_mask (width i : ℕ) :
    (mask w width).getLsbD i = (decide (i < w) && decide (i < width)) := by
  simp [mask, getLsbD_ofNat]

theorem getLsbD_field (offset width i : ℕ) (x : BitVec w) : (field offset width x).getLsbD i =
      (x.getLsbD (offset + i) && (decide (i < w) && decide (i < width))) := by
  simp [field, getLsbD_mask]

theorem getLsbD_place (offset width i : ℕ) (x : BitVec w) : (place offset width x).getLsbD i =
      (decide (i < w) && !decide (i < offset) &&
        (x.getLsbD (i - offset) && (decide (i - offset < w) && decide (i - offset < width)))) := by
  simp [place, getLsbD_mask]

@[simp] theorem field_or (offset width : ℕ) (x y : BitVec w) :
    field offset width (x ||| y) = field offset width x ||| field offset width y := by
  apply eq_of_getLsbD_eq
  intro i hi
  simp only [getLsbD_field, getLsbD_or, Bool.and_or_distrib_right]

/-- A field that lies inside the word is read back. -/
@[simp] theorem field_place (offset width : ℕ) (x : BitVec w) (hfits : offset + width ≤ w) :
    field offset width (place offset width x) = x &&& mask w width := by
  apply eq_of_getLsbD_eq
  intro i hi
  simp only [getLsbD_field, getLsbD_place, getLsbD_and, getLsbD_mask]
  by_cases hwidth : i < width
  · simp [hi, show offset + i < w by omega]
  · simp [hwidth]

/-- Fields elsewhere are not seen. -/
@[simp] theorem field_place_of_disjoint (offset width offset' width' : ℕ) (x : BitVec w)
    (hdisjoint : offset + width ≤ offset' ∨ offset' + width' ≤ offset) :
    field offset width (place offset' width' x) = 0#w := by
  apply eq_of_getLsbD_eq
  intro i hi
  simp only [getLsbD_field, getLsbD_place]
  by_cases hwidth : i < width
  · by_cases hbelow : offset + i < offset'
    · simp [hbelow]
    · simp [show ¬ offset + i - offset' < width' by omega]
  · simp [hwidth]

theorem field_zero (width : ℕ) (x : BitVec w) : field 0 width x = x &&& mask w width := by
  rw [field, ushiftRight_zero]

theorem place_zero (width : ℕ) (x : BitVec w) : place 0 width x = x &&& mask w width := by
  rw [place, shiftLeft_zero]

/-- Masking in place keeps one field. -/
theorem and_shiftLeft_mask (offset width : ℕ) (x : BitVec w) :
    x &&& mask w width <<< offset = place offset width (x >>> offset) := by
  apply eq_of_getLsbD_eq
  intro i hi
  simp only [getLsbD_and, getLsbD_shiftLeft, getLsbD_mask, getLsbD_place]
  by_cases hbelow : i < offset
  · simp [hbelow]
  · simp [hbelow, hi, show offset + (i - offset) = i by omega]

/-- A field of a shifted value lies lower in the value. -/
theorem field_shiftLeft (offset width shift : ℕ) (x : BitVec w) (hshift : shift ≤ offset)
    (hfits : offset + width ≤ w) :
    field offset width (x <<< shift) = field (offset - shift) width x := by
  apply eq_of_getLsbD_eq
  intro i hi
  simp only [getLsbD_field, getLsbD_shiftLeft]
  by_cases hwidth : i < width
  · simp [show offset + i < w by omega, show ¬ offset + i < shift by omega,
      show offset + i - shift = offset - shift + i by omega]
  · simp [hwidth]

/-- Or-ing a value in changes nothing when its bits are set already. -/
theorem or_eq_left_iff (x y : BitVec w) : x ||| y = x ↔ y &&& ~~~x = 0#w := by
  constructor
  · intro h
    rw [← h, BitVec.not_or, BitVec.and_comm (~~~x), ← BitVec.and_assoc, BitVec.and_not_self]
    exact zero_and
  · intro h
    apply eq_of_getLsbD_eq
    intro i hi
    have hbit := congrArg (fun z => z.getLsbD i) h
    simp only [getLsbD_and] at hbit
    cases hx : x.getLsbD i <;> simp_all

theorem toNat_and_mask (width : ℕ) (x : BitVec w) (hfits : width ≤ w) :
    (x &&& mask w width).toNat = x.toNat % 2 ^ width := by
  have hpow : 2 ^ width - 1 < 2 ^ w :=
    Nat.lt_of_lt_of_le (Nat.sub_lt (Nat.two_pow_pos width) Nat.one_pos)
      (Nat.pow_le_pow_right (by decide) hfits)
  rw [toNat_and, mask, toNat_ofNat, Nat.mod_eq_of_lt hpow,
    Nat.and_two_pow_sub_one_eq_mod]

/-- A value that fits a field is not changed by its mask. -/
theorem and_mask_of_lt {width : ℕ} {x : BitVec w} (hfits : width ≤ w) (hx : x.toNat < 2 ^ width) :
    x &&& mask w width = x := by
  rw [← toNat_inj, toNat_and_mask _ x hfits, Nat.mod_eq_of_lt hx]

end KajPS5.Math.BitFields
