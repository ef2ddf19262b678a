/-
# Numbered names

Names are made of a tag and of numbers. A numeral has no colon in it, so two numerals
with a colon between them can be read back, and names whose tags differ in some
character are different.
-/

import Mathlib.Data.List.Basic
import Mathlib.Data.Nat.Digits.Defs

namespace KajPS5.Math.NumberedNames

open List

/-- The name of a pair of numbers. -/
def pairName (tag : String) (a b : ℕ) : String := tag ++ toString a ++ ":" ++ toString b

variable {a b : ℕ} {tag : String}

theorem toDigits_ten_injective (h : Nat.toDigits 10 a = Nat.toDigits 10 b) : a = b := by
  have hread := congrArg (Nat.ofDigitChars 10 · 0) h
  simpa using hread

theorem colon_notMem_toDigits (n : ℕ) : ':' ∉ Nat.toDigits 10 n := by
  intro h
  exact absurd (Nat.isDigit_of_mem_toDigits (by decide) (by decide) h) (by decide)

theorem toList_pairName (tag : String) (a b : ℕ) : (pairName tag a b).toList =
      tag.toList ++ (Nat.toDigits 10 a ++ ':' :: Nat.toDigits 10 b) := by
  simp [pairName]

theorem pairName_inj {c d : ℕ} : pairName tag a b = pairName tag c d ↔ a = c ∧ b = d := by
  constructor
  · intro h
    have hlist := congrArg String.toList h
    rw [toList_pairName, toList_pairName, append_cancel_left_eq,
      append_cons_inj_of_notMem (colon_notMem_toDigits a) (colon_notMem_toDigits b)] at hlist
    exact ⟨toDigits_ten_injective hlist.1, toDigits_ten_injective hlist.2.2⟩
  · rintro ⟨rfl, rfl⟩
    rfl

theorem isPrefix_pairName (tag : String) (a b : ℕ) : tag.toList <+: (pairName tag a b).toList := by
  rw [toList_pairName]
  exact prefix_append _ _

/-- The name of one number, in hexadecimal. -/
def hexName (tag : String) (n : ℕ) : String := tag ++ String.ofList (Nat.toDigits 16 n)

theorem digitChar_injective (ha : a < 16) (hb : b < 16) (h : a.digitChar = b.digitChar) :
    a = b := by
  have hall : ∀ a < 16, ∀ b < 16, a.digitChar = b.digitChar → a = b := by decide
  exact hall a ha b hb h

theorem toDigits_sixteen_injective (h : Nat.toDigits 16 a = Nat.toDigits 16 b) : a = b := by
  induction a using Nat.strong_induction_on generalizing b with
  | h a ih =>
    have hpos : ∀ n, 0 < (Nat.toDigits 16 n).length := fun n => Nat.length_toDigits_pos
    rw [@Nat.toDigits_eq_if 16 a (by decide), @Nat.toDigits_eq_if 16 b (by decide)] at h
    split at h <;> split at h
    next ha hb => exact digitChar_injective ha hb (singleton_inj.mp h)
    · have hlen := congrArg List.length h
      simp only [length_append, length_singleton] at hlen
      exact absurd hlen (by have := hpos (b / 16); omega)
    · have hlen := congrArg List.length h
      simp only [length_append, length_singleton] at hlen
      exact absurd hlen (by have := hpos (a / 16); omega)
    next ha _ =>
      obtain ⟨hhigh, hlow⟩ := append_inj' h rfl
      have hdiv := ih (a / 16) (by omega) hhigh
      have hmod : a % 16 = b % 16 :=
        digitChar_injective (by omega) (by omega) (singleton_inj.mp hlow)
      omega

theorem toList_hexName (tag : String) (n : ℕ) :
    (hexName tag n).toList = tag.toList ++ Nat.toDigits 16 n := by
  rw [hexName, String.toList_append, String.toList_ofList]

theorem hexName_inj : hexName tag a = hexName tag b ↔ a = b := by
  constructor
  · intro h
    have hlist := congrArg String.toList h
    rw [toList_hexName, toList_hexName, append_cancel_left_eq] at hlist
    exact toDigits_sixteen_injective hlist
  · exact congrArg (hexName _)

/-- Names whose tags differ in some character are different. -/
theorem pairName_ne {tag' : String} (i : ℕ) (hi : i < tag.toList.length)
    (hi' : i < tag'.toList.length) (hne : tag.toList[i]? ≠ tag'.toList[i]?) (a b c d : ℕ) :
    pairName tag a b ≠ pairName tag' c d := by
  intro heq
  have hlist := congrArg (·.toList[i]?) heq
  simp only [toList_pairName] at hlist
  rw [getElem?_append_left hi, getElem?_append_left hi'] at hlist
  exact hne hlist

end KajPS5.Math.NumberedNames
