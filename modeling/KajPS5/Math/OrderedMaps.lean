/-
# Ordered maps

Finite maps that are walked in the order of their keys are `Std.ExtTreeMap`. The
lookup lemmas here speak of equal keys, not of the comparison of keys, and `total`
sums a weight over the stored values. Storing one value exchanges one summand.
-/

import Mathlib.Algebra.Order.BigOperators.Group.List
import Mathlib.Algebra.Order.Ring.Nat

namespace KajPS5.Math.OrderedMaps

open Std List

universe u v

variable {κ : Type u} {α : Type v} {cmp : κ → κ → Ordering} [TransCmp cmp] [LawfulEqCmp cmp]

/-! ## Looking up -/

section Lookup

variable [DecidableEq κ]

theorem getElem?_insert (t : ExtTreeMap κ α cmp) (k a : κ) (v : α) :
    (t.insert k v)[a]? = if k = a then some v else t[a]? := by
  simp [ExtTreeMap.getElem?_insert]

theorem getElem?_erase (t : ExtTreeMap κ α cmp) (k a : κ) :
    (t.erase k)[a]? = if k = a then none else t[a]? := by
  simp [ExtTreeMap.getElem?_erase]

variable {t : ExtTreeMap κ α cmp} {k : κ} {v : α}

theorem isSome_insert (k : κ) (v : α) {a : κ} (h : t[a]?.isSome = true) :
    (t.insert k v)[a]?.isSome = true := by
  rw [getElem?_insert]
  split
  · rfl
  · exact h

/-- What holds of the stored value and of all others holds of the values of the new map. -/
theorem forall_insert {P : κ → α → Prop} (hv : P k v) (h : ∀ a w, k ≠ a → t[a]? = some w → P a w)
    (a : κ) (w : α) (hfound : (t.insert k v)[a]? = some w) : P a w := by
  rw [getElem?_insert] at hfound
  split at hfound
  next heq => exact heq ▸ Option.some.inj hfound ▸ hv
  next hne => exact h a w hne hfound

theorem getElem?_of_erase {a : κ} (h : (t.erase k)[a]? = some v) : k ≠ a ∧ t[a]? = some v := by
  rw [getElem?_erase] at h
  split_ifs at h
  next hne => exact ⟨hne, h⟩

theorem getElem?_insertIfNew (t : ExtTreeMap κ α cmp) (k a : κ) (v : α) :
    (t.insertIfNew k v)[a]? = if k = a ∧ t[a]? = none then some v else t[a]? := by
  rw [ExtTreeMap.getElem?_insertIfNew]
  by_cases h : k = a
  · subst h
    simp
  · simp [h]

/-- A value is stored under a free key, -/
theorem insertIfNew_of_none (h : t[k]? = none) (v : α) : t.insertIfNew k v = t.insert k v := by
  apply ExtTreeMap.ext_getElem?
  intro a
  rw [getElem?_insertIfNew, getElem?_insert]
  by_cases heq : k = a
  · simp [← heq, h]
  · simp [heq]

/-- and a taken key keeps its value. -/
theorem insertIfNew_of_some (h : t[k]? = some v) (w : α) : t.insertIfNew k w = t := by
  apply ExtTreeMap.ext_getElem?
  intro a
  rw [getElem?_insertIfNew, if_neg]
  rintro ⟨rfl, hnone⟩
  cases h.symm.trans hnone

/-- Storing what is stored changes nothing. -/
theorem insert_of_getElem? (h : t[k]? = some v) : t.insert k v = t := by
  apply ExtTreeMap.ext_getElem?
  intro a
  rw [getElem?_insert]
  split
  next hk => rw [← hk, h]
  · rfl

/-- The later of two values stored under one key stays. -/
theorem insert_insert (t : ExtTreeMap κ α cmp) (k : κ) (v w : α) :
    (t.insert k v).insert k w = t.insert k w := by
  apply ExtTreeMap.ext_getElem?
  intro a
  simp only [getElem?_insert]
  split <;> rfl

/-- Erasing a value under a key that was free undoes storing it. -/
theorem erase_insert_of_none (h : t[k]? = none) (v : α) : (t.insert k v).erase k = t := by
  apply ExtTreeMap.ext_getElem?
  intro a
  rw [getElem?_erase, getElem?_insert]
  split
  next hk => rw [← hk, h]
  · rfl

end Lookup

theorem isEmpty_iff_getElem? (t : ExtTreeMap κ α cmp) :
    t.isEmpty = true ↔ ∀ k : κ, t[k]? = none := by
  rw [ExtTreeMap.isEmpty_iff]
  constructor
  · rintro rfl k
    exact ExtTreeMap.getElem?_empty
  · intro h
    apply ExtTreeMap.ext_getElem?
    intro k
    rw [h, ExtTreeMap.getElem?_empty]

/-! ## Sums of weights -/

theorem nodup_toList (t : ExtTreeMap κ α cmp) : t.toList.Nodup := by
  apply List.Pairwise.imp _ ExtTreeMap.distinct_keys_toList
  rintro a b h rfl
  exact h ReflCmp.compare_self

theorem toList_insert_perm [DecidableEq κ] (t : ExtTreeMap κ α cmp) (k : κ) (v : α) :
    (t.insert k v).toList.Perm ((k, v) :: (t.erase k).toList) := by
  have hcons : ((k, v) :: (t.erase k).toList).Nodup := by
    apply nodup_cons.mpr
    refine ⟨?_, nodup_toList _⟩
    simp
  rw [perm_ext_iff_of_nodup (nodup_toList _) hcons]
  rintro ⟨a, b⟩
  simp only [ExtTreeMap.mem_toList_iff_getElem?_eq_some, getElem?_insert, getElem?_erase,
    mem_cons]
  by_cases h : k = a
  · simp [h, eq_comm]
  · simp [h, Ne.symm h]

/-- The weights of all stored values together. -/
def total (weight : α → ℕ) (t : ExtTreeMap κ α cmp) : ℕ :=
  (t.toList.map fun entry => weight entry.2).sum

variable (weight : α → ℕ)

@[simp]
theorem total_empty : total weight (∅ : ExtTreeMap κ α cmp) = 0 := by
  have hnil : (∅ : ExtTreeMap κ α cmp).toList = [] := by
    apply eq_nil_iff_forall_not_mem.mpr
    simp
  rw [total, hnil, map_nil, sum_nil]

section

variable (t : ExtTreeMap κ α cmp)

theorem total_insert_erase [DecidableEq κ] (k : κ) (v : α) :
    total weight (t.insert k v) = weight v + total weight (t.erase k) := by
  rw [total, ((toList_insert_perm t k v).map _).sum_eq]
  simp [total]

/-- Erasing a value takes its weight from the sum. -/
theorem total_erase [DecidableEq κ] (k : κ) :
    total weight (t.erase k) + t[k]?.elim 0 weight = total weight t := by
  cases h : t[k]? with
  | none =>
    have hsame : t.erase k = t := by
      apply ExtTreeMap.ext_getElem?
      intro a
      rw [getElem?_erase]
      split
      next hk => rw [← hk, h]
      · rfl
    rw [hsame, Option.elim_none, Nat.add_zero]
  | some v =>
    have hold := total_insert_erase weight t k v
    rw [insert_of_getElem? h] at hold
    rw [hold, Option.elim_some, Nat.add_comm]

/-- Storing a value exchanges its weight for that of the value it replaces. -/
theorem total_insert [DecidableEq κ] (k : κ) (v : α) :
    total weight (t.insert k v) + t[k]?.elim 0 weight = total weight t + weight v := by
  rw [total_insert_erase, ← total_erase weight t k]
  omega

theorem total_eq_zero_iff :
    total weight t = 0 ↔ ∀ (k : κ) v, t[k]? = some v → weight v = 0 := by
  simp only [total, sum_eq_zero_iff, mem_map, Prod.exists,
    ExtTreeMap.mem_toList_iff_getElem?_eq_some]
  constructor
  · exact fun h k v hkv => h _ ⟨k, v, hkv, rfl⟩
  · rintro h _ ⟨k, v, hkv, rfl⟩
    exact h k v hkv

/-- Dropping values of no weight keeps the sum. -/
theorem total_filter {keep : κ → α → Bool}
    (h : ∀ k v, t[k]? = some v → keep k v = false → weight v = 0) :
    total weight (t.filter keep) = total weight t := by
  rw [total, total, ExtTreeMap.toList_filter]
  have hentries : ∀ entry ∈ t.toList, keep entry.1 entry.2 = false → weight entry.2 = 0 := by
    intro entry hentry
    exact h _ _ (ExtTreeMap.mem_toList_iff_getElem?_eq_some.mp hentry)
  revert hentries
  induction t.toList with
  | nil => exact fun _ => rfl
  | cons entry entries ih =>
    intro hentries
    have htail := ih fun e he => hentries e (mem_cons_of_mem _ he)
    cases hkeep : keep entry.1 entry.2 with
    | true => simp [hkeep, htail]
    | false =>
      have hzero := hentries _ mem_cons_self hkeep
      simp [hkeep, htail, hzero]

end

end KajPS5.Math.OrderedMaps
