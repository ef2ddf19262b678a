/-
# Copying in pieces

A copy names, for every index, a cell to read and a cell to write, and goes through the
indices piece by piece: a piece first reads all its cells and then writes all its cells.
Cells may coincide in any way. The copy is faithful if in the end every cell that was to be
written holds what the cell to be read held in the beginning.

A copy is faithful if no piece reads a cell that an earlier one changed, and indices that
write one cell are to write one value. If no two indices write the same cell, it is faithful
only then.
-/

import Mathlib.Algebra.Order.Ring.Nat

namespace KajPS5.Math.PieceCopies

open List

variable {ι C V : Type*} [DecidableEq C] (src dst : ι → C)

/-- Write a value for every index, one after the other. -/
def writeAll (value : ι → V) (piece : List ι) (contents : C → V) : C → V :=
  piece.foldl (fun after i => Function.update after (dst i) (value i)) contents

def copyPiece (contents : C → V) (piece : List ι) : C → V :=
  writeAll dst (fun i => contents (src i)) piece contents

def copyPieces (contents : C → V) (pieces : List (List ι)) : C → V :=
  pieces.foldl (copyPiece src dst) contents

section WriteAll

variable {dst} {value : ι → V}

theorem writeAll_of_notMem {piece : List ι} {cell : C} (h : ∀ i ∈ piece, dst i ≠ cell)
    (contents : C → V) : writeAll dst value piece contents cell = contents cell := by
  induction piece generalizing contents with
  | nil => rfl
  | cons i piece ih =>
    rw [writeAll, foldl_cons, ← writeAll, ih fun j hj => h j (mem_cons_of_mem i hj)]
    exact Function.update_of_ne (h i mem_cons_self).symm _ _

/-- A cell that is written holds the value of one of the indices that write it. -/
theorem writeAll_of_mem {piece : List ι} {i : ι} (hi : i ∈ piece) (contents : C → V) :
    ∃ j ∈ piece, dst j = dst i ∧ writeAll dst value piece contents (dst i) = value j := by
  induction piece generalizing i contents with
  | nil => cases hi
  | cons k piece ih =>
    rw [writeAll, foldl_cons, ← writeAll]
    by_cases hlater : ∃ j ∈ piece, dst j = dst i
    · obtain ⟨j, hj, heq⟩ := hlater
      obtain ⟨m, hm, hsame, hvalue⟩ := ih hj (Function.update _ (dst k) (value k))
      rw [heq] at hsame hvalue
      exact ⟨m, mem_cons_of_mem k hm, hsame, hvalue⟩
    · have hnone : ∀ j ∈ piece, dst j ≠ dst i := fun j hj heq => hlater ⟨j, hj, heq⟩
      have hik : i = k := (mem_cons.mp hi).resolve_right fun h => hnone i h rfl
      refine ⟨k, mem_cons_self, by rw [hik], ?_⟩
      rw [writeAll_of_notMem hnone, hik, Function.update_self]

end WriteAll

variable {src dst}

theorem copyPieces_cons (contents : C → V) (piece : List ι) (pieces : List (List ι)) :
    copyPieces src dst contents (piece :: pieces) =
      copyPieces src dst (copyPiece src dst contents piece) pieces := rfl

variable {pieces : List (List ι)} {rank : ι → ℕ} {first : ℕ} {contents : C → V} {piece : List ι}

theorem copyPieces_of_notMem {cell : C} (h : ∀ i ∈ pieces.flatten, dst i ≠ cell)
    (contents : C → V) :
    copyPieces src dst contents pieces cell = contents cell := by
  induction pieces generalizing contents with
  | nil => rfl
  | cons piece pieces ih =>
    rw [copyPieces_cons, ih fun i hi => h i (mem_append_right _ hi)]
    exact writeAll_of_notMem (fun i hi => h i (mem_append_left _ hi)) _

/-- Nothing changes when every cell is copied to itself. -/
theorem copyPieces_self (src : ι → C) (contents : C → V) (pieces : List (List ι)) :
    copyPieces src src contents pieces = contents := by
  have hwrite (piece : List ι) : copyPiece src src contents piece = contents := by
    rw [copyPiece, writeAll]
    induction piece with
    | nil => rfl
    | cons i piece ih => rwa [foldl_cons, Function.update_eq_self]
  induction pieces with
  | nil => rfl
  | cons piece pieces ih => rwa [copyPieces_cons, hwrite]

/-- The pieces are numbered in their order. -/
def Ranked (rank : ι → ℕ) (first : ℕ) (pieces : List (List ι)) : Prop :=
  ∀ k piece, pieces[k]? = some piece → ∀ i ∈ piece, rank i = first + k

theorem Ranked.nil (rank : ι → ℕ) (first : ℕ) : Ranked rank first [] := by
  intro k piece h
  cases h

theorem Ranked.cons (hpiece : ∀ i ∈ piece, rank i = first)
    (hpieces : Ranked rank (first + 1) pieces) : Ranked rank first (piece :: pieces) := by
  intro k other hother i hi
  cases k with
  | zero => exact hpiece i (Option.some.inj hother ▸ hi)
  | succ k =>
    rw [hpieces k _ hother i hi]
    omega

theorem Ranked.head (h : Ranked rank first (piece :: pieces)) : ∀ i ∈ piece, rank i = first :=
  h 0 piece rfl

theorem Ranked.drop (h : Ranked rank first pieces) (n : ℕ) :
    Ranked rank (first + n) (pieces.drop n) := by
  intro k piece hpiece i hi
  rw [getElem?_drop] at hpiece
  rw [h (n + k) _ hpiece i hi, Nat.add_assoc]

variable {i : ι} {after : C → V} {done : ι → Prop}

theorem Ranked.getElem? (h : Ranked rank first pieces) (hi : i ∈ pieces.flatten) :
    ∃ k piece, pieces[k]? = some piece ∧ i ∈ piece ∧ rank i = first + k := by
  obtain ⟨piece, hpiece, hmem⟩ := mem_flatten.mp hi
  obtain ⟨k, hk⟩ := mem_iff_getElem?.mp hpiece
  exact ⟨k, piece, hk, hmem, h k _ hk i hmem⟩

theorem Ranked.le (h : Ranked rank first pieces) (hi : i ∈ pieces.flatten) : first ≤ rank i := by
  obtain ⟨k, piece, -, -, hrank⟩ := h.getElem? hi
  omega

/-! ## Enough -/

/-- What the cells hold once the indices of a set have been copied. -/
def Moved (src dst : ι → C) (contents : C → V) (done : ι → Prop) (after : C → V) : Prop :=
  ∀ cell, (after cell = contents cell ∧ ∀ j, done j → dst j ≠ cell) ∨
    ∃ j, done j ∧ dst j = cell ∧ after cell = contents (src j)

/-- A piece that reads unchanged cells. -/
theorem Moved.copyPiece (h : Moved src dst contents done after)
    (hread : ∀ i ∈ piece, after (src i) = contents (src i)) :
    Moved src dst contents (fun j => done j ∨ j ∈ piece) (copyPiece src dst after piece) := by
  intro cell
  by_cases hwritten : ∃ i ∈ piece, dst i = cell
  · obtain ⟨i, hi, rfl⟩ := hwritten
    obtain ⟨j, hj, hsame, hvalue⟩ := writeAll_of_mem hi after
    exact .inr ⟨j, .inr hj, hsame, hvalue.trans (hread j hj)⟩
  · have hnone : ∀ i ∈ piece, dst i ≠ cell := fun i hi heq => hwritten ⟨i, hi, heq⟩
    have hkept : PieceCopies.copyPiece src dst after piece cell = after cell :=
      writeAll_of_notMem hnone after
    rw [hkept]
    rcases h cell with ⟨hsame, hout⟩ | ⟨j, hj, heq, hvalue⟩
    · exact .inl ⟨hsame, fun j hj => hj.elim (hout j) (hnone j)⟩
    · exact .inr ⟨j, .inl hj, heq, hvalue⟩

/-- No piece reads a cell that an earlier one changes. -/
def Intact (src dst : ι → C) (rank : ι → ℕ) (contents : C → V) (copied : ι → Prop) : Prop :=
  ∀ i, copied i → ∀ j, copied j → rank j < rank i → src i = dst j →
    contents (src i) = contents (src j)

theorem Moved.copyPieces {copied : ι → Prop} (hintact : Intact src dst rank contents copied)
    (hranked : Ranked rank first pieces) (hcopied : ∀ i ∈ pieces.flatten, copied i)
    (hdone : ∀ j, done j → copied j ∧ rank j < first) (h : Moved src dst contents done after) :
    Moved src dst contents (fun j => done j ∨ j ∈ pieces.flatten)
      (copyPieces src dst after pieces) := by
  induction pieces generalizing first done after with
  | nil => simpa [PieceCopies.copyPieces] using h
  | cons piece pieces ih =>
    rw [flatten_cons] at hcopied
    have hread : ∀ i ∈ piece, after (src i) = contents (src i) := by
      intro i hi
      rcases h (src i) with ⟨hsame, -⟩ | ⟨j, hj, heq, hvalue⟩
      · exact hsame
      · obtain ⟨hjcopied, hjrank⟩ := hdone j hj
        have hlt : rank j < rank i := by rw [hranked.head i hi]; exact hjrank
        rw [hvalue, hintact i (hcopied i (mem_append_left _ hi)) j hjcopied hlt heq.symm]
    have hnext := ih (hranked.drop 1) (fun i hi => hcopied i (mem_append_right _ hi))
      (fun j hj => ?_) (h.copyPiece hread)
    · rw [copyPieces_cons, flatten_cons]
      intro cell
      have hcell := hnext cell
      simp only [or_assoc, ← mem_append] at hcell
      exact hcell
    · rcases hj with hj | hj
      · obtain ⟨hjcopied, hjrank⟩ := hdone j hj
        exact ⟨hjcopied, by omega⟩
      · have hjrank := hranked.head j hj
        exact ⟨hcopied j (mem_append_left _ hj), by omega⟩

theorem faithful_of_intact (hranked : Ranked rank 0 pieces)
    (hintact : Intact src dst rank contents (· ∈ pieces.flatten))
    (hagree : ∀ i ∈ pieces.flatten, ∀ j ∈ pieces.flatten, dst i = dst j →
      contents (src i) = contents (src j)) :
    ∀ i ∈ pieces.flatten, copyPieces src dst contents pieces (dst i) = contents (src i) := by
  intro i hi
  have hstart : Moved src dst contents (fun _ => False) contents :=
    fun cell => .inl ⟨rfl, fun _ h => h.elim⟩
  rcases hstart.copyPieces hintact hranked (fun _ h => h) (fun _ h => h.elim) (dst i) with
    ⟨-, hout⟩ | ⟨j, hj, heq, hvalue⟩
  · exact absurd rfl (hout i (.inr hi))
  · rw [hvalue]
    exact hagree j (hj.resolve_left id) i hi heq

/-! ## Necessary -/

/-- If no two indices write one cell, a faithful copy reads unchanged cells only. -/
theorem intact_of_faithful (hranked : Ranked rank 0 pieces)
    (hinj : ∀ i ∈ pieces.flatten, ∀ j ∈ pieces.flatten, dst i = dst j → i = j)
    (hfaithful : ∀ i ∈ pieces.flatten,
      copyPieces src dst contents pieces (dst i) = contents (src i)) :
    Intact src dst rank contents (· ∈ pieces.flatten) := by
  intro i hi j hj hlt hsrc
  obtain ⟨n, piece, hpiece, hipiece, hirank⟩ := hranked.getElem? hi
  -- the pieces before the one of `i`, that one, and the pieces after it
  obtain ⟨hn, rfl⟩ := List.getElem?_eq_some_iff.mp hpiece
  have hsplit : pieces = pieces.take n ++ pieces[n] :: pieces.drop (n + 1) := by
    rw [← List.drop_eq_getElem_cons hn, List.take_append_drop]
  have hfinal : copyPieces src dst contents pieces =
      copyPieces src dst (copyPiece src dst (copyPieces src dst contents (pieces.take n))
        pieces[n]) (pieces.drop (n + 1)) := by
    conv_lhs => rw [hsplit]
    rw [copyPieces, List.foldl_append]
    rfl
  set before := copyPieces _ dst _ (pieces.take n) with hpre
  have hdrop : ∀ {m : ℕ} {k : ι}, k ∈ (pieces.drop m).flatten →
      k ∈ pieces.flatten ∧ m ≤ rank k := by
    intro m k hk
    have hle := (hranked.drop m).le hk
    rw [Nat.zero_add] at hle
    obtain ⟨other, hother, hmem⟩ := List.mem_flatten.mp hk
    exact ⟨List.mem_flatten.mpr ⟨other, List.mem_of_mem_drop hother, hmem⟩, hle⟩
  have hj' : before (dst j) = contents (src j) := by
    rw [← hfaithful j hj, hfinal, ← copyPieces_cons, ← List.drop_eq_getElem_cons hn]
    refine (copyPieces_of_notMem (fun k hk heq => ?_) before).symm
    obtain ⟨hmem, hle⟩ := hdrop hk
    rw [hinj k hmem j hj heq] at hle
    omega
  have hi' : before (src i) = contents (src i) := by
    rw [← hfaithful i hi, hfinal, copyPieces_of_notMem]
    · obtain ⟨k, hk, heq, hvalue⟩ := writeAll_of_mem hipiece before
      have hkmem : k ∈ pieces.flatten := List.mem_flatten.mpr ⟨_, List.getElem_mem hn, hk⟩
      rw [copyPiece, hvalue, hinj k hkmem i hi heq]
    · intro k hk heq
      obtain ⟨hmem, hle⟩ := hdrop hk
      rw [hinj k hmem i hi heq] at hle
      omega
  rw [← hi', hsrc, hj']

end KajPS5.Math.PieceCopies
