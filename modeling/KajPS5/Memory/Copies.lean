/-
# What a copy moves

The direction of a copy is chosen from the two guest ranges. Shared mappings can place the
ranges over the same backing bytes in any way, so a later piece may read what an earlier one
has stored: the pieces decide what a copy moves.
-/

import KajPS5.Memory.Reachable

namespace KajPS5.Memory

open Math GuestMemoryProtection GuestMemory PieceCopies List

namespace MemoryWorld

variable {w : MemoryWorld} {destination source length : ℕ}

variable (w)

/-- Two addresses of the destination that share a byte are to get the same byte. -/
def DestinationAgrees (destination source length : ℕ) : Prop :=
  ∀ i < length, ∀ j < length,
    w.memory.cellOf (destination + i) = w.memory.cellOf (destination + j) →
    w.byteAt (source + i) = w.byteAt (source + j)

/-- No two addresses of the destination share a byte. -/
def DestinationDistinct (destination length : ℕ) : Prop :=
  ∀ i < length, ∀ j < length,
    w.memory.cellOf (destination + i) = w.memory.cellOf (destination + j) → i = j

/-- No piece reads a byte that an earlier piece has changed. -/
def SourceIntact (destination source length : ℕ) : Prop :=
  ∀ i < length, ∀ j < length,
    w.pieceOf destination source length j < w.pieceOf destination source length i →
    w.memory.cellOf (source + i) = w.memory.cellOf (destination + j) →
    w.byteAt (source + i) = w.byteAt (source + j)

variable {w}

/-- The bytes after a copy that succeeds, at addresses that mean what they meant. -/
theorem byteAt_step_copy (hw : w.WellFormed) (fault : Bool) (alloc : ℕ → ℕ → Bool)
    (hdone : (w.copy fault alloc destination source length).completed = true) :
    let after := w.step (.store fault alloc (.copy destination source length))
    after.memory.cellOf = w.memory.cellOf ∧ ∀ a, after.byteAt a =
      copyPieces (fun o => w.memory.cellOf (source + o))
        (fun o => w.memory.cellOf (destination + o)) w.contents
        (w.pieces destination source length) (w.memory.cellOf a) := by
  intro after
  have hcopied := copied_copy hw fault alloc destination source length
  obtain ⟨-, -, hcellOf, hcont⟩ :=
    sameTables_notified (w.copy fault alloc destination source length)
  have hbyteAt : ∀ a, after.byteAt a =
      (notified (w.copy fault alloc destination source length)).contents
        ((notified (w.copy fault alloc destination source length)).memory.cellOf a) :=
    fun _ => rfl
  rw [hcopied.same.cellOf] at hcellOf
  rw [hcopied.contents hdone] at hcont
  refine ⟨hcellOf, fun a => ?_⟩
  rw [hbyteAt, hcellOf, hcont]
  rfl

/-- A copy that succeeds moves the bytes of its source if no piece reads a byte that an earlier
piece has changed and the destination does not ask for two values in one byte. A destination
without two addresses for one byte gets the bytes of the source only then. -/
theorem copy_moves_iff (hw : Reachable w) (fault : Bool) (alloc : ℕ → ℕ → Bool)
    (destination source length : ℕ)
    (hdone : (w.copy fault alloc destination source length).completed = true) :
    let after := w.step (.store fault alloc (.copy destination source length))
    (w.DestinationDistinct destination length →
      ((∀ i < length, after.byteAt (destination + i) = w.byteAt (source + i)) ↔
        w.SourceIntact destination source length)) ∧
    (w.SourceIntact destination source length → w.DestinationAgrees destination source length →
      ∀ i < length, after.byteAt (destination + i) = w.byteAt (source + i)) ∧
    ((∀ i < length, after.byteAt (destination + i) = w.byteAt (source + i)) →
      w.DestinationAgrees destination source length) := by
  intro after
  obtain ⟨hcells, hafter⟩ := byteAt_step_copy hw.wellFormed _ _ hdone
  have hranked := ranked_pieces w destination source length
  have hall := mem_pieces w destination source length
  have hagrees : (∀ i < length, after.byteAt (destination + i) = w.byteAt (source + i)) →
      w.DestinationAgrees destination source length := by
    intro hmoved i hi j hj heq
    rw [← hmoved i hi, ← hmoved j hj, byteAt, byteAt, hcells, heq]
  have henough : w.SourceIntact destination source length →
      w.DestinationAgrees destination source length →
      ∀ i < length, after.byteAt (destination + i) = w.byteAt (source + i) := by
    intro hintact hagree i hi
    rw [hafter]
    exact faithful_of_intact hranked
      (fun i hi j hj => hintact i ((hall i).mp hi) j ((hall j).mp hj))
      (fun i hi j hj => hagree i ((hall i).mp hi) j ((hall j).mp hj)) i ((hall i).mpr hi)
  refine ⟨fun hdistinct => ⟨fun hmoved => ?_, fun hintact => henough hintact ?_⟩, henough,
    hagrees⟩
  · have hintact := intact_of_faithful hranked
      (fun i hi j hj => hdistinct i ((hall i).mp hi) j ((hall j).mp hj))
      (fun i hi => (hafter _).symm.trans (hmoved i ((hall i).mp hi)))
    exact fun i hi j hj => hintact i ((hall i).mpr hi) j ((hall j).mpr hj)
  · intro i hi j hj heq
    rw [hdistinct i hi j hj heq]

/-- Two views of one backing, the second 0x1000 bytes further on than the first. -/
def shiftedCalls : List MemoryCall :=
  [.mapping (.mapShared {} 0x10000 0x2000 (kRead ||| kWrite) (some 0) 0),
    .mapping (.mapShared {} 0x20000 0x2000 (kRead ||| kWrite) (some 0) 0x1000),
    .store false (fun _ _ => true) (.write 0x11000 [7, 8])]

theorem reachable_foldl_step (hw : Reachable w) (calls : List MemoryCall) :
    Reachable (calls.foldl step w) :=
  List.foldlRecOn calls step hw fun _ hw call _ => hw.step call

/-- The two ranges overlap in the backing, but one piece moves them. -/
theorem copy_moves_iff_shifted : ∃ m, create 0x10000 0x20000 kNone = some m ∧
      let w := shiftedCalls.foldl step ⟨m, fun _ => .create 0x4000⟩
      (w.copy false (fun _ _ => true) 0x11001 0x20000 2).completed = true ∧
      ∀ i < 2, (w.step (.store false (fun _ _ => true) (.copy 0x11001 0x20000 2))).byteAt
        (0x11001 + i) = w.byteAt (0x20000 + i) := by
  have hcreate : create 0x10000 0x20000 kNone = some _ := rfl
  refine ⟨_, hcreate, ?_⟩
  intro w
  have hw : Reachable w := reachable_foldl_step (.create hcreate _) shiftedCalls
  have hdone : (w.copy false (fun _ _ => true) 0x11001 0x20000 2).completed = true := by
    decide +kernel
  have hdistinct : w.DestinationDistinct 0x11001 2 := by
    unfold DestinationDistinct
    decide +kernel
  have hintact : w.SourceIntact 0x11001 0x20000 2 := by
    unfold SourceIntact
    decide +kernel
  exact ⟨hdone, ((copy_moves_iff hw _ _ _ _ _ hdone).1 hdistinct).mpr hintact⟩

/-- The copy succeeds. Its second piece reads what the first one has stored, so the last byte of
the destination is 0 where the source had 7. -/
theorem copy_rereads_shifted : ∃ m, create 0x10000 0x20000 kNone = some m ∧
      let w := shiftedCalls.foldl step ⟨m, fun _ => .create 0x4000⟩
      (w.copy false (fun _ _ => true) 0x20000 0x10000 0x1001).completed = true ∧
      ¬ ∀ i < 0x1001, (w.step (.store false (fun _ _ => true)
        (.copy 0x20000 0x10000 0x1001))).byteAt (0x20000 + i) = w.byteAt (0x10000 + i) := by
  refine ⟨_, rfl, ?_⟩
  intro w
  have hdone : (w.copy false (fun _ _ => true) 0x20000 0x10000 0x1001).completed = true := by
    decide +kernel
  have hafter : (w.step (.store false (fun _ _ => true) (.copy 0x20000 0x10000 0x1001))).byteAt
      0x21000 = 0 := by decide +kernel
  refine ⟨hdone, fun hmoved => ?_⟩
  have hlast := hmoved 0x1000 (by decide)
  rw [hafter] at hlast
  cases hlast

end MemoryWorld

end KajPS5.Memory
