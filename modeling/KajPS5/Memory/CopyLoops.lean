/-
# The loops of a copy

`Copy` goes through its ranges in pieces, each read as a whole before it is stored, from the
end or from the beginning; without shared mappings one piece moves all. Either way it keeps the
account of a storing call, as the other calls do, and when it completes it has moved its pieces
one after the other.
-/

import KajPS5.Math.PieceCopies
import KajPS5.Memory.Stores

namespace KajPS5.Memory

open Math GuestMemoryProtection GuestMemory PieceCopies List

namespace MemoryWorld

variable {w : MemoryWorld}

/-! ## The pieces -/

/-- The offsets of the pieces of the forward loop, in its order. -/
def forwardPieces (length : ℕ) : ℕ → ℕ → List (List ℕ)
  | 0, _ => []
  | fuel + 1, copied =>
    if copied < length then
      let chunk := min kCopyChunkBytes (length - copied)
      List.range' copied chunk :: forwardPieces length fuel (copied + chunk)
    else []

/-- The offsets of the pieces of the backward loop, in its order. -/
def backwardPieces : ℕ → ℕ → List (List ℕ)
  | 0, _ => []
  | fuel + 1, remaining =>
    if remaining = 0 then []
    else
      let offset := remaining - min kCopyChunkBytes remaining
      List.range' offset (min kCopyChunkBytes remaining) :: backwardPieces fuel offset

variable (w)

/-- The offsets of the pieces of a copy. -/
def pieces (destination source length : ℕ) : List (List ℕ) :=
  if w.memory.sharedMappings.isEmpty then [List.range length]
  else if destination > source ∧ destination - source < length then
    backwardPieces (length + 1) length
  else forwardPieces length (length + 1) 0

/-- The number of the piece that moves the byte at an offset. -/
def pieceOf (destination source length offset : ℕ) : ℕ :=
  if w.memory.sharedMappings.isEmpty then 0
  else if destination > source ∧ destination - source < length then
    (length - 1 - offset) / kCopyChunkBytes
  else offset / kCopyChunkBytes

variable {destination source length fuel copied i remaining n : ℕ}

theorem mem_forwardPieces (hfuel : length - copied < fuel) :
    i ∈ (forwardPieces length fuel copied).flatten ↔ copied ≤ i ∧ i < length := by
  induction fuel generalizing copied with
  | zero => omega
  | succ fuel ih =>
    rw [forwardPieces]
    split
    next hmore =>
      have hchunk : 0 < min kCopyChunkBytes (length - copied) := by
        simp only [kCopyChunkBytes]
        omega
      rw [flatten_cons, mem_append, mem_range'_1, ih (by omega)]
      omega
    next hdone =>
      simp only [flatten_nil, not_mem_nil, false_iff]
      omega

theorem mem_backwardPieces (hfuel : remaining < fuel) :
    i ∈ (backwardPieces fuel remaining).flatten ↔ i < remaining := by
  induction fuel generalizing remaining with
  | zero => omega
  | succ fuel ih =>
    rw [backwardPieces]
    split
    next hdone =>
      simp only [flatten_nil, not_mem_nil, false_iff]
      omega
    next hmore =>
      have hchunk : 0 < min kCopyChunkBytes remaining := by
        simp only [kCopyChunkBytes]
        omega
      rw [flatten_cons, mem_append, mem_range'_1, ih (by omega)]
      omega

theorem ranked_forwardPieces (h : copied = kCopyChunkBytes * n ∨ length ≤ copied) (fuel : ℕ) :
    PieceCopies.Ranked (· / kCopyChunkBytes) n (forwardPieces length fuel copied) := by
  induction fuel generalizing copied n with
  | zero => exact .nil _ n
  | succ fuel ih =>
    rw [forwardPieces]
    split
    next hmore =>
      simp only [kCopyChunkBytes] at h ih ⊢
      refine .cons (fun i hi => ?_) (ih ?_)
      · rw [mem_range'_1] at hi
        omega
      · omega
    · exact .nil _ n

theorem ranked_backwardPieces (h : length = remaining + kCopyChunkBytes * n ∨ remaining = 0)
    (fuel : ℕ) :
    PieceCopies.Ranked (fun offset => (length - 1 - offset) / kCopyChunkBytes) n
      (backwardPieces fuel remaining) := by
  induction fuel generalizing remaining n with
  | zero => exact .nil _ n
  | succ fuel ih =>
    rw [backwardPieces]
    split
    · exact .nil _ n
    next hmore =>
      simp only [kCopyChunkBytes] at h ih ⊢
      refine .cons (fun i hi => ?_) (ih ?_)
      · rw [mem_range'_1] at hi
        omega
      · omega

variable (destination source length)

theorem mem_pieces (i : ℕ) : i ∈ (w.pieces destination source length).flatten ↔ i < length := by
  rw [pieces]
  split_ifs
  · simp
  · exact mem_backwardPieces (Nat.lt_succ_self length)
  · exact (mem_forwardPieces (by omega)).trans (and_iff_right (Nat.zero_le i))

theorem ranked_pieces :
    Ranked (w.pieceOf destination source length) 0 (w.pieces destination source length) := by
  unfold pieceOf pieces
  split_ifs
  · exact .cons (fun _ _ => rfl) (.nil _ _)
  · exact ranked_backwardPieces (.inl (by omega)) (length + 1)
  · exact ranked_forwardPieces (.inl (by omega)) (length + 1)

/-! ## The loops -/

variable {w destination source length} {result piece before after : StoreResult}

/-- A copy has moved these pieces since the first result, if it completes. -/
structure Copied (w : MemoryWorld) (destination source : ℕ) (pieces : List (List ℕ))
    (before after : StoreResult) : Prop extends CallStored w after where
  contents : after.completed = true → after.world.contents =
    copyPieces (fun o => w.memory.cellOf (source + o)) (fun o => w.memory.cellOf (destination + o))
      before.world.contents pieces

theorem Copied.stop (h : CallStored w result) (pieces : List (List ℕ)) :
    Copied w destination source pieces before { result with completed := false } :=
  ⟨h.completed _, nofun⟩

theorem Copied.nil (h : CallStored w result) (completed : Bool) :
    Copied w destination source [] result { result with completed } :=
  ⟨h.completed _, fun _ => rfl⟩

/-- A piece goes through and the rest follows. -/
theorem Copied.cons {offsets : List ℕ} {pieces : List (List ℕ)}
    (hpiece : Copied w destination source [offsets] result piece) (hdone : piece.completed = true)
    (h : Copied w destination source pieces piece after) :
    Copied w destination source (offsets :: pieces) result after :=
  ⟨h.toCallStored, fun hafter => (h.contents hafter).trans (by rw [hpiece.contents hdone]; rfl)⟩

section

variable (hw : w.WellFormed) (fault : Bool) (alloc : ℕ → ℕ → Bool)
  (hbase : w.memory.baseAddress ≤ destination) (hsrc : w.memory.baseAddress ≤ source)
  (hmap : ∀ a, InRange destination length a → (w.memory.protections a).isSome = true)
include hw hbase hsrc hmap

/-- A piece that goes through reads its source cells and then stores to its destination cells. -/
theorem CallStored.copyPiece {offset chunk : ℕ} (h : CallStored w result)
    (hle : offset + chunk ≤ length) (hpiece : MemoryWorld.copyPiece fault alloc
      (destination + offset) (source + offset) chunk result = some piece) :
    Copied w destination source [List.range' offset chunk] result piece := by
  have hw' := h.same.wellFormed hw
  rw [← h.same.baseAddress] at hbase hsrc
  rw [MemoryWorld.copyPiece, readBytes_eq hw' (by omega)] at hpiece
  cases hpiece
  obtain ⟨passed, rest, hsplit, hstore, hall⟩ := writeBytes_spec hw' fault alloc
    (show result.world.memory.baseAddress ≤ destination + offset by omega)
    ((List.range' (source + offset) chunk).map result.world.byteAt) result.mutations
  rw [length_map, length_range'] at hsplit
  refine ⟨h.append hstore ?_, fun hdone => ?_⟩
  · rw [← h.same.protections] at hmap ⊢
    exact mapped_of_passed hw'
      (fun a ha => hmap a ⟨by have := ha.1; omega, by have := ha.2; omega⟩) hsplit
  · obtain ⟨haddrs, -, hlen⟩ := passed_addresses hw' hsplit
    have hcont := hstore.contents fun _ _ => trivial
    rw [haddrs, hlen (hall hdone)] at hcont
    refine Eq.trans hcont ?_
    have hshift : List.range' (destination + offset) chunk =
        (List.range' offset chunk).map (destination + ·) := by
      rw [map_add_range']
    rw [hshift, storeCells, foldl_map, copyPieces_cons, PieceCopies.copyPiece, ← h.same.cellOf]
    refine foldl_ext _ _ _ fun contents o ho => ?_
    rw [mem_range'_1] at ho
    have hvalue : ((List.range' (source + offset) chunk).map result.world.byteAt).getD
        (destination + o - (destination + offset)) 0 = result.world.byteAt (source + o) := by
      rw [getD_eq_getElem?_getD, getElem?_map, getElem?_range' (by omega)]
      simp only [Option.map_some, Option.getD_some]
      congr 1
      omega
    rw [hvalue]
    rfl

variable (fuel : ℕ)

theorem copied_copyBackward {remaining : ℕ} (hle : remaining ≤ length) (h : CallStored w result) :
    Copied w destination source (backwardPieces fuel remaining) result
      (copyBackward fault alloc destination source fuel remaining result) := by
  induction fuel generalizing remaining result with
  | zero => exact .stop h _
  | succ fuel ih =>
    rw [copyBackward, backwardPieces]
    split_ifs with hdone
    · exact .nil h _
    dsimp only
    cases hpiece : MemoryWorld.copyPiece fault alloc
        (destination + (remaining - min kCopyChunkBytes remaining))
        (source + (remaining - min kCopyChunkBytes remaining))
        (min kCopyChunkBytes remaining) result with
    | none => exact .stop h _
    | some piece =>
      have hnext := h.copyPiece hw _ _ hbase hsrc hmap (by omega) hpiece
      dsimp only
      split_ifs with hfail
      · exact .stop hnext.toCallStored _
      rw [Bool.or_eq_true, not_or, Bool.not_eq_true', Bool.not_eq_false] at hfail
      exact hnext.cons hfail.1 (ih (by omega) hnext.toCallStored)

theorem copied_copyForward (copied : ℕ) (h : CallStored w result) :
    Copied w destination source (forwardPieces length fuel copied) result
      (copyForward fault alloc destination source length fuel copied result) := by
  induction fuel generalizing copied result with
  | zero => exact .stop h _
  | succ fuel ih =>
    rw [copyForward, forwardPieces]
    split_ifs with hmore
    · dsimp only
      cases hpiece : MemoryWorld.copyPiece fault alloc (destination + copied) (source + copied)
          (min _ (length - copied)) result with
      | none => exact .stop h _
      | some piece =>
        have hnext := h.copyPiece hw _ _ hbase hsrc hmap (by omega) hpiece
        dsimp only
        split_ifs with hfail
        · exact .stop hnext.toCallStored _
        rw [Bool.or_eq_true, not_or, Bool.not_eq_true', Bool.not_eq_false, decide_eq_true_eq,
          not_not] at hfail
        rw [hfail.2]
        exact hnext.cons hfail.1 (ih _ hnext.toCallStored)
    · exact .nil h _

end

/-- Without shared mappings all bytes are moved at once. -/
theorem contents_setBytes_moved (hnil : w.memory.sharedMappings = [])
    (hbase : w.memory.baseAddress ≤ destination) (hsrc : w.memory.baseAddress ≤ source)
    (length : ℕ) :
    (w.setBytes (w.memory.offsetOf destination) length
        fun i => w.memory.bytes (w.memory.offsetOf source + i)).contents =
      copyPieces (fun o => w.memory.cellOf (source + o))
        (fun o => w.memory.cellOf (destination + o)) w.contents [List.range length] := by
  have hown : ∀ a, w.memory.cellOf a = .own a := fun a => by
    rw [cellOf, sharing, hnil]
    rfl
  simp only [hown]
  funext cell
  rw [PieceCopies.copyPieces, foldl_cons, foldl_nil, PieceCopies.copyPiece]
  by_cases hcell : ∃ i ∈ List.range length, Cell.own (destination + i) = cell
  · obtain ⟨i, hi, rfl⟩ := hcell
    obtain ⟨j, -, heq, hvalue⟩ : ∃ j ∈ List.range length,
        Cell.own (destination + j) = .own (destination + i) ∧
        writeAll (fun o => Cell.own (destination + o))
          (fun o => w.contents (.own (source + o))) (List.range length) w.contents
          (.own (destination + i)) = w.contents (.own (source + j)) :=
      writeAll_of_mem hi w.contents
    have hji : j = i := by
      have := Cell.own.inj heq
      omega
    refine Eq.trans ?_ hvalue.symm
    rw [mem_range] at hi
    rw [contents_setBytes hbase, if_pos ⟨by omega, by omega⟩, contents, if_pos (by omega)]
    simp only [offsetOf]
    congr 1
    omega
  · have hout : ∀ i ∈ List.range length, Cell.own (destination + i) ≠ cell :=
      fun i hi heq => hcell ⟨i, hi, heq⟩
    rw [writeAll_of_notMem hout]
    cases cell with
    | backing id offset => rfl
    | own a =>
      refine (contents_setBytes hbase _ _ _).trans (if_neg fun hin => ?_)
      obtain ⟨i, rfl⟩ := Nat.exists_eq_add_of_le hin.1
      exact hout i (mem_range.mpr (Nat.add_lt_add_iff_left.mp hin.2)) rfl

/-- Every copy keeps the account of its call, and moves its pieces if it completes. -/
theorem copied_copy (hw : w.WellFormed) (fault : Bool) (alloc : ℕ → ℕ → Bool)
    (destination source length : ℕ) :
    Copied w destination source (w.pieces destination source length) (w.begin {})
      (w.copy fault alloc destination source length) := by
  rw [copy]
  split
  · exact .stop (callStored_begin w) _
  rename_i hacc
  simp only [Bool.or_eq_true, not_or, Bool.not_eq_true', Bool.not_eq_false] at hacc
  obtain ⟨hsrc, -⟩ := mapped_of_canAccessLocked hw hacc.1
  obtain ⟨hbase, hmap⟩ := mapped_of_canAccessLocked hw hacc.2
  split
  next hnothing =>
    refine ⟨(callStored_begin w).completed _, fun _ => ?_⟩
    rcases hnothing with rfl | rfl
    · funext cell
      rw [copyPieces_of_notMem fun i hi => absurd ((mem_pieces ..).mp hi) (Nat.not_lt_zero i)]
    · rw [copyPieces_self]
  rw [pieces]
  split_ifs with hempty hbehind
  · have hnil : w.memory.sharedMappings = [] := by simpa using hempty
    have hcont := contents_setBytes_moved hnil hbase hsrc length
    have hmem : ∀ a, a ∈ [(destination, length)].flatMap chunkAddresses ↔
        InRange destination length a := fun a => by
      rw [flatMap_singleton]
      exact mem_chunkAddresses
    refine ⟨⟨⟨rfl, fun _ => rfl⟩, fun a ha => hmap a ((hmem a).mp ha),
      recordAll_congr rfl {} [(destination, length)], fun cell hcell => ?_⟩, fun _ => hcont⟩
    rw [hcont, copyPieces_of_notMem fun i hi => ?_]
    refine (hcell _ ((hmem _).mpr ⟨Nat.le_add_right _ _, Nat.add_lt_add_left ?_ _⟩)).symm
    simpa using hi
  · exact copied_copyBackward hw _ _ hbase hsrc hmap _ le_rfl (callStored_begin w)
  · exact copied_copyForward hw _ _ hbase hsrc hmap _ 0 (callStored_begin w)

/-- Every storing call keeps the account of what it stored. -/
theorem callStored_store (h : w.WellFormed) (fault : Bool) (alloc : ℕ → ℕ → Bool)
    (call : StoreCall) : CallStored w (w.store fault alloc call) := by
  rcases store_cases h fault alloc call with hno | ⟨destination, source, length, rfl⟩ |
    ⟨address, source, -, hacc, hstore⟩ | ⟨address, length, value, -, hacc, hstore⟩
  · rw [hno]
    exact callStored_begin w
  · exact (copied_copy h fault alloc destination source length).toCallStored
  · obtain ⟨hbase, hmap⟩ := mapped_of_canAccessLocked h hacc
    obtain ⟨passed, rest, hsplit, hstored, -⟩ := writeBytes_spec h fault alloc hbase source {}
    rw [hstore]
    exact .of_stored hstored (mapped_of_passed h hmap hsplit)
  · obtain ⟨hbase, hmap⟩ := mapped_of_canAccessLocked h hacc
    obtain ⟨passed, rest, hsplit, hstored, -⟩ := fillBytes_spec h fault alloc hbase length value {}
    rw [hstore]
    exact .of_stored hstored (mapped_of_passed h hmap hsplit)

end MemoryWorld

end KajPS5.Memory
