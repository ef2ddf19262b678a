/-
# Reads return what was last stored

The cells of a guest memory with the value last stored to each of them: a store
sets the cells behind the addresses it got through, one after the other, and a
new private mapping sets its cells to zero. Nothing else changes them; in
particular unmapping and remapping elsewhere, splitting a shared mapping or
storing through another alias of a cell need no rule of their own. A read of the
real memory returns these values.

The exception is a fill with zero over the last page of a backing's 64-bit offset
space, which leaves the bytes as they are.
-/

import KajPS5.Memory.MutationCoverage

namespace KajPS5.Memory

open Math GuestMemoryProtection GuestMemory AddressMap MappingCall

/-- A call that maps memory of its own. -/
def MappingCall.isPrivateMap : MappingCall → Bool
  | map .. => true
  | mapShared .. | protect .. | unmap .. => false

namespace MemoryCall

/-- Copies are the one kind of call left out of the histories. -/
def isCopy : MemoryCall → Bool
  | store _ _ call => call.isCopy
  | mapping _ | read _ _ => false

end MemoryCall

namespace MemoryWorld

variable {w : MemoryWorld}

/-- The values last stored, after a mapping call from the given world. -/
def newlyMapped (w : MemoryWorld) (cells : Cell → UInt8) (call : MappingCall) : Cell → UInt8
  | .own a =>
    if call.isPrivateMap ∧ (w.memory.perform w.backings call).1 ∧
      InRange call.address call.length a then 0 else cells (.own a)
  | .backing id offset => cells (.backing id offset)

/-- The values last stored, after one more call from the given world. -/
def lastStored (w : MemoryWorld) (cells : Cell → UInt8) : MemoryCall → Cell → UInt8
  | .mapping call => w.newlyMapped cells call
  | .store fault alloc call =>
    storeCells w.memory.cellOf call.value
      ((w.store fault alloc call).stored.flatMap chunkAddresses) cells
  | .read _ _ => cells

/-- A sequence of calls, with the values last stored. -/
def runCells : MemoryWorld × (Cell → UInt8) → List MemoryCall → MemoryWorld × (Cell → UInt8)
  | state, [] => state
  | (w, cells), call :: calls => runCells (w.step call, w.lastStored cells call) calls

/-- What the cells hold before any call: the backings as they are, and zeros. -/
def initialCells (backings : Backings) : Cell → UInt8
  | .own _ => 0
  | .backing id offset => (backings id).byteAt offset

/-- The call does not fill bytes of a last page with zero. -/
def StepsBelowLimit (w : MemoryWorld) : MemoryCall → Prop
  | .store fault _ call => w.ClearsBelowLimit fault call
  | .mapping _ | .read _ _ => True

/-- No call of the sequence does. -/
def RunsBelowLimit : MemoryWorld → List MemoryCall → Prop
  | _, [] => True
  | w, call :: calls => w.StepsBelowLimit call ∧ RunsBelowLimit (w.step call) calls

/-! ## The simulation -/

variable {value : ℕ → UInt8} {a : ℕ} {cells : Cell → UInt8} {call : StoreCall}

theorem storeCells_congr {cellOf : ℕ → Cell} (addresses : List ℕ) {first second : Cell → UInt8}
    {cell : Cell} (h : first cell = second cell) :
    storeCells cellOf value addresses first cell =
      storeCells cellOf value addresses second cell := by
  induction addresses generalizing first second with
  | nil => exact h
  | cons a addresses ih =>
    refine ih ?_
    by_cases hcell : cell = cellOf a
    · subst hcell
      simp
    · simp [Function.update_of_ne hcell, h]

/-- The address is mapped and no shared mapping covers it. -/
def OwnMapped (w : MemoryWorld) (a : ℕ) : Prop :=
  (w.memory.protections a).isSome = true ∧ w.memory.sharing a = none

/-- The memory holds the values last stored wherever a guest can look, and every
other private byte is zero. -/
structure Holds (w : MemoryWorld) (cells : Cell → UInt8) : Prop where
  own : ∀ a, w.OwnMapped a → w.contents (.own a) = cells (.own a)
  backing : ∀ id offset, w.contents (.backing id offset) = cells (.backing id offset)
  zero : ∀ a, w.memory.InWindow a → ¬ w.OwnMapped a → w.contents (.own a) = 0

theorem Holds.byteAt (h : w.Holds cells) (ha : (w.memory.protections a).isSome = true) :
    w.byteAt a = cells (w.memory.cellOf a) := by
  rw [MemoryWorld.byteAt]
  cases hshare : w.memory.sharing a with
  | none =>
    rw [cellOf_of_none hshare]
    exact h.own a ⟨ha, hshare⟩
  | some b =>
    rw [cellOf_of_some hshare]
    exact h.backing _ _

/-- A failed mapping call changes nothing a guest can see. -/
theorem Holds.of_unchanged (h : w.Holds cells) {m' : GuestMemory} (hsame : w.memory.Unchanged m') :
    ({ w with memory := m' } : MemoryWorld).Holds cells := by
  have hown : ∀ a, ({ w with memory := m' } : MemoryWorld).OwnMapped a ↔ w.OwnMapped a := by
    intro a
    simp [OwnMapped, protections, sharing, hsame.regions, hsame.sharedMappings]
  have hcont := contents_unchanged hsame
  refine ⟨fun a ha => ?_, fun id offset => ?_, fun a ha hnot => ?_⟩
  · rw [hcont]
    exact h.own a ((hown a).mp ha)
  · exact h.backing _ _
  · rw [hcont]
    refine h.zero a ?_ (mt (hown a).mpr hnot)
    rwa [GuestMemory.InWindow, hsame.baseAddress, hsame.storageSize] at ha

section

variable (hw : w.WellFormed)
include hw

theorem Holds.store (h : w.Holds cells) (fault : Bool) (alloc : ℕ → ℕ → Bool)
    (hcopy : call.isCopy = false) (hbelow : w.ClearsBelowLimit fault call) :
    (w.step (.store fault alloc call)).Holds (w.lastStored cells (.store fault alloc call)) := by
  have hcall := callStored_store hw fault alloc call
  have hcont := (storesRange_store hw fault alloc hcopy).contents
    fun b hb => reaches_of_clearsBelowLimit hw fault alloc _ hbelow hb
  obtain ⟨hshare, hprot, -, hsame⟩ := sameTables_notified (w.store fault alloc call)
  have hown : ∀ a, (w.step (.store fault alloc call)).OwnMapped a ↔ w.OwnMapped a := by
    intro a
    simp [OwnMapped, step, hshare, hprot, hcall.same.sharing, hcall.same.protections]
  have hwin : ∀ a, (w.step (.store fault alloc call)).memory.InWindow a → w.memory.InWindow a := by
    intro a ha
    have hmemory := sameButGeneration_notify (w.store fault alloc call).world.memory
    rw [hcall.same.memory] at hmemory
    simp only [step, notified] at ha
    rw [hcall.same.memory, hmemory] at ha
    exact ha
  refine ⟨fun a ha => ?_, fun id offset => ?_, fun a ha hnot => ?_⟩
  · rw [step, hsame, hcont]
    exact storeCells_congr _ (h.own a ((hown a).mp ha))
  · rw [step, hsame, hcont]
    exact storeCells_congr _ (h.backing _ _)
  -- A private byte that is not mapped is no cell of a stored address.
  rw [hown] at hnot
  rw [step, hsame, hcall.frame, h.zero a (hwin a ha) hnot]
  intro b hb heq
  obtain ⟨rfl, hnone⟩ := cellOf_eq_own_iff.mp heq.symm
  exact hnot ⟨hcall.mapped b hb, hnone⟩

/-- Which addresses are private after a successful mapping call. -/
theorem ownMapped_performed {call : MappingCall} {m' : GuestMemory}
    (hdone : w.memory.Performed call m') (a : ℕ) :
    ({ w with memory := m' } : MemoryWorld).OwnMapped a ↔ if InRange call.address call.length a then
        (match call with
          | .map .. => True
          | .protect .. => w.OwnMapped a
          | .mapShared .. | .unmap .. => False)
      else w.OwnMapped a := by
  have hprot : m'.protections a = _ := congrFun (congrArg AddressSpace.protections hdone.space) a
  have hshare : m'.sharing a = _ := congrFun (congrArg AddressSpace.sharing hdone.space) a
  simp only [OwnMapped, hprot, hshare]
  by_cases hin : InRange call.address call.length a
  · have hrange := (hdone.range a hin).2
    -- A range that is mapped was free, so nothing shared covers it.
    have hnone : call.isMap = true → w.memory.sharing a = none := by
      intro hmap
      rw [hmap, Bool.not_true] at hrange
      cases hshared : w.memory.sharing a with
      | none => rfl
      | some b => exact absurd (hw.tables.sharing_mapped a b hshared) (by simp [hrange])
    rw [if_pos hin]
    cases call <;> simp only [MappingCall.address, MappingCall.length] at hin <;>
      simp_all [effect, assign, repaint, remove, space, isMap]
  · rw [if_neg hin]
    cases call <;> simp only [MappingCall.address, MappingCall.length] at hin <;>
      simp [effect, assign, repaint, remove, hin, space]

theorem Holds.mapping (h : w.Holds cells) (call : MappingCall) :
    (w.step (.mapping call)).Holds (w.lastStored cells (.mapping call)) := by
  rcases (perform_outcome w.backings hw.tables call).cases with
    ⟨hfalse, hsame⟩ | ⟨htrue, hdone⟩
  · have hcells : w.newlyMapped cells call = cells := by
      funext cell
      cases cell <;> simp [newlyMapped, hfalse]
    rw [lastStored, hcells]
    exact h.of_unchanged hsame
  · have hwf := (perform_outcome w.backings hw.tables call).wellFormed
    have hown := ownMapped_performed hw hdone
    have hcont := fun a => contents_performed (a := a) hdone
    have hwin : ∀ a, (w.step (.mapping call)).memory.InWindow a → w.memory.InWindow a := by
      intro a ha
      rwa [step, GuestMemory.InWindow, hdone.baseAddress, hdone.storageSize] at ha
    -- What a private mapping covers was free, hence zero.
    have hfree : ∀ a, call.isMap = true → InRange call.address call.length a →
        w.contents (.own a) = 0 := by
      intro a hmap hin
      obtain ⟨ha, hnone⟩ := hdone.range a hin
      refine h.zero a ha fun hmapped => ?_
      rw [hmapped.1, hmap] at hnone
      cases hnone
    refine ⟨fun a ha => ?_, h.backing, fun a ha hnot => ?_⟩
    · obtain ⟨p, hp⟩ := Option.isSome_iff_exists.mp ha.1
      rw [step, hcont a (hwin a (hwf.inWindow a p hp)), lastStored, newlyMapped, htrue]
      have hafter := (hown a).mp ha
      split_ifs at hafter with hin
      · cases call with
        | map alloc address length protection =>
          simpa [isPrivateMap, isUnmap, hin] using hfree a rfl hin
        | protect address length protection => simpa [isPrivateMap, isUnmap] using h.own a hafter
        | mapShared | unmap => exact hafter.elim
      · simpa [hin] using h.own a hafter
    · rw [step, hcont a (hwin a ha)]
      have hafter := mt (hown a).mpr hnot
      split_ifs at hafter with hin
      · cases call with
        | map alloc address length protection => exact absurd trivial hafter
        | mapShared alloc address length protection backing backingOffset =>
          simpa [isUnmap] using hfree a rfl hin
        | protect address length protection => simpa [isUnmap] using h.zero a (hwin a ha) hafter
        | unmap address length => simp [isUnmap, hin]
      · simpa [hin] using h.zero a (hwin a ha) hafter

theorem Holds.step (h : w.Holds cells) {call : MemoryCall} (hcopy : call.isCopy = false)
    (hbelow : w.StepsBelowLimit call) : (w.step call).Holds (w.lastStored cells call) := by
  cases call with
  | mapping call => exact h.mapping hw _
  | store fault alloc call => exact h.store hw _ _ hcopy hbelow
  | read address length => exact h

/-- What a run of calls preserves, from the steps. -/
theorem Holds.run (h : w.Holds cells) {calls : List MemoryCall}
    (hcopy : ∀ call ∈ calls, call.isCopy = false) (hbelow : w.RunsBelowLimit calls) :
    (runCells (w, cells) calls).1.WellFormed ∧
      (runCells (w, cells) calls).1.Holds (runCells (w, cells) calls).2 := by
  induction calls generalizing w cells with
  | nil => exact ⟨hw, h⟩
  | cons call calls ih =>
    exact ih (wellFormed_step hw _) (h.step hw (hcopy _ (by simp)) hbelow.1)
      (fun c hc => hcopy c (by simp [hc])) hbelow.2

end

/-- A constructed memory holds zeros. -/
theorem holds_create {baseAddress size : ℕ} {initialProtection : GuestMemoryProtection}
    {m : GuestMemory} (hcreate : create baseAddress size initialProtection = some m)
    (backings : Backings) : (⟨m, backings⟩ : MemoryWorld).Holds (initialCells backings) := by
  obtain ⟨-, -, -, -, -, hbytes⟩ := create_spec hcreate
  have hzero : ∀ a, (⟨m, backings⟩ : MemoryWorld).contents (.own a) = 0 := by
    intro a
    simp [contents, hbytes]
  exact ⟨fun a _ => hzero a, fun _ _ => rfl, fun a _ _ => hzero a⟩

/-! ## Reading back -/

theorem Holds.read (hw : w.WellFormed) (h : w.Holds cells) {address length : ℕ} {bytes : List UInt8}
    (hread : w.read address length = some bytes) :
    bytes = (List.range' address length).map fun a => cells (w.memory.cellOf a) := by
  rw [read_eq hw] at hread
  split_ifs at hread with hacc
  rw [← Option.some.inj hread]
  refine List.map_congr_left fun a ha => ?_
  rw [List.mem_range'_1] at ha
  exact h.byteAt ((mapped_of_canAccessLocked hw hacc).2 a ⟨ha.1, ha.2⟩)

theorem Holds.byteAt_map (hw : w.WellFormed) (h : w.Holds cells) {call : MappingCall}
    (hprivate : call.isPrivateMap = true) (hdone : (w.memory.perform w.backings call).1 = true)
    (ha : InRange call.address call.length a) : (w.step (.mapping call)).byteAt a = 0 := by
  have hafter := h.mapping hw call
  rcases (perform_outcome _ hw.tables call).cases with
    ⟨hfalse, -⟩ | ⟨-, hperformed⟩
  · exact absurd (hfalse.symm.trans hdone) (by simp)
  have hown : (w.step (.mapping call)).OwnMapped a := by
    refine (ownMapped_performed hw hperformed a).mpr ?_
    rw [if_pos ha]
    cases call with
    | map alloc address length protection => trivial
    | mapShared | protect | unmap => simp [isPrivateMap] at hprivate
  rw [hafter.byteAt hown.1, cellOf_of_none hown.2, lastStored, newlyMapped,
    if_pos ⟨hprivate, hdone, ha⟩]

/-- In every run of calls other than copies, from a constructed memory over any
backings, in which no call fills bytes of a last page with zero: a read that
succeeds returns the value last stored to each cell, a new private mapping reads
zero throughout, and the next call that is no copy stores its range from the
front, all of it if it completes. -/
theorem read_lastStored {baseAddress size : ℕ} {initialProtection : GuestMemoryProtection}
    {m : GuestMemory} (hcreate : create baseAddress size initialProtection = some m)
    (backings : Backings) {calls : List MemoryCall} (hcopy : ∀ call ∈ calls, call.isCopy = false)
    (hbelow : (⟨m, backings⟩ : MemoryWorld).RunsBelowLimit calls) :
    let after := runCells (⟨m, backings⟩, initialCells backings) calls
    (∀ address length bytes, after.1.read address length = some bytes →
      bytes = (List.range' address length).map fun a => after.2 (after.1.memory.cellOf a)) ∧
    (∀ call : MappingCall, call.isPrivateMap = true →
      (after.1.memory.perform after.1.backings call).1 = true →
        ∀ a, InRange call.address call.length a → (after.1.step (.mapping call)).byteAt a = 0) ∧
    ∀ fault alloc call, call.isCopy = false →
      after.1.StoresRange call (after.1.store fault alloc call) := by
  obtain ⟨hw, hholds⟩ := (holds_create hcreate backings).run
    (Reachable.create hcreate backings).wellFormed hcopy hbelow
  exact ⟨fun _ _ _ hread => hholds.read hw hread,
    fun _ hprivate hdone _ ha => hholds.byteAt_map hw hprivate hdone ha,
    fun fault alloc _ hcall => storesRange_store hw fault alloc hcall⟩

/-- One backing mapped twice: a byte stored through the first mapping is read
through the second. -/
def aliasCalls : List MemoryCall :=
  [.mapping (.mapShared {} 0x1000 0x1000 (kRead ||| kWrite) (some 0) 0),
    .mapping (.mapShared {} 0x4000 0x1000 (kRead ||| kWrite) (some 0) 0x10),
    .store false (fun _ _ => true) (.write 0x1010 [7, 8])]

theorem read_lastStored_alias : ∃ m, create 0x1000 0x8000 kNone = some m ∧
      (runCells (⟨m, fun _ => .create 0x4000⟩, initialCells fun _ => .create 0x4000)
        aliasCalls).1.read 0x4000 3 = some [7, 8, 0] ∧
      [7, 8, 0] = (List.range' 0x4000 3).map fun a =>
        (runCells (⟨m, fun _ => .create 0x4000⟩, initialCells fun _ => .create 0x4000)
          aliasCalls).2 ((runCells (⟨m, fun _ => .create 0x4000⟩,
            initialCells fun _ => .create 0x4000) aliasCalls).1.memory.cellOf a) := by
  have hcreate : create 0x1000 0x8000 kNone = some _ := rfl
  refine ⟨_, hcreate, rfl, (read_lastStored hcreate (fun _ => .create 0x4000) ?_ ?_).1
    0x4000 3 [7, 8, 0] rfl⟩
  · simp [aliasCalls, MemoryCall.isCopy, StoreCall.isCopy]
  · refine ⟨trivial, trivial, fun a ha => ?_, trivial⟩
    exact absurd ha List.not_mem_nil

/-- A byte of the last page is stored to, then filled with zero. -/
def lastPageCalls : List MemoryCall :=
  [.mapping (.mapShared {} 0x1000 0x1000 (kRead ||| kWrite) (some 0) (2 ^ 64 - 0x4000)),
    .store false (fun _ _ => true) (.write 0x1000 [1]),
    .store false (fun _ _ => true) (.fill 0x1000 1 0)]

/-- The fill succeeds, yet the byte reads as it was. -/
theorem read_lastPage_after_fill : ∃ m, create 0x1000 0x8000 kNone = some m ∧
      ((lastPageWorld m).store false (fun _ _ => true) (.fill 0x1000 1 0)).completed = true ∧
      let after := runCells (⟨m, fun _ => .create (2 ^ 64 - 1)⟩,
        initialCells fun _ => .create (2 ^ 64 - 1)) lastPageCalls
      after.1.read 0x1000 1 = some [1] ∧ after.2 (after.1.memory.cellOf 0x1000) = 0 :=
  ⟨_, rfl, rfl, rfl, rfl⟩

end MemoryWorld

end KajPS5.Memory
