/-
# Kernel handles

Every kernel object has a handle, counted up from 1. A handle is never given out
twice: after the last one the table answers that it is exhausted. Of the objects
only the type is kept here.
-/

import KajPS5.Math.OrderedMaps

namespace KajPS5.Kernel

inductive KernelStatus
  | kOk | kInvalidArgument | kNotFound | kNoSuchEntry | kBusy | kWouldBlock | kPermissionDenied
  | kNoResources | kTimedOut
  deriving DecidableEq, Repr

inductive KernelObjectType
  | kDirectory | kEventQueue | kEventFlag | kFile | kSemaphore | kThread | kTimer
  deriving DecidableEq, Repr

/-- `kInvalidKernelHandle`. -/
def invalidKernelHandle : ℕ := 0

structure HandleTable where
  objects : Std.ExtTreeMap ℕ KernelObjectType := ∅
  nextHandle : ℕ := 1
  exhausted : Bool := false

namespace HandleTable

/-- `Insert`. -/
def insert (type : KernelObjectType) (t : HandleTable) : Option ℕ × HandleTable :=
  if t.exhausted then (none, t)
  else
    let handle := t.nextHandle
    let last := handle = 2 ^ 64 - 1
    (some handle, {
      objects := t.objects.insertIfNew handle type
      nextHandle := if last then handle else handle + 1
      exhausted := last })

/-- `Find`: the handle has an object of the type. -/
def find (handle : ℕ) (expectedType : KernelObjectType) (t : HandleTable) : Bool :=
  handle ≠ invalidKernelHandle ∧ t.objects[handle]? = some expectedType

/-- `Remove`. -/
def remove (handle : ℕ) (expectedType : KernelObjectType) (t : HandleTable) :
    Bool × HandleTable :=
  if handle = invalidKernelHandle then (false, t)
  else if t.objects[handle]? = some expectedType then
    (true, { t with objects := t.objects.erase handle })
  else (false, t)

/-- The handle has been given out. -/
def Issued (t : HandleTable) (handle : ℕ) : Prop :=
  handle < t.nextHandle ∨ t.exhausted = true ∧ handle = t.nextHandle

theorem insert_cases (type : KernelObjectType) (t : HandleTable) : t.insert type = (none, t) ∨
      ∃ t', t.insert type = (some t.nextHandle, t') ∧ t.exhausted = false ∧
        t.nextHandle ≤ t'.nextHandle ∧
        ∀ handle, t'.Issued handle ↔ t.Issued handle ∨ handle = t.nextHandle := by
  unfold insert
  cases hspent : t.exhausted with
  | true => exact .inl rfl
  | false =>
    refine .inr ⟨_, rfl, rfl, ?_, fun handle => ?_⟩
    · dsimp only
      split <;> omega
    simp only [Issued, hspent]
    by_cases hlast : t.nextHandle = 2 ^ 64 - 1
    · simp [hlast]
    · simp only [hlast, if_false, decide_false, Bool.false_eq_true, false_and, or_false]
      omega

theorem not_issued_nextHandle {t : HandleTable} (h : t.exhausted = false) :
    ¬ t.Issued t.nextHandle := by
  simp [Issued, h]

/-- Removing an object gives no handle back. -/
theorem issued_remove (handle other : ℕ) (type : KernelObjectType) (t : HandleTable) :
    (t.remove handle type).2.Issued other ↔ t.Issued other := by
  unfold remove
  split
  · rfl
  · split <;> rfl

theorem nextHandle_remove (handle : ℕ) (type : KernelObjectType) (t : HandleTable) :
    (t.remove handle type).2.nextHandle = t.nextHandle := by
  unfold remove
  split
  · rfl
  · split <;> rfl

end HandleTable

end KajPS5.Kernel
