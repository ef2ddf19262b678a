/-
# Semaphores and event flags

Two kernel objects that threads wait for. A semaphore has a count of units; an event flag
has 64 bits. A wait that finds the units or the bits takes them at once. Otherwise the thread
blocks under the key of the object, and it asks again when it is woken: a signal or a set
wakes every thread that waits for the object, and hands out nothing.

The objects of both services live in the one table of handles, and both services call the one
scheduler. Counts are integers; those of a semaphore stay between zero and its maximum, so
that no sum or difference of the source overflows.
-/

import KajPS5.Kernel.SchedulerWaits
import KajPS5.Math.NumberedNames

namespace KajPS5.Kernel

open Math

/-! ## One semaphore -/

def maximumSemaphoreNameLength : ℕ := 128

def semaphoreThreadFifo : BitVec 32 := 0x01

def semaphoreThreadPriority : BitVec 32 := 0x02

structure Semaphore where
  name : String
  attributes : BitVec 32
  (maximumCount count : ℤ)
  deriving DecidableEq, Repr

structure SemaphoreCreateResult where
  status : KernelStatus := .kOk
  handle : ℕ := invalidKernelHandle
  deriving DecidableEq, Repr

structure SemaphoreCountResult where
  status : KernelStatus := .kOk
  remainingCount : ℤ := 0
  deriving DecidableEq, Repr

namespace Semaphore

/-- `Signal`. -/
def signal (count : ℤ) (s : Semaphore) : KernelStatus × Semaphore :=
  if count ≤ 0 then (.kInvalidArgument, s)
  else if s.maximumCount - s.count < count then (.kInvalidArgument, s)
  else (.kOk, { s with count := s.count + count })

/-- `TryAcquire`. -/
def tryAcquire (count : ℤ) (s : Semaphore) : SemaphoreCountResult × Semaphore :=
  if count ≤ 0 ∨ s.maximumCount < count then ({ status := .kInvalidArgument }, s)
  else if s.count < count then ({ status := .kBusy, remainingCount := s.count }, s)
  else ({ remainingCount := s.count - count }, { s with count := s.count - count })

end Semaphore

/-! ## One event flag -/

def maximumEventFlagNameLength : ℕ := 31

def eventFlagThreadFifo : BitVec 32 := 0x01

def eventFlagThreadPriority : BitVec 32 := 0x02

def eventFlagSingle : BitVec 32 := 0x10

def eventFlagMulti : BitVec 32 := 0x20

def eventFlagWaitAll : BitVec 32 := 0x01

def eventFlagWaitAny : BitVec 32 := 0x02

def eventFlagClearAll : BitVec 32 := 0x10

def eventFlagClearPattern : BitVec 32 := 0x20

inductive EventFlagWaitCondition
  | kAll
  | kAny
  deriving DecidableEq, Repr

inductive EventFlagClearMode
  | kNone | kAll | kPattern
  deriving DecidableEq, Repr

structure EventFlagStateResult where
  satisfied : Bool := false
  observedPattern : BitVec 64 := 0
  deriving DecidableEq, Repr

structure EventFlag where
  name : String
  attributes : BitVec 32
  bits : BitVec 64
  deriving DecidableEq, Repr

structure EventFlagCreateResult where
  status : KernelStatus := .kOk
  handle : ℕ := invalidKernelHandle
  deriving DecidableEq, Repr

structure EventFlagPollResult where
  status : KernelStatus := .kOk
  observedPattern : BitVec 64 := 0
  deriving DecidableEq, Repr

/-- The bits are those that a wait is for. -/
def EventFlagWaitCondition.holds (bits pattern : BitVec 64) : EventFlagWaitCondition → Bool
  | .kAll => bits &&& pattern = pattern
  | .kAny => bits &&& pattern ≠ 0

namespace EventFlag

/-- `Set`. -/
def set (pattern : BitVec 64) (f : EventFlag) : EventFlag := { f with bits := f.bits ||| pattern }

/-- `Clear`. -/
def clear (mask : BitVec 64) (f : EventFlag) : EventFlag := { f with bits := f.bits &&& mask }

/-- `Poll`. -/
def poll (pattern : BitVec 64) (condition : EventFlagWaitCondition)
    (clearMode : EventFlagClearMode) (f : EventFlag) : EventFlagStateResult × EventFlag :=
  if condition.holds f.bits pattern then
    ({ satisfied := true, observedPattern := f.bits }, match clearMode with
      | .kNone => f
      | .kAll => { f with bits := 0 }
      | .kPattern => { f with bits := f.bits &&& ~~~pattern })
  else ({ observedPattern := f.bits }, f)

end EventFlag

/-! ## The objects and the scheduler -/

inductive WaitObject
  | semaphore (s : Semaphore)
  | eventFlag (f : EventFlag)
  deriving DecidableEq, Repr

def WaitObject.type : WaitObject → KernelObjectType
  | .semaphore _ => .kSemaphore
  | .eventFlag _ => .kEventFlag

structure WaitObjects where
  scheduler : GuestScheduler := {}
  reads : ℕ := 0
  objects : Std.ExtTreeMap ℕ WaitObject := ∅

namespace WaitObjects

/-- `Find` of the table of handles. -/
def find (handle : ℕ) (type : KernelObjectType) (s : WaitObjects) : Option WaitObject :=
  if s.scheduler.handles.find handle type then s.objects[handle]? else none

def put (handle : ℕ) (object : WaitObject) (s : WaitObjects) : WaitObjects :=
  { s with objects := s.objects.insert handle object }

/-- `Insert` of the table of handles. -/
def insert (object : WaitObject) (s : WaitObjects) : Option ℕ × WaitObjects :=
  match s.scheduler.handles.insert object.type with
  | (none, handles) => (none, { s with scheduler := { s.scheduler with handles } })
  | (some handle, handles) =>
    (some handle, { s with scheduler := { s.scheduler with handles } }.put handle object)

/-- `Remove` of the table of handles. -/
def remove (handle : ℕ) (type : KernelObjectType) (s : WaitObjects) : Bool × WaitObjects :=
  match s.scheduler.handles.remove handle type with
  | (false, _) => (false, s)
  | (true, handles) =>
    (true, { s with scheduler := { s.scheduler with handles }, objects := s.objects.erase handle })

/-- `WakeBlockedThreads` of the scheduler, without a limit on their number. -/
def wakeBlockedThreads (clock : ℕ → ℕ) (waitKey : String) (s : WaitObjects) : WaitObjects :=
  { s with
    scheduler := (s.scheduler.wakeBlockedThreads waitKey (2 ^ 64 - 1) (clock s.reads)).2
    reads := s.reads + 1 }

/-- `BlockCurrent` of the scheduler. -/
def blockCurrent (waitKey : String) (s : WaitObjects) : Bool × WaitObjects :=
  let (blocked, scheduler) := s.scheduler.blockCurrent waitKey
  (blocked, { s with scheduler })

end WaitObjects

/-! ## The semaphore service -/

namespace SemaphoreService

/-- `MakeWaitKey`. -/
def makeWaitKey (handle : ℕ) : String := NumberedNames.hexName "semaphore:" handle

/-- `IsValidAttributes`. -/
def isValidAttributes (attributes : BitVec 32) : Bool :=
  attributes = 0 ∨ attributes = semaphoreThreadFifo ∨ attributes = semaphoreThreadPriority

/-- `Find`. -/
def find (handle : ℕ) (s : WaitObjects) : Option Semaphore :=
  match s.find handle .kSemaphore with
  | some (.semaphore semaphore) => some semaphore
  | _ => none

/-- `Create`. -/
def create (name : String) (attributes : BitVec 32) (initialCount maximumCount : ℤ)
    (s : WaitObjects) : SemaphoreCreateResult × WaitObjects :=
  if maximumSemaphoreNameLength < name.utf8ByteSize ∨ isValidAttributes attributes = false ∨
      initialCount < 0 ∨ maximumCount ≤ 0 ∨ maximumCount < initialCount then
    ({ status := .kInvalidArgument }, s)
  else match s.insert (.semaphore ⟨name, attributes, maximumCount, initialCount⟩) with
    | (none, s) => ({ status := .kNoResources }, s)
    | (some handle, s) => ({ handle }, s)

/-- `Poll`. -/
def poll (handle : ℕ) (count : ℤ) (s : WaitObjects) : SemaphoreCountResult × WaitObjects :=
  match find handle s with
  | none => ({ status := .kNotFound }, s)
  | some semaphore =>
    let (result, semaphore) := semaphore.tryAcquire count
    (result, s.put handle (.semaphore semaphore))

/-- `Wait`. -/
def wait (handle : ℕ) (count : ℤ) (s : WaitObjects) : SemaphoreCountResult × WaitObjects :=
  let (result, s) := poll handle count s
  if result.status ≠ .kBusy then (result, s)
  else match s.blockCurrent (makeWaitKey handle) with
    | (false, s) => (result, s)
    | (true, s) => ({ result with status := .kWouldBlock }, s)

/-- `GetCount`. -/
def getCount (handle : ℕ) (s : WaitObjects) : SemaphoreCountResult :=
  match find handle s with
  | none => { status := .kNotFound }
  | some semaphore => { remainingCount := semaphore.count }

section Clock

variable (clock : ℕ → ℕ)

/-- `Delete`. -/
def delete (handle : ℕ) (s : WaitObjects) : KernelStatus × WaitObjects :=
  match s.remove handle .kSemaphore with
  | (false, s) => (.kNotFound, s)
  | (true, s) => (.kOk, s.wakeBlockedThreads clock (makeWaitKey handle))

/-- `Signal`. -/
def signal (handle : ℕ) (count : ℤ) (s : WaitObjects) : KernelStatus × WaitObjects :=
  match find handle s with
  | none => (.kNotFound, s)
  | some semaphore =>
    let (status, semaphore) := semaphore.signal count
    let s := s.put handle (.semaphore semaphore)
    if status = .kOk then (status, s.wakeBlockedThreads clock (makeWaitKey handle))
    else (status, s)

end Clock

end SemaphoreService

/-! ## The event flag service -/

namespace EventFlagService

/-- `MakeWaitKey`. -/
def makeWaitKey (handle : ℕ) : String := NumberedNames.hexName "event_flag:" handle

/-- `IsValidAttributes`. -/
def isValidAttributes (attributes : BitVec 32) : Bool :=
  let queueMode := attributes &&& 0x0f
  let threadMode := attributes &&& 0xf0
  (queueMode = 0 ∨ queueMode = eventFlagThreadFifo ∨ queueMode = eventFlagThreadPriority) ∧
    (threadMode = 0 ∨ threadMode = eventFlagSingle ∨ threadMode = eventFlagMulti) ∧
    attributes &&& ~~~0x33 = 0

/-- `DecodeWaitMode`. -/
def decodeWaitMode (waitMode : BitVec 32) :
    Option (EventFlagWaitCondition × EventFlagClearMode) :=
  let condition : Option EventFlagWaitCondition :=
    if waitMode &&& 0x0f = eventFlagWaitAll then some .kAll
    else if waitMode &&& 0x0f = eventFlagWaitAny then some .kAny
    else none
  let clearMode : Option EventFlagClearMode :=
    if waitMode &&& 0xf0 = 0 then some .kNone
    else if waitMode &&& 0xf0 = eventFlagClearAll then some .kAll
    else if waitMode &&& 0xf0 = eventFlagClearPattern then some .kPattern
    else none
  match condition, clearMode with
  | some condition, some clearMode =>
    if waitMode &&& ~~~0x33 = 0 then some (condition, clearMode) else none
  | _, _ => none

/-- `Find`. -/
def find (handle : ℕ) (s : WaitObjects) : Option EventFlag :=
  match s.find handle .kEventFlag with
  | some (.eventFlag eventFlag) => some eventFlag
  | _ => none

/-- `Create`. -/
def create (name : String) (attributes : BitVec 32) (initialPattern : BitVec 64)
    (s : WaitObjects) : EventFlagCreateResult × WaitObjects :=
  if maximumEventFlagNameLength < name.utf8ByteSize ∨ isValidAttributes attributes = false then
    ({ status := .kInvalidArgument }, s)
  else match s.insert (.eventFlag ⟨name, attributes, initialPattern⟩) with
    | (none, s) => ({ status := .kNoResources }, s)
    | (some handle, s) => ({ handle }, s)

/-- `Clear`. -/
def clear (handle : ℕ) (mask : BitVec 64) (s : WaitObjects) : KernelStatus × WaitObjects :=
  match find handle s with
  | none => (.kNotFound, s)
  | some eventFlag => (.kOk, s.put handle (.eventFlag (eventFlag.clear mask)))

/-- `Poll`. -/
def poll (handle : ℕ) (pattern : BitVec 64) (waitMode : BitVec 32) (s : WaitObjects) :
    EventFlagPollResult × WaitObjects := match find handle s with
  | none => ({ status := .kNotFound }, s)
  | some eventFlag =>
    if pattern = 0 then ({ status := .kInvalidArgument }, s)
    else match decodeWaitMode waitMode with
      | none => ({ status := .kInvalidArgument }, s)
      | some (condition, clearMode) =>
        let (result, eventFlag) := eventFlag.poll pattern condition clearMode
        (⟨if result.satisfied then .kOk else .kBusy, result.observedPattern⟩,
          s.put handle (.eventFlag eventFlag))

/-- `Wait`. -/
def wait (handle : ℕ) (pattern : BitVec 64) (waitMode : BitVec 32) (s : WaitObjects) :
    EventFlagPollResult × WaitObjects :=
  let (result, s) := poll handle pattern waitMode s
  if result.status ≠ .kBusy then (result, s)
  else match s.blockCurrent (makeWaitKey handle) with
    | (false, s) => (result, s)
    | (true, s) => ({ result with status := .kWouldBlock }, s)

section Clock

variable (clock : ℕ → ℕ)

/-- `Delete`. -/
def delete (handle : ℕ) (s : WaitObjects) : KernelStatus × WaitObjects :=
  match s.remove handle .kEventFlag with
  | (false, s) => (.kNotFound, s)
  | (true, s) => (.kOk, s.wakeBlockedThreads clock (makeWaitKey handle))

/-- `Set`. -/
def set (handle : ℕ) (pattern : BitVec 64) (s : WaitObjects) : KernelStatus × WaitObjects :=
  match find handle s with
  | none => (.kNotFound, s)
  | some eventFlag =>
    (.kOk, (s.put handle (.eventFlag (eventFlag.set pattern))).wakeBlockedThreads clock
      (makeWaitKey handle))

end Clock

end EventFlagService

end KajPS5.Kernel
