/-
# Pthreads

The pthread service: mutexes, reader-writer locks and condition variables over the guest
scheduler. A call that has to wait blocks the current thread and answers that it would
block; the thread is expected to make the same call again when it is selected next. Locks are
handed over: the thread that leaves a lock makes a waiter its holder and notes the grant, and
the waiter's repeated call finds the grant and consumes it.

The guest objects of mutexes and reader-writer locks live in an arena of guest memory. Of the
memory only the answers of its calls are kept. Thread attributes and thread-specific
values touch none of the state here and are left out.
-/

import KajPS5.Kernel.SchedulerWaits
import KajPS5.Math.NumberedNames
import KajPS5.Memory.Generation
import Mathlib.Data.Finset.Erase
import Mathlib.Data.Finset.Insert

namespace KajPS5.Kernel

open Math
open Memory (uint64Max)

def pthreadMutexErrorCheck : ℤ := 1

def pthreadMutexRecursive : ℤ := 2

def pthreadMutexNormal : ℤ := 3

def pthreadMutexAdaptive : ℤ := 4

def pthreadMutexObjectSize : ℕ := 0x100

def pthreadMutexObjectTypeOffset : ℕ := 0x20

def pthreadMutexObjectProtocolOffset : ℕ := 0x3c

def pthreadMutexArenaSize : ℕ := 1024 * 1024

def pthreadMutexArenaSlotCount : ℕ := pthreadMutexArenaSize / pthreadMutexObjectSize

def syntheticMutexAttributeHandleBase : ℕ := 0x0000600500000000

def syntheticMutexHandleBase : ℕ := 0x0000600600000000

def syntheticConditionHandleBase : ℕ := 0x0000600700000000

/-- The largest `std::uint32_t`. -/
def uint32Max : ℕ := 2 ^ 32 - 1

def nanosecondsPerSecond : ℕ := 1000000000

structure KernelTimespec where
  (seconds nanoseconds : ℤ := 0)
  deriving DecidableEq, Repr

/-- `SignedNanosecondsToTimespec`. -/
def KernelTimespec.ofNanoseconds (nanoseconds : ℤ) : KernelTimespec :=
  { seconds := nanoseconds / nanosecondsPerSecond
    nanoseconds := nanoseconds % nanosecondsPerSecond }

/-! ## The wait keys -/

def mutexWaitKey (mutexHandle threadHandle : ℕ) : String :=
  NumberedNames.pairName "pthread-mutex:" mutexHandle threadHandle

def conditionWaitKey (conditionHandle threadHandle : ℕ) : String :=
  NumberedNames.pairName "pthread-condition:" conditionHandle threadHandle

def rwlockWaitKey (rwlockHandle threadHandle : ℕ) : String :=
  NumberedNames.pairName "pthread-rwlock:" rwlockHandle threadHandle

/-! ## The state -/

structure PthreadMutexAttribute where
  type : ℤ := pthreadMutexErrorCheck
  protocol : ℤ := 0
  deriving DecidableEq, Repr

/-- What the calls that create an object answer. -/
structure PthreadCreateResult where
  status : KernelStatus := .kOk
  handle : ℕ := 0
  deriving DecidableEq, Repr

structure MutexState where
  type : ℤ := pthreadMutexErrorCheck
  protocol : ℤ := 0
  owner : ℕ := invalidKernelHandle
  recursionCount : ℕ := 0
  waiters : List ℕ := []
  grantedWaiters : Finset ℕ := ∅
  conditionWaiterCount : ℕ := 0
  guestObjectSlot : Option ℕ := none

structure ConditionWaiter where
  (thread conditionHandle mutexHandle : ℕ)
  deadlineNanoseconds : Option ℕ := none
  timedOut : Bool := false
  deriving DecidableEq, Repr

structure ConditionState where
  waiters : List ConditionWaiter := []
  activeWaiterCount : ℕ := 0

structure RwlockWaiter where
  thread : ℕ
  write : Bool
  deriving DecidableEq, Repr

structure RwlockState where
  writer : ℕ := invalidKernelHandle
  readers : Std.ExtTreeMap ℕ ℕ := ∅
  waiters : List RwlockWaiter := []
  grantedReaders : Finset ℕ := ∅
  grantedWriter : Option ℕ := none
  guestObjectSlot : ℕ := 0

/-- The service with its scheduler and the number of readings taken from its clock. The arena is
there once it has been configured. -/
structure PthreadService where
  scheduler : GuestScheduler := {}
  reads : ℕ := 0
  mutexAttributes : Std.ExtTreeMap ℕ PthreadMutexAttribute := ∅
  mutexes : Std.ExtTreeMap ℕ MutexState := ∅
  rwlocks : Std.ExtTreeMap ℕ RwlockState := ∅
  conditions : Std.ExtTreeMap ℕ ConditionState := ∅
  completedConditionWaits : Std.ExtTreeMap ℕ ConditionWaiter := ∅
  guestMutexArena : Option ℕ := none
  guestMutexSlots : Finset ℕ := ∅
  (nextMutexAttributeId nextMutexId nextConditionId : ℕ := 1)

/-- What guest memory answers to one call: whether the arena can be written, and whether filling
an object and writing a word of it succeeds. -/
structure ArenaMemory where
  canAccess : Bool
  fill : ℕ → Bool
  write : ℕ → Bool

namespace PthreadService

variable (clock : SteadyClock)

/-- One reading of the monotonic clock. -/
def monotonicNanoseconds (s : PthreadService) : ℕ × PthreadService :=
  (clock.monotonicNanoseconds s.reads, { s with reads := s.reads + 1 })

/-- `WakeBlockedThreads` of the scheduler for one thread. -/
def wakeBlockedThread (waitKey : String) (s : PthreadService) : PthreadService :=
  let (now, s) := s.monotonicNanoseconds clock
  { s with scheduler := (s.scheduler.wakeBlockedThreads waitKey 1 now).2 }

/-- The loop over the wake keys at the end of a call. -/
def wakeBlockedThreads (waitKeys : List String) (s : PthreadService) : PthreadService :=
  waitKeys.foldl (fun s waitKey => s.wakeBlockedThread clock waitKey) s

end PthreadService

/-! ## Mutexes -/

/-- `IsMutexTypeValid`. -/
def isMutexTypeValid (type : ℤ) : Bool :=
  pthreadMutexErrorCheck ≤ type ∧ type ≤ pthreadMutexAdaptive

/-- `IsMutexProtocolValid`. -/
def isMutexProtocolValid (protocol : ℤ) : Bool := 0 ≤ protocol ∧ protocol ≤ 2

namespace MutexState

/-- The owner locks once more. -/
def lockAgain (m : MutexState) : KernelStatus × MutexState :=
  if m.recursionCount = uint32Max then (.kNoResources, m)
  else (.kOk, { m with recursionCount := m.recursionCount + 1 })

/-- The locked part of `LockMutex`: the answer, or none if the thread has to wait. -/
def lock (current : ℕ) (tryOnly : Bool) (m : MutexState) : Option KernelStatus × MutexState :=
  if m.owner = invalidKernelHandle then
    (some .kOk, { m with owner := current, recursionCount := 1 })
  else if m.owner = current then
    if current ∈ m.grantedWaiters then
      (some .kOk, { m with grantedWaiters := m.grantedWaiters.erase current })
    else if m.type = pthreadMutexRecursive then (some m.lockAgain.1, m.lockAgain.2)
    else if m.type = pthreadMutexNormal ∧ tryOnly = false then (some m.lockAgain.1, m.lockAgain.2)
    else if m.type = pthreadMutexAdaptive ∧ tryOnly = false then (some .kOk, m)
    else (some (if tryOnly then .kBusy else .kInvalidArgument), m)
  else if tryOnly then (some .kBusy, m)
  else if current ∈ m.waiters then (none, m)
  else (none, { m with waiters := m.waiters ++ [current] })

/-- `GrantNextMutexWaiterLocked`: the first waiter becomes the owner. The key is none if there is
no waiter. -/
def grantNextMutexWaiterLocked (mutexHandle : ℕ) (m : MutexState) : Option String × MutexState :=
  match m.waiters with
  | [] => (none, m)
  | nextThread :: waiters =>
    (some (mutexWaitKey mutexHandle nextThread), { m with
      owner := nextThread
      recursionCount := 1
      waiters
      grantedWaiters := insert nextThread m.grantedWaiters })

/-- The owner gives the mutex up, as in `UnlockMutex` and `ExitCurrent`. -/
def leave (mutexHandle current : ℕ) (m : MutexState) : Option String × MutexState :=
  { m with
    owner := invalidKernelHandle
    recursionCount := 0
    grantedWaiters := m.grantedWaiters.erase current }.grantNextMutexWaiterLocked mutexHandle

/-- What `ExitCurrent` does to one mutex. -/
def leaveIfOwned (mutexHandle current : ℕ) (m : MutexState) : Option String × MutexState :=
  if m.owner = current then m.leave mutexHandle current else (none, m)

/-- The mutex is in use, as `CanDestroyMutex` and `DestroyMutex` check it. -/
def busy (m : MutexState) : Bool :=
  m.owner ≠ invalidKernelHandle ∨ m.waiters ≠ [] ∨ m.grantedWaiters ≠ ∅ ∨ m.conditionWaiterCount ≠ 0

end MutexState

namespace PthreadService

variable (clock : SteadyClock)

variable (s : PthreadService)

/-- `CreateMutexAttribute`. -/
def createMutexAttribute : PthreadCreateResult × PthreadService :=
  if s.nextMutexAttributeId = 0 ∨
      uint64Max - syntheticMutexAttributeHandleBase < s.nextMutexAttributeId then
    ({ status := .kNoResources }, s)
  else
    let handle := syntheticMutexAttributeHandleBase + s.nextMutexAttributeId
    ({ handle }, { s with
      nextMutexAttributeId := s.nextMutexAttributeId + 1
      mutexAttributes := s.mutexAttributes.insertIfNew handle {} })

/-- `DestroyMutexAttribute`. -/
def destroyMutexAttribute (handle : ℕ) (s : PthreadService) : KernelStatus × PthreadService :=
  if handle = 0 then (.kInvalidArgument, s)
  else if s.mutexAttributes[handle]?.isSome then
    (.kOk, { s with mutexAttributes := s.mutexAttributes.erase handle })
  else (.kNotFound, s)

/-- A setter of a mutex attribute: the value is checked first. -/
def setMutexAttribute (valid : Bool) (change : PthreadMutexAttribute → PthreadMutexAttribute)
    (handle : ℕ) (s : PthreadService) : KernelStatus × PthreadService :=
  if valid = false then (.kInvalidArgument, s)
  else match s.mutexAttributes[handle]? with
    | none => (.kNotFound, s)
    | some found =>
      (.kOk, { s with mutexAttributes := s.mutexAttributes.insert handle (change found) })

/-- `SetMutexAttributeType`. -/
def setMutexAttributeType (handle : ℕ) (type : ℤ) (s : PthreadService) :
    KernelStatus × PthreadService :=
  s.setMutexAttribute (isMutexTypeValid type) ({ · with type }) handle

/-- `SetMutexAttributeProtocol`. -/
def setMutexAttributeProtocol (handle : ℕ) (protocol : ℤ) (s : PthreadService) :
    KernelStatus × PthreadService :=
  s.setMutexAttribute (isMutexProtocolValid protocol) ({ · with protocol }) handle

/-- The mutex that `CreateMutexLocked` stores. -/
def newMutex (attributeHandle : ℕ) (staticType : ℤ) (guestObjectSlot : Option ℕ)
    (s : PthreadService) : MutexState :=
  let attributes := s.mutexAttributes[attributeHandle]?.getD {}
  { type := if staticType ≠ 0 then staticType else attributes.type
    protocol := attributes.protocol
    guestObjectSlot }

/-- The search of `CreateMutexLocked` for a free synthetic handle, with the probes that are
left. -/
def probeMutexId (s : PthreadService) (candidateId : ℕ) (probes : ℕ) : Option ℕ :=
  let handle := syntheticMutexHandleBase + candidateId
  if s.mutexes[handle]? = none ∧ s.rwlocks[handle]? = none then some candidateId
  else match probes with
    | 0 => none
    | probes + 1 =>
      if candidateId = uint64Max - syntheticMutexHandleBase then none
      else s.probeMutexId (candidateId + 1) probes

/-- `CreateMutexLocked`. -/
def createMutexLocked (attributeHandle : ℕ) (staticType : ℤ) (guestObjectSlot : Option ℕ)
    (s : PthreadService) : PthreadCreateResult × PthreadService :=
  if staticType ≠ 0 ∧ isMutexTypeValid staticType = false then ({ status := .kInvalidArgument }, s)
  else
    let mutex := s.newMutex attributeHandle staticType guestObjectSlot
    match guestObjectSlot with
    | some slot =>
      let slotOffset := slot * pthreadMutexObjectSize
      let arena := s.guestMutexArena.getD 0
      if pthreadMutexArenaSlotCount ≤ slot ∨ uint64Max - slotOffset < arena then
        ({ status := .kNoResources }, s)
      else if s.mutexes[arena + slotOffset]? = none then
        ({ handle := arena + slotOffset },
          { s with mutexes := s.mutexes.insert (arena + slotOffset) mutex })
      else ({ status := .kNoResources }, s)
    | none =>
      let maximumId := uint64Max - syntheticMutexHandleBase
      if s.nextMutexId = 0 ∨ maximumId < s.nextMutexId then ({ status := .kNoResources }, s)
      else match s.probeMutexId s.nextMutexId (s.mutexes.size + s.rwlocks.size) with
        | none => ({ status := .kNoResources }, s)
        | some id =>
          ({ handle := syntheticMutexHandleBase + id }, { s with
            mutexes := s.mutexes.insert (syntheticMutexHandleBase + id) mutex
            nextMutexId := if id = maximumId then 0 else id + 1 })

/-- `CreateMutex`. -/
def createMutex (attributeHandle : ℕ) (staticType : ℤ) (s : PthreadService) :
    PthreadCreateResult × PthreadService :=
  s.createMutexLocked attributeHandle staticType none

/-- Some mutex has a guest object. -/
def hasGuestMutex : Bool := s.mutexes.toList.any fun entry => entry.2.guestObjectSlot.isSome

variable (memory : ArenaMemory)

/-- `ConfigureGuestMutexArena`. -/
def configureGuestMutexArena (address : ℕ) (s : PthreadService) : Bool × PthreadService :=
  if s.guestMutexArena.isSome ∨ s.hasGuestMutex ∨ s.rwlocks.isEmpty = false ∨ address = 0 ∨
      uint64Max - pthreadMutexArenaSize < address ∨ memory.canAccess = false ∨
      memory.fill address = false then (false, s)
  else (true, { s with guestMutexArena := some address, guestMutexSlots := ∅ })

/-- `ReleaseGuestMutexArena`. -/
def releaseGuestMutexArena : Bool × PthreadService :=
  if s.guestMutexArena = none ∨ s.hasGuestMutex ∨ s.rwlocks.isEmpty = false then (false, s)
  else (true, { s with guestMutexArena := none, guestMutexSlots := ∅ })

/-- The loop of `CreateGuestMutex` over the slots of the arena. -/
def createGuestMutexIn (memory : ArenaMemory) (attributeHandle : ℕ) (staticType : ℤ) (arena : ℕ) :
    List ℕ → PthreadService → PthreadCreateResult × PthreadService
  | [], s => ({ status := .kNoResources }, s)
  | slot :: slots, s =>
    let slotOffset := slot * pthreadMutexObjectSize
    let objectAddress := arena + slotOffset
    if slot ∈ s.guestMutexSlots then
      createGuestMutexIn memory attributeHandle staticType arena slots s
    else if uint64Max - slotOffset < arena then ({ status := .kNoResources }, s)
    else if s.mutexes[objectAddress]?.isSome then
      createGuestMutexIn memory attributeHandle staticType arena slots s
    else if memory.fill objectAddress = false then ({ status := .kNoResources }, s)
    else match s.createMutexLocked attributeHandle staticType (some slot) with
      | (created, s) =>
        if created.status ≠ .kOk then (created, s)
        else if s.mutexes[created.handle]? = none then ({ status := .kNoResources }, s)
        else if memory.write (objectAddress + pthreadMutexObjectTypeOffset) = false ∨
            memory.write (objectAddress + pthreadMutexObjectProtocolOffset) = false then
          ({ status := .kNoResources }, { s with mutexes := s.mutexes.erase created.handle })
        else
          ({ handle := objectAddress }, { s with guestMutexSlots := insert slot s.guestMutexSlots })

/-- `CreateGuestMutex`. -/
def createGuestMutex (attributeHandle : ℕ) (staticType : ℤ) (s : PthreadService) :
    PthreadCreateResult × PthreadService := match s.guestMutexArena with
  | none => ({ status := .kNoResources }, s)
  | some arena =>
    if staticType ≠ 0 ∧ isMutexTypeValid staticType = false then
      ({ status := .kInvalidArgument }, s)
    else
      s.createGuestMutexIn memory attributeHandle staticType arena
        (List.range pthreadMutexArenaSlotCount)

/-- `DestroyMutex`. -/
def destroyMutex (handle : ℕ) (s : PthreadService) : KernelStatus × PthreadService :=
  if handle = 0 then (.kInvalidArgument, s)
  else match s.mutexes[handle]? with
    | none => (.kNotFound, s)
    | some mutex =>
      if mutex.busy then (.kBusy, s)
      else match mutex.guestObjectSlot with
        | none => (.kOk, { s with mutexes := s.mutexes.erase handle })
        | some slot =>
          let arena := s.guestMutexArena.getD 0
          let slotOffset := slot * pthreadMutexObjectSize
          if pthreadMutexArenaSlotCount ≤ slot ∨ uint64Max - slotOffset < arena then
            (.kNoResources, s)
          else if s.guestMutexArena = none ∨ memory.fill (arena + slotOffset) = false then
            (.kNoResources, s)
          else
            (.kOk, { s with
              guestMutexSlots := s.guestMutexSlots.erase slot
              mutexes := s.mutexes.erase handle })

/-- A mutex is changed in its place. -/
def putMutex (handle : ℕ) (mutex : MutexState) (s : PthreadService) : PthreadService :=
  { s with mutexes := s.mutexes.insert handle mutex }

/-- `LockMutex`. -/
def lockMutex (handle : ℕ) (tryOnly : Bool) (s : PthreadService) : KernelStatus × PthreadService :=
  match s.scheduler.currentThread with
  | none => (.kBusy, s)
  | some current => match s.mutexes[handle]? with
    | none => (.kNotFound, s)
    | some mutex => match mutex.lock current tryOnly with
      | (some status, mutex) => (status, s.putMutex handle mutex)
      | (none, mutex) => match s.scheduler.blockCurrent (mutexWaitKey handle current) with
        | (true, scheduler) => (.kWouldBlock, { s.putMutex handle mutex with scheduler })
        | (false, scheduler) =>
          let waiters := mutex.waiters.filter (· ≠ current)
          (.kBusy, { s.putMutex handle { mutex with waiters } with scheduler })

/-- `UnlockMutex`. -/
def unlockMutex (handle : ℕ) (s : PthreadService) : KernelStatus × PthreadService :=
  match s.scheduler.currentThread with
  | none => (.kBusy, s)
  | some current => match s.mutexes[handle]? with
    | none => (.kNotFound, s)
    | some mutex =>
      if mutex.owner ≠ current then (.kPermissionDenied, s)
      else if mutex.recursionCount = 0 then (.kInvalidArgument, s)
      else if mutex.recursionCount - 1 ≠ 0 then
        (.kOk, s.putMutex handle { mutex with recursionCount := mutex.recursionCount - 1 })
      else
        let (wakeKey, mutex) := mutex.leave handle current
        (.kOk, (s.putMutex handle mutex).wakeBlockedThreads clock wakeKey.toList)

end PthreadService

/-! ## Reader-writer locks -/

namespace RwlockState

/-- Nobody holds the lock. -/
def free (r : RwlockState) : Bool := r.writer = invalidKernelHandle ∧ r.readers.isEmpty

/-- The locked part of `LockRwlock`: the answer, or none if the thread has to wait. -/
def lock (current : ℕ) (write tryOnly : Bool) (r : RwlockState) :
    Option KernelStatus × RwlockState :=
  if write = true ∧ r.writer = current ∧ r.grantedWriter = some current then
    (some .kOk, { r with grantedWriter := none })
  else if write = false ∧ current ∈ r.grantedReaders then
    (some .kOk, { r with grantedReaders := r.grantedReaders.erase current })
  else if write = true ∧ (r.writer = current ∨ r.readers[current]?.isSome) then
    (some .kInvalidArgument, r)
  else match if write then none else r.readers[current]? with
    | some count =>
      if count = uint32Max then (some .kNoResources, r)
      else (some .kOk, { r with readers := r.readers.insert current (count + 1) })
    | none =>
      if write = false ∧ r.writer = current then (some .kInvalidArgument, r)
      else if r.free ∧ r.waiters = [] then
        (some .kOk, if write then { r with writer := current }
          else { r with readers := r.readers.insertIfNew current 1 })
      else if tryOnly then (some .kBusy, r)
      else if r.waiters.any (·.thread = current) then (none, r)
      else (none, { r with waiters := r.waiters ++ [{ thread := current, write }] })

/-- The loop of `GrantRwlockWaitersLocked`: the readers at the front get the lock. -/
def grantReaders (rwlockHandle : ℕ) : List RwlockWaiter → RwlockState → List String × RwlockState
  | [], r => ([], { r with waiters := [] })
  | waiter :: waiters, r =>
    if waiter.write then ([], { r with waiters := waiter :: waiters })
    else
      let (wakeKeys, r) := grantReaders rwlockHandle waiters { r with
        readers := r.readers.insertIfNew waiter.thread 1
        grantedReaders := insert waiter.thread r.grantedReaders }
      (rwlockWaitKey rwlockHandle waiter.thread :: wakeKeys, r)

/-- `GrantRwlockWaitersLocked`. -/
def grantRwlockWaitersLocked (rwlockHandle : ℕ) (r : RwlockState) : List String × RwlockState :=
  if r.free = false then ([], r)
  else match r.waiters with
    | [] => ([], r)
    | waiter :: waiters =>
      if waiter.write then
        ([rwlockWaitKey rwlockHandle waiter.thread], { r with
          writer := waiter.thread
          waiters
          grantedWriter := some waiter.thread })
      else grantReaders rwlockHandle r.waiters r

/-- The thread gives up the lock once, as in `UnlockRwlock`; none if it does not hold it. -/
def unlock (current : ℕ) (r : RwlockState) : Option RwlockState :=
  if r.writer = current then some { r with writer := invalidKernelHandle }
  else match r.readers[current]? with
    | none => none
    | some count =>
      -- the counter wraps like the unsigned one of the source
      let left := (count + uint32Max) % (uint32Max + 1)
      some { r with
        readers := if left = 0 then r.readers.erase current else r.readers.insert current left }

/-- What `ExitCurrent` does to one lock. -/
def leave (rwlockHandle current : ℕ) (r : RwlockState) : List String × RwlockState :=
  let wrote : Bool := r.writer = current
  let r := if wrote then { r with writer := invalidKernelHandle, grantedWriter := none } else r
  let read := r.readers[current]?.isSome
  let r := if read then
    { r with
      readers := r.readers.erase current
      grantedReaders := r.grantedReaders.erase current } else r
  let r := { r with waiters := r.waiters.filter (·.thread ≠ current) }
  if (wrote ∨ read) ∧ r.free then r.grantRwlockWaitersLocked rwlockHandle else ([], r)

/-- The lock is in use, as `CanDestroyRwlock` and `DestroyRwlock` check it. -/
def busy (r : RwlockState) : Bool :=
  r.free = false ∨ r.waiters ≠ [] ∨ r.grantedReaders ≠ ∅ ∨ r.grantedWriter ≠ none

end RwlockState

namespace PthreadService

variable (clock : SteadyClock)

/-- The loop of `CreateGuestRwlock` over the slots of the arena. -/
def createGuestRwlockIn (memory : ArenaMemory) (arena : ℕ) :
    List ℕ → PthreadService → PthreadCreateResult × PthreadService
  | [], s => ({ status := .kNoResources }, s)
  | slot :: slots, s =>
    let offset := slot * pthreadMutexObjectSize
    let handle := arena + offset
    if slot ∈ s.guestMutexSlots then createGuestRwlockIn memory arena slots s
    else if uint64Max - offset < arena then ({ status := .kNoResources }, s)
    else if s.mutexes[handle]?.isSome ∨ s.rwlocks[handle]?.isSome ∨
        memory.fill handle = false then createGuestRwlockIn memory arena slots s
    else
      ({ handle }, { s with
        rwlocks := s.rwlocks.insert handle { guestObjectSlot := slot }
        guestMutexSlots := insert slot s.guestMutexSlots })

/-- `CreateGuestRwlock`. -/
def createGuestRwlock (memory : ArenaMemory) (s : PthreadService) :
    PthreadCreateResult × PthreadService := match s.guestMutexArena with
  | none => ({ status := .kNoResources }, s)
  | some arena => s.createGuestRwlockIn memory arena (List.range pthreadMutexArenaSlotCount)

/-- `DestroyRwlock`. -/
def destroyRwlock (memory : ArenaMemory) (handle : ℕ) (s : PthreadService) :
    KernelStatus × PthreadService := match s.rwlocks[handle]? with
  | none => (.kNotFound, s)
  | some rwlock =>
    if rwlock.busy then (.kBusy, s)
    else if pthreadMutexArenaSlotCount ≤ rwlock.guestObjectSlot ∨ s.guestMutexArena = none ∨
        memory.fill handle = false then (.kNoResources, s)
    else
      (.kOk, { s with
        guestMutexSlots := s.guestMutexSlots.erase rwlock.guestObjectSlot
        rwlocks := s.rwlocks.erase handle })

/-- A lock is changed in its place. -/
def putRwlock (handle : ℕ) (rwlock : RwlockState) (s : PthreadService) : PthreadService :=
  { s with rwlocks := s.rwlocks.insert handle rwlock }

/-- `LockRwlock`. -/
def lockRwlock (handle : ℕ) (write tryOnly : Bool) (s : PthreadService) :
    KernelStatus × PthreadService := match s.scheduler.currentThread with
  | none => (.kBusy, s)
  | some current => match s.rwlocks[handle]? with
    | none => (.kNotFound, s)
    | some rwlock => match rwlock.lock current write tryOnly with
      | (some status, rwlock) => (status, s.putRwlock handle rwlock)
      | (none, rwlock) => match s.scheduler.blockCurrent (rwlockWaitKey handle current) with
        | (true, scheduler) => (.kWouldBlock, { s.putRwlock handle rwlock with scheduler })
        | (false, scheduler) =>
          let waiters := rwlock.waiters.filter (·.thread ≠ current)
          (.kBusy, { s.putRwlock handle { rwlock with waiters } with scheduler })

/-- `UnlockRwlock`. -/
def unlockRwlock (handle : ℕ) (s : PthreadService) : KernelStatus × PthreadService :=
  match s.scheduler.currentThread with
  | none => (.kBusy, s)
  | some current => match s.rwlocks[handle]? with
    | none => (.kNotFound, s)
    | some rwlock => match rwlock.unlock current with
      | none => (.kPermissionDenied, s)
      | some rwlock =>
        let (wakeKeys, rwlock) :=
          if rwlock.free then rwlock.grantRwlockWaitersLocked handle else ([], rwlock)
        (.kOk, (s.putRwlock handle rwlock).wakeBlockedThreads clock wakeKeys)

/-! ## Condition variables -/

/-- `CreateCondition`. -/
def createCondition (s : PthreadService) : PthreadCreateResult × PthreadService :=
  if s.nextConditionId = 0 ∨ uint64Max - syntheticConditionHandleBase < s.nextConditionId then
    ({ status := .kNoResources }, s)
  else
    let handle := syntheticConditionHandleBase + s.nextConditionId
    ({ handle }, { s with
      nextConditionId := s.nextConditionId + 1
      conditions := s.conditions.insertIfNew handle {} })

/-- `DestroyCondition`. -/
def destroyCondition (handle : ℕ) (s : PthreadService) : KernelStatus × PthreadService :=
  if handle = 0 then (.kInvalidArgument, s)
  else match s.conditions[handle]? with
    | none => (.kNotFound, s)
    | some condition =>
      if condition.activeWaiterCount ≠ 0 ∨ condition.waiters ≠ [] then (.kBusy, s)
      else (.kOk, { s with conditions := s.conditions.erase handle })

/-- The end of `WaitConditionInternal` once the mutex is locked again. -/
def finishConditionWait (conditionHandle mutexHandle current : ℕ) (s : PthreadService) :
    KernelStatus × PthreadService :=
  match s.completedConditionWaits[current]?, s.conditions[conditionHandle]?,
      s.mutexes[mutexHandle]? with
  | some completed, some condition, some mutex =>
    if condition.activeWaiterCount = 0 ∨ mutex.conditionWaiterCount = 0 then (.kInvalidArgument, s)
    else
      (if completed.timedOut then .kTimedOut else .kOk, { s with
        conditions := s.conditions.insert conditionHandle
          { condition with activeWaiterCount := condition.activeWaiterCount - 1 }
        mutexes := s.mutexes.insert mutexHandle
          { mutex with conditionWaiterCount := mutex.conditionWaiterCount - 1 }
        completedConditionWaits := s.completedConditionWaits.erase current })
  | _, _, _ => (.kInvalidArgument, s)

/-- The part of `WaitConditionInternal` for a wait that is completed: the mutex is locked again
first. -/
def completeConditionWait (conditionHandle mutexHandle current : ℕ) (s : PthreadService) :
    KernelStatus × PthreadService := match s.lockMutex mutexHandle false with
  | (.kOk, s) => s.finishConditionWait conditionHandle mutexHandle current
  | (status, s) => (status, s)

/-- The part of `WaitConditionInternal` for a thread that its deadline woke: its entry is found,
checked and completed. The answer is none if the wait goes on with the mutex. -/
def expireConditionWait (conditionHandle mutexHandle current : ℕ) (s : PthreadService) :
    Option KernelStatus × PthreadService := match s.conditions[conditionHandle]? with
  | none => (some .kNotFound, s)
  | some condition =>
    let isWaiter (waiter : ConditionWaiter) : Bool :=
      waiter.thread = current ∧ waiter.mutexHandle = mutexHandle
    match condition.waiters.find? isWaiter with
    | none => (some .kInvalidArgument, s)
    | some waiter => match waiter.deadlineNanoseconds with
      | none => (some .kInvalidArgument, s)
      | some deadline =>
        let (now, s) := s.monotonicNanoseconds clock
        if now < deadline then (some .kInvalidArgument, s)
        else
          (none, { s with
            completedConditionWaits :=
              s.completedConditionWaits.insert current { waiter with timedOut := true }
            conditions := s.conditions.insert conditionHandle
              { condition with waiters := condition.waiters.eraseP isWaiter } })

/-- A wait that could not be started is taken back. -/
def abandonConditionWait (conditionHandle mutexHandle current : ℕ) (s : PthreadService) :
    PthreadService :=
  { s with
    conditions := s.conditions.alter conditionHandle fun found => found.map fun condition =>
      { condition with
        waiters := condition.waiters.filter (·.thread ≠ current)
        activeWaiterCount := condition.activeWaiterCount - 1 }
    mutexes := s.mutexes.alter mutexHandle fun found => found.map fun mutex =>
      { mutex with conditionWaiterCount := mutex.conditionWaiterCount - 1 } }

/-- The part of `WaitConditionInternal` that starts a wait: the thread is queued, unlocks the
mutex and blocks. -/
def beginConditionWait (conditionHandle mutexHandle : ℕ) (deadline : Option ℕ) (current : ℕ)
    (s : PthreadService) : KernelStatus × PthreadService :=
  match s.conditions[conditionHandle]?, s.mutexes[mutexHandle]? with
  | some condition, some mutex =>
    if mutex.owner ≠ current then (.kPermissionDenied, s)
    else if mutex.recursionCount ≠ 1 then (.kInvalidArgument, s)
    else
      let waiter : ConditionWaiter :=
        { thread := current, conditionHandle, mutexHandle, deadlineNanoseconds := deadline }
      let queued := { s with
        conditions := s.conditions.insert conditionHandle
          { waiters := condition.waiters ++ [waiter]
            activeWaiterCount := condition.activeWaiterCount + 1 }
        mutexes := s.mutexes.insert mutexHandle
          { mutex with conditionWaiterCount := mutex.conditionWaiterCount + 1 } }
      match queued.unlockMutex clock mutexHandle with
      | (.kOk, s) =>
        match s.scheduler.blockCurrentLocked (conditionWaitKey conditionHandle current)
            deadline with
        | (true, scheduler) => (.kWouldBlock, { s with scheduler })
        | (false, scheduler) =>
          let s := { s with scheduler }
          match (s.abandonConditionWait conditionHandle mutexHandle current).lockMutex
              mutexHandle false with
          | (.kOk, s) => (.kBusy, s)
          | (status, s) => (status, s)
      | (status, s) => (status, s.abandonConditionWait conditionHandle mutexHandle current)
  | _, _ => (.kNotFound, s)

/-- `WaitConditionInternal`. -/
def waitConditionInternal (conditionHandle mutexHandle : ℕ) (deadline : Option ℕ)
    (s : PthreadService) : KernelStatus × PthreadService := match s.scheduler.currentThread with
  | none => (.kBusy, s)
  | some current =>
    let (timeoutWakeup, scheduler) :=
      s.scheduler.consumeCurrentThreadTimeout (conditionWaitKey conditionHandle current)
    let s := { s with scheduler }
    match s.completedConditionWaits[current]? with
    | some completed =>
      if completed.conditionHandle ≠ conditionHandle ∨ completed.mutexHandle ≠ mutexHandle then
        (.kInvalidArgument, s)
      else s.completeConditionWait conditionHandle mutexHandle current
    | none =>
      if timeoutWakeup then
        match s.expireConditionWait clock conditionHandle mutexHandle current with
        | (some status, s) => (status, s)
        | (none, s) => s.completeConditionWait conditionHandle mutexHandle current
      else s.beginConditionWait clock conditionHandle mutexHandle deadline current

/-- `WaitCondition`. -/
def waitCondition (conditionHandle mutexHandle : ℕ) (s : PthreadService) :
    KernelStatus × PthreadService :=
  s.waitConditionInternal clock conditionHandle mutexHandle none

/-- `WaitConditionFor`. -/
def waitConditionFor (conditionHandle mutexHandle timeoutMicroseconds : ℕ) (s : PthreadService) :
    KernelStatus × PthreadService :=
  let (now, s) := s.monotonicNanoseconds clock
  let remaining :=
    if uint64Max / 1000 < timeoutMicroseconds then uint64Max else timeoutMicroseconds * 1000
  let deadline := if uint64Max - now < remaining then uint64Max else now + remaining
  s.waitConditionInternal clock conditionHandle mutexHandle (some deadline)

/-- The nanoseconds from one time to a later one, as `RealtimeDeadlineToMonotonic` computes
them. -/
def remainingNanoseconds (now deadline : KernelTimespec) : ℕ :=
  let secondsDelta :=
    if 0 ≤ now.seconds then (deadline.seconds - now.seconds).toNat
    else
      let negativeNow := (-(now.seconds + 1)).toNat + 1
      if uint64Max - negativeNow < deadline.seconds.toNat then uint64Max
      else deadline.seconds.toNat + negativeNow
  let (secondsDelta, nanosecondsDelta) :=
    if deadline.nanoseconds < now.nanoseconds then
      (secondsDelta - 1, nanosecondsPerSecond - (now.nanoseconds - deadline.nanoseconds).toNat)
    else (secondsDelta, (deadline.nanoseconds - now.nanoseconds).toNat)
  if secondsDelta ≤ uint64Max / nanosecondsPerSecond then
    let remaining := secondsDelta * nanosecondsPerSecond
    if uint64Max - remaining < nanosecondsDelta then uint64Max else remaining + nanosecondsDelta
  else uint64Max

/-- `RealtimeDeadlineToMonotonic`. -/
def realtimeDeadlineToMonotonic (deadline : KernelTimespec) (s : PthreadService) :
    Option ℕ × PthreadService :=
  if deadline.seconds < 0 ∨ deadline.nanoseconds < 0 ∨
      (nanosecondsPerSecond : ℤ) ≤ deadline.nanoseconds then (none, s)
  else
    let now := KernelTimespec.ofNanoseconds (clock.realtimeNanoseconds s.reads)
    let (monotonicNow, s) := s.monotonicNanoseconds clock
    if deadline.seconds < now.seconds ∨
        deadline.seconds = now.seconds ∧ deadline.nanoseconds ≤ now.nanoseconds then
      (some monotonicNow, s)
    else
      let remaining := remainingNanoseconds now deadline
      (some (if uint64Max - monotonicNow < remaining then uint64Max
        else monotonicNow + remaining), s)

/-- `WaitConditionUntilRealtime`. -/
def waitConditionUntilRealtime (conditionHandle mutexHandle : ℕ) (deadline : KernelTimespec)
    (s : PthreadService) : KernelStatus × PthreadService :=
  match s.realtimeDeadlineToMonotonic clock deadline with
  | (none, s) => (.kInvalidArgument, s)
  | (some monotonicDeadline, s) =>
    s.waitConditionInternal clock conditionHandle mutexHandle (some monotonicDeadline)

/-- The loop of `SignalCondition`: the waiters that stay, the completed waits and the keys to
wake. -/
def signalWaiters (handle now : ℕ) (broadcast : Bool) :
    List ConditionWaiter → Std.ExtTreeMap ℕ ConditionWaiter →
      List ConditionWaiter × Std.ExtTreeMap ℕ ConditionWaiter × List String
  | [], completed => ([], completed, [])
  | waiter :: waiters, completed =>
    let wakeKey := conditionWaitKey handle waiter.thread
    if waiter.deadlineNanoseconds.any (· ≤ now) then
      let (left, completed, wakeKeys) := signalWaiters handle now broadcast waiters
        (completed.insert waiter.thread { waiter with timedOut := true })
      (left, completed, wakeKey :: wakeKeys)
    else if broadcast then
      let (left, completed, wakeKeys) := signalWaiters handle now broadcast waiters
        (completed.insert waiter.thread waiter)
      (left, completed, wakeKey :: wakeKeys)
    else (waiters, completed.insert waiter.thread waiter, [wakeKey])

/-- `SignalCondition`. -/
def signalCondition (handle : ℕ) (broadcast : Bool) (s : PthreadService) :
    KernelStatus × PthreadService := match s.conditions[handle]? with
  | none => (.kNotFound, s)
  | some condition =>
    let (now, s) := s.monotonicNanoseconds clock
    let (waiters, completedConditionWaits, wakeKeys) :=
      signalWaiters handle now broadcast condition.waiters s.completedConditionWaits
    let s := { s with
      conditions := s.conditions.insert handle { condition with waiters }
      completedConditionWaits }
    (.kOk, s.wakeBlockedThreads clock wakeKeys)

/-! ## Threads -/

/-- `CreateThread`. The priority is that of the thread's attributes. -/
def createThread (name : String) (priority : ℤ) (entryAddress argument : ℕ)
    (s : PthreadService) : GuestThreadCreateResult × PthreadService :=
  if entryAddress = 0 then ({ status := .kInvalidArgument }, s)
  else
    let (created, scheduler) := s.scheduler.createThread name priority entryAddress argument
    (created, { s with scheduler })

/-- `DiscardReadyThread`. -/
def discardReadyThread (handle : ℕ) (s : PthreadService) : Bool × PthreadService :=
  let (discarded, scheduler) := s.scheduler.discardReadyThread handle
  (discarded, { s with scheduler })

/-- `JoinThread`. -/
def joinThread (handle : ℕ) (s : PthreadService) : GuestThreadJoinResult × PthreadService :=
  let (joined, scheduler) := s.scheduler.joinThread handle
  (joined, { s with scheduler })

/-- The completed wait of a thread that exits is dropped. -/
def dropCompletedWait (current : ℕ) (s : PthreadService) : PthreadService :=
  match s.completedConditionWaits[current]? with
  | none => s
  | some completed =>
    { s with
      conditions := s.conditions.alter completed.conditionHandle fun found =>
        found.map fun condition =>
          { condition with activeWaiterCount := condition.activeWaiterCount - 1 }
      mutexes := s.mutexes.alter completed.mutexHandle fun found => found.map fun mutex =>
        { mutex with conditionWaiterCount := mutex.conditionWaiterCount - 1 }
      completedConditionWaits := s.completedConditionWaits.erase current }

/-- `ExitCurrent`: the thread leaves the mutexes and the locks it holds, and the keys of the
threads that got one are woken. -/
def exitCurrent (exitValue : ℕ) (s : PthreadService) : Bool × PthreadService :=
  match s.scheduler.currentThread with
  | none => (false, s)
  | some current =>
    let s := s.dropCompletedWait current
    let wakeKeys :=
      s.mutexes.toList.filterMap (fun entry => (entry.2.leaveIfOwned entry.1 current).1) ++
        s.rwlocks.toList.flatMap (fun entry => (entry.2.leave entry.1 current).1)
    let s := { s with
      mutexes := s.mutexes.map fun handle mutex => (MutexState.leaveIfOwned handle current mutex).2
      rwlocks := s.rwlocks.map fun handle rwlock => (RwlockState.leave handle current rwlock).2 }
    let s := s.wakeBlockedThreads clock wakeKeys
    let (exited, scheduler) := s.scheduler.exitCurrent exitValue
    (exited, { s with scheduler })

end PthreadService

end KajPS5.Kernel
