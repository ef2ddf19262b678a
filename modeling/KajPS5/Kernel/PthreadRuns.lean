/-
# Runs of the pthread service

A thread whose call answered that it would block owes that call: it is the next call the
thread makes. The ledger keeps the owed calls and when each thread last started to wait. A run
is any list of steps; a step that would break the rule has no effect. Between the calls of
the pthread service the scheduler selects threads and the other services block and wake threads
under their own keys.
-/

import KajPS5.Kernel.Pthread

namespace KajPS5.Kernel

open Math NumberedNames

/-! ## The wait keys -/

variable {a b c d : ℕ}

theorem mutexWaitKey_inj : mutexWaitKey a b = mutexWaitKey c d ↔ a = c ∧ b = d := pairName_inj

theorem conditionWaitKey_inj :
    conditionWaitKey a b = conditionWaitKey c d ↔ a = c ∧ b = d := pairName_inj

theorem rwlockWaitKey_inj : rwlockWaitKey a b = rwlockWaitKey c d ↔ a = c ∧ b = d := pairName_inj

theorem mutexWaitKey_ne_conditionWaitKey (a b c d : ℕ) : mutexWaitKey a b ≠ conditionWaitKey c d :=
  pairName_ne 8 (by decide) (by decide) (by decide) a b c d

theorem mutexWaitKey_ne_rwlockWaitKey (a b c d : ℕ) : mutexWaitKey a b ≠ rwlockWaitKey c d :=
  pairName_ne 8 (by decide) (by decide) (by decide) a b c d

theorem conditionWaitKey_ne_rwlockWaitKey (a b c d : ℕ) :
    conditionWaitKey a b ≠ rwlockWaitKey c d :=
  pairName_ne 8 (by decide) (by decide) (by decide) a b c d

/-- The key is one of the pthread service. -/
def isPthreadKey (key : String) : Bool := "pthread-".toList.isPrefixOf key.toList

theorem isPthreadKey_pairName {tag : String} (h : "pthread-".toList.isPrefixOf tag.toList = true)
    (a b : ℕ) : isPthreadKey (pairName tag a b) = true := by
  rw [isPthreadKey, List.isPrefixOf_iff_prefix]
  exact (List.isPrefixOf_iff_prefix.mp h).trans (isPrefix_pairName _ a b)

theorem isPthreadKey_mutexWaitKey (a b : ℕ) : isPthreadKey (mutexWaitKey a b) = true :=
  isPthreadKey_pairName rfl a b

theorem isPthreadKey_conditionWaitKey (a b : ℕ) : isPthreadKey (conditionWaitKey a b) = true :=
  isPthreadKey_pairName rfl a b

theorem isPthreadKey_rwlockWaitKey (a b : ℕ) : isPthreadKey (rwlockWaitKey a b) = true :=
  isPthreadKey_pairName rfl a b

theorem isPthreadKey_threadExitWaitKey (handle : ℕ) :
    isPthreadKey (threadExitWaitKey handle) = false := by
  rw [isPthreadKey, threadExitWaitKey, String.toList_append]
  rfl

theorem ne_empty_of_isPthreadKey {key : String} (h : isPthreadKey key = true) : key ≠ "" := by
  rintro rfl
  cases h

/-! ## Calls and owed calls -/

/-- The calls that answer a status. -/
inductive PthreadCall
  | createMutexAttribute
  | destroyMutexAttribute (handle : ℕ)
  | setMutexAttributeType (handle : ℕ) (type : ℤ)
  | setMutexAttributeProtocol (handle : ℕ) (protocol : ℤ)
  | createMutex (attributeHandle : ℕ) (staticType : ℤ)
  | createGuestMutex (attributeHandle : ℕ) (staticType : ℤ)
  | destroyMutex (handle : ℕ)
  | lockMutex (handle : ℕ) (tryOnly : Bool)
  | unlockMutex (handle : ℕ)
  | createGuestRwlock
  | destroyRwlock (handle : ℕ)
  | lockRwlock (handle : ℕ) (write tryOnly : Bool)
  | unlockRwlock (handle : ℕ)
  | createCondition
  | destroyCondition (handle : ℕ)
  | waitCondition (conditionHandle mutexHandle : ℕ)
  | waitConditionFor (conditionHandle mutexHandle timeoutMicroseconds : ℕ)
  | waitConditionUntilRealtime (conditionHandle mutexHandle : ℕ) (deadline : KernelTimespec)
  | signalCondition (handle : ℕ) (broadcast : Bool)
  | createThread (name : String) (priority : ℤ) (entryAddress argument : ℕ)
  | joinThread (handle : ℕ)
  deriving DecidableEq

/-- The answers of the calls that create an object, without the handle. -/
def statusOf {σ : Type} (result : PthreadCreateResult × σ) : KernelStatus × σ :=
  (result.1.status, result.2)

namespace PthreadService

variable (clock : SteadyClock)

/-- One call, with the answers of guest memory. -/
def perform (memory : ArenaMemory) (s : PthreadService) :
    PthreadCall → KernelStatus × PthreadService
  | .createMutexAttribute => statusOf s.createMutexAttribute
  | .destroyMutexAttribute handle => s.destroyMutexAttribute handle
  | .setMutexAttributeType handle type => s.setMutexAttributeType handle type
  | .setMutexAttributeProtocol handle protocol => s.setMutexAttributeProtocol handle protocol
  | .createMutex attributeHandle staticType => statusOf (s.createMutex attributeHandle staticType)
  | .createGuestMutex attributeHandle staticType =>
    statusOf (s.createGuestMutex memory attributeHandle staticType)
  | .destroyMutex handle => s.destroyMutex memory handle
  | .lockMutex handle tryOnly => s.lockMutex handle tryOnly
  | .unlockMutex handle => s.unlockMutex clock handle
  | .createGuestRwlock => statusOf (s.createGuestRwlock memory)
  | .destroyRwlock handle => s.destroyRwlock memory handle
  | .lockRwlock handle write tryOnly => s.lockRwlock handle write tryOnly
  | .unlockRwlock handle => s.unlockRwlock clock handle
  | .createCondition => statusOf s.createCondition
  | .destroyCondition handle => s.destroyCondition handle
  | .waitCondition conditionHandle mutexHandle => s.waitCondition clock conditionHandle mutexHandle
  | .waitConditionFor conditionHandle mutexHandle timeoutMicroseconds =>
    s.waitConditionFor clock conditionHandle mutexHandle timeoutMicroseconds
  | .waitConditionUntilRealtime conditionHandle mutexHandle deadline =>
    s.waitConditionUntilRealtime clock conditionHandle mutexHandle deadline
  | .signalCondition handle broadcast => s.signalCondition clock handle broadcast
  | .createThread name priority entryAddress argument =>
    let (created, s) := s.createThread name priority entryAddress argument
    (created.status, s)
  | .joinThread handle =>
    let (joined, s) := s.joinThread handle
    (joined.status, s)

end PthreadService

/-- The calls that threads owe, and when a thread last started to wait. -/
structure Ledger where
  owed : Std.ExtTreeMap ℕ PthreadCall := ∅
  arrived : ℕ → ℕ := fun _ => 0
  time : ℕ := 1

namespace Ledger

variable (l : Ledger)

/-- The current thread may make the call: it owes no other one. -/
def permits (current : Option ℕ) (call : PthreadCall) : Bool :=
  current.all fun thread => l.owed[thread]? = none ∨ l.owed[thread]? = some call

/-- The current thread owes no call. -/
def settled (current : Option ℕ) : Bool := current.all fun thread => l.owed[thread]? = none

/-- The current thread's call was answered. -/
def record (current : Option ℕ) (call : PthreadCall) (status : KernelStatus) : Ledger :=
  match current with
  | none => l
  | some thread =>
    if status = .kWouldBlock then
      { owed := l.owed.insert thread call
        arrived := Function.update l.arrived thread l.time
        time := l.time + 1 }
    else { l with owed := l.owed.erase thread }

end Ledger

/-! ## Steps -/

structure PthreadSystem where
  service : PthreadService := {}
  ledger : Ledger := {}

inductive PthreadStep
  | call (call : PthreadCall) (memory : ArenaMemory)
  | exitCurrent (exitValue : ℕ)
  | discardReadyThread (handle : ℕ)
  | configureGuestMutexArena (memory : ArenaMemory) (address : ℕ)
  | releaseGuestMutexArena | selectNext | yieldCurrent
  | blockCurrent (waitKey : String) (deadline : Option ℕ)
  | consumeCurrentThreadTimeout (waitKey : String)
  | wakeBlockedThreads (waitKey : String) (maximumCount : ℕ)
  | wakeBlockedThread (handle : ℕ) (waitKey : String)
  | insertObject (type : KernelObjectType)
  | removeObject (handle : ℕ) (type : KernelObjectType)

namespace PthreadSystem

variable (clock : SteadyClock)

variable (y : PthreadSystem)

/-- The thread that runs. -/
def current : Option ℕ := y.service.scheduler.currentThread

/-- The scheduler is called by itself or by another service, which may read the clock. -/
def schedulerCall (call : ℕ → SchedulerCall) (y : PthreadSystem) : PthreadSystem :=
  let now := clock.monotonicNanoseconds y.service.reads
  { y with service := { y.service with
      scheduler := y.service.scheduler.step (call now)
      reads := y.service.reads + 1 } }

/-- The step respects the owed calls, and another service uses no key of this one. A thread is
discarded only if it owes no call: the source takes back threads it has just created. -/
def allowed : PthreadStep → Bool
  | .call call _ => y.ledger.permits y.current call
  | .exitCurrent _ | .yieldCurrent => y.ledger.settled y.current
  | .discardReadyThread handle => y.ledger.settled (some handle)
  | .blockCurrent waitKey _ | .consumeCurrentThreadTimeout waitKey =>
    y.ledger.settled y.current ∧ isPthreadKey waitKey = false
  | .wakeBlockedThreads waitKey _ | .wakeBlockedThread _ waitKey => isPthreadKey waitKey = false
  | .configureGuestMutexArena _ _ | .releaseGuestMutexArena | .selectNext | .insertObject _
  | .removeObject _ _ => true

/-- What the step does. -/
def effect : PthreadStep → PthreadSystem
  | .call call memory =>
    let (status, service) := y.service.perform clock memory call
    { service, ledger := y.ledger.record y.current call status }
  | .exitCurrent exitValue => { y with service := (y.service.exitCurrent clock exitValue).2 }
  | .discardReadyThread handle => { y with service := (y.service.discardReadyThread handle).2 }
  | .configureGuestMutexArena memory address =>
    { y with service := (y.service.configureGuestMutexArena memory address).2 }
  | .releaseGuestMutexArena => { y with service := y.service.releaseGuestMutexArena.2 }
  | .selectNext => y.schedulerCall clock .selectNext
  | .yieldCurrent => y.schedulerCall clock fun _ => .yieldCurrent
  | .blockCurrent waitKey none => y.schedulerCall clock fun _ => .blockCurrent waitKey
  | .blockCurrent waitKey (some deadline) =>
    y.schedulerCall clock fun _ => .blockCurrentUntil waitKey deadline
  | .consumeCurrentThreadTimeout waitKey =>
    y.schedulerCall clock fun _ => .consumeCurrentThreadTimeout waitKey
  | .wakeBlockedThreads waitKey maximumCount =>
    y.schedulerCall clock (.wakeBlockedThreads waitKey maximumCount)
  | .wakeBlockedThread handle waitKey => y.schedulerCall clock (.wakeBlockedThread handle waitKey)
  | .insertObject type => y.schedulerCall clock fun _ => .insertObject type
  | .removeObject handle type => y.schedulerCall clock fun _ => .removeObject handle type

def step (step : PthreadStep) : PthreadSystem := if y.allowed step then y.effect clock step else y

def run (steps : List PthreadStep) : PthreadSystem :=
  StepRuns.run (fun y step => y.step clock step) y steps

end PthreadSystem

end KajPS5.Kernel
