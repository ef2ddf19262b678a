/-
# Event queues

A queue holds registrations and pending events. A registration has a generation; an event
carries the generation of the registration it was triggered for, and it is current while that
registration lives. A level event stays pending when it is polled, an edge event does not.

The service keeps the queues and the threads that wait for them. A trigger reserves pending
events for waiting threads and wakes them; the thread's repeated wait finds its reservation.
Whether the host could store a new entry is an argument of the calls that handle a failed
allocation. The readings of the monotonic clock are numbered.
-/

import KajPS5.Kernel.SchedulerWaits
import KajPS5.Math.FirstMatches
import KajPS5.Math.NumberedNames

namespace KajPS5.Kernel

open Math

def maximumEventQueueNameLength : ℕ := 31

def eventFilterGraphics : ℤ := -14

def eventFilterVideoOut : ℤ := -13

def eventFilterUser : ℤ := -11

def eventAdd : ℕ := 0x01

def eventClear : ℕ := 0x20

structure KernelEvent where
  ident : ℕ := 0
  filter : ℤ := 0
  (flags fflags data userData : ℕ := 0)
  deriving DecidableEq, Repr

structure RegisteredKernelEvent where
  event : KernelEvent
  registrationGeneration : ℕ := 0
  persistent : Bool := false
  deriving DecidableEq, Repr

structure EventRegistrationResult where
  status : KernelStatus := .kOk
  generation : ℕ := 0
  deriving DecidableEq, Repr

structure EventRegistration where
  ident : ℕ := 0
  filter : ℤ := 0
  (flags userData generation : ℕ := 0)
  deriving DecidableEq, Repr

/-- The registration is that of the event with this number and filter. -/
def EventRegistration.isFor (ident : ℕ) (filter : ℤ) (registration : EventRegistration) : Bool :=
  registration.ident = ident ∧ registration.filter = filter

namespace RegisteredKernelEvent

/-- The event has this number and filter. -/
def isFor (ident : ℕ) (filter : ℤ) (queued : RegisteredKernelEvent) : Bool :=
  queued.event.ident = ident ∧ queued.event.filter = filter

/-- The event was triggered for the registration. -/
def isOf (registration : EventRegistration) (queued : RegisteredKernelEvent) : Bool :=
  queued.isFor registration.ident registration.filter ∧
    queued.registrationGeneration = registration.generation

end RegisteredKernelEvent

structure EventQueue where
  name : String := ""
  registrations : List EventRegistration := []
  pendingEvents : List RegisteredKernelEvent := []
  nextGeneration : ℕ := 1
  generationExhausted : Bool := false
  deriving DecidableEq, Repr

namespace EventQueue

/-! ## One queue -/

/-- The registration of an event. -/
def findRegistration (ident : ℕ) (filter : ℤ) (q : EventQueue) : Option EventRegistration :=
  q.registrations.find? (·.isFor ident filter)

/-- The next generation is used up. -/
def advanceGeneration (q : EventQueue) : EventQueue :=
  if q.nextGeneration = 2 ^ 64 - 1 then { q with generationExhausted := true }
  else { q with nextGeneration := q.nextGeneration + 1 }

/-- The pending events of one number and filter go. -/
def erasePending (ident : ℕ) (filter : ℤ) (q : EventQueue) : EventQueue :=
  { q with pendingEvents := q.pendingEvents.filter fun queued => !queued.isFor ident filter }

/-- `RegisterEvent`. -/
def registerEvent (ident : ℕ) (filter : ℤ) (flags userData : ℕ) (stored : Bool)
    (q : EventQueue) : EventRegistrationResult × EventQueue :=
  let found := q.findRegistration ident filter
  if found.any fun registered => registered.flags = flags ∧ registered.userData = userData then
    ({ generation := found.elim 0 (·.generation) }, q)
  else if q.generationExhausted then ({ status := .kNoResources }, q)
  else
    let generation := q.nextGeneration
    let q := q.advanceGeneration
    if found.isSome then
      let registrations := FirstMatches.replaceFirst (·.isFor ident filter)
        (fun registered => { registered with flags, userData, generation }) q.registrations
      ({ generation }, { q with registrations }.erasePending ident filter)
    else if stored then
      let registrations := q.registrations ++ [⟨ident, filter, flags, userData, generation⟩]
      ({ generation }, { q with registrations }.erasePending ident filter)
    else ({ status := .kNoResources }, q)

/-- `DeleteEvent`. -/
def deleteEvent (ident : ℕ) (filter : ℤ) (q : EventQueue) : KernelStatus × EventQueue :=
  match q.findRegistration ident filter with
  | none => (.kNoSuchEntry, q)
  | some _ =>
    let registrations := q.registrations.eraseP (·.isFor ident filter)
    (.kOk, { q with registrations }.erasePending ident filter)

/-- `AddUserEvent`. -/
def addUserEvent (ident : ℕ) (edge stored : Bool) (q : EventQueue) : KernelStatus × EventQueue :=
  let flags := if edge then eventAdd ||| eventClear else eventAdd
  let (result, q) := q.registerEvent ident eventFilterUser flags 0 stored
  (result.status, q)

/-- `DeleteUserEvent`. -/
def deleteUserEvent (ident : ℕ) (q : EventQueue) : KernelStatus × EventQueue :=
  q.deleteEvent ident eventFilterUser

/-- The pending event of the registration is updated, or a new one is appended. -/
def putPending (registered : EventRegistration)
    (update : RegisteredKernelEvent → RegisteredKernelEvent) (fresh : RegisteredKernelEvent)
    (q : EventQueue) : EventQueue :=
  if q.pendingEvents.any (·.isOf registered) then
    { q with pendingEvents := FirstMatches.replaceFirst (·.isOf registered) update q.pendingEvents }
  else { q with pendingEvents := q.pendingEvents ++ [fresh] }

/-- `TriggerUserEvent`. A pending event keeps whether it is a level event. -/
def triggerUserEvent (ident userData : ℕ) (q : EventQueue) : KernelStatus × EventQueue :=
  match q.findRegistration ident eventFilterUser with
  | none => (.kNoSuchEntry, q)
  | some registered =>
    let event : KernelEvent := {
      ident := registered.ident, filter := registered.filter, flags := registered.flags,
      fflags := 0, data := 0, userData }
    (.kOk, q.putPending registered (fun queued => { queued with event }) {
      event, registrationGeneration := registered.generation,
      persistent := registered.flags &&& eventClear = 0 })

/-- `TriggerFirstByFilter`. -/
def triggerFirstByFilter (filter : ℤ) (data : ℕ) (q : EventQueue) : Bool × EventQueue :=
  match q.registrations.find? fun registered => registered.filter = filter with
  | none => (false, q)
  | some registered =>
    let event : RegisteredKernelEvent := {
      event := { ident := registered.ident, filter := registered.filter, flags := 0,
                 fflags := 1, data, userData := registered.userData }
      registrationGeneration := registered.generation
      persistent := false }
    (true, q.putPending registered (fun _ => event) event)

/-- `Poll`. The level events are appended again. -/
def poll (maximumCount : ℕ) (q : EventQueue) : List RegisteredKernelEvent × EventQueue :=
  let events := q.pendingEvents.take maximumCount
  let levels := events.filter (·.persistent)
  (events, { q with pendingEvents := q.pendingEvents.drop maximumCount ++ levels })

/-- `IsCurrent`. -/
def isCurrent (event : RegisteredKernelEvent) (q : EventQueue) : Bool :=
  q.registrations.any (event.isOf ·)

/-- `CurrentEvents`. -/
def currentEvents (q : EventQueue) (events : List RegisteredKernelEvent) : List KernelEvent :=
  (events.filter (q.isCurrent ·)).map (·.event)

end EventQueue

/-! ## The service -/

structure EventQueueCreateResult where
  status : KernelStatus := .kOk
  handle : ℕ := invalidKernelHandle
  deriving DecidableEq, Repr

structure EventQueuePollResult where
  status : KernelStatus := .kOk
  events : List KernelEvent := []
  deriving DecidableEq, Repr

inductive WaitCompletion
  | kWaiting | kReserved | kDeleted
  deriving DecidableEq, Repr

structure EventWaiter where
  queueHandle : ℕ := invalidKernelHandle
  maximumCount : ℕ := 0
  deadlineNanoseconds : Option ℕ := none
  completion : WaitCompletion := .kWaiting
  events : List RegisteredKernelEvent := []
  deriving DecidableEq, Repr

/-- The queues are shared between the table of handles and the service; they are kept
here once. -/
structure EventQueueService where
  scheduler : GuestScheduler := {}
  reads : ℕ := 0
  waiters : Std.ExtTreeMap ℕ EventWaiter := ∅
  queues : Std.ExtTreeMap ℕ EventQueue := ∅

/-- `MakeWaitKey`. -/
def eventQueueWaitKey (handle : ℕ) : String := NumberedNames.hexName "event_queue:" handle

namespace EventQueueService

/-- `Find`. -/
def find (handle : ℕ) (s : EventQueueService) : Option EventQueue :=
  if s.scheduler.handles.find handle .kEventQueue then s.queues[handle]? else none

def putQueue (handle : ℕ) (queue : EventQueue) (s : EventQueueService) : EventQueueService :=
  { s with queues := s.queues.insert handle queue }

def putWaiter (thread : ℕ) (waiter : EventWaiter) (s : EventQueueService) : EventQueueService :=
  { s with waiters := s.waiters.insert thread waiter }

def eraseWaiter (thread : ℕ) (s : EventQueueService) : EventQueueService :=
  { s with waiters := s.waiters.erase thread }

/-- `Create`. -/
def create (name : String) (stored : Bool) (s : EventQueueService) :
    EventQueueCreateResult × EventQueueService :=
  if maximumEventQueueNameLength < name.utf8ByteSize then ({ status := .kInvalidArgument }, s)
  else match s.scheduler.handles.insert .kEventQueue with
    | (none, handles) =>
      ({ status := .kNoResources }, { s with scheduler := { s.scheduler with handles } })
    | (some handle, handles) =>
      if stored then
        ({ handle }, { s with scheduler := { s.scheduler with handles } }.putQueue handle
          { name })
      else
        let handles := (handles.remove handle .kEventQueue).2
        ({ status := .kNoResources }, { s with scheduler := { s.scheduler with handles } })

section Clock

variable (clock : ℕ → ℕ)

/-- `WakeBlockedThread` of the scheduler. -/
def wakeBlockedThread (thread : ℕ) (waitKey : String) (s : EventQueueService) :
    EventQueueService :=
  { s with
    scheduler := (s.scheduler.wakeBlockedThread thread waitKey (clock s.reads)).2
    reads := s.reads + 1 }

/-- The loop of `Delete` over the waiting threads. -/
def deleteWaiters (handle : ℕ) : List ℕ → EventQueueService → EventQueueService
  | [], s => s
  | thread :: rest, s => match s.waiters[thread]? with
    | none => deleteWaiters handle rest s
    | some waiter =>
      if waiter.queueHandle ≠ handle then deleteWaiters handle rest s
      else
        let s' := s.putWaiter thread { waiter with completion := .kDeleted, events := [] }
        if waiter.completion = .kWaiting then
          deleteWaiters handle rest (s'.wakeBlockedThread clock thread
            (eventQueueWaitKey handle))
        else deleteWaiters handle rest s'

/-- `Delete`. -/
def delete (handle : ℕ) (s : EventQueueService) : KernelStatus × EventQueueService :=
  match s.scheduler.handles.remove handle .kEventQueue with
  | (false, _) => (.kNotFound, s)
  | (true, handles) =>
    let s := { s with
      scheduler := { s.scheduler with handles }
      queues := s.queues.erase handle }
    (.kOk, s.deleteWaiters clock handle s.waiters.keys)

/-- The deadline of a waiter is reached. The clock is read only if there is a deadline. -/
def deadlineReached (waiter : EventWaiter) (s : EventQueueService) : Bool × EventQueueService :=
  match waiter.deadlineNanoseconds with
  | none => (false, s)
  | some deadline => (deadline ≤ clock s.reads, { s with reads := s.reads + 1 })

/-- The loop of `ReserveWaitingThreadsLocked`. -/
def reserveWaiters (handle : ℕ) : List ℕ → EventQueueService → EventQueueService
  | [], s => s
  | thread :: rest, s => match s.waiters[thread]?, s.queues[handle]? with
    | some waiter, some queue =>
      if waiter.queueHandle ≠ handle ∨ waiter.completion ≠ .kWaiting then
        reserveWaiters handle rest s
      else
        let (reached, s) := s.deadlineReached clock waiter
        if reached then reserveWaiters handle rest s
        else
          let (events, queue) := queue.poll waiter.maximumCount
          let s := s.putQueue handle queue
          if events = [] then s
          else
            let s := s.putWaiter thread { waiter with events, completion := .kReserved }
            reserveWaiters handle rest (s.wakeBlockedThread clock thread
              (eventQueueWaitKey handle))
    | _, _ => reserveWaiters handle rest s

/-- `ReserveWaitingThreadsLocked`. -/
def reserveWaitingThreadsLocked (handle : ℕ) (s : EventQueueService) : EventQueueService :=
  s.reserveWaiters clock handle s.waiters.keys

end Clock

/-! ## Registering -/

/-- A call on one queue that answers a status. -/
def onQueue (handle : ℕ) (call : EventQueue → KernelStatus × EventQueue)
    (s : EventQueueService) : KernelStatus × EventQueueService := match s.find handle with
  | none => (.kNotFound, s)
  | some queue =>
    let (status, queue) := call queue
    (status, s.putQueue handle queue)

/-- `AddUserEvent`. -/
def addUserEvent (handle ident : ℕ) (edge stored : Bool) (s : EventQueueService) :
    KernelStatus × EventQueueService :=
  s.onQueue handle (·.addUserEvent ident edge stored)

/-- `DeleteUserEvent`. -/
def deleteUserEvent (handle ident : ℕ) (s : EventQueueService) :
    KernelStatus × EventQueueService :=
  s.onQueue handle (·.deleteUserEvent ident)

/-- Register an event that is triggered by its filter. -/
def addFilterEvent (filter : ℤ) (handle ident userData : ℕ) (stored : Bool)
    (s : EventQueueService) : KernelStatus × EventQueueService :=
  s.onQueue handle fun queue =>
    let (result, queue) := queue.registerEvent ident filter 0 userData stored
    (result.status, queue)

/-- `AddGraphicsEvent`. -/
def addGraphicsEvent (handle ident userData : ℕ) (stored : Bool) (s : EventQueueService) :
    KernelStatus × EventQueueService :=
  s.addFilterEvent eventFilterGraphics handle ident userData stored

/-- `DeleteGraphicsEvent`. -/
def deleteGraphicsEvent (handle ident : ℕ) (s : EventQueueService) :
    KernelStatus × EventQueueService :=
  s.onQueue handle (·.deleteEvent ident eventFilterGraphics)

/-- `AddVideoOutEvent`. -/
def addVideoOutEvent (handle ident userData : ℕ) (stored : Bool) (s : EventQueueService) :
    KernelStatus × EventQueueService :=
  s.addFilterEvent eventFilterVideoOut handle ident userData stored

/-- `DeleteVideoOutEvent`. -/
def deleteVideoOutEvent (handle ident : ℕ) (s : EventQueueService) :
    KernelStatus × EventQueueService :=
  s.onQueue handle (·.deleteEvent ident eventFilterVideoOut)

/-! ## Triggering, polling and waiting -/

/-- `PollLocked`. -/
def pollLocked (handle maximumCount : ℕ) (s : EventQueueService) :
    EventQueuePollResult × EventQueueService :=
  if maximumCount = 0 then ({ status := .kInvalidArgument }, s)
  else match s.find handle with
    | none => ({ status := .kNotFound }, s)
    | some queue =>
      let (events, queue) := queue.poll maximumCount
      let s := s.putQueue handle queue
      let current := queue.currentEvents events
      if current = [] then ({ status := .kBusy }, s) else ({ events := current }, s)

section Clock

variable (clock : ℕ → ℕ)

/-- `TriggerUserEvent`. -/
def triggerUserEvent (handle ident userData : ℕ) (s : EventQueueService) :
    KernelStatus × EventQueueService := match s.find handle with
  | none => (.kNotFound, s)
  | some queue =>
    let (status, queue) := queue.triggerUserEvent ident userData
    let s := s.putQueue handle queue
    if status = .kOk then (status, s.reserveWaitingThreadsLocked clock handle) else (status, s)

/-- One queue of the triggers by filter. -/
def triggerQueue (filter : ℤ) (data handle : ℕ) (s : EventQueueService) :
    Bool × EventQueueService := match s.queues[handle]? with
  | none => (false, s)
  | some queue =>
    let (triggered, queue) := queue.triggerFirstByFilter filter data
    if triggered then (true, (s.putQueue handle queue).reserveWaitingThreadsLocked clock handle)
    else (false, s)

/-- The loop of the triggers by filter over the queues; the number of queues that have such a
registration is returned. -/
def triggerQueues (filter : ℤ) (data : ℕ) : List ℕ → EventQueueService → ℕ × EventQueueService
  | [], s => (0, s)
  | handle :: rest, s =>
    let (triggered, s) := s.triggerQueue clock filter data handle
    let (count, s) := triggerQueues filter data rest s
    (count + triggered.toNat, s)

/-- `TriggerGraphicsEvents`. -/
def triggerGraphicsEvents (data : ℕ) (s : EventQueueService) : ℕ × EventQueueService :=
  s.triggerQueues clock eventFilterGraphics data s.queues.keys

/-- `TriggerVideoOutEvents`. -/
def triggerVideoOutEvents (data : ℕ) (s : EventQueueService) : ℕ × EventQueueService :=
  s.triggerQueues clock eventFilterVideoOut data s.queues.keys

/-- `BlockCurrentUntil` of the scheduler, or `BlockCurrent` if there is no deadline. -/
def blockCurrent (waitKey : String) (deadline : Option ℕ) (s : EventQueueService) :
    Bool × EventQueueService :=
  let (blocked, scheduler) := match deadline with
    | some deadline => s.scheduler.blockCurrentUntil waitKey deadline
    | none => s.scheduler.blockCurrent waitKey
  (blocked, { s with scheduler })

/-- The rest of a repeated `Wait` that has no reservation: the thread timed out, or it polls, or
it blocks again. -/
def resumeWait (handle thread : ℕ) (waiter : EventWaiter) (s : EventQueueService) :
    EventQueuePollResult × EventQueueService :=
  let waitKey := eventQueueWaitKey handle
  let (timedOut, scheduler) := s.scheduler.consumeCurrentThreadTimeout waitKey
  let s := { s with scheduler }
  if timedOut then ({ status := .kTimedOut }, s.eraseWaiter thread)
  else
    let (result, s) := s.pollLocked handle waiter.maximumCount
    if result.status ≠ .kBusy then (result, s.eraseWaiter thread)
    else
      let (blocked, s) := s.blockCurrent waitKey waiter.deadlineNanoseconds
      if blocked then ({ status := .kWouldBlock }, s) else (result, s)

/-- A repeated `Wait`: the thread has a waiter. -/
def waitAgain (handle thread : ℕ) (waiter : EventWaiter) (s : EventQueueService) :
    EventQueuePollResult × EventQueueService :=
  if waiter.queueHandle ≠ handle then ({ status := .kBusy }, s)
  else match waiter.completion with
    | .kDeleted => ({ status := .kPermissionDenied }, s.eraseWaiter thread)
    | .kReserved => match s.find handle with
      | none => ({ status := .kPermissionDenied }, s.eraseWaiter thread)
      | some queue =>
        let events := queue.currentEvents waiter.events
        if events ≠ [] then ({ events }, s.eraseWaiter thread)
        else
          let waiter := { waiter with completion := .kWaiting, events := [] }
          (s.putWaiter thread waiter).resumeWait handle thread waiter
    | .kWaiting => s.resumeWait handle thread waiter

/-- The deadline of a new wait. -/
def waitDeadline (timeoutMicroseconds : Option ℕ) (s : EventQueueService) :
    Option ℕ × EventQueueService := match timeoutMicroseconds with
  | none => (none, s)
  | some timeout =>
    let maximum := 2 ^ 64 - 1
    let duration := if maximum / 1000 < timeout then maximum else timeout * 1000
    let now := clock s.reads
    (some (if maximum - now < duration then maximum else now + duration),
      { s with reads := s.reads + 1 })

/-- A first `Wait`: it polls, and the current thread becomes a waiter if nothing is there. -/
def waitFirst (handle maximumCount : ℕ) (timeoutMicroseconds : Option ℕ)
    (s : EventQueueService) : EventQueuePollResult × EventQueueService :=
  let (result, s) := s.pollLocked handle maximumCount
  if result.status ≠ .kBusy then (result, s)
  else if timeoutMicroseconds = some 0 then ({ status := .kTimedOut }, s)
  else match s.scheduler.currentThread with
    | none => (result, s)
    | some thread =>
      let (deadline, s) := s.waitDeadline clock timeoutMicroseconds
      let s := s.putWaiter thread {
        queueHandle := handle, maximumCount, deadlineNanoseconds := deadline }
      let (blocked, s) := s.blockCurrent (eventQueueWaitKey handle) deadline
      if blocked then ({ status := .kWouldBlock }, s) else (result, s.eraseWaiter thread)

/-- The current thread and its waiter. -/
def currentWaiter (s : EventQueueService) : Option (ℕ × EventWaiter) :=
  s.scheduler.currentThread.bind fun thread => s.waiters[thread]?.map (thread, ·)

/-- `Wait`. -/
def wait (handle maximumCount : ℕ) (timeoutMicroseconds : Option ℕ) (s : EventQueueService) :
    EventQueuePollResult × EventQueueService :=
  if maximumCount = 0 then ({ status := .kInvalidArgument }, s)
  else match s.currentWaiter with
    | some (thread, waiter) => s.waitAgain handle thread waiter
    | none => s.waitFirst clock handle maximumCount timeoutMicroseconds

end Clock

end EventQueueService

end KajPS5.Kernel
