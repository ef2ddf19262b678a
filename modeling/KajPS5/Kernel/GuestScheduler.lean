/-
# The guest scheduler

Guest threads are ready, running, blocked under a wait key, or exited. One thread at
a time is current. `selectNext` makes the first ready thread current; the current
thread yields, blocks, joins another thread or exits; blocked threads become ready
when they are woken by their key or when their deadline is reached.

The monotonic clock is an argument of the calls that read it. Loops over the thread
table go in the order of the handles, so the threads that one call wakes are appended
to the ready queue in that order.
-/

import KajPS5.Kernel.HandleTable

namespace KajPS5.Kernel

inductive GuestThreadState
  | kReady | kRunning | kBlocked | kExited
  deriving DecidableEq, Repr

structure GuestThread where
  name : String
  priority : ℤ
  state : GuestThreadState := .kReady
  waitKey : String := ""
  (exitValue entryAddress argument : ℕ := 0)
  waitDeadlineNanoseconds : Option ℕ := none
  timedOutWaitKey : String := ""
  deriving DecidableEq, Repr

structure GuestThreadCreateResult where
  status : KernelStatus := .kOk
  handle : ℕ := invalidKernelHandle
  deriving DecidableEq, Repr

structure GuestThreadJoinResult where
  status : KernelStatus := .kOk
  exitValue : ℕ := 0
  deriving DecidableEq, Repr

def maximumGuestThreadNameLength : ℕ := 31

/-- `ThreadExitWaitKey`. -/
def threadExitWaitKey (handle : ℕ) : String := "thread-exit:" ++ toString handle

structure GuestScheduler where
  handles : HandleTable := {}
  threads : Std.ExtTreeMap ℕ GuestThread := ∅
  readyThreads : List ℕ := []
  currentThread : Option ℕ := none

namespace GuestThread

/-- A blocked thread is woken by its key. -/
def wake (thread : GuestThread) : GuestThread :=
  { thread with
    state := .kReady
    waitKey := ""
    waitDeadlineNanoseconds := none
    timedOutWaitKey := "" }

/-- A blocked thread is woken by its deadline, and remembers which wait timed out. -/
def expire (thread : GuestThread) : GuestThread :=
  { thread with
    state := .kReady
    waitKey := ""
    waitDeadlineNanoseconds := none
    timedOutWaitKey := thread.waitKey }

/-- The running thread blocks. -/
def block (waitKey : String) (deadline : Option ℕ) (thread : GuestThread) : GuestThread :=
  { thread with
    state := .kBlocked
    waitKey := waitKey
    waitDeadlineNanoseconds := deadline
    timedOutWaitKey := "" }

/-- The running thread exits. -/
def exit (exitValue : ℕ) (thread : GuestThread) : GuestThread :=
  { thread with
    state := .kExited
    waitKey := ""
    waitDeadlineNanoseconds := none
    timedOutWaitKey := ""
    exitValue := exitValue }

/-- The thread waits under a key. -/
def waitsOn (waitKey : String) (thread : GuestThread) : Bool :=
  thread.state = .kBlocked ∧ thread.waitKey = waitKey

/-- The thread waits with a deadline that has been reached. -/
def expired (now : ℕ) (thread : GuestThread) : Bool :=
  thread.state = .kBlocked ∧ thread.waitDeadlineNanoseconds.any (· ≤ now)

end GuestThread

namespace GuestScheduler

/-! ## Waking -/

variable (s : GuestScheduler)

/-- The handles of the threads with a property, in order. -/
def handlesWhere (p : GuestThread → Bool) : List ℕ :=
  (s.threads.toList.filter fun entry => p entry.2).map Prod.fst

/-- Change some blocked threads and append them to the ready queue. -/
def makeReady (wake : GuestThread → GuestThread) (woken : List ℕ)
    (s : GuestScheduler) : GuestScheduler :=
  { s with
    threads := s.threads.map fun handle thread => if handle ∈ woken then wake thread else thread
    readyThreads := s.readyThreads ++ woken }

/-- `WakeExpiredThreadsLocked`. -/
def wakeExpiredThreadsLocked (now : ℕ) (s : GuestScheduler) : GuestScheduler :=
  s.makeReady GuestThread.expire (s.handlesWhere (GuestThread.expired now))

/-- `WakeBlockedThreads`. -/
def wakeBlockedThreads (waitKey : String) (maximumCount : ℕ) (now : ℕ) (s : GuestScheduler) :
    ℕ × GuestScheduler :=
  if waitKey = "" ∨ maximumCount = 0 then (0, s)
  else
    let s := s.wakeExpiredThreadsLocked now
    let woken := (s.handlesWhere (GuestThread.waitsOn waitKey)).take maximumCount
    (woken.length, s.makeReady GuestThread.wake woken)

/-- `WakeBlockedThread`. -/
def wakeBlockedThread (handle : ℕ) (waitKey : String) (now : ℕ) (s : GuestScheduler) :
    Bool × GuestScheduler :=
  if handle = invalidKernelHandle ∨ waitKey = "" then (false, s)
  else
    let s := s.wakeExpiredThreadsLocked now
    if s.threads[handle]?.any (GuestThread.waitsOn waitKey) then
      (true, s.makeReady GuestThread.wake [handle])
    else (false, s)

/-! ## Creating and selecting -/

/-- `CreateThread`. -/
def createThread (name : String) (priority : ℤ) (entryAddress argument : ℕ)
    (s : GuestScheduler) : GuestThreadCreateResult × GuestScheduler :=
  if maximumGuestThreadNameLength < name.utf8ByteSize then ({ status := .kInvalidArgument }, s)
  else match s.handles.insert .kThread with
    | (none, handles) => ({ status := .kNoResources }, { s with handles })
    | (some handle, handles) =>
      ({ handle }, { s with
        handles
        threads := s.threads.insertIfNew handle { name, priority, entryAddress, argument }
        readyThreads := s.readyThreads ++ [handle] })

/-- `DiscardReadyThread`. -/
def discardReadyThread (handle : ℕ) (s : GuestScheduler) : Bool × GuestScheduler :=
  if s.threads[handle]?.any (·.state = .kReady) then match s.handles.remove handle .kThread with
    | (false, handles) => (false, { s with handles })
    | (true, handles) =>
      (true, { s with
        handles
        readyThreads := s.readyThreads.filter (· ≠ handle)
        threads := s.threads.erase handle })
  else (false, s)

/-- The loop of `SelectNext` over the ready queue. -/
def selectFrom : List ℕ → GuestScheduler → Option ℕ × GuestScheduler
  | [], s => (none, { s with readyThreads := [] })
  | handle :: rest, s => match s.threads[handle]? with
    | some thread =>
      if thread.state = .kReady then
        (some handle, { s with
          threads := s.threads.insert handle { thread with state := .kRunning }
          readyThreads := rest
          currentThread := some handle })
      else selectFrom rest s
    | none => selectFrom rest s

/-- `SelectNext`. The clock is read only when no thread is current. -/
def selectNext (now : ℕ) (s : GuestScheduler) : Option ℕ × GuestScheduler :=
  if s.currentThread.isSome then (none, s)
  else
    let s := s.wakeExpiredThreadsLocked now
    selectFrom s.readyThreads s

/-! ## Calls of the current thread -/

/-- The current thread, if it is running. -/
def running : Option (ℕ × GuestThread) :=
  s.currentThread.bind fun handle =>
    (s.threads[handle]?.filter fun thread => thread.state = .kRunning).map (handle, ·)

/-- The current thread is changed and no longer current. -/
def release (handle : ℕ) (thread : GuestThread) (s : GuestScheduler) : GuestScheduler :=
  { s with threads := s.threads.insert handle thread, currentThread := none }

/-- `YieldCurrent`. -/
def yieldCurrent : Bool × GuestScheduler :=
  match s.running with
  | none => (false, s)
  | some (handle, thread) =>
    (true, { s.release handle { thread with state := .kReady } with
      readyThreads := s.readyThreads ++ [handle] })

/-- `BlockCurrentLocked`. -/
def blockCurrentLocked (waitKey : String) (deadline : Option ℕ) (s : GuestScheduler) :
    Bool × GuestScheduler :=
  if waitKey = "" then (false, s)
  else match s.running with
    | none => (false, s)
    | some (handle, thread) => (true, s.release handle (thread.block waitKey deadline))

/-- `BlockCurrent`. -/
def blockCurrent (waitKey : String) (s : GuestScheduler) : Bool × GuestScheduler :=
  s.blockCurrentLocked waitKey none

/-- `BlockCurrentUntil`. -/
def blockCurrentUntil (waitKey : String) (deadline : ℕ) (s : GuestScheduler) :
    Bool × GuestScheduler :=
  s.blockCurrentLocked waitKey (some deadline)

/-- `JoinThread`. -/
def joinThread (handle : ℕ) (s : GuestScheduler) :
    GuestThreadJoinResult × GuestScheduler := match s.threads[handle]? with
  | none => ({ status := .kNotFound }, s)
  | some target =>
    if target.state = .kExited then ({ exitValue := target.exitValue }, s)
    else if s.currentThread = none then ({ status := .kBusy }, s)
    else if s.currentThread = some handle then ({ status := .kInvalidArgument }, s)
    else match s.running with
      | none => ({ status := .kBusy }, s)
      | some (caller, thread) =>
        ({ status := .kWouldBlock },
          s.release caller (thread.block (threadExitWaitKey handle) none))

/-- `ExitCurrent`. Threads that join this one become ready. -/
def exitCurrent (exitValue : ℕ) (s : GuestScheduler) : Bool × GuestScheduler :=
  match s.running with
  | none => (false, s)
  | some (handle, thread) =>
    let s := s.release handle (thread.exit exitValue)
    (true, s.makeReady GuestThread.wake
      (s.handlesWhere (GuestThread.waitsOn (threadExitWaitKey handle))))

/-- `ConsumeCurrentThreadTimeout`. -/
def consumeCurrentThreadTimeout (waitKey : String) (s : GuestScheduler) : Bool × GuestScheduler :=
  if waitKey = "" then (false, s)
  else match s.running with
    | none => (false, s)
    | some (handle, thread) =>
      if thread.timedOutWaitKey ≠ waitKey then (false, s)
      else
        (true, { s with
          threads := s.threads.insert handle { thread with timedOutWaitKey := "" } })

end GuestScheduler

end KajPS5.Kernel
