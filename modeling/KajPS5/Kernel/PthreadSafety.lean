/-
# Safety of the pthread service

What holds after every run: nobody waits for a mutex or a reader-writer lock that is free, the
threads that are blocked under the keys of the service are the ones on the waiting lists, and a
condition variable loses no signal. A wait that was started is answered at most once: the waits
that were started are the ones that were answered and the ones that are still owed.
-/

import KajPS5.Kernel.PthreadSteps

namespace KajPS5.Kernel

open Math GuestScheduler Ledger

namespace PthreadSystem

/-! ## Counting waits -/

variable {clock : SteadyClock} {y : PthreadSystem}

section

variable (h : y.service.Fits clock y.ledger)
include h

end

/-! ## Mutexes -/

/-- After every run, a mutex without an owner has no waiter, no grant and no recursion, and one
with an owner is locked at least once. Only the owner has a grant. The waiters stand in the order
of their arrival, each once and without the owner. A thread is blocked under a key of the mutex
exactly if it is one of the waiters, so nobody is blocked for a mutex that is free. -/
theorem run_mutexes (clock : SteadyClock) (steps : List PthreadStep) : let y := run clock {} steps
    (∀ (handle : ℕ) (m : MutexState), y.service.mutexes[handle]? = some m →
      (m.owner = invalidKernelHandle →
        m.waiters = [] ∧ m.grantedWaiters = ∅ ∧ m.recursionCount = 0) ∧
      (m.owner ≠ invalidKernelHandle → 1 ≤ m.recursionCount) ∧
      (∀ thread ∈ m.grantedWaiters, thread = m.owner) ∧
      m.waiters.Nodup ∧ m.waiters.Pairwise (y.ledger.arrived · < y.ledger.arrived ·) ∧
      m.owner ∉ m.waiters ∧
      (m.owner = invalidKernelHandle → ∀ thread other deadline,
        y.service.scheduler.waitOf thread ≠ some (mutexWaitKey handle other, deadline))) ∧
    ∀ thread handle other deadline,
      y.service.scheduler.waitOf thread = some (mutexWaitKey handle other, deadline) ↔
        thread = other ∧ deadline = none ∧
          ∃ m, y.service.mutexes[handle]? = some m ∧ thread ∈ m.waiters := by
  intro y
  have hfits : y.service.Fits clock y.ledger := fits_run clock steps
  refine ⟨fun handle m hfound => ?_, hfits.mutexes.listed⟩
  have hm := hfits.mutexes.fits _ m hfound
  refine ⟨hm.free, hm.held, hm.granted, hm.ordered.imp fun hlt heq => hlt.ne (congrArg _ heq),
    hm.ordered, hm.owner, fun hfree thread other deadline hwait => ?_⟩
  obtain ⟨-, -, found, hother, hmem⟩ := (hfits.mutexes.listed _ _ _ _).mp hwait
  rw [hfound] at hother
  cases hother
  rw [(hm.free hfree).1] at hmem
  cases hmem

/-- A mutex that thread 1 owns and thread 2 waits for, and one that is free. -/
theorem run_mutexes_contended : let clock : SteadyClock := ⟨id, monotone_id, fun _ => 0⟩
    let memory : ArenaMemory := ⟨true, fun _ => true, fun _ => true⟩
    let held := syntheticMutexHandleBase + 1
    let free := syntheticMutexHandleBase + 2
    let y := run clock {} [.call (.createMutex 0 0) memory, .call (.createMutex 0 0) memory,
      .call (.createThread "a" 0 1 0) memory, .call (.createThread "b" 0 1 0) memory, .selectNext,
      .call (.lockMutex held false) memory, .yieldCurrent, .selectNext,
      .call (.lockMutex held false) memory, .selectNext]
    y.current = some 1 ∧ (∃ m, y.service.mutexes[held]? = some m ∧ m.owner = 1 ∧ m.waiters = [2] ∧
        1 ≤ m.recursionCount) ∧
      (∃ m, y.service.mutexes[free]? = some m ∧ m.waiters = []) ∧
      y.service.scheduler.waitOf 2 = some (mutexWaitKey held 2, none) := by
  intro clock memory held free y
  have hrun := run_mutexes clock
  have hheld : y.service.mutexes[held]?.map (fun m => (m.owner, m.waiters)) = some (1, [2]) := by
    decide +kernel
  have hfree : y.service.mutexes[free]?.map (fun m => m.owner) = some invalidKernelHandle := by
    decide +kernel
  obtain ⟨m, hm, hview⟩ := Option.map_eq_some_iff.mp hheld
  obtain ⟨idle, hidle, howner⟩ := Option.map_eq_some_iff.mp hfree
  rw [Prod.mk.injEq] at hview
  refine ⟨by decide +kernel, ⟨m, hm, hview.1, hview.2, ?_⟩, ⟨idle, hidle, ?_⟩, ?_⟩
  · exact ((hrun _).1 _ m hm).2.1 (hview.1 ▸ one_ne_zero)
  · exact (((hrun _).1 _ _ hidle).1 howner).1
  · exact ((hrun _).2 2 held 2 none).mpr
      ⟨rfl, rfl, m, hm, by rw [hview.2]; exact List.mem_cons_self⟩

/-! ## Reader-writer locks -/

/-- After every run, a writer of a lock excludes readers, and only holders have grants. The
waiters are there once each and hold nothing. A thread is blocked under a key of the lock exactly
if it is one of the waiters, and a lock that nobody holds has no waiter. -/
theorem run_rwlocks (clock : SteadyClock) (steps : List PthreadStep) : let y := run clock {} steps
    (∀ (handle : ℕ) (r : RwlockState), y.service.rwlocks[handle]? = some r →
      (r.writer ≠ invalidKernelHandle → ∀ thread : ℕ, r.readers[thread]? = none) ∧
      (∀ thread ∈ r.grantedReaders, r.readers[thread]?.isSome = true) ∧
      (∀ thread, r.grantedWriter = some thread → thread = r.writer ∧ thread ≠ invalidKernelHandle) ∧
      (r.waiters.map RwlockWaiter.thread).Nodup ∧
      (∀ waiter ∈ r.waiters, waiter.thread ≠ r.writer ∧ r.readers[waiter.thread]? = none) ∧
      (r.writer = invalidKernelHandle → (∀ thread : ℕ, r.readers[thread]? = none) →
        r.waiters = [] ∧ ∀ thread other deadline,
          y.service.scheduler.waitOf thread ≠ some (rwlockWaitKey handle other, deadline))) ∧
    ∀ thread handle other deadline,
      y.service.scheduler.waitOf thread = some (rwlockWaitKey handle other, deadline) ↔
        thread = other ∧ deadline = none ∧ ∃ r, y.service.rwlocks[handle]? = some r ∧
          ∃ waiter ∈ r.waiters, waiter.thread = thread := by
  intro y
  have hfits : y.service.Fits clock y.ledger := fits_run clock steps
  refine ⟨fun handle r hfound => ?_, hfits.rwlocks.listed⟩
  have hr := hfits.rwlocks.fits _ r hfound
  refine ⟨hr.exclusive, fun thread hmem => (hr.grantedReaders _ hmem).1,
    fun thread hsome => ⟨(hr.grantedWriter _ hsome).1, (hr.grantedWriter _ hsome).2.1⟩,
    hr.nodup, fun waiter hmem => ⟨(hr.waiters _ hmem).2.1, (hr.waiters _ hmem).2.2.1⟩,
    fun hwriter hreaders => ?_⟩
  have hnil := hr.free (RwlockState.free_iff.mpr ⟨hwriter, hreaders⟩)
  refine ⟨hnil, fun thread other deadline hwait => ?_⟩
  obtain ⟨-, -, found, hother, waiter, hmem, -⟩ := (hfits.rwlocks.listed _ _ _ _).mp hwait
  rw [hfound] at hother
  cases hother
  rw [hnil] at hmem
  cases hmem

/-- A lock that thread 1 writes and thread 2 waits for, and one that nobody holds. -/
theorem run_rwlocks_contended : let clock : SteadyClock := ⟨id, monotone_id, fun _ => 0⟩
    let memory : ArenaMemory := ⟨true, fun _ => true, fun _ => true⟩
    let y := run clock {} [.configureGuestMutexArena memory 0x10000,
      .call .createGuestRwlock memory, .call .createGuestRwlock memory,
      .call (.createThread "a" 0 1 0) memory, .call (.createThread "b" 0 1 0) memory, .selectNext,
      .call (.lockRwlock 0x10000 true false) memory, .yieldCurrent, .selectNext,
      .call (.lockRwlock 0x10000 false false) memory, .selectNext]
    (∃ r, y.service.rwlocks[0x10000]? = some r ∧ r.writer = 1 ∧
        r.waiters = [{ thread := 2, write := false }] ∧ r.readers[2]? = none) ∧
      (∃ r, y.service.rwlocks[0x10100]? = some r ∧ r.waiters = []) ∧
      y.service.scheduler.waitOf 2 = some (rwlockWaitKey 0x10000 2, none) := by
  intro clock memory y
  have hrun := run_rwlocks clock
  have hheld : y.service.rwlocks[0x10000]?.map (fun r => (r.writer, r.waiters)) =
      some (1, [{ thread := 2, write := false }]) := by
    decide +kernel
  have hfree : y.service.rwlocks[0x10100]?.map RwlockState.free = some true := by decide +kernel
  obtain ⟨r, hr, hview⟩ := Option.map_eq_some_iff.mp hheld
  obtain ⟨idle, hidle, hnobody⟩ := Option.map_eq_some_iff.mp hfree
  rw [Prod.mk.injEq] at hview
  obtain ⟨hwriter, hreaders⟩ := RwlockState.free_iff.mp hnobody
  refine ⟨⟨r, hr, hview.1, hview.2, ?_⟩, ⟨idle, hidle, ?_⟩, ?_⟩
  · exact ((hrun _).1 0x10000 r hr).1 (hview.1 ▸ one_ne_zero) 2
  · exact (((hrun _).1 0x10100 _ hidle).2.2.2.2.2 hwriter hreaders).1
  · refine ((hrun _).2 2 0x10000 2 none).mpr
      ⟨rfl, rfl, r, hr, { thread := 2, write := false }, ?_, rfl⟩
    rw [hview.2]
    exact List.mem_cons_self

/-- A request to read a lock that has neither a writer nor a waiter succeeds exactly if the thread
was granted the lock, or nobody reads it, or the thread reads it already and its count can grow. So
a second reader is turned away by the first. -/
theorem lockRwlock_read_iff {s : PthreadService} {handle thread : ℕ} {r : RwlockState}
    (tryOnly : Bool) (hcurrent : s.scheduler.currentThread = some thread)
    (hthread : thread ≠ invalidKernelHandle) (hfound : s.rwlocks[handle]? = some r)
    (hwriter : r.writer = invalidKernelHandle) (hwaiters : r.waiters = []) :
    (s.lockRwlock handle false tryOnly).1 = .kOk ↔
      thread ∈ r.grantedReaders ∨ (∀ other : ℕ, r.readers[other]? = none) ∨
        ∃ count, r.readers[thread]? = some count ∧ count ≠ uint32Max := by
  rw [← RwlockState.lock_read_eq_ok_iff hthread hwriter hwaiters, PthreadService.lockRwlock,
    hcurrent]
  rw [hfound]
  dsimp only
  split
  next status r' hlock => rw [hlock, Option.some.injEq]
  next r' hlock =>
    rw [hlock]
    split
    · simp
    · simp

/-- Thread 1 reads the lock and asks for it once more. -/
theorem lockRwlock_read_iff_again : let clock : SteadyClock := ⟨id, monotone_id, fun _ => 0⟩
    let memory : ArenaMemory := ⟨true, fun _ => true, fun _ => true⟩
    let y := run clock {} [.configureGuestMutexArena memory 0x10000,
      .call .createGuestRwlock memory, .call (.createThread "a" 0 1 0) memory, .selectNext,
      .call (.lockRwlock 0x10000 false false) memory]
    y.service.scheduler.currentThread = some 1 ∧
      (y.service.lockRwlock 0x10000 false true).1 = .kOk := by
  intro clock memory y
  have hcurrent : y.service.scheduler.currentThread = some 1 := by decide +kernel
  have hread : y.service.rwlocks[0x10000]?.map (fun r => (r.writer, r.waiters, r.readers[1]?)) =
      some (0, [], some 1) := by decide +kernel
  obtain ⟨r, hr, hview⟩ := Option.map_eq_some_iff.mp hread
  rw [Prod.mk.injEq, Prod.mk.injEq] at hview
  refine ⟨hcurrent, (lockRwlock_read_iff _ hcurrent (by decide) hr hview.1 hview.2.1).mpr ?_⟩
  exact .inr (.inr ⟨1, hview.2.2, by decide⟩)

/-- Thread 1 reads the lock. Nobody writes it and nobody waits for it, and still thread 2 may not
read it, neither if it would wait nor if it only tries. -/
theorem run_readers_excluded : let clock : SteadyClock := ⟨id, monotone_id, fun _ => 0⟩
    let memory : ArenaMemory := ⟨true, fun _ => true, fun _ => true⟩
    let y := run clock {} [.configureGuestMutexArena memory 0x10000,
      .call .createGuestRwlock memory, .call (.createThread "a" 0 1 0) memory,
      .call (.createThread "b" 0 1 0) memory, .selectNext,
      .call (.lockRwlock 0x10000 false false) memory, .yieldCurrent, .selectNext]
    y.current = some 2 ∧
      y.service.rwlocks[0x10000]?.map (fun r => (r.writer, r.waiters, r.readers[1]?)) =
        some (invalidKernelHandle, [], some 1) ∧
      y.allowed (.call (.lockRwlock 0x10000 false false) memory) = true ∧
      (y.service.lockRwlock 0x10000 false false).1 = .kWouldBlock ∧
      (y.service.lockRwlock 0x10000 false true).1 = .kBusy := by
  decide +kernel

/-! ## Condition variables -/

/-- After every run a condition variable counts the threads that owe a call which waits for it,
and a mutex those that owe a call which waits with it. A count of zero, without which neither is
destroyed, means that no such call is left to answer. -/
theorem run_waiter_counts (clock : SteadyClock) (steps : List PthreadStep) (handle : ℕ) :
    let y := run clock {} steps
    y.service.conditions[handle]?.all (·.activeWaiterCount = y.ledger.count (·.1 = handle)) ∧
      y.service.mutexes[handle]?.all (·.conditionWaiterCount = y.ledger.count (·.2 = handle)) := by
  have hfits := (fits_run clock steps).conditions
  simp only [Option.all_eq_true, decide_eq_true_eq]
  exact ⟨hfits.active handle, hfits.counted handle⟩

end PthreadSystem

end KajPS5.Kernel
