/-
# Threads that wait for events

The service and the scheduler agree on who waits: a thread blocked under the key of a queue
has a waiter that waits for it, and a thread with a reservation is not blocked. `Sound` is
what the loops over the waiters keep at every turn; `Fits` adds that the queue of every waiter
exists and that a queue with pending events has no waiter left whose deadline is still to
come.
-/

import KajPS5.Kernel.EventRegistrations

namespace KajPS5.Kernel

open Math GuestScheduler OrderedMaps

namespace EventQueueService

/-- What the service knows of the thread of a waiter. -/
structure WaiterFits (s : EventQueueService) (thread : ℕ) (waiter : EventWaiter) : Prop where
  positive : 0 < waiter.maximumCount
  idle : waiter.completion ≠ .kReserved → waiter.events = []
  knows : ∀ q, s.queues[waiter.queueHandle]? = some q → ∀ e ∈ waiter.events, q.Knows e
  waits : s.scheduler.waitOf thread = none ∨ waiter.completion = .kWaiting ∧
    s.scheduler.waitOf thread =
      some (eventQueueWaitKey waiter.queueHandle, waiter.deadlineNanoseconds)
  alive : s.scheduler.Alive thread

structure Sound (s : EventQueueService) : Prop where
  orderly : s.scheduler.Orderly
  kept : s.scheduler.handles.Kept
  stored : ∀ handle : ℕ, s.scheduler.handles.find handle .kEventQueue = true ↔
    s.queues[handle]?.isSome = true
  queues : ∀ (handle : ℕ) q, s.queues[handle]? = some q → q.Fits
  waiters : ∀ (thread : ℕ) waiter, s.waiters[thread]? = some waiter →
    s.WaiterFits thread waiter
  blocked : ∀ thread key deadline, isEventQueueKey key = true →
    s.scheduler.waitOf thread = some (key, deadline) → s.waits thread = true

/-- Some reading of the clock has reached the deadline. -/
def Passed (clock : ℕ → ℕ) (s : EventQueueService) (deadline : Option ℕ) : Prop :=
  ∃ d, deadline = some d ∧ ∃ k < s.reads, d ≤ clock k

/-- The waiter has what it waits for, or its deadline has passed, or nothing is pending. -/
def Served (clock : ℕ → ℕ) (s : EventQueueService) (waiter : EventWaiter) : Prop :=
  waiter.completion = .kWaiting → ∀ q, s.queues[waiter.queueHandle]? = some q →
    q.pendingEvents ≠ [] → s.Passed clock waiter.deadlineNanoseconds

/-- The queue of the waiter exists, unless the waiter knows that it was deleted. -/
def Attached (s : EventQueueService) (waiter : EventWaiter) : Prop :=
  waiter.completion ≠ .kDeleted → s.queues[waiter.queueHandle]?.isSome = true

structure Fits (clock : ℕ → ℕ) (s : EventQueueService) : Prop extends Sound s where
  attached : ∀ (thread : ℕ) waiter, s.waiters[thread]? = some waiter →
    s.Attached waiter
  served : ∀ (thread : ℕ) waiter, s.waiters[thread]? = some waiter →
    s.Served clock waiter

theorem Passed.mono {clock : ℕ → ℕ} {s s' : EventQueueService} {deadline : Option ℕ}
    (h : s.Passed clock deadline) (hle : s.reads ≤ s'.reads) : s'.Passed clock deadline := by
  obtain ⟨d, hd, k, hk, hreached⟩ := h
  exact ⟨d, hd, k, hk.trans_le hle, hreached⟩

theorem waits_iff {s : EventQueueService} {thread : ℕ} :
    s.waits thread = true ↔ ∃ waiter, s.waiters[thread]? = some waiter := by
  rw [waits, Option.isSome_iff_exists]

theorem find_eq {s : EventQueueService} (hs : s.Sound) (handle : ℕ) :
    s.find handle = s.queues[handle]? := by
  rw [find]
  split
  · rfl
  next hnot =>
    rw [hs.stored, Bool.not_eq_true, Option.isSome_eq_false_iff, Option.isNone_iff_eq_none] at hnot
    exact hnot.symm

namespace Sound

variable {s : EventQueueService}

theorem initial : Sound {} where
  orderly := .initial
  kept := .initial
  stored handle := by simp [HandleTable.find]
  queues _ q h := by simp at h
  waiters _ _ h := by simp at h
  blocked _ _ _ _ h := by simp [waitOf] at h

section

variable (hs : s.Sound)
include hs

/-- The scheduler goes on and spares the service. -/
theorem reschedule {scheduler : GuestScheduler} (reads : ℕ)
    (hspares : s.scheduler.Spares (s.waits · = true) (isEventQueueKey · = true) scheduler)
    (hkept : scheduler.handles.Kept)
    (hfind : ∀ handle, scheduler.handles.find handle .kEventQueue =
      s.scheduler.handles.find handle .kEventQueue) :
    Sound { s with scheduler, reads } where
  orderly := hspares.orderly
  kept := hkept
  stored handle := by rw [hfind, hs.stored]
  queues := hs.queues
  waiters thread waiter h := by
    have hold := hs.waiters _ _ h
    have howed : s.waits thread = true := waits_iff.mpr ⟨waiter, h⟩
    refine { hold with waits := ?_, alive := hspares.alive thread howed hold.alive }
    rcases hspares.waits _ howed with hsame | hnone
    · rw [hsame]
      exact hold.waits
    · exact .inl hnone
  blocked thread key deadline hkey hwait := hs.blocked _ _ _ hkey (hspares.keys _ _ _ hkey hwait)

/-- The service or another one calls the scheduler. -/
theorem schedule (reads : ℕ) (call : SchedulerCall)
    (hspares : call.spares s.waits isEventQueueKey s.scheduler = true)
    (hkeeps : call.keepsHandles = true) :
    Sound { s with scheduler := s.scheduler.step call, reads } := by
  have hhandles := s.scheduler.handles_step_of_keeps call hkeeps
  refine hs.reschedule _ (spares_step hs.orderly hspares) ?_ fun handle => ?_
  · rw [hhandles]
    exact hs.kept
  · rw [hhandles]

theorem withReads (reads : ℕ) : Sound { s with reads } :=
  hs.reschedule _ (.refl hs.orderly) hs.kept fun _ => rfl

variable {thread handle : ℕ} {q : EventQueue} {waiter : EventWaiter}

/-- A queue changes. -/
theorem putQueue {q' : EventQueue} (hq : s.queues[handle]? = some q) (hfits : q'.Fits)
    (hknows : ∀ e, q.Knows e → q'.Knows e) : Sound (s.putQueue handle q') where
  __ := hs
  stored other := by
    rw [EventQueueService.putQueue, getElem?_insert]
    rw [hs.stored]
    split
    next heq => simp [← heq, hq]
    · rfl
  queues := forall_insert hfits fun other found _ => hs.queues _ _
  waiters thread waiter h := by
    have hold := hs.waiters _ _ h
    refine { hold with knows := fun found hfound e he => ?_ }
    rw [EventQueueService.putQueue, getElem?_insert] at hfound
    split at hfound
    next heq =>
      rw [← Option.some.inj hfound]
      exact hknows e (hold.knows q (heq ▸ hq) e he)
    · exact hold.knows _ hfound e he

/-- A queue exchanges its pending events. -/
theorem putPending {pending} (hq : s.queues[handle]? = some q)
    (hfits : EventQueue.Fits { q with pendingEvents := pending }) :
    Sound (s.putQueue handle { q with pendingEvents := pending }) :=
  hs.putQueue hq hfits fun _ h => h

theorem putWaiter (hfits : s.WaiterFits thread waiter) : Sound (s.putWaiter thread waiter) where
  __ := hs
  waiters := forall_insert { hfits with } fun other found _ h => { hs.waiters _ _ h with }
  blocked other key deadline hkey hwait := by
    rw [waits, EventQueueService.putWaiter, getElem?_insert]
    split
    · rfl
    · exact hs.blocked _ _ _ hkey hwait

/-- The waiter of a thread that is not blocked goes. -/
theorem eraseWaiter (hwait : s.scheduler.waitOf thread = none) : Sound (s.eraseWaiter thread) where
  __ := hs
  waiters other found h := { hs.waiters _ _ (getElem?_of_erase h).2 with }
  blocked other key deadline hkey hblock := by
    rw [waits, EventQueueService.eraseWaiter, getElem?_erase]
    split
    next heq =>
      subst heq
      have hsome : s.scheduler.waitOf thread = some (key, deadline) := hblock
      cases hwait.symm.trans hsome
    · exact hs.blocked _ _ _ hkey hblock

/-- A thread that waits is given a completed waiter and woken. -/
theorem wakeWaiter {waiter' : EventWaiter} (hwaiter : s.waiters[thread]? = some waiter)
    (clock : ℕ → ℕ) (hpositive : 0 < waiter'.maximumCount)
    (hidle : waiter'.completion ≠ .kReserved → waiter'.events = [])
    (hknows : ∀ q, s.queues[waiter'.queueHandle]? = some q → ∀ e ∈ waiter'.events, q.Knows e) :
    Sound ((s.putWaiter thread waiter').wakeBlockedThread clock thread
      (eventQueueWaitKey waiter.queueHandle)) := by
  have hold := hs.waiters _ _ hwaiter
  have hkey := eventQueueWaitKey_ne_empty waiter.queueHandle
  have hnone := waitOf_wakeBlockedThread hs.orderly hold.alive hkey (clock s.reads)
    (by
      intro wait hwait
      rcases hold.waits with hno | ⟨-, hsome⟩
      · cases hno.symm.trans hwait
      · rw [hsome] at hwait
        exact (congrArg _ (Option.some.inj hwait)).symm)
  have hwoken : Sound (s.wakeBlockedThread clock thread (eventQueueWaitKey waiter.queueHandle)) :=
    hs.schedule _ (.wakeBlockedThread _ _ _) rfl rfl
  refine hwoken.putWaiter ⟨hpositive, hidle, hknows, .inl hnone, ?_⟩
  exact hold.alive.awakes (awakes_wakeBlockedThread _ _ _ _)

end

end Sound

end EventQueueService

end KajPS5.Kernel
