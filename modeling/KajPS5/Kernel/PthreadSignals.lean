/-
# Signals

A signal goes through the waiting list from the front: waits whose deadline has passed are
completed as timed out and do not use the signal up; the first other wait takes it. A broadcast
completes them all. The threads of completed waits are woken.
-/

import KajPS5.Kernel.PthreadWaits

namespace KajPS5.Kernel

open Math GuestScheduler List

/-- The deadline of the wait has passed. -/
def ConditionWaiter.passed (now : ℕ) (waiter : ConditionWaiter) : Bool :=
  waiter.deadlineNanoseconds.any (· ≤ now)

/-- The waits that a signal completes and those that are left: a broadcast completes all, a
signal those at the front whose deadline has passed and the first other one. -/
def Completes (now : ℕ) (broadcast : Bool) (completed left : List ConditionWaiter) : Prop :=
  if broadcast then left = []
  else
    (left = [] ∧ ∀ waiter ∈ completed, waiter.passed now = true) ∨
      ∃ expired first, completed = expired ++ [first] ∧ first.passed now = false ∧
        ∀ waiter ∈ expired, waiter.passed now = true

/-- One more wait at the front, whose deadline has passed or which a broadcast completes. -/
theorem Completes.cons {now : ℕ} {broadcast : Bool} {completed left : List ConditionWaiter}
    (h : Completes now broadcast completed left) {waiter : ConditionWaiter}
    (hwaiter : broadcast = true ∨ waiter.passed now = true) :
    Completes now broadcast (waiter :: completed) left := by
  unfold Completes at h ⊢
  split
  next hbroadcast => simpa [hbroadcast] using h
  next hbroadcast =>
    rw [if_neg hbroadcast] at h
    have hpassed := hwaiter.resolve_left hbroadcast
    rcases h with ⟨hleft, hall⟩ | ⟨expired, first, rfl, hfirst, hall⟩
    · exact .inl ⟨hleft, forall_mem_cons.mpr ⟨hpassed, hall⟩⟩
    · exact .inr ⟨waiter :: expired, first, rfl, hfirst, forall_mem_cons.mpr ⟨hpassed, hall⟩⟩

namespace PthreadService

/-- The loop of a signal. -/
theorem signalWaiters_spec (handle now : ℕ) (broadcast : Bool) (waiters : List ConditionWaiter)
    (completed : Std.ExtTreeMap ℕ ConditionWaiter)
    (hnodup : (waiters.map ConditionWaiter.thread).Nodup)
    (hlive : ∀ waiter ∈ waiters, waiter.timedOut = false) :
    ∃ gone left completed', waiters = gone ++ left ∧
      signalWaiters handle now broadcast waiters completed =
        (left, completed', gone.map fun waiter => conditionWaitKey handle waiter.thread) ∧
      Completes now broadcast gone left ∧
      (∀ waiter ∈ gone, completed'[waiter.thread]? =
        some { waiter with timedOut := waiter.passed now }) ∧
      ∀ thread, (∀ waiter ∈ gone, waiter.thread ≠ thread) →
        completed'[thread]? = completed[thread]? := by
  induction waiters generalizing completed with
  | nil =>
    refine ⟨[], [], completed, rfl, rfl, ?_, forall_mem_nil _, fun _ _ => rfl⟩
    unfold Completes
    split
    · rfl
    · exact .inl ⟨rfl, forall_mem_nil _⟩
  | cons waiter waiters ih =>
    rw [map_cons, nodup_cons] at hnodup
    obtain ⟨hwaiter, hrest⟩ := forall_mem_cons.mp hlive
    -- what follows if the loop goes on after it has completed this wait
    have hgoes : (broadcast = true ∨ waiter.passed now = true) →
        signalWaiters handle now broadcast (waiter :: waiters) completed =
          (let rest := signalWaiters handle now broadcast waiters
            (completed.insert waiter.thread { waiter with timedOut := waiter.passed now })
          (rest.1, rest.2.1, conditionWaitKey handle waiter.thread :: rest.2.2)) := by
      intro hcase
      rw [signalWaiters]
      split
      next hpassed =>
        have hpassed' : waiter.passed now = true := hpassed
        rw [hpassed']
      next hpassed =>
        have hpassed' : waiter.passed now = false := Bool.not_eq_true _ ▸ hpassed
        rw [if_pos (hcase.resolve_right hpassed), hpassed', ← hwaiter]
    by_cases hcase : broadcast = true ∨ waiter.passed now = true
    · obtain ⟨gone, left, completed', rfl, hres, hcompletes, hgone, hothers⟩ :=
        ih (completed.insert waiter.thread { waiter with timedOut := waiter.passed now })
          hnodup.2 hrest
      refine ⟨waiter :: gone, left, completed', rfl, ?_, hcompletes.cons hcase,
        forall_mem_cons.mpr ⟨?_, hgone⟩, fun thread hthread => ?_⟩
      · rw [hgoes hcase, hres]
        rfl
      · rw [hothers, OrderedMaps.getElem?_insert, if_pos rfl]
        intro other hother heq
        exact hnodup.1 (heq ▸ mem_map_of_mem (mem_append_left _ hother))
      · obtain ⟨hne, hrest⟩ := forall_mem_cons.mp hthread
        rw [hothers _ hrest, OrderedMaps.getElem?_insert, if_neg hne]
    · rw [not_or, Bool.not_eq_true, Bool.not_eq_true] at hcase
      obtain ⟨hbroadcast, hpassed⟩ := hcase
      refine ⟨[waiter], waiters, completed.insert waiter.thread waiter, rfl, ?_, ?_,
        forall_mem_singleton.mpr ?_, fun thread hthread => ?_⟩
      · have hdue : ¬ waiter.deadlineNanoseconds.any (· ≤ now) = true := by
          rw [← ConditionWaiter.passed, hpassed]
          exact Bool.false_ne_true
        rw [signalWaiters, if_neg hdue, if_neg (hbroadcast ▸ Bool.false_ne_true)]
        rfl
      · rw [Completes, if_neg (hbroadcast ▸ Bool.false_ne_true)]
        exact .inr ⟨[], waiter, rfl, hpassed, forall_mem_nil _⟩
      · rw [OrderedMaps.getElem?_insert, if_pos rfl, hpassed, ← hwaiter]
      · rw [OrderedMaps.getElem?_insert, if_neg (hthread waiter mem_cons_self)]

namespace Fits

variable {clock : SteadyClock} {s : PthreadService} {l : Ledger}

/-- A signal completes waits and wakes their threads. -/
theorem signalCondition (h : Fits clock s l) {handle : ℕ} {condition : ConditionState}
    (hfound : s.conditions[handle]? = some condition) (broadcast : Bool) :
    ∃ gone left completedConditionWaits scheduler reads, condition.waiters = gone ++ left ∧
      (let s' : PthreadService := { s with
        conditions := s.conditions.insert handle { condition with waiters := left }
        completedConditionWaits
        scheduler
        reads }
      s.signalCondition clock handle broadcast = (.kOk, s') ∧ Fits clock s' l) ∧
      scheduler.currentThread = s.scheduler.currentThread ∧
      Completes (clock.monotonicNanoseconds s.reads) broadcast gone left ∧
      (∀ waiter ∈ gone, completedConditionWaits[waiter.thread]? = some { waiter with
        timedOut := waiter.passed (clock.monotonicNanoseconds s.reads) }) ∧
      (∀ thread, (∀ waiter ∈ gone, waiter.thread ≠ thread) →
        completedConditionWaits[thread]? = s.completedConditionWaits[thread]?) ∧
      ∀ waiter ∈ gone, s.scheduler.currentThread ≠ some waiter.thread →
        scheduler.stateOf waiter.thread = some .kReady := by
  have hentry := h.conditions.entry _ _ hfound
  have hnodup := h.conditions.nodup_threads hfound
  obtain ⟨gone, left, completedConditionWaits, hwaiters, hsignal, hcompletes, hgone, hothers⟩ :=
    signalWaiters_spec _ (clock.monotonicNanoseconds s.reads) _ _
      s.completedConditionWaits hnodup fun waiter hmem => (hentry _ hmem).live
  set wakeKeys := gone.map fun waiter => conditionWaitKey handle waiter.thread with hwakeKeys
  have hkeys : ∀ key ∈ wakeKeys, ∃ waiter ∈ gone, key = conditionWaitKey handle waiter.thread := by
    intro key hmem
    obtain ⟨waiter, hwaiter, rfl⟩ := mem_map.mp hmem
    exact ⟨waiter, hwaiter, rfl⟩
  obtain ⟨scheduler, reads, hwake, hreads, hord, hawakes, hwoken⟩ :=
    wakeBlockedThreads_spec clock wakeKeys { s with
      conditions := s.conditions.insert handle { condition with waiters := left }
      completedConditionWaits
      reads := s.reads + 1 } h.orderly fun key hmem => by
        obtain ⟨waiter, -, rfl⟩ := hkeys _ hmem
        refine ⟨conditionWaitKey_ne_empty handle waiter.thread, ?_⟩
        intro a b deadline deadline' ha hb
        exact (h.conditions.waits _ _ _ _ ha).1.trans (h.conditions.waits _ _ _ _ hb).1.symm
  refine ⟨gone, left, completedConditionWaits, scheduler, reads, hwaiters,
    ⟨?_, hord, ?_, ?_, ?_, h.recent, h.startable⟩, hawakes.current, hcompletes, hgone, hothers, ?_⟩
  · simp [PthreadService.signalCondition, hfound, PthreadService.monotonicNanoseconds, hsignal,
      hwake]
  · apply h.mutexes.withListed
    apply h.mutexes.listed.awakes hawakes
    intro a b hkey
    obtain ⟨waiter, -, heq⟩ := hkeys _ hkey
    exact mutexWaitKey_ne_conditionWaitKey a b _ _ heq
  · apply h.rwlocks.withListed
    apply h.rwlocks.listed.awakes hawakes
    intro a b hkey
    obtain ⟨waiter, -, heq⟩ := hkeys _ hkey
    exact conditionWaitKey_ne_rwlockWaitKey _ _ a b heq.symm
  · refine h.conditions.complete hfound (.of_eq hwaiters) h.orderly hothers
      ((Nat.le_succ _).trans hreads) hawakes hkeys ?_ rfl rfl
      (fun waiter hwaiter => ⟨_, hgone _ hwaiter⟩)
      fun waiter hwaiter => hwoken _ (mem_map_of_mem hwaiter)
    rw [hwaiters]
    exact sublist_append_right _ left
  · intro waiter hwaiter hcur
    have hkey : conditionWaitKey handle waiter.thread ∈ wakeKeys := mem_map_of_mem hwaiter
    have hfits := hentry _ (hwaiters ▸ mem_append_left _ hwaiter)
    rcases hawakes.cases waiter.thread with ⟨hwait, -, hstate⟩ | ⟨_, _, -, -, hready, -⟩
    · rw [hstate]
      rcases hfits.attends with hblock | ⟨hlate, -⟩
      · rw [← hwait, hfits.condition] at hblock
        exact absurd hblock (hwoken _ hkey _ _)
      · have hne := conditionWaitKey_ne_empty waiter.conditionHandle waiter.thread
        exact (h.orderly.of_timedOut (hlate ▸ hne)).2.resolve_right hcur
    · exact hready

end Fits

end PthreadService

end KajPS5.Kernel
