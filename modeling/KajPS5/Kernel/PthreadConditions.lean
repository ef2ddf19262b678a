/-
# Condition variables

A thread that waits for a condition variable owes its wait call until the call is answered. All
this time it is either on the waiting list, blocked under its key or just woken by its deadline,
or it is completed: a signal or its deadline took it off the list and it now has to get the
mutex. The counters of the service count the owed waits, so neither the condition variable nor
the mutex goes away under a wait.
-/

import KajPS5.Kernel.PthreadMutexes

namespace KajPS5.Kernel

open Math GuestScheduler OrderedMaps Ledger Option

/-! ## Owed waits -/

/-- The condition variable and the mutex that the call waits with. -/
def PthreadCall.waitsFor : PthreadCall → Option (ℕ × ℕ)
  | .waitCondition conditionHandle mutexHandle
  | .waitConditionFor conditionHandle mutexHandle _
  | .waitConditionUntilRealtime conditionHandle mutexHandle _ => some (conditionHandle, mutexHandle)
  | _ => none

namespace Ledger

/-- What the thread waits for, if it owes a wait. -/
def waiting (l : Ledger) (thread : ℕ) : Option (ℕ × ℕ) := l.owed[thread]?.bind PthreadCall.waitsFor

/-- The weight of a call in a count of owed waits. -/
def weight (p : ℕ × ℕ → Bool) (call : PthreadCall) : ℕ := if call.waitsFor.any p then 1 else 0

/-- The number of owed waits with a property. -/
def count (p : ℕ × ℕ → Bool) (l : Ledger) : ℕ := total (weight p) l.owed

variable {l : Ledger} {p : ℕ × ℕ → Bool} {thread : ℕ}

theorem elim_weight (p : ℕ × ℕ → Bool) (l : Ledger) (thread : ℕ) :
    l.owed[thread]?.elim 0 (weight p) = if (l.waiting thread).any p then 1 else 0 := by
  rw [waiting]
  cases l.owed[thread]? <;> rfl

theorem count_eq_zero_iff :
    l.count p = 0 ↔ ∀ thread wait, l.waiting thread = some wait → p wait = false := by
  rw [count, total_eq_zero_iff]
  constructor
  · intro h thread wait hwait
    obtain ⟨call, hcall, hfor⟩ := bind_eq_some_iff.mp hwait
    have hzero := h _ _ hcall
    simpa [weight, hfor] using hzero
  · intro h thread call hcall
    cases hfor : call.waitsFor with
    | none => simp [weight, hfor]
    | some wait =>
      have hwait : l.waiting thread = some wait := by rw [waiting, hcall, bind_some, hfor]
      simp [weight, hfor, h _ _ hwait]

theorem count_pos {wait : ℕ × ℕ} (hwait : l.waiting thread = some wait) (hp : p wait = true) :
    0 < l.count p := by
  apply Nat.pos_of_ne_zero
  intro hzero
  cases (count_eq_zero_iff.mp hzero _ _ hwait).symm.trans hp

/-- A call that blocks: its thread owes it. -/
theorem waiting_block (l : Ledger) (thread other : ℕ) (call : PthreadCall) :
    (l.record (some thread) call .kWouldBlock).waiting other =
      if thread = other then call.waitsFor else l.waiting other := by
  simp only [waiting, record, if_true, getElem?_insert]
  split <;> rfl

theorem count_block (l : Ledger) (thread : ℕ) (call : PthreadCall) :
    (l.record (some thread) call .kWouldBlock).count p +
        (if (l.waiting thread).any p then 1 else 0) =
      l.count p + if call.waitsFor.any p then 1 else 0 := by
  rw [← elim_weight]
  exact total_insert (weight p) _ _ _

variable {status : KernelStatus}

/-- A call that is answered: its thread owes nothing. -/
theorem waiting_answer (l : Ledger) (thread other : ℕ) (call : PthreadCall)
    (hstat : status ≠ .kWouldBlock) :
    (l.record (some thread) call status).waiting other =
      if thread = other then none else l.waiting other := by
  simp only [waiting, record, if_neg hstat, getElem?_erase]
  split <;> rfl

theorem count_answer (l : Ledger) (thread : ℕ) (call : PthreadCall)
    (hstat : status ≠ .kWouldBlock) :
    (l.record (some thread) call status).count p +
      (if (l.waiting thread).any p then 1 else 0) = l.count p := by
  rw [← elim_weight]
  simp only [record, if_neg hstat]
  exact total_erase (weight p) _ _

/-- A call that is no wait, of a thread that owes none. -/
theorem waiting_record {call : PthreadCall} (hcall : call.waitsFor = none)
    (hwait : l.waiting thread = none) (status : KernelStatus) (other : ℕ) :
    (l.record (some thread) call status).waiting other = l.waiting other := by
  by_cases hstat : status = .kWouldBlock
  · rw [hstat, waiting_block]
    split
    next heq => rw [← heq, hcall, hwait]
    · rfl
  · rw [waiting_answer l _ _ _ hstat]
    split
    next heq => rw [← heq, hwait]
    · rfl

theorem count_record {call : PthreadCall} (hcall : call.waitsFor = none)
    (hwait : l.waiting thread = none) (status : KernelStatus) :
    (l.record (some thread) call status).count p = l.count p := by
  by_cases hstat : status = .kWouldBlock
  · have h := l.count_block (p := p) thread call
    rw [hstat]
    simpa [hcall, hwait] using h
  · have h := l.count_answer (p := p) thread call hstat
    simpa [hwait] using h

end Ledger

/-! ## The condition variables fit -/

/-- The thread is on the waiting list of the condition variable. -/
def conditionQueue (conditions : Std.ExtTreeMap ℕ ConditionState) (handle thread : ℕ) : Prop :=
  ∃ condition entry, conditions[handle]? = some condition ∧ entry ∈ condition.waiters ∧
    entry.thread = thread

/-- The thread of an entry is blocked until the deadline of the entry, or the deadline has just
woken it. -/
def ConditionWaiter.Attends (clock : SteadyClock) (s : PthreadService) (entry : ConditionWaiter) :
    Prop :=
  let key := conditionWaitKey entry.conditionHandle entry.thread
  s.scheduler.waitOf entry.thread = some (key, entry.deadlineNanoseconds) ∨
    s.scheduler.timedOutOf entry.thread = key ∧ ∃ deadline,
      entry.deadlineNanoseconds = some deadline ∧ deadline ≤ clock.monotonicNanoseconds s.reads

/-- What an entry of a waiting list stands for. -/
structure EntryFits (clock : SteadyClock) (s : PthreadService) (l : Ledger) (handle : ℕ)
    (entry : ConditionWaiter) : Prop where
  condition : entry.conditionHandle = handle
  live : entry.timedOut = false
  waiting : l.waiting entry.thread = some (handle, entry.mutexHandle)
  completed : s.completedConditionWaits[entry.thread]? = none
  attends : entry.Attends clock s

/-- A thread that owes a wait is queued or completed, its condition variable and its mutex are
there, and it owns the mutex only by a grant that it has not picked up. -/
structure WaitFits (s : PthreadService) (thread conditionHandle mutexHandle : ℕ) : Prop where
  queued : s.completedConditionWaits[thread]? = none →
    conditionQueue s.conditions conditionHandle thread
  condition : s.conditions[conditionHandle]?.isSome = true
  mutex : ∃ m, s.mutexes[mutexHandle]? = some m ∧
    (m.owner = thread → thread ≠ invalidKernelHandle → thread ∈ m.grantedWaiters)

/-- One condition variable and one mutex are changed. -/
theorem WaitFits.put {s s' : PthreadService} {thread conditionHandle mutexHandle handle other : ℕ}
    {condition : ConditionState} {m : MutexState}
    (h : WaitFits s thread conditionHandle mutexHandle)
    (hconds : s'.conditions = s.conditions.insert handle condition)
    (hmutexes : s'.mutexes = s.mutexes.insert other m)
    (hqueued : s'.completedConditionWaits[thread]? = none →
      conditionQueue s'.conditions conditionHandle thread)
    (hgrant : other = mutexHandle → m.owner = thread → thread ≠ invalidKernelHandle →
      thread ∈ m.grantedWaiters) : WaitFits s' thread conditionHandle mutexHandle where
  queued := hqueued
  condition := hconds ▸ isSome_insert _ _ h.condition
  mutex := by
    rw [hmutexes, getElem?_insert]
    split
    next heq => exact ⟨m, rfl, hgrant heq⟩
    · exact h.mutex

theorem conditionWaitKey_ne_empty (handle thread : ℕ) : conditionWaitKey handle thread ≠ "" :=
  ne_empty_of_isPthreadKey (isPthreadKey_conditionWaitKey handle thread)

namespace ConditionWaiter.Attends

variable {clock : SteadyClock} {s s' : PthreadService} {entry : ConditionWaiter}

theorem keep (h : entry.Attends clock s)
    (hwait : s'.scheduler.waitOf entry.thread = s.scheduler.waitOf entry.thread)
    (hlate : s'.scheduler.timedOutOf entry.thread = s.scheduler.timedOutOf entry.thread)
    (hreads : s.reads ≤ s'.reads) : entry.Attends clock s' := by
  rcases h with hblock | ⟨hexp, deadline, hdue, hpassed⟩
  · exact .inl (hwait.trans hblock)
  · exact .inr ⟨hlate.trans hexp, deadline, hdue, hpassed.trans (clock.steady hreads)⟩

/-- A thread that waits at all waits for the condition variable: a deadline does not wake a thread
twice. -/
theorem of_waitOf (h : entry.Attends clock s) (hs : Orderly s.scheduler) {wait : Wait}
    (hwait : s.scheduler.waitOf entry.thread = some wait) :
    wait = (conditionWaitKey entry.conditionHandle entry.thread, entry.deadlineNanoseconds) := by
  rcases h with hblock | ⟨hexp, -⟩
  · exact mem_unique hwait hblock
  · have hne : s.scheduler.timedOutOf entry.thread ≠ "" := hexp ▸ conditionWaitKey_ne_empty _ _
    cases ((hs.of_timedOut hne).1).symm.trans hwait

/-- A deadline that is reached wakes the thread, a key that is not used does not. -/
theorem awakes (h : entry.Attends clock s) (hs : Orderly s.scheduler) (hreads : s.reads ≤ s'.reads)
    {may : String → Prop}
    (hawakes : Awakes may (clock.monotonicNanoseconds s'.reads) s.scheduler s'.scheduler)
    (hmay : ¬ may (conditionWaitKey entry.conditionHandle entry.thread)) :
    entry.Attends clock s' := by
  rcases hawakes.cases entry.thread with ⟨hwait, hlate, -⟩ | ⟨key, deadline, hpre, -, -, hwake⟩
  · exact h.keep hwait hlate hreads
  obtain ⟨rfl, rfl⟩ := Prod.mk.inj (h.of_waitOf hs hpre)
  rcases hwake with ⟨hkey, -⟩ | ⟨⟨d, hdue, hle⟩, hafter⟩
  · exact absurd hkey hmay
  · exact .inr ⟨hafter, d, hdue, hle⟩

end ConditionWaiter.Attends

structure ConditionsFit (clock : SteadyClock) (s : PthreadService) (l : Ledger) : Prop where
  ordered : ∀ (handle : ℕ) condition, s.conditions[handle]? = some condition →
    condition.waiters.Pairwise fun a b => l.arrived a.thread < l.arrived b.thread
  entry : ∀ (handle : ℕ) condition, s.conditions[handle]? = some condition →
    ∀ entry ∈ condition.waiters, EntryFits clock s l handle entry
  completed : ∀ (thread : ℕ) entry,
    s.completedConditionWaits[thread]? = some entry → entry.thread = thread ∧
      l.waiting thread = some (entry.conditionHandle, entry.mutexHandle)
  waiting : ∀ thread conditionHandle mutexHandle,
    l.waiting thread = some (conditionHandle, mutexHandle) →
      WaitFits s thread conditionHandle mutexHandle
  waits : ∀ thread handle thread' deadline,
    s.scheduler.waitOf thread = some (conditionWaitKey handle thread', deadline) →
      thread = thread' ∧ conditionQueue s.conditions handle thread
  timedOut : ∀ thread handle thread',
    s.scheduler.timedOutOf thread = conditionWaitKey handle thread' →
      thread = thread' ∧ ∃ mutexHandle, l.waiting thread = some (handle, mutexHandle)
  active : ∀ (handle : ℕ) condition, s.conditions[handle]? = some condition →
    condition.activeWaiterCount = l.count (·.1 = handle)
  counted : ∀ (handle : ℕ) m, s.mutexes[handle]? = some m →
    m.conditionWaiterCount = l.count (·.2 = handle)

namespace ConditionsFit

variable {clock : SteadyClock} {s : PthreadService} {l : Ledger}

theorem initial (clock : SteadyClock) : ConditionsFit clock {} {} where
  ordered _ _ h := by simp at h
  entry _ _ h := by simp at h
  completed _ _ h := by simp at h
  waiting _ _ _ h := by simp [Ledger.waiting] at h
  waits _ _ _ _ h := by simp [waitOf] at h
  timedOut _ handle thread' h := absurd h.symm (conditionWaitKey_ne_empty handle thread')
  active _ _ h := by simp at h
  counted _ m h := by simp at h

variable {handle reads : ℕ} {scheduler : GuestScheduler} {condition : ConditionState}
  {m : MutexState} {call : PthreadCall}

section

variable (h : ConditionsFit clock s l)
include h

variable {thread : ℕ}

/-- A queued thread owes the wait and is not completed. -/
theorem of_queue (hqueue : conditionQueue s.conditions handle thread) :
    (∃ mutexHandle, l.waiting thread = some (handle, mutexHandle)) ∧
      s.completedConditionWaits[thread]? = none := by
  obtain ⟨condition, entry, hfound, hmem, rfl⟩ := hqueue
  have hentry := h.entry _ _ hfound _ hmem
  exact ⟨⟨_, hentry.waiting⟩, hentry.completed⟩

theorem not_queue_of_not_waiting (hwait : l.waiting thread = none) (handle : ℕ) :
    ¬ conditionQueue s.conditions handle thread := by
  intro hqueue
  obtain ⟨⟨_, hsome⟩, -⟩ := h.of_queue hqueue
  cases hwait.symm.trans hsome

theorem not_completed_of_not_waiting
    (hwait : l.waiting thread = none) : s.completedConditionWaits[thread]? = none := by
  rw [eq_none_iff_forall_ne_some]
  intro entry hentry
  cases ((h.completed _ _ hentry).2).symm.trans hwait

theorem not_queue_of_completed {entry : ConditionWaiter}
    (hdone : s.completedConditionWaits[thread]? = some entry) (handle : ℕ) :
    ¬ conditionQueue s.conditions handle thread := by
  intro hqueue
  cases ((h.of_queue hqueue).2).symm.trans hdone

/-- A queued thread that waits for nothing was woken by its deadline. -/
theorem timedOut_of_queue (hqueue : conditionQueue s.conditions handle thread)
    (hnone : s.scheduler.waitOf thread = none) :
    s.scheduler.timedOutOf thread = conditionWaitKey handle thread := by
  obtain ⟨condition, entry, hfound, hmem, rfl⟩ := hqueue
  have hentry := h.entry _ _ hfound _ hmem
  rcases hentry.attends with hwait | ⟨hlate, -⟩
  · cases hnone.symm.trans hwait
  · rw [hlate, hentry.condition]

section

variable (hs : Orderly s.scheduler)
include hs

/-- Threads were woken by their deadlines, and threads that are on no waiting list may have
done anything that has nothing to do with condition variables. -/
theorem withScheduler
    (hreads : s.reads ≤ reads) (hthreads : ∀ thread,
      (scheduler.waitOf thread = s.scheduler.waitOf thread ∧
        scheduler.timedOutOf thread = s.scheduler.timedOutOf thread) ∨
      (∃ key deadline, s.scheduler.waitOf thread = some (key, some deadline) ∧
        deadline ≤ clock.monotonicNanoseconds reads ∧ scheduler.waitOf thread = none ∧
        scheduler.timedOutOf thread = key) ∨
      (∀ handle, ¬ conditionQueue s.conditions handle thread) ∧ (∀ handle thread' deadline,
          scheduler.waitOf thread ≠ some (conditionWaitKey handle thread', deadline)) ∧
        ∀ handle thread', scheduler.timedOutOf thread ≠ conditionWaitKey handle thread') :
    ConditionsFit clock { s with scheduler, reads } l where
  __ := h
  entry handle condition hfound entry hmem := by
    have hentry := h.entry _ _ hfound _ hmem
    refine { hentry with attends := ?_ }
    rcases hthreads entry.thread with
      ⟨hwait, hlate⟩ | ⟨key, deadline, hpre, hreached, -, hafter⟩ | ⟨hnot, -⟩
    · exact hentry.attends.keep hwait hlate hreads
    · obtain ⟨hkey, hdue⟩ := Prod.mk.inj (hentry.attends.of_waitOf hs hpre)
      exact .inr ⟨hafter.trans hkey, deadline, hdue.symm, hreached⟩
    · exact absurd ⟨condition, entry, hfound, hmem, rfl⟩ (hnot handle)
  waiting thread conditionHandle mutexHandle hwaiting := by
    exact { h.waiting thread conditionHandle mutexHandle hwaiting with }
  waits thread handle thread' deadline hwait := by
    rcases hthreads thread with ⟨hsame, -⟩ | ⟨_, _, -, -, hnone, -⟩ | ⟨-, hnot, -⟩
    · exact h.waits thread handle thread' deadline (hsame ▸ hwait)
    · cases hnone.symm.trans hwait
    · exact absurd hwait (hnot handle thread' deadline)
  timedOut thread handle thread' hlate := by
    rcases hthreads thread with ⟨-, hsame⟩ | ⟨key, deadline, hpre, -, -, hafter⟩ | ⟨-, -, hnot⟩
    · exact h.timedOut thread handle thread' (hsame ▸ hlate)
    · rw [hafter.symm.trans hlate] at hpre
      exact (h.waits thread handle thread' _ hpre).imp_right fun hqueue => (h.of_queue hqueue).1
    · exact absurd hlate (hnot _ _)

theorem awakes (hreads : s.reads ≤ reads) {may : String → Prop}
    (hawakes : Awakes may (clock.monotonicNanoseconds reads) s.scheduler scheduler)
    (hmay : ∀ handle thread, ¬ may (conditionWaitKey handle thread)) :
    ConditionsFit clock { s with scheduler, reads } l := by
  apply h.withScheduler hs hreads
  intro thread
  rcases hawakes.cases thread with
    ⟨hwait, hlate, -⟩ | ⟨key, deadline, hpre, hnone, -, ⟨hkey, hempty⟩ | ⟨hreached, hafter⟩⟩
  · exact .inl ⟨hwait, hlate⟩
  · refine .inr (.inr ⟨fun handle hqueue => ?_, fun _ _ _ hsome => ?_, fun handle other heq => ?_⟩)
    · obtain ⟨condition, entry, hfound, hmem, rfl⟩ := hqueue
      have hwait := (h.entry _ _ hfound _ hmem).attends.of_waitOf hs hpre
      exact hmay _ _ ((Prod.mk.inj hwait).1 ▸ hkey)
    · cases hnone.symm.trans hsome
    · rw [hempty] at heq
      exact conditionWaitKey_ne_empty _ _ heq.symm
  · obtain ⟨d, rfl, hle⟩ := hreached
    exact .inr (.inl ⟨key, d, hpre, hle, hnone, hafter⟩)

theorem keeps (hreads : s.reads ≤ reads) {who : ℕ → Prop} (hkeeps : Keeps who s.scheduler scheduler)
    (hwho : ∀ thread, who thread → ∀ handle, ¬ conditionQueue s.conditions handle thread) :
    ConditionsFit clock { s with scheduler, reads } l := by
  apply h.withScheduler hs hreads
  intro thread
  rcases hkeeps.timedOutOf thread with hsame | ⟨hthread, hempty⟩
  · exact .inl ⟨hkeeps.waitOf _, hsame⟩
  refine .inr (.inr ⟨hwho _ hthread, fun handle other deadline hsome => ?_,
    fun handle other heq => ?_⟩)
  · rw [hkeeps.waitOf] at hsome
    exact hwho _ hthread _ (h.waits _ _ _ _ hsome).2
  · rw [hempty] at heq
    exact conditionWaitKey_ne_empty _ _ heq.symm

theorem blocks {thread : ℕ} {wait : Wait} (hblocks : Blocks thread wait s.scheduler scheduler)
    (hthread : ∀ handle, ¬ conditionQueue s.conditions handle thread)
    (hkey : ∀ handle other, wait.1 ≠ conditionWaitKey handle other) :
    ConditionsFit clock { s with scheduler } l := by
  refine h.withScheduler hs (le_refl s.reads) fun other => ?_
  by_cases heq : thread = other
  · subst heq
    refine .inr (.inr ⟨hthread, fun handle other deadline hsome => ?_, fun handle other heq => ?_⟩)
    · rw [hblocks.waitOf, if_pos rfl] at hsome
      exact hkey _ _ (congrArg _ (Option.some.inj hsome))
    · rw [hblocks.timedOutOf, if_pos rfl] at heq
      exact conditionWaitKey_ne_empty _ _ heq.symm
  · left
    rw [hblocks.waitOf, hblocks.timedOutOf, if_neg heq, if_neg heq]
    exact ⟨rfl, rfl⟩

end

/-- The mutexes are changed so that the owed waits and the grants are still right. -/
theorem withMutexes {mutexes : Std.ExtTreeMap ℕ MutexState}
    (hmutexes : ∀ handle : ℕ, s.mutexes[handle]? = none ∧ mutexes[handle]? = none ∨
      ∃ m m' : MutexState, s.mutexes[handle]? = some m ∧ mutexes[handle]? = some m' ∧
        m'.conditionWaiterCount = m.conditionWaiterCount ∧
        ∀ thread, l.waiting thread ≠ none → thread ≠ invalidKernelHandle → m'.owner = thread →
          (m.owner = thread → thread ∈ m.grantedWaiters) → thread ∈ m'.grantedWaiters) :
    ConditionsFit clock { s with mutexes } l where
  __ := h
  entry handle condition hfound entry hmem := by exact { h.entry _ _ hfound _ hmem with }
  waiting thread conditionHandle mutexHandle hwait := by
    have hfits := h.waiting _ _ _ hwait
    refine { hfits with mutex := ?_ }
    obtain ⟨m, hfound, howner⟩ := hfits.mutex
    rcases hmutexes mutexHandle with ⟨hnone, -⟩ | ⟨m₁, m', hm₁, hm', -, hgrant⟩
    · cases hfound.symm.trans hnone
    · cases hfound.symm.trans hm₁
      refine ⟨m', hm', fun howned hne => ?_⟩
      exact hgrant _ (by rw [hwait]; nofun) hne howned fun hm => howner hm hne
  counted handle _ hfound' := by
    rcases hmutexes handle with ⟨-, hnone⟩ | ⟨m, m₁, hm, hm₁, hcount, -⟩
    · cases hnone.symm.trans hfound'
    · cases hm₁.symm.trans hfound'
      rw [hcount]
      exact h.counted _ m hm

/-- The reader-writer locks do not matter. -/
theorem withRwlocks (rwlocks : Std.ExtTreeMap ℕ RwlockState) :
    ConditionsFit clock { s with rwlocks } l where
  __ := h
  entry handle condition hfound entry hmem := by exact { h.entry _ _ hfound _ hmem with }
  waiting thread conditionHandle mutexHandle hwait := by exact { h.waiting _ _ _ hwait with }

/-- One mutex is changed. -/
theorem putMutex {m' : MutexState}
    (hfound : s.mutexes[handle]? = some m)
    (hcount : m'.conditionWaiterCount = m.conditionWaiterCount)
    (hgrant : ∀ thread, l.waiting thread ≠ none → thread ≠ invalidKernelHandle →
      m'.owner = thread → (m.owner = thread → thread ∈ m.grantedWaiters) →
      thread ∈ m'.grantedWaiters) : ConditionsFit clock (s.putMutex handle m') l := by
  apply h.withMutexes
  intro other
  rw [getElem?_insert]
  split
  next heq => exact .inr ⟨m, m', heq ▸ hfound, rfl, hcount, hgrant⟩
  cases hother : s.mutexes[other]? with
  | none => exact .inl ⟨rfl, rfl⟩
  | some found =>
    exact .inr ⟨found, found, rfl, rfl, rfl, fun _ _ _ howner hgrant => hgrant howner⟩

/-- The arrival of a thread that is on no waiting list does not matter. -/
theorem ordered_stamp (hthread : ∀ handle, ¬ conditionQueue s.conditions handle thread) (time : ℕ)
    (handle : ℕ) (condition : ConditionState) (hfound : s.conditions[handle]? = some condition) :
    condition.waiters.Pairwise fun a b =>
      Function.update l.arrived thread time a.thread <
        Function.update l.arrived thread time b.thread := by
  have hout : ∀ entry ∈ condition.waiters, entry.thread ≠ thread :=
    fun entry hmem heq => hthread _ ⟨condition, entry, hfound, hmem, heq⟩
  refine (h.ordered _ _ hfound).imp_of_mem fun {a b} ha hb hlt => ?_
  rwa [Function.update_of_ne (hout a ha), Function.update_of_ne (hout b hb)]

/-- Only the owed waits and the order of the arrivals matter. -/
theorem withLedger {l' : Ledger}
    (hwait : ∀ thread, l'.waiting thread = l.waiting thread)
    (hcount : ∀ p, l'.count p = l.count p)
    (hord : ∀ (handle : ℕ) condition, s.conditions[handle]? = some condition →
        condition.waiters.Pairwise fun a b => l'.arrived a.thread < l'.arrived b.thread) :
    ConditionsFit clock s l' where
  ordered := hord
  entry handle condition hfound entry hmem := by
    have hentry := h.entry _ _ hfound _ hmem
    exact { hentry with waiting := (hwait _).trans hentry.waiting }
  completed thread entry hentry := by
    rw [hwait]
    exact h.completed _ _ hentry
  waiting thread conditionHandle mutexHandle hother := by
    rw [hwait] at hother
    exact h.waiting _ _ _ hother
  waits := h.waits
  timedOut thread handle thread' hlate := by
    rw [hwait]
    exact h.timedOut _ _ _ hlate
  active handle condition hfound := by
    rw [hcount]
    exact h.active _ _ hfound
  counted handle m hfound := by
    rw [hcount]
    exact h.counted _ m hfound

/-- The answer to a call that is no wait does not matter. -/
theorem record (hcall : call.waitsFor = none) (hnone : l.waiting thread = none)
    (status : KernelStatus) : ConditionsFit clock s (l.record (some thread) call status) := by
  refine h.withLedger (waiting_record hcall hnone status)
    (fun p => count_record hcall hnone status) fun handle condition hfound => ?_
  rw [Ledger.record]
  split
  · exact h.ordered_stamp (h.not_queue_of_not_waiting hnone) _ _ _ hfound
  · exact h.ordered _ _ hfound

/-- A thread whose wait is completed blocks once more, for the mutex. -/
theorem blockAgain (hcall : call.waitsFor = l.waiting thread)
    (hthread : ∀ handle, ¬ conditionQueue s.conditions handle thread) :
    ConditionsFit clock s (l.record (some thread) call .kWouldBlock) := by
  refine h.withLedger (fun other => ?_) (fun p => ?_) fun handle condition hfound => ?_
  · rw [waiting_block]
    split
    next heq => rw [hcall, heq]
    · rfl
  · have hcount := l.count_block (p := p) thread call
    rw [hcall] at hcount
    exact Nat.add_right_cancel hcount
  · exact h.ordered_stamp hthread _ _ _ hfound

end

variable {conditions : Std.ExtTreeMap ℕ ConditionState} {other : ℕ}

theorem conditionQueue_insert {thread : ℕ} :
    conditionQueue (conditions.insert handle condition) other thread ↔
      if handle = other then ∃ entry ∈ condition.waiters, entry.thread = thread
      else conditionQueue conditions other thread := by
  simp only [conditionQueue, getElem?_insert]
  split
  · simp
  · rfl

/-- A thread stays queued when its entry stays. -/
theorem conditionQueue_insert_of {thread : ℕ} {new : ConditionState}
    (hqueue : conditionQueue conditions other thread)
    (hfound : conditions[handle]? = some condition)
    (hkeep : handle = other → ∀ entry ∈ condition.waiters, entry.thread = thread →
      entry ∈ new.waiters) : conditionQueue (conditions.insert handle new) other thread := by
  obtain ⟨found, entry, hother, hmem, heq⟩ := hqueue
  rw [conditionQueue_insert]
  split
  next hhandle =>
    obtain rfl := mem_unique hfound (hhandle ▸ hother)
    exact ⟨entry, hkeep hhandle _ hmem heq, heq⟩
  · exact ⟨found, entry, hother, hmem, heq⟩

section

variable (h : ConditionsFit clock s l)
include h

/-- A thread is on a list only once. -/
theorem nodup_threads (hfound : s.conditions[handle]? = some condition) :
    (condition.waiters.map ConditionWaiter.thread).Nodup := by
  rw [List.Nodup, List.pairwise_map]
  exact (h.ordered _ _ hfound).imp fun hlt heq => hlt.ne (congrArg _ heq)

theorem eq_of_thread_eq (hfound : s.conditions[handle]? = some condition) {a b : ConditionWaiter}
    (ha : a ∈ condition.waiters) (hb : b ∈ condition.waiters) (heq : a.thread = b.thread) : a = b :=
  List.inj_on_of_nodup_map (h.nodup_threads hfound) ha hb heq

section Complete

variable {gone left : List ConditionWaiter} (hfound : s.conditions[handle]? = some condition)
  (hperm : condition.waiters.Perm (gone ++ left))
include hfound hperm

theorem entry_of_gone {lost : ConditionWaiter} (hlost : lost ∈ gone) :
    EntryFits clock s l handle lost :=
  h.entry _ _ hfound _ (hperm.mem_iff.mpr (List.mem_append_left _ hlost))

/-- The thread of an entry that stays has none among those that go. -/
theorem thread_ne_of_gone {found : ConditionState} {entry lost : ConditionWaiter}
    (hother : s.conditions[other]? = some found) (hmem : entry ∈ found.waiters)
    (hin : handle = other → entry ∈ left) (hlost : lost ∈ gone) : lost.thread ≠ entry.thread := by
  intro heq
  by_cases hhandle : handle = other
  · have hnodup := (hperm.map ConditionWaiter.thread).nodup_iff.mp (h.nodup_threads hfound)
    rw [List.map_append, List.nodup_append'] at hnodup
    exact hnodup.2.2 (List.mem_map_of_mem hlost) (heq ▸ List.mem_map_of_mem (hin hhandle))
  · have hwaiting := (h.entry_of_gone hfound hperm hlost).waiting
    rw [heq, (h.entry _ _ hother _ hmem).waiting, Option.some.injEq, Prod.mk.injEq] at hwaiting
    exact hhandle hwaiting.1.symm

variable {s' : PthreadService} {may : String → Prop} (hs : Orderly s.scheduler)
  (hothers : ∀ thread, (∀ entry ∈ gone, entry.thread ≠ thread) →
    s'.completedConditionWaits[thread]? = s.completedConditionWaits[thread]?)
  (hreads : s.reads ≤ s'.reads)
  (hawakes : Awakes may (clock.monotonicNanoseconds s'.reads) s.scheduler s'.scheduler)
  (hmay : ∀ key, may key → ∃ entry ∈ gone, key = conditionWaitKey handle entry.thread)
include hs hothers hreads hawakes hmay

theorem entry_of_stays {found : ConditionState} {entry : ConditionWaiter}
    (hother : s.conditions[other]? = some found) (hmem : entry ∈ found.waiters)
    (hin : handle = other → entry ∈ left) : EntryFits clock s' l other entry := by
  have hold := h.entry _ _ hother _ hmem
  have hstays (lost : ConditionWaiter) (hlost : lost ∈ gone) :=
    h.thread_ne_of_gone hfound hperm hother hmem hin hlost
  refine { hold with
    completed := (hothers _ hstays).trans hold.completed
    attends := hold.attends.awakes hs hreads hawakes fun hkey => ?_ }
  obtain ⟨lost, hlost, heq⟩ := hmay _ hkey
  exact hstays lost hlost (conditionWaitKey_inj.mp heq).2.symm

/-- Some entries leave the list of a condition variable and are completed. Their threads are
woken, if their deadlines have not done so before. -/
theorem complete (hleft : left.Sublist condition.waiters)
    (hconds : s'.conditions = s.conditions.insert handle { condition with waiters := left })
    (hmutexes : s'.mutexes = s.mutexes)
    (hgone : ∀ entry ∈ gone, ∃ timedOut,
      s'.completedConditionWaits[entry.thread]? = some { entry with timedOut })
    (hwoken : ∀ entry ∈ gone, s'.scheduler.NoneWaits (conditionWaitKey handle entry.thread)) :
    ConditionsFit clock s' l where
  ordered := by
    rw [hconds]
    exact forall_insert ((h.ordered _ _ hfound).sublist hleft) fun other found _ =>
      h.ordered other found
  entry := by
    rw [hconds]
    apply forall_insert
    · intro entry hmem
      exact h.entry_of_stays hfound hperm hs hothers hreads hawakes hmay hfound
        (hleft.subset hmem) fun _ => hmem
    · intro other found hne hother entry hmem
      exact h.entry_of_stays hfound hperm hs hothers hreads hawakes hmay hother hmem
        fun heq => absurd heq hne
  completed thread entry hdone := by
    by_cases hlost : ∃ lost ∈ gone, lost.thread = thread
    · obtain ⟨lost, hlost, rfl⟩ := hlost
      obtain ⟨timedOut, hto⟩ := hgone _ hlost
      cases hto.symm.trans hdone
      have hold := h.entry_of_gone hfound hperm hlost
      refine ⟨rfl, ?_⟩
      rw [hold.waiting, hold.condition]
    · rw [hothers thread fun lost hmem heq => hlost ⟨lost, hmem, heq⟩] at hdone
      exact h.completed _ _ hdone
  waiting thread conditionHandle mutexHandle hwaiting := by
    have hfits := h.waiting _ _ _ hwaiting
    refine ⟨fun hnone => ?_, ?_, hmutexes ▸ hfits.mutex⟩
    · have hkept : ∀ lost ∈ gone, lost.thread ≠ thread := by
        rintro lost hmem rfl
        obtain ⟨timedOut, hto⟩ := hgone _ hmem
        cases hto.symm.trans hnone
      rw [hothers _ hkept] at hnone
      rw [hconds]
      refine conditionQueue_insert_of (hfits.queued hnone) hfound fun _ entry hmem heq => ?_
      exact (List.mem_append.mp (hperm.mem_iff.mp hmem)).resolve_left fun hin => hkept _ hin heq
    · rw [hconds]
      exact isSome_insert _ _ hfits.condition
  waits thread other thread' deadline hwait := by
    obtain ⟨rfl, hqueue⟩ := h.waits _ _ _ _ (hawakes.waitOf_of_some hwait)
    rw [hconds]
    refine ⟨rfl, conditionQueue_insert_of hqueue hfound ?_⟩
    rintro rfl entry hmem rfl
    exact (List.mem_append.mp (hperm.mem_iff.mp hmem)).resolve_left
      fun hin => hwoken _ hin _ _ hwait
  timedOut thread other thread' hlate := by
    rcases hawakes.cases thread with ⟨-, hsame, -⟩ |
      ⟨key, deadline, hpre, -, -, ⟨-, hempty⟩ | ⟨-, hafter⟩⟩
    · exact h.timedOut thread other thread' (hsame ▸ hlate)
    · exact absurd (hlate.symm.trans hempty) (conditionWaitKey_ne_empty other thread')
    · rw [hafter.symm.trans hlate] at hpre
      exact (h.waits thread other thread' _ hpre).imp_right fun hqueue => (h.of_queue hqueue).1
  active := by
    rw [hconds]
    exact forall_insert (h.active _ condition hfound) fun other found _ => h.active _ _
  counted := hmutexes ▸ h.counted

end Complete

variable {mutexHandle thread : ℕ}

/-- The entries of the other threads, when a thread that owed nothing blocks. -/
theorem entry_of_blocks {mutexes : Std.ExtTreeMap ℕ MutexState} {wait : Wait}
    (hnone : l.waiting thread = none) (hblocks : Blocks thread wait s.scheduler scheduler)
    (hfound : s.conditions[handle]? = some condition) {entry : ConditionWaiter}
    (hmem : entry ∈ condition.waiters) :
    EntryFits clock { s with conditions, mutexes, scheduler }
      (l.record (some thread) call .kWouldBlock) handle entry := by
  have hold := h.entry _ _ hfound _ hmem
  have hne : thread ≠ entry.thread := fun heq =>
    h.not_queue_of_not_waiting hnone _ ⟨condition, entry, hfound, hmem, heq.symm⟩
  refine { hold with
    waiting := ?_
    attends := hold.attends.keep ?_ ?_ (le_refl s.reads) }
  · rw [waiting_block, if_neg hne, hold.waiting]
  · rw [hblocks.waitOf, if_neg hne]
  · rw [hblocks.timedOutOf, if_neg hne]

/-- The current thread starts to wait: it is queued and counted, it has left the mutex, and it
blocks. -/
theorem enroll (hfound : s.conditions[handle]? = some condition)
    (hmutex : s.mutexes[mutexHandle]? = some m)
    (howner : m.owner = thread → thread ≠ invalidKernelHandle → thread ∈ m.grantedWaiters)
    (hnone : l.waiting thread = none) (hrecent : ∀ other, l.arrived other < l.time)
    (hcall : call.waitsFor = some (handle, mutexHandle)) {deadline : Option ℕ}
    (hblocks : Blocks thread (conditionWaitKey handle thread, deadline) s.scheduler scheduler) :
    ConditionsFit clock { s with
      conditions := s.conditions.insert handle
        { waiters := condition.waiters ++ [{
            thread
            conditionHandle := handle
            mutexHandle
            deadlineNanoseconds := deadline }]
          activeWaiterCount := condition.activeWaiterCount + 1 }
      mutexes := s.mutexes.insert mutexHandle
        { m with conditionWaiterCount := m.conditionWaiterCount + 1 }
      scheduler } (l.record (some thread) call .kWouldBlock) := by
  have hout := h.not_queue_of_not_waiting hnone
  have hdone := h.not_completed_of_not_waiting hnone
  have hself : (l.record (some thread) call .kWouldBlock).waiting thread =
      some (handle, mutexHandle) := by
    rw [waiting_block, if_pos rfl, hcall]
  have hcounts (p : ℕ × ℕ → Bool) : (l.record (some thread) call .kWouldBlock).count p =
      l.count p + if p (handle, mutexHandle) then 1 else 0 := by
    have hcount := l.count_block (p := p) thread call
    rwa [hnone, hcall] at hcount
  set entry : ConditionWaiter :=
    { thread, conditionHandle := handle, mutexHandle, deadlineNanoseconds := deadline }
  set new : ConditionState :=
    { waiters := condition.waiters ++ [entry]
      activeWaiterCount := condition.activeWaiterCount + 1 }
  have hqueue {other thread' : ℕ} (hold : conditionQueue s.conditions other thread') :
      conditionQueue (s.conditions.insert handle new) other thread' :=
    conditionQueue_insert_of hold hfound fun _ _ hmem _ => List.mem_append_left _ hmem
  have hqueued : conditionQueue (s.conditions.insert handle new) handle thread := by
    rw [conditionQueue_insert, if_pos rfl]
    exact ⟨entry, List.mem_append_right _ List.mem_cons_self, rfl⟩
  constructor
  case ordered =>
    simp only [Ledger.record, if_true]
    refine forall_insert (List.pairwise_append.mpr
      ⟨h.ordered_stamp hout _ _ _ hfound, List.pairwise_singleton _ _, fun a ha b hb => ?_⟩)
      fun other found _ => h.ordered_stamp hout l.time other found
    rw [List.mem_singleton.mp hb, Function.update_self, Function.update_of_ne]
    · exact hrecent _
    · exact fun heq => hout _ ⟨condition, a, hfound, ha, heq⟩
  case entry =>
    apply forall_insert
    · intro old hmem
      rcases List.mem_append.mp hmem with hmem | hmem
      · exact h.entry_of_blocks hnone hblocks hfound hmem
      rw [List.mem_singleton.mp hmem]
      refine ⟨rfl, rfl, hself, hdone, .inl ?_⟩
      rw [hblocks.waitOf, if_pos rfl]
    · exact fun other found _ hother old => h.entry_of_blocks hnone hblocks hother
  case completed =>
    intro other old hother
    have hold := h.completed _ _ hother
    rw [waiting_block, if_neg]
    · exact hold
    · rintro rfl
      cases hdone.symm.trans hother
  case waiting =>
    intro other conditionHandle mutexHandle' hother
    rw [waiting_block] at hother
    split at hother
    next heq =>
      subst heq
      cases hcall.symm.trans hother
      refine ⟨fun _ => hqueued, ?_, ?_⟩
      · rw [getElem?_insert, if_pos rfl]
        rfl
      · refine ⟨{ m with conditionWaiterCount := m.conditionWaiterCount + 1 }, ?_, howner⟩
        rw [getElem?_insert, if_pos rfl]
    · have hfits := h.waiting _ _ _ hother
      refine hfits.put rfl rfl (fun hnot => hqueue (hfits.queued hnot)) ?_
      rintro rfl
      obtain ⟨found, hm, hgrant⟩ := hfits.mutex
      cases hmutex.symm.trans hm
      exact hgrant
  case waits =>
    intro other handle' thread' deadline' hwait
    rw [hblocks.waitOf] at hwait
    split at hwait
    next heq =>
      rw [Option.some.injEq, Prod.mk.injEq, conditionWaitKey_inj] at hwait
      obtain ⟨⟨rfl, rfl⟩, rfl⟩ := hwait
      exact ⟨heq.symm, heq ▸ hqueued⟩
    · exact (h.waits _ _ _ _ hwait).imp_right hqueue
  case timedOut =>
    intro other handle' thread' hlate
    rw [hblocks.timedOutOf] at hlate
    split at hlate
    · exact absurd hlate.symm (conditionWaitKey_ne_empty _ _)
    next hne =>
      rw [waiting_block, if_neg hne]
      exact h.timedOut _ _ _ hlate
  case active =>
    apply forall_insert
    · simp [new, hcounts, h.active _ _ hfound]
    · intro other found hne hother
      simp [hcounts, hne, h.active _ _ hother]
  case counted =>
    apply forall_insert
    · simp [hcounts, h.counted _ m hmutex]
    · intro other found hne hother
      simp [hcounts, hne, h.counted _ _ hother]

section Finish

variable {conditionHandle : ℕ} {entry : ConditionWaiter} {m' : MutexState}
  (hwaiting : l.waiting thread = some (conditionHandle, mutexHandle))
  (hfound : s.conditions[conditionHandle]? = some condition)
  (hdone : s.completedConditionWaits[thread]? = some entry)
  (hmutex : s.mutexes[mutexHandle]? = some m)
  (hcount : m'.conditionWaiterCount = m.conditionWaiterCount)
include hwaiting hfound hdone hmutex hcount

/-- The counters allow to answer a completed wait. -/
theorem finishConditionWait_eq :
    (s.putMutex mutexHandle m').finishConditionWait conditionHandle mutexHandle thread =
      (if entry.timedOut then .kTimedOut else .kOk, { s with
        conditions := s.conditions.insert conditionHandle
          { condition with activeWaiterCount := condition.activeWaiterCount - 1 }
        mutexes := s.mutexes.insert mutexHandle
          { m' with conditionWaiterCount := m'.conditionWaiterCount - 1 }
        completedConditionWaits := s.completedConditionWaits.erase thread }) := by
  have hactive : condition.activeWaiterCount ≠ 0 := by
    rw [h.active _ _ hfound]
    exact (count_pos hwaiting (by simp)).ne'
  have hcounted : m'.conditionWaiterCount ≠ 0 := by
    rw [hcount, h.counted _ m hmutex]
    exact (count_pos hwaiting (by simp)).ne'
  simp only [PthreadService.finishConditionWait, PthreadService.putMutex, hdone, hfound,
    getElem?_insert, if_true, insert_insert]
  rw [if_neg (not_or.mpr ⟨hactive, hcounted⟩)]

/-- The current thread has the mutex again and its completed wait is answered. -/
theorem finish (howner : m'.owner = thread)
    (hexp : s.scheduler.timedOutOf thread ≠ conditionWaitKey conditionHandle thread)
    (call : PthreadCall) {status : KernelStatus} (hstat : status ≠ .kWouldBlock) :
    ConditionsFit clock
      ((s.putMutex mutexHandle m').finishConditionWait conditionHandle mutexHandle thread).2
      (l.record (some thread) call status) := by
  rw [h.finishConditionWait_eq hwaiting hfound hdone hmutex hcount]
  have hcounts (p : ℕ × ℕ → Bool) : l.count p = (l.record (some thread) call status).count p +
      if p (conditionHandle, mutexHandle) then 1 else 0 := by
    have hans := l.count_answer (p := p) thread call hstat
    rw [hwaiting] at hans
    exact hans.symm
  have hqueue {other thread' : ℕ} (hold : conditionQueue s.conditions other thread') :
      conditionQueue (s.conditions.insert conditionHandle
        { condition with activeWaiterCount := condition.activeWaiterCount - 1 }) other thread' :=
    conditionQueue_insert_of hold hfound fun _ _ hmem _ => hmem
  have hlook : ∀ (other : ℕ) (found : ConditionState), (s.conditions.insert conditionHandle
      { condition with activeWaiterCount := condition.activeWaiterCount - 1 })[other]? =
        some found → ∃ old, s.conditions[other]? = some old ∧ found.waiters = old.waiters :=
    forall_insert ⟨condition, hfound, rfl⟩ fun other found _ hother => ⟨found, hother, rfl⟩
  constructor
  case ordered =>
    intro other found hother
    obtain ⟨old, hold, hsame⟩ := hlook _ _ hother
    simp only [Ledger.record, if_neg hstat, hsame]
    exact h.ordered _ _ hold
  case entry =>
    intro other found hother e hmem
    obtain ⟨old, hold, hsame⟩ := hlook _ _ hother
    rw [hsame] at hmem
    have hentry := h.entry _ _ hold e hmem
    have hthread : thread ≠ e.thread := fun heq =>
      h.not_queue_of_completed hdone _ ⟨old, e, hold, hmem, heq.symm⟩
    refine { hentry with waiting := ?_, completed := ?_ }
    · rw [waiting_answer l _ _ _ hstat, if_neg hthread, hentry.waiting]
    · rw [getElem?_erase, if_neg hthread, hentry.completed]
  case completed =>
    intro other e hother
    obtain ⟨hthread, hold⟩ := getElem?_of_erase hother
    rw [waiting_answer l _ _ _ hstat, if_neg hthread]
    exact h.completed _ e hold
  case waiting =>
    intro other c mu hother
    rw [waiting_answer l _ _ _ hstat] at hother
    split_ifs at hother
    next hthread =>
      have hold := h.waiting _ c _ hother
      refine hold.put rfl rfl (fun hnone => ?_) fun _ howned _ =>
        absurd (howner.symm.trans howned) hthread
      rw [getElem?_erase, if_neg hthread] at hnone
      exact hqueue (hold.queued hnone)
  case waits => exact fun _ _ _ _ hwait => (h.waits _ _ _ _ hwait).imp_right hqueue
  case timedOut =>
    intro other handle thread' hlate
    obtain ⟨rfl, mu, hother⟩ := h.timedOut _ _ _ hlate
    refine ⟨rfl, mu, ?_⟩
    rw [waiting_answer l _ _ _ hstat, if_neg]
    · exact hother
    · rintro rfl
      rw [hwaiting, Option.some.injEq, Prod.mk.injEq] at hother
      exact hexp (hother.1 ▸ hlate)
  case active =>
    apply forall_insert
    · simp [h.active _ _ hfound, hcounts]
    · intro other found hne hother
      simp [h.active _ _ hother, hcounts, hne]
  case counted =>
    apply forall_insert
    · simp [hcount, h.counted _ m hmutex, hcounts]
    · intro other found hne hother
      simp [h.counted _ _ hother, hcounts, hne]

end Finish

/-- Objects that are created or destroyed are not waited with. -/
theorem administers {s' : PthreadService}
    (hadministers : Administers s s') : ConditionsFit clock s' l := by
  obtain ⟨hsched, hreads, hdone, hmutexes, -, hconds⟩ := hadministers
  have hqueue : ∀ handle thread, conditionQueue s.conditions handle thread →
      conditionQueue s'.conditions handle thread := by
    rintro handle thread ⟨condition, entry, hfound, hmem, heq⟩
    rcases hconds.of_before hfound with hafter | ⟨-, hidle⟩
    · exact ⟨condition, entry, hafter, hmem, heq⟩
    · simp [hidle] at hmem
  refine ⟨fun handle condition hfound => ?_, fun handle condition hfound entry hmem => ?_, ?_,
    fun thread conditionHandle mutexHandle hwaiting => ?_,
    fun thread handle thread' deadline hwait => ?_, ?_,
    fun handle condition hfound => ?_, fun handle m hfound => ?_⟩
  · rcases hconds.of_after hfound with hpre | ⟨-, rfl⟩
    · exact h.ordered _ _ hpre
    · exact List.Pairwise.nil
  · rcases hconds.of_after hfound with hpre | ⟨-, rfl⟩
    · have hentry := h.entry _ _ hpre _ hmem
      refine { hentry with completed := hdone ▸ hentry.completed, attends := ?_ }
      have hattends := hentry.attends
      rwa [ConditionWaiter.Attends, ← hsched, ← hreads] at hattends
    · cases hmem
  · rw [hdone]
    exact h.completed
  · have hfits := h.waiting _ _ _ hwaiting
    refine ⟨fun hnone => hqueue _ _ (hfits.queued (hdone ▸ hnone)), ?_, ?_⟩
    · obtain ⟨condition, hfound⟩ := isSome_iff_exists.mp hfits.condition
      rcases hconds.of_before hfound with hafter | ⟨hidle, -⟩
      · rw [hafter]
        rfl
      · rw [h.active _ _ hfound, count_eq_zero_iff] at hidle
        simpa using hidle _ _ hwaiting
    · obtain ⟨m, hfound, hgrant⟩ := hfits.mutex
      rcases hmutexes.of_before hfound with hafter | hidle
      · exact ⟨m, hafter, hgrant⟩
      · simp only [MutexState.busy, decide_eq_false_iff_not, not_or, not_not] at hidle
        have hzero := hidle.2.2.2
        rw [h.counted _ m hfound, count_eq_zero_iff] at hzero
        simpa using hzero _ _ hwaiting
  · rw [hsched] at hwait
    exact (h.waits _ _ _ _ hwait).imp_right (hqueue _ _)
  · rw [hsched]
    exact h.timedOut
  · rcases hconds.of_after hfound with hpre | ⟨hfree, rfl⟩
    · exact h.active _ _ hpre
    symm
    rw [count_eq_zero_iff]
    intro thread wait hwaiting
    rw [decide_eq_false_iff_not]
    rintro rfl
    have hsome := (h.waiting _ _ _ hwaiting).condition
    rw [hfree] at hsome
    cases hsome
  · rcases hmutexes.of_after hfound with hpre | ⟨hfree, hfresh⟩
    · exact h.counted _ m hpre
    rw [hfresh.conditionWaiterCount]
    symm
    rw [count_eq_zero_iff]
    intro thread wait hwaiting
    rw [decide_eq_false_iff_not]
    rintro rfl
    obtain ⟨m, hm, -⟩ := (h.waiting _ _ _ hwaiting).mutex
    rw [hfree] at hm
    cases hm

end

end ConditionsFit

end KajPS5.Kernel
