/-
# Waiting for a condition variable

A wait call of a thread that owes nothing queues the thread, leaves the mutex and blocks, or is
refused. A wait call of a thread that owes it finds the wait completed, by a signal or by the
deadline that woke the thread, and gets the mutex: at once, through a grant, or by blocking once
more for it. A signal completes waits from the front of the queue.
-/

import KajPS5.Kernel.PthreadInvariant

namespace KajPS5.Kernel

open Math GuestScheduler OrderedMaps Ledger PthreadService Option

namespace PthreadService

/-- What a wait call answers, with the waits that were completed before. -/
structure WaitAnswers (completed : Std.ExtTreeMap ℕ ConditionWaiter) (l : Ledger)
    (current mutexHandle : ℕ) (result : KernelStatus × PthreadService) : Prop where
  refused : l.waiting current = none → result.1 ≠ .kOk ∧ result.1 ≠ .kTimedOut
  resumed : l.waiting current ≠ none →
    result.1 = .kWouldBlock ∨ result.1 = .kOk ∨ result.1 = .kTimedOut
  signalled : result.1 = .kOk → ∃ entry, completed[current]? = some entry ∧ entry.timedOut = false
  owner : result.1 = .kOk ∨ result.1 = .kTimedOut →
    ∃ m, result.2.mutexes[mutexHandle]? = some m ∧ m.owner = current
  completes : ∀ thread : ℕ, let after := result.2.completedConditionWaits[thread]?
    after = completed[thread]? ∨ thread = current ∧ l.waiting current ≠ none ∧
      ((∃ entry, completed[thread]? = some entry ∧ after = none ∧
          result.1 = if entry.timedOut then .kTimedOut else .kOk) ∨
        completed[thread]? = none ∧ ∃ entry, after = some entry ∧ entry.timedOut = true)

namespace Fits

variable {clock : SteadyClock} {s : PthreadService} {l : Ledger}
  {current conditionHandle mutexHandle : ℕ} {call : PthreadCall}

theorem owed_ne_of_waiting (hwait : l.waiting current ≠ none) (handle : ℕ) (write : Bool) :
    l.owed[current]? ≠ some (.lockRwlock handle write false) := by
  intro howed
  rw [waiting, howed] at hwait
  exact hwait rfl

variable {entry : ConditionWaiter} {scheduler : GuestScheduler}

/-- The entry of a thread that is found and taken off the list. -/
theorem eraseP_entry (h : Fits clock s l) {condition : ConditionState}
    (hfound : s.conditions[conditionHandle]? = some condition) (hmem : entry ∈ condition.waiters)
    (isWaiter : ConditionWaiter → Bool) (hentry : isWaiter entry = true)
    (hthread : ∀ waiter, isWaiter waiter = true → waiter.thread = entry.thread) :
    condition.waiters.find? isWaiter = some entry ∧
      condition.waiters.Perm ([entry] ++ condition.waiters.eraseP isWaiter) := by
  have honly : ∀ waiter ∈ condition.waiters, isWaiter waiter = true → waiter = entry :=
    fun waiter hwaiter his => h.conditions.eq_of_thread_eq hfound hwaiter hmem (hthread _ his)
  constructor
  · obtain ⟨waiter, hfind⟩ := isSome_iff_exists.mp
      (List.find?_isSome.mpr ⟨entry, hmem, hentry⟩)
    rw [hfind, honly _ (List.mem_of_find?_eq_some hfind) (List.find?_some hfind)]
  · obtain ⟨removed, before, after, -, hremoved, hwaiters, herase⟩ :=
      List.exists_of_eraseP hmem hentry
    obtain rfl := honly _ (hwaiters ▸ List.mem_append_right _ List.mem_cons_self) hremoved
    rw [herase]
    exact hwaiters ▸ List.perm_middle

/-- The owner of a mutex unlocks it after it has been counted as a condition waiter. -/
theorem unlockMutex_counted (hcur : s.scheduler.currentThread = some current) {m : MutexState}
    (howner : m.owner = current) (hcount : m.recursionCount = 1) (conditionWaiterCount : ℕ)
    (conditions : Std.ExtTreeMap ℕ ConditionState) {reads : ℕ}
    (hwake : (s.putMutex mutexHandle (m.leave mutexHandle current).2).wakeBlockedThreads clock
      (m.leave mutexHandle current).1.toList =
        { s.putMutex mutexHandle (m.leave mutexHandle current).2 with scheduler, reads }) :
    { s with
      conditions
      mutexes := s.mutexes.insert mutexHandle
        { m with conditionWaiterCount } }.unlockMutex clock mutexHandle =
      (.kOk, { s with
        conditions
        mutexes := s.mutexes.insert mutexHandle
          { (m.leave mutexHandle current).2 with conditionWaiterCount }
        scheduler
        reads }) := by
  have hfound : (s.mutexes.insert mutexHandle { m with conditionWaiterCount })[mutexHandle]? =
      some { m with conditionWaiterCount } := by
    rw [getElem?_insert, if_pos rfl]
  simp only [PthreadService.unlockMutex, hcur, hfound]
  rw [if_neg (not_not.mpr howner), if_neg (hcount ▸ one_ne_zero),
    if_neg (by rw [hcount]; exact not_not.mpr rfl), MutexState.leave_recount]
  refine congrArg (Prod.mk _) ((wakeBlockedThreads_frame _ _
    (s := s.putMutex mutexHandle (m.leave mutexHandle current).2) ?_ ?_).trans ?_)
  · rfl
  · rfl
  · rw [hwake]
    simp [PthreadService.putMutex, insert_insert]

section

variable (h : Fits clock s l) (hcur : s.scheduler.currentThread = some current)
include h hcur

/-- A completed wait gets the mutex and is answered, or blocks for the mutex. -/
theorem completeConditionWait (hcall : call.waitsFor = some (conditionHandle, mutexHandle))
    (hstart : call.Startable) (hwaiting : l.waiting current = some (conditionHandle, mutexHandle))
    (hdone : s.completedConditionWaits[current]? = some entry)
    (hexp : s.scheduler.timedOutOf current ≠ conditionWaitKey conditionHandle current) :
    ∃ status s', s.completeConditionWait conditionHandle mutexHandle current = (status, s') ∧
      Fits clock s' (l.record (some current) call status) ∧
      (status = .kWouldBlock ∧ s'.completedConditionWaits = s.completedConditionWaits ∨
        status = (if entry.timedOut then .kTimedOut else .kOk) ∧
          (∃ m, s'.mutexes[mutexHandle]? = some m ∧ m.owner = current) ∧
          s'.completedConditionWaits = s.completedConditionWaits.erase current) := by
  have howed := owed_ne_of_waiting (l := l) (by rw [hwaiting]; exact some_ne_none _)
  have hwait := h.orderly.waitOf_current hcur
  have hpos := h.orderly.current_pos hcur
  obtain ⟨m, hmutex, hgrant⟩ := (h.conditions.waiting _ _ _ hwaiting).mutex
  have hlock := locksMutex mutexHandle false h.orderly
  rw [PthreadService.completeConditionWait]
  generalize s.lockMutex mutexHandle false = result at hlock
  cases hlock with
  | refuse _ _ _ hwhy => simp [hcur, hmutex] at hwhy
  | answer thread hthread found m' hfound status hlocks =>
    obtain rfl := mem_unique hcur hthread
    obtain rfl := mem_unique hmutex hfound
    obtain ⟨hfits, hwaiters⟩ := (h.mutexes.fits _ m hmutex).answer hlocks hpos
    have hlocked : status = .kOk ∧ m'.owner = current ∧
        m'.conditionWaiterCount = m.conditionWaiterCount := by
      cases hlocks with
      | acquire => exact ⟨rfl, rfl, rfl⟩
      | granted howner => exact ⟨rfl, howner, rfl⟩
      | again howner _ hnot => exact absurd (hgrant howner hpos.ne') hnot
      | refuse _ _ htry => cases htry
    obtain ⟨rfl, howner, hcount⟩ := hlocked
    have hans : (if entry.timedOut then KernelStatus.kTimedOut else .kOk) ≠ .kWouldBlock := by
      split <;> decide
    obtain ⟨condition, hfound⟩ :=
      isSome_iff_exists.mp (h.conditions.waiting _ _ _ hwaiting).condition
    have hres := h.conditions.finishConditionWait_eq hwaiting hfound hdone hmutex hcount
    have hconds := h.conditions.finish hwaiting hfound hdone hmutex hcount howner hexp call hans
    rw [hres] at hconds
    refine ⟨_, _, hres, ⟨h.orderly, ?_, ?_, hconds, recent_record h.recent _ _,
      startable_record h.startable hstart _⟩, .inr ⟨rfl,
        ⟨{ m' with conditionWaiterCount := m'.conditionWaiterCount - 1 }, ?_, howner⟩, rfl⟩⟩
    · simp only [Ledger.record, if_neg hans]
      exact h.mutexes.put hmutex (hfits.recount _) hwaiters
    · exact h.rwlocks.withOwed (fun other _ _ => howed _) (owed_record_of_ne l _ _ _)
    · rw [getElem?_insert, if_pos rfl]
  | block thread hthread found m' hfound hlocks scheduler hord hblocks =>
    obtain rfl := mem_unique hcur hthread
    obtain rfl := mem_unique hmutex hfound
    obtain ⟨hcount, howner, hgranted⟩ := hlocks.of_wait
    have hqueue := h.conditions.not_queue_of_completed hdone
    refine ⟨_, _, rfl, ⟨hord, ?_, ?_, ?_, recent_record h.recent _ _,
      startable_record h.startable hstart _⟩, .inl ⟨rfl, rfl⟩⟩
    · exact h.mutexes.enqueue hmutex hlocks hpos hwait h.recent hblocks
    · refine RwlocksFit.withOwed ?_ (fun other _ _ => howed other)
        (owed_record_of_ne l current call _)
      exact h.rwlocks.withListed (h.rwlocks.listed.blocks hblocks hwait
        fun a b => mutexWaitKey_ne_rwlockWaitKey mutexHandle current a b)
    · have hput : ConditionsFit clock (s.putMutex mutexHandle m') l := by
        refine h.conditions.putMutex hmutex hcount fun thread _ _ howned hgrant => ?_
        rw [hgranted]
        exact hgrant (howner.symm.trans howned)
      refine ConditionsFit.blockAgain ?_ (hcall.trans hwaiting.symm) hqueue
      exact hput.blocks h.orderly hblocks hqueue
        fun a b => mutexWaitKey_ne_conditionWaitKey mutexHandle current a b

/-- The entry of a thread that its deadline woke is completed. -/
theorem expireConditionWait (hwaiting : l.waiting current = some (conditionHandle, mutexHandle))
    (hdone : s.completedConditionWaits[current]? = none) (hord : Orderly scheduler)
    (hkeeps : Keeps (· = current) s.scheduler scheduler) :
    ∃ s' entry, { s with scheduler }.expireConditionWait clock conditionHandle mutexHandle current =
        (none, s') ∧ Fits clock s' l ∧ s'.scheduler = scheduler ∧
      s'.completedConditionWaits = s.completedConditionWaits.insert current entry ∧
      entry.timedOut = true := by
  have hnone := h.orderly.waitOf_current hcur
  obtain ⟨condition, entry, hfound, hmem, hthread⟩ :=
    (h.conditions.waiting _ _ _ hwaiting).queued hdone
  have hentry := h.conditions.entry _ _ hfound _ hmem
  -- the thread runs, so its deadline has passed
  obtain ⟨deadline, hdue, hpassed⟩ : ∃ deadline, entry.deadlineNanoseconds = some deadline ∧
      deadline ≤ clock.monotonicNanoseconds s.reads := by
    rcases hentry.attends with hblock | ⟨-, hpassed⟩
    · rw [hthread, hnone] at hblock
      cases hblock
    · exact hpassed
  have hmutex : entry.mutexHandle = mutexHandle := by
    have hsame := hentry.waiting
    rw [hthread, hwaiting, Option.some.injEq, Prod.mk.injEq] at hsame
    exact hsame.2.symm
  set isWaiter : ConditionWaiter → Bool :=
    fun waiter => waiter.thread = current ∧ waiter.mutexHandle = mutexHandle with hisWaiter
  obtain ⟨hfind, hperm⟩ := h.eraseP_entry hfound hmem isWaiter
    (by simp [hisWaiter, hthread, hmutex])
    fun waiter his => (of_decide_eq_true his).1.trans hthread.symm
  let moved : PthreadService := { s with
    conditions := s.conditions.insert conditionHandle
      { condition with waiters := condition.waiters.eraseP isWaiter }
    completedConditionWaits :=
      s.completedConditionWaits.insert current { entry with timedOut := true }
    reads := s.reads + 1 }
  have hmoved : ConditionsFit clock moved l := by
    have hawakes : Awakes (fun _ => False) (clock.monotonicNanoseconds moved.reads) s.scheduler
        moved.scheduler := .refl _ _ _
    apply h.conditions.complete hfound hperm h.orderly _ (Nat.le_succ s.reads) hawakes
      (fun _ => False.elim) List.eraseP_sublist rfl rfl
    · exact List.forall_mem_singleton.mpr ⟨true, by simp [moved, ← hthread]⟩
    · rw [List.forall_mem_singleton]
      intro thread deadline hwait
      rw [(h.conditions.waits _ _ _ _ hwait).1, hthread, hnone] at hwait
      cases hwait
    · intro thread hne
      rw [List.forall_mem_singleton, hthread] at hne
      rw [getElem?_insert, if_neg hne]
  have hfits : Fits clock moved l := { h with conditions := hmoved }
  refine ⟨_, { entry with timedOut := true }, ?_, hfits.keeps le_rfl hord hkeeps ?_, rfl, rfl, rfl⟩
  · simp only [PthreadService.expireConditionWait, hfound]
    rw [hfind]
    simp only [hdue, PthreadService.monotonicNanoseconds, moved]
    rw [if_neg (not_lt.mpr hpassed)]
  · rintro thread rfl
    exact hmoved.not_queue_of_completed (by rw [getElem?_insert, if_pos rfl])

/-- The wait of a thread that owes it is completed, by a signal before or by the deadline now. -/
theorem resume
    (hwait : l.waiting current = some (conditionHandle, mutexHandle)) (deadline : Option ℕ) :
    ∃ s' entry, s.waitConditionInternal clock conditionHandle mutexHandle deadline =
        s'.completeConditionWait conditionHandle mutexHandle current ∧ Fits clock s' l ∧
      s'.scheduler.currentThread = some current ∧
      s'.completedConditionWaits[current]? = some entry ∧
      s'.scheduler.timedOutOf current ≠ conditionWaitKey conditionHandle current ∧
      (s'.completedConditionWaits = s.completedConditionWaits ∨
        s.completedConditionWaits[current]? = none ∧ entry.timedOut = true ∧
          s'.completedConditionWaits = s.completedConditionWaits.insert current entry) := by
  have hkey := conditionWaitKey_ne_empty conditionHandle current
  have hstep := h.orderly.step
    (.consumeCurrentThreadTimeout (conditionWaitKey conditionHandle current))
  have hconsumed := consume_cases s.scheduler (conditionWaitKey conditionHandle current)
  cases hdone : s.completedConditionWaits[current]? with
  | some entry =>
    have hqueue := h.conditions.not_queue_of_completed hdone
    obtain ⟨-, hentry⟩ := h.conditions.completed _ _ hdone
    rw [hwait, Option.some.injEq, Prod.mk.injEq] at hentry
    rcases hconsumed with
      ⟨hconsume, hnot⟩ | ⟨thread, scheduler, hconsume, hthread, -, hsame, hempty, hkeeps⟩
    · refine ⟨s, entry, ?_, h, hcur, hdone, hnot current hcur hkey h.orderly, .inl rfl⟩
      simp only [waitConditionInternal, hcur, hconsume, hdone]
      rw [if_neg (by simp [hentry])]
    · obtain rfl := mem_unique hcur hthread
      simp only [GuestScheduler.step, hconsume] at hstep
      refine ⟨{ s with scheduler }, entry, ?_, h.keeps le_rfl hstep hkeeps ?_,
        hsame.trans hcur, hdone, hempty ▸ hkey.symm, .inl rfl⟩
      · simp only [waitConditionInternal, hcur, hconsume, hdone]
        rw [if_neg (by simp [hentry])]
      · rintro _ rfl
        exact hqueue
  | none =>
    have hlate := h.conditions.timedOut_of_queue ((h.conditions.waiting _ _ _ hwait).queued hdone)
      (h.orderly.waitOf_current hcur)
    rcases hconsumed with
      ⟨-, hnot⟩ | ⟨thread, scheduler, hconsume, hthread, -, hsame, hempty, hkeeps⟩
    · exact absurd hlate (hnot current hcur hkey h.orderly)
    obtain rfl := mem_unique hcur hthread
    simp only [GuestScheduler.step, hconsume] at hstep
    obtain ⟨s', entry, hexpire, hfits, rfl, hentry, hexp⟩ :=
      h.expireConditionWait hcur hwait hdone hstep hkeeps
    refine ⟨s', entry, ?_, hfits, hsame.trans hcur, ?_, hempty ▸ hkey.symm,
      .inr ⟨rfl, hexp, hentry⟩⟩
    · simp [waitConditionInternal, hcur, hconsume, hdone, hexpire]
    · rw [hentry, getElem?_insert, if_pos rfl]

section

variable (hcall : call.waitsFor = some (conditionHandle, mutexHandle)) (hstart : call.Startable)
include hcall hstart

/-- A thread that owes nothing starts to wait, or is refused. -/
theorem beginConditionWait (howed : l.owed[current]? = none) (deadline : Option ℕ) :
    ∃ status s', s.beginConditionWait clock conditionHandle mutexHandle deadline current =
        (status, s') ∧ Fits clock s' (l.record (some current) call status) ∧
      s'.completedConditionWaits = s.completedConditionWaits ∧
      status ≠ .kOk ∧ status ≠ .kTimedOut := by
  have hrefuse : ∀ status : KernelStatus, status ≠ .kWouldBlock →
      Fits clock s (l.record (some current) call status) := by
    intro status hstat
    rw [record_of_settled howed _ hstat]
    exact h
  unfold PthreadService.beginConditionWait
  split
  next condition m hcondition hmutex =>
    split
    · exact ⟨_, _, rfl, hrefuse .kPermissionDenied (by decide), rfl, by decide, by decide⟩
    next howner =>
      split
      · exact ⟨_, _, rfl, hrefuse .kInvalidArgument (by decide), rfl, by decide, by decide⟩
      next hcount =>
        rw [not_not] at howner hcount
        have hnone := waiting_of_settled howed
        obtain ⟨scheduler, reads, hwake, hsame, hfits⟩ := h.leaveMutex hmutex howner
        obtain ⟨blocked, hblock, hord, hblocks⟩ :=
          blockCurrentLocked_current hfits.orderly (hsame.trans hcur)
            (conditionWaitKey_ne_empty conditionHandle current) deadline
        obtain ⟨hcounted, hgrants⟩ := m.leave_grants mutexHandle current
        have hleft : (s.putMutex mutexHandle
          (m.leave mutexHandle current).2).mutexes[mutexHandle]? =
            some (m.leave mutexHandle current).2 := by
          rw [PthreadService.putMutex, getElem?_insert, if_pos rfl]
        have henroll := hfits.conditions.enroll hcondition hleft
          (fun howned hne => hgrants _ hne howned) hnone h.recent hcall hblocks
        simp only [PthreadService.putMutex, insert_insert, hcounted] at henroll
        have hwait := hfits.orderly.waitOf_current (hsame.trans hcur)
        refine ⟨.kWouldBlock, _, ?_, ⟨hord, ?_, ?_, henroll, recent_record h.recent _ _,
          startable_record h.startable hstart _⟩, rfl, by decide, by decide⟩
        · dsimp only
          rw [unlockMutex_counted hcur howner hcount _ _ hwake]
          simp [hblock]
        · simp only [Ledger.record, if_true]
          have hqueue := hfits.not_mutexQueue (hsame.trans hcur)
          have hmutexes := hfits.mutexes.withListed (hfits.mutexes.listed.blocks hblocks hwait
            fun a b => (mutexWaitKey_ne_conditionWaitKey a b conditionHandle current).symm)
          have hstamped := hmutexes.stamp hqueue l.time
          have hrecount := (hstamped.fits _ _ hleft).recount (m.conditionWaiterCount + 1)
          have hput := hstamped.put hleft hrecount rfl
          simpa [PthreadService.putMutex, insert_insert] using hput
        · refine RwlocksFit.withOwed ?_
            (fun other _ _ write => by rw [howed]; exact (some_ne_none _).symm)
            (owed_record_of_ne l current call _)
          exact hfits.rwlocks.withListed (hfits.rwlocks.listed.blocks hblocks hwait
            fun a b => conditionWaitKey_ne_rwlockWaitKey conditionHandle current a b)
  · exact ⟨_, _, rfl, hrefuse .kNotFound (by decide), rfl, by decide, by decide⟩

theorem waitConditionInternal (hmay : l.permits (some current) call = true) (deadline : Option ℕ) :
    ∃ status s', s.waitConditionInternal clock conditionHandle mutexHandle deadline =
        (status, s') ∧ Fits clock s' (l.record (some current) call status) ∧
      WaitAnswers s.completedConditionWaits l current mutexHandle (status, s') := by
  rcases permits_some_iff.mp hmay with howed | howed
  · have hnone := waiting_of_settled howed
    have hdone := h.conditions.not_completed_of_not_waiting hnone
    have hconsume : s.scheduler.consumeCurrentThreadTimeout
        (conditionWaitKey conditionHandle current) = (false, s.scheduler) := by
      rcases consume_cases _ (conditionWaitKey conditionHandle current) with
        ⟨hconsume, -⟩ | ⟨thread, scheduler, -, hthread, hlate, -⟩
      · exact hconsume
      · obtain rfl := mem_unique hcur hthread
        obtain ⟨-, _, hwait⟩ := h.conditions.timedOut _ _ _ hlate
        cases hnone.symm.trans hwait
    obtain ⟨status, s', hbegin, hfits, hlasts, hok, hlate⟩ :=
      h.beginConditionWait hcur hcall hstart howed deadline
    refine ⟨status, s', ?_, hfits, fun _ => ⟨hok, hlate⟩, fun hsome => absurd hnone hsome,
      fun hstat => absurd hstat hok, ?_, fun thread => .inl (congrArg (·[thread]?) hlasts)⟩
    · simp only [PthreadService.waitConditionInternal, hcur, hconsume, hdone]
      exact hbegin
    · rintro (hstat | hstat)
      · exact absurd hstat hok
      · exact absurd hstat hlate
  · have hwait : l.waiting current = some (conditionHandle, mutexHandle) := by
      rw [waiting, howed, bind_some, hcall]
    obtain ⟨s₁, entry, hresume, hfits₁, hcur₁, hentry, hexp, hkept⟩ := h.resume hcur hwait deadline
    obtain ⟨status, s', hcomplete, hfits, hstat⟩ :=
      hfits₁.completeConditionWait hcur₁ hcall hstart hwait hentry hexp
    have howes : l.waiting current ≠ none := hwait ▸ some_ne_none _
    refine ⟨status, s', hresume.trans hcomplete, hfits, fun hnone => absurd hnone howes,
      fun _ => ?_, fun hok => ?_, fun hans => ?_, fun thread => ?_⟩
    · rcases hstat with ⟨rfl, -⟩ | ⟨rfl, -⟩
      · exact .inl rfl
      · split
        · exact .inr (.inr rfl)
        · exact .inr (.inl rfl)
    · subst hok
      rcases hstat with ⟨hblock, -⟩ | ⟨hok, -⟩
      · cases hblock
      have hlive : entry.timedOut = false := by
        cases hlate : entry.timedOut with
        | false => rfl
        | true => simp [hlate] at hok
      rcases hkept with hsame | ⟨-, hlate, -⟩
      · exact ⟨entry, hsame ▸ hentry, hlive⟩
      · cases hlate.symm.trans hlive
    · rcases hstat with ⟨rfl, -⟩ | ⟨-, howner, -⟩
      · simp at hans
      · exact howner
    · by_cases heq : thread = current
      · subst heq
        rcases hstat with ⟨-, hlasts⟩ | ⟨rfl, -, hlasts⟩
        · rcases hkept with hsame | ⟨hnone, hlate, -⟩
          · exact .inl (by rw [hlasts, hsame])
          · exact .inr ⟨rfl, howes, .inr ⟨hnone, entry, hlasts ▸ hentry, hlate⟩⟩
        · have hgone : s'.completedConditionWaits[thread]? = none := by
            rw [hlasts, getElem?_erase, if_pos rfl]
          rcases hkept with hsame | ⟨hnone, -, -⟩
          · exact .inr ⟨rfl, howes, .inl ⟨entry, hsame ▸ hentry, hgone, rfl⟩⟩
          · exact .inl (hgone.trans hnone.symm)
      · left
        have hkept' : s₁.completedConditionWaits[thread]? = s.completedConditionWaits[thread]? := by
          rcases hkept with hsame | ⟨-, -, hinsert⟩
          · rw [hsame]
          · rw [hinsert, getElem?_insert, if_neg (Ne.symm heq)]
        rcases hstat with ⟨-, hlasts⟩ | ⟨-, -, hlasts⟩
        · rw [hlasts, hkept']
        · rw [hlasts, getElem?_erase, if_neg (Ne.symm heq), hkept']

end

end

/-- A valid deadline is converted with one reading of the clock. -/
theorem realtimeDeadlineToMonotonic_cases (clock : SteadyClock) (deadline : KernelTimespec)
    (s : PthreadService) :
    (¬ deadline.Valid ∧ s.realtimeDeadlineToMonotonic clock deadline = (none, s)) ∨
      deadline.Valid ∧ ∃ monotonicDeadline, s.realtimeDeadlineToMonotonic clock deadline =
        (some monotonicDeadline, { s with reads := s.reads + 1 }) := by
  unfold realtimeDeadlineToMonotonic
  split
  next hinvalid =>
    refine .inl ⟨?_, rfl⟩
    rintro ⟨hseconds, hnanoseconds, hlt⟩
    omega
  next hvalid =>
    rw [not_or, not_or, not_lt, not_lt, not_le] at hvalid
    refine .inr ⟨hvalid, ?_⟩
    dsimp only
    split <;> exact ⟨_, rfl⟩

/-- One reading of the clock. -/
theorem readClock (h : Fits clock s l) : Fits clock { s with reads := s.reads + 1 } l :=
  h.withReads (Nat.le_succ s.reads)

/-- All wait calls. -/
theorem waits (h : Fits clock s l) (memory : ArenaMemory)
    (hcur : s.scheduler.currentThread = some current)
    (hcall : call.waitsFor = some (conditionHandle, mutexHandle))
    (hmay : l.permits (some current) call = true) :
    ∃ status s', s.perform clock memory call = (status, s') ∧
      Fits clock s' (l.record (some current) call status) ∧
      WaitAnswers s.completedConditionWaits l current mutexHandle (status, s') := by
  cases call with
  | waitCondition c m =>
    cases hcall
    have hstart : (PthreadCall.waitCondition conditionHandle mutexHandle).Startable := trivial
    exact h.waitConditionInternal hcur rfl hstart hmay _
  | waitConditionFor c m timeoutMicroseconds =>
    cases hcall
    have hstart : (PthreadCall.waitConditionFor conditionHandle mutexHandle
      timeoutMicroseconds).Startable := trivial
    exact h.readClock.waitConditionInternal hcur rfl hstart hmay _
  | waitConditionUntilRealtime c m deadline =>
    cases hcall
    simp only [perform, waitConditionUntilRealtime]
    rcases realtimeDeadlineToMonotonic_cases clock deadline s with
      ⟨hinvalid, hnone⟩ | ⟨hvalid, monotonicDeadline, hsome⟩
    · have howed : l.owed[current]? = none := by
        rcases permits_some_iff.mp hmay with howed | howed
        · exact howed
        · exact absurd (h.startable current _ howed) hinvalid
      rw [hnone]
      refine ⟨.kInvalidArgument, s, rfl, ?_, fun _ => by simp, fun hsome => ?_, by simp,
        by simp, fun _ => .inl rfl⟩
      · have hstat : KernelStatus.kInvalidArgument ≠ .kWouldBlock := by decide
        rw [record_of_settled howed _ hstat]
        exact h
      · exact absurd (waiting_of_settled howed) hsome
    · rw [hsome]
      have hstart : (PthreadCall.waitConditionUntilRealtime conditionHandle mutexHandle
        deadline).Startable := hvalid
      exact h.readClock.waitConditionInternal hcur rfl hstart hmay _
  | _ => cases hcall

end Fits

end PthreadService

end KajPS5.Kernel
