/-
# The invariant of the pthread service

Between the calls the scheduler is orderly, the mutexes, the reader-writer locks and the
condition variables fit, and a thread's next arrival is later than all arrivals so far. A call
that ends with an answer is recorded after its effect; a call that blocks is recorded with it,
because the thread joins a waiting list and owes the call at the same time.
-/

import KajPS5.Kernel.PthreadConditions
import KajPS5.Kernel.PthreadRwlocks

namespace KajPS5.Kernel

open Math GuestScheduler OrderedMaps Ledger MutexState Option

/-- The deadline that `RealtimeDeadlineToMonotonic` accepts. -/
def KernelTimespec.Valid (deadline : KernelTimespec) : Prop :=
  0 ≤ deadline.seconds ∧ 0 ≤ deadline.nanoseconds ∧ deadline.nanoseconds < nanosecondsPerSecond

/-- The deadline of the call can be converted, if it has one. -/
def PthreadCall.Startable : PthreadCall → Prop
  | .waitConditionUntilRealtime _ _ deadline => deadline.Valid
  | _ => True

/-- The call locks a reader-writer lock. -/
def PthreadCall.locksRwlock : PthreadCall → Bool
  | .lockRwlock _ _ _ => true
  | _ => false

/-- What other services may do: they use no key of this one, and the threads that they block, let
go or let forget a timeout owe no wait. -/
def Ledger.othersMay (clock : SteadyClock) (reads : ℕ) (l : Ledger) : Permissions where
  wake key := isPthreadKey key = false
  expire now := now ≤ clock.monotonicNanoseconds reads
  block thread key := l.waiting thread = none ∧ isPthreadKey key = false
  leave thread := l.waiting thread = none
  forget thread := l.waiting thread = none

structure PthreadService.Fits (clock : SteadyClock) (s : PthreadService) (l : Ledger) : Prop where
  orderly : Orderly s.scheduler
  mutexes : MutexesFit l.arrived s.mutexes s.scheduler
  rwlocks : RwlocksFit l.owed s.rwlocks s.scheduler
  conditions : ConditionsFit clock s l
  recent : ∀ thread, l.arrived thread < l.time
  startable : ∀ (thread : ℕ) call, l.owed[thread]? = some call → call.Startable

namespace Ledger

variable {l : Ledger} {thread : ℕ} {call : PthreadCall}

theorem permits_some_iff : l.permits (some thread) call = true ↔
    l.owed[thread]? = none ∨ l.owed[thread]? = some call := by
  simp [permits]

theorem settled_some_iff : l.settled (some thread) = true ↔ l.owed[thread]? = none := by
  simp [settled]

theorem waiting_of_settled (h : l.owed[thread]? = none) : l.waiting thread = none := by
  rw [waiting, h, bind_none]

section

variable (h : l.permits (some thread) call = true)
include h

/-- A thread that may make a call owes no wait, or the call is that wait. -/
theorem waiting_of_permits : l.waiting thread = none ∨ l.waiting thread = call.waitsFor := by
  rcases permits_some_iff.mp h with hnone | hsome
  · exact .inl (waiting_of_settled hnone)
  · rw [waiting, hsome]
    exact .inr rfl

theorem waiting_eq_none (hcall : call.waitsFor = none) : l.waiting thread = none :=
  (waiting_of_permits h).elim id (·.trans hcall)

/-- A thread that may make another call owes no lock of a reader-writer lock. -/
theorem owed_ne_of_permits (hcall : call.locksRwlock = false) (handle : ℕ) (write : Bool) :
    l.owed[thread]? ≠ some (.lockRwlock handle write false) := by
  intro hsome
  rcases permits_some_iff.mp h with hnone | hcalled
  · rw [hnone] at hsome
    cases hsome
  · rw [hcalled, Option.some.injEq] at hsome
    rw [hsome] at hcall
    cases hcall

end

/-- An answer to a thread that owes nothing changes nothing. -/
theorem record_of_settled (h : l.owed[thread]? = none) (call : PthreadCall) {status : KernelStatus}
    (hstat : status ≠ .kWouldBlock) : l.record (some thread) call status = l := by
  have hsame : l.owed.erase thread = l.owed := by
    apply Std.ExtTreeMap.ext_getElem?
    intro other
    rw [getElem?_erase]
    split
    next heq => rw [← heq, h]
    · rfl
  simp [record, if_neg hstat, hsame]

/-- What the other threads owe stays. -/
theorem owed_record_of_ne (l : Ledger) (thread : ℕ) (call : PthreadCall) (status : KernelStatus)
    (other : ℕ) (hne : other ≠ thread) :
    (l.record (some thread) call status).owed[other]? = l.owed[other]? := by
  rw [record]
  split
  · simp [getElem?_insert, if_neg hne.symm]
  · simp [getElem?_erase, if_neg hne.symm]

theorem recent_record (h : ∀ other, l.arrived other < l.time) (call : PthreadCall)
    (status : KernelStatus) (other : ℕ) :
    (l.record (some thread) call status).arrived other <
      (l.record (some thread) call status).time := by
  rw [record]
  split
  · dsimp only
    by_cases heq : other = thread
    · rw [heq, Function.update_self]
      exact Nat.lt_succ_self _
    · rw [Function.update_of_ne heq]
      exact (h _).trans (Nat.lt_succ_self _)
  · exact h _

theorem startable_record
    (h : ∀ (other : ℕ) call, l.owed[other]? = some call → call.Startable)
    (hcall : call.Startable) (status : KernelStatus) (other : ℕ) (owed : PthreadCall)
    (howed : (l.record (some thread) call status).owed[other]? = some owed) : owed.Startable := by
  by_cases heq : other = thread
  · subst heq
    rw [record] at howed
    split at howed
    · simp only [getElem?_insert] at howed
      cases howed
      exact hcall
    · simp at howed
  · rw [owed_record_of_ne l _ _ _ _ heq] at howed
    exact h _ _ howed

end Ledger

namespace PthreadService.Fits

variable {clock : SteadyClock} {s : PthreadService} {l : Ledger}

theorem initial (clock : SteadyClock) : Fits clock {} {} where
  orderly := .initial
  mutexes := .initial
  rwlocks := .initial
  conditions := .initial clock
  recent _ := Nat.zero_lt_one
  startable _ _ h := by simp at h

/-! ## The scheduler -/

theorem not_key_of_not_pthread {key : String} (h : isPthreadKey key = false) (a b : ℕ) :
    key ≠ mutexWaitKey a b ∧ key ≠ rwlockWaitKey a b ∧ key ≠ conditionWaitKey a b := by
  refine ⟨?_, ?_, ?_⟩ <;> rintro rfl
  · rw [isPthreadKey_mutexWaitKey] at h
    cases h
  · rw [isPthreadKey_rwlockWaitKey] at h
    cases h
  · rw [isPthreadKey_conditionWaitKey] at h
    cases h

variable {current handle : ℕ} {scheduler : GuestScheduler}

variable (h : Fits clock s l)
include h

variable {reads : ℕ}

/-- Other services wake threads. -/
theorem awakes (hreads : s.reads ≤ reads) (hord : Orderly scheduler) {may : String → Prop}
    (hawakes : Awakes may (clock.monotonicNanoseconds reads) s.scheduler scheduler)
    (hmay : ∀ key, may key → isPthreadKey key = false) :
    Fits clock { s with scheduler, reads } l where
  __ := h
  orderly := hord
  mutexes := h.mutexes.withListed
    (h.mutexes.listed.awakes hawakes fun a b hkey =>
    (not_key_of_not_pthread (hmay _ hkey) a b).1 rfl)
  rwlocks := h.rwlocks.withListed
    (h.rwlocks.listed.awakes hawakes fun a b hkey =>
      (not_key_of_not_pthread (hmay _ hkey) a b).2.1 rfl)
  conditions := h.conditions.awakes h.orderly hreads hawakes fun a b hkey =>
    (not_key_of_not_pthread (hmay _ hkey) a b).2.2 rfl

/-- Threads that are on no waiting list forget that a wait timed out. -/
theorem keeps (hreads : s.reads ≤ reads) (hord : Orderly scheduler) {who : ℕ → Prop}
    (hkeeps : Keeps who s.scheduler scheduler)
    (hwho : ∀ thread, who thread → ∀ handle, ¬ conditionQueue s.conditions handle thread) :
    Fits clock { s with scheduler, reads } l where
  __ := h
  orderly := hord
  mutexes := h.mutexes.withListed (h.mutexes.listed.keeps hkeeps)
  rwlocks := h.rwlocks.withListed (h.rwlocks.listed.keeps hkeeps)
  conditions := h.conditions.keeps h.orderly hreads hkeeps hwho

/-- The current thread blocks for another service. -/
theorem blocks (hord : Orderly scheduler) {thread : ℕ} {wait : Wait}
    (hblocks : Blocks thread wait s.scheduler scheduler)
    (hcur : s.scheduler.currentThread = some thread) (hnone : l.waiting thread = none)
    (hkey : isPthreadKey wait.1 = false) : Fits clock { s with scheduler } l where
  __ := h
  orderly := hord
  mutexes := h.mutexes.withListed (h.mutexes.listed.blocks hblocks
    (h.orderly.waitOf_current hcur) fun a b => (not_key_of_not_pthread hkey a b).1)
  rwlocks := h.rwlocks.withListed (h.rwlocks.listed.blocks hblocks
    (h.orderly.waitOf_current hcur) fun a b => (not_key_of_not_pthread hkey a b).2.1)
  conditions := h.conditions.blocks h.orderly hblocks
    (h.conditions.not_queue_of_not_waiting hnone)
    fun a b => (not_key_of_not_pthread hkey a b).2.2

theorem withReads (hreads : s.reads ≤ reads) : Fits clock { s with reads } l :=
  h.keeps hreads h.orderly (.refl (fun _ => False) _) fun _ => False.elim

theorem act (hreads : s.reads ≤ reads)
    (hact : Act (l.othersMay clock reads) s.scheduler scheduler) :
    Fits clock { s with scheduler, reads } l := by
  have hord := h.orderly.act hact
  cases hact.view with
  | awakes now hnow hawakes =>
    have hle : now ≤ clock.monotonicNanoseconds reads := by
      rcases hnow with rfl | hnow
      · exact Nat.zero_le _
      · exact hnow
    exact h.awakes hreads hord (hawakes.mono (fun _ => id) hle) fun _ => id
  | keeps hkeeps =>
    exact h.keeps hreads hord hkeeps fun thread hwho =>
      h.conditions.not_queue_of_not_waiting (hwho.elim id id)
  | blocks thread wait hcur hmay hblocks =>
    exact (h.withReads hreads).blocks hord hblocks hcur hmay.1 hmay.2

/-- The scheduler is called on behalf of the service or of another one. -/
theorem schedule (hreads : s.reads ≤ reads) (call : SchedulerCall)
    (hmay : s.scheduler.Permitted (l.othersMay clock reads) call) :
    Fits clock { s with scheduler := s.scheduler.step call, reads } l := by
  have hacts := acts_step h.orderly.toScheduled hmay
  generalize s.scheduler.step call = scheduler at hacts
  induction hacts with
  | refl => exact h.withReads hreads
  | tail _ hact ih => exact ih.act le_rfl hact

/-- The call of a thread is recorded; it is neither a wait nor a lock of a reader-writer lock. -/
theorem record {thread : ℕ} {call : PthreadCall} (hwaits : call.waitsFor = none)
    (hlocks : call.locksRwlock = false) (hmay : l.permits (some thread) call = true)
    (hthread : ∀ handle, ¬ mutexQueue s.mutexes handle thread) (status : KernelStatus) :
    Fits clock s (l.record (some thread) call status) where
  orderly := h.orderly
  mutexes := by
    rw [Ledger.record]
    split
    · exact h.mutexes.stamp hthread _
    · exact h.mutexes
  rwlocks := h.rwlocks.withOwed
    (fun handle _ _ => owed_ne_of_permits hmay hlocks handle)
    (owed_record_of_ne l thread call status)
  conditions := h.conditions.record hwaits (waiting_eq_none hmay hwaits) status
  recent := recent_record h.recent call status
  startable := by
    refine startable_record h.startable ?_ status
    cases call with
    | waitConditionUntilRealtime => cases hwaits
    | _ => trivial

theorem not_mutexQueue (hcur : s.scheduler.currentThread = some current)
    (handle : ℕ) : ¬ mutexQueue s.mutexes handle current :=
  h.mutexes.listed.not_queue (h.orderly.waitOf_current hcur) handle

/-! ## Creating and destroying -/

theorem administers {s' : PthreadService} (hadministers : Administers s s') : Fits clock s' l where
  __ := h
  orderly := hadministers.scheduler ▸ h.orderly
  mutexes := hadministers.scheduler ▸ h.mutexes.exchanged hadministers.mutexes
  rwlocks := hadministers.scheduler ▸ h.rwlocks.exchanged hadministers.rwlocks
  conditions := h.conditions.administers hadministers

/-! ## Handing over -/

/-- The current thread leaves some mutexes and locks, and the threads that got them are woken. -/
theorem handOver {mutexes : Std.ExtTreeMap ℕ MutexState}
    {rwlocks : Std.ExtTreeMap ℕ RwlockState} {wakeKeys : List String} (left : ℕ → MutexState → Bool)
    (hleft : ∀ (handle : ℕ) (m : MutexState), s.mutexes[handle]? = some m →
      left handle m = true → m.owner = current)
    (hmutexes : ∀ handle : ℕ, mutexes[handle]? = s.mutexes[handle]?.map fun m =>
      if left handle m then (m.leave handle current).2 else m)
    (leaves : ℕ → RwlockState → List String × RwlockState)
    (hleaves : ∀ (handle : ℕ) (r : RwlockState), s.rwlocks[handle]? = some r →
      (leaves handle r).2.Fits l.owed handle ∧
        RwlockState.HandsOver handle (leaves handle r).1 r (leaves handle r).2)
    (hrwlocks : ∀ handle : ℕ, rwlocks[handle]? = s.rwlocks[handle]?.map fun r =>
      (leaves handle r).2) (hkeys : ∀ key, key ∈ wakeKeys ↔
      (∃ (handle : ℕ) (m : MutexState), s.mutexes[handle]? = some m ∧ left handle m = true ∧
        (m.leave handle current).1 = some key) ∨
      ∃ (handle : ℕ) (r : RwlockState), s.rwlocks[handle]? = some r ∧ key ∈ (leaves handle r).1) :
    ∃ scheduler reads, { s with mutexes, rwlocks }.wakeBlockedThreads clock wakeKeys =
        { s with mutexes, rwlocks, scheduler, reads } ∧
      scheduler.currentThread = s.scheduler.currentThread ∧
      Fits clock { s with mutexes, rwlocks, scheduler, reads } l := by
  have hkind : ∀ key ∈ wakeKeys, (∃ handle thread, key = mutexWaitKey handle thread) ∨
      ∃ handle thread, key = rwlockWaitKey handle thread := by
    intro key hmem
    rcases (hkeys key).mp hmem with ⟨handle, m, -, -, hkey⟩ | ⟨handle, r, hr, hkey⟩
    · exact .inl ⟨handle, leave_key hkey⟩
    · exact .inr ⟨handle, (hleaves _ r hr).2.1 key hkey⟩
  obtain ⟨scheduler, reads, hres, hreads, hord, hawakes, hwoken⟩ :=
    wakeBlockedThreads_spec clock wakeKeys { s with mutexes, rwlocks } h.orderly fun key hmem => by
      rcases hkind _ hmem with ⟨handle, thread, rfl⟩ | ⟨handle, thread, rfl⟩
      · exact ⟨ne_empty_of_isPthreadKey (isPthreadKey_mutexWaitKey _ _),
          h.mutexes.listed.oneWaits handle thread⟩
      · exact ⟨ne_empty_of_isPthreadKey (isPthreadKey_rwlockWaitKey _ _),
          h.rwlocks.listed.oneWaits handle thread⟩
  refine ⟨scheduler, reads, hres, hawakes.current, hord, ?_, ?_, ?_, h.recent, h.startable⟩
  · refine h.mutexes.handOver left hleft hmutexes (fun handle thread => ?_) hawakes hwoken
    rw [hkeys]
    constructor
    · rintro (⟨other, m, hm, hl, hkey⟩ | ⟨other, r, hr, hkey⟩)
      · obtain ⟨next, heq⟩ := leave_key hkey
        obtain ⟨rfl, -⟩ := mutexWaitKey_inj.mp heq
        exact ⟨m, hm, hl, hkey⟩
      · obtain ⟨next, heq⟩ := (hleaves _ r hr).2.1 _ hkey
        exact absurd heq (mutexWaitKey_ne_rwlockWaitKey _ _ _ _)
    · rintro ⟨m, hm, hl, hkey⟩
      exact .inl ⟨handle, m, hm, hl, hkey⟩
  · refine h.rwlocks.handOver _ hleaves hrwlocks (fun handle thread => ?_) hawakes hwoken
    rw [hkeys]
    constructor
    · rintro (⟨other, m, hm, hl, hkey⟩ | ⟨other, r, hr, hkey⟩)
      · obtain ⟨next, heq⟩ := leave_key hkey
        exact absurd heq.symm (mutexWaitKey_ne_rwlockWaitKey _ _ _ _)
      · obtain ⟨next, heq⟩ := (hleaves _ r hr).2.1 _ hkey
        obtain ⟨rfl, -⟩ := rwlockWaitKey_inj.mp heq
        exact ⟨r, hr, hkey⟩
    · rintro ⟨r, hr, hkey⟩
      exact .inr ⟨handle, r, hr, hkey⟩
  · have hput : ConditionsFit clock { s with mutexes } l := by
      apply h.conditions.withMutexes
      intro handle
      rw [hmutexes]
      cases s.mutexes[handle]? with
      | none => exact .inl ⟨rfl, rfl⟩
      | some m =>
        refine .inr ⟨m, _, rfl, rfl, ?_⟩
        dsimp only
        split
        · obtain ⟨hcount, hgrant⟩ := m.leave_grants handle current
          exact ⟨hcount, fun thread _ hne howned _ => hgrant _ hne howned⟩
        · exact ⟨rfl, fun thread _ _ howned hgrant => hgrant howned⟩
    apply (hput.withRwlocks rwlocks).awakes h.orderly hreads hawakes
    intro a b hmem
    rcases hkind _ hmem with ⟨handle, thread, heq⟩ | ⟨handle, thread, heq⟩
    · exact mutexWaitKey_ne_conditionWaitKey _ _ _ _ heq.symm
    · exact conditionWaitKey_ne_rwlockWaitKey _ _ _ _ heq

/-! ## Mutexes -/

variable {m : MutexState} {tryOnly : Bool}

/-- A mutex is changed and keeps its waiters. -/
theorem putMutex {m' : MutexState} (hfound : s.mutexes[handle]? = some m)
    (hfits : m'.Fits l.arrived) (hwaiters : m'.waiters = m.waiters)
    (hcount : m'.conditionWaiterCount = m.conditionWaiterCount)
    (hgrant : ∀ thread, l.waiting thread ≠ none → m'.owner = thread →
      (m.owner = thread → thread ∈ m.grantedWaiters) → thread ∈ m'.grantedWaiters) :
    Fits clock (s.putMutex handle m') l where
  __ := h
  mutexes := h.mutexes.put hfound hfits hwaiters
  conditions := h.conditions.putMutex hfound hcount fun _ hwait _ => hgrant _ hwait

theorem lockMutex (hcur : s.scheduler.currentThread = some current)
    (hmay : l.permits (some current) (.lockMutex handle tryOnly) = true) :
    Fits clock (s.lockMutex handle tryOnly).2
      (l.record (some current) (.lockMutex handle tryOnly) (s.lockMutex handle tryOnly).1) := by
  have hnone := waiting_eq_none hmay rfl
  have hpos := h.orderly.current_pos hcur
  have hwait := h.orderly.waitOf_current hcur
  have hcall := locksMutex handle tryOnly h.orderly
  generalize s.lockMutex handle tryOnly = result at hcall
  cases hcall with
  | refuse status _ _ _ => exact h.record rfl rfl hmay (h.not_mutexQueue hcur) _
  | answer thread hthread m m' hfound status hlocks =>
    obtain rfl := mem_unique hcur hthread
    obtain ⟨hfits, hwaiters⟩ := (h.mutexes.fits _ m hfound).answer hlocks hpos
    obtain ⟨hcount, howner⟩ := hlocks.of_answer
    have hput : Fits clock (s.putMutex handle m') l := by
      refine h.putMutex hfound hfits hwaiters hcount fun thread hwaiting howned hgrant => ?_
      rcases howner with howner | rfl
      · exact absurd (howned.symm.trans howner ▸ hnone) hwaiting
      · exact hgrant howned
    exact hput.record rfl rfl hmay (hput.not_mutexQueue hcur) _
  | block thread hthread m m' hfound hlocks scheduler hord hblocks =>
    obtain rfl := mem_unique hcur hthread
    obtain ⟨hcount, howner, hgranted⟩ := hlocks.of_wait
    refine ⟨hord, ?_, ?_, ?_, recent_record h.recent _ _, startable_record h.startable ?_ _⟩
    · exact h.mutexes.enqueue hfound hlocks hpos hwait h.recent hblocks
    · refine RwlocksFit.withOwed ?_ (fun other _ _ => owed_ne_of_permits hmay rfl other)
        (owed_record_of_ne l current _ _)
      exact h.rwlocks.withListed (h.rwlocks.listed.blocks hblocks hwait
        fun a b => mutexWaitKey_ne_rwlockWaitKey handle current a b)
    · have hput : ConditionsFit clock (s.putMutex handle m') l := by
        refine h.conditions.putMutex hfound hcount fun thread _ _ howned hgrant => ?_
        rw [hgranted]
        exact hgrant (howner.symm.trans howned)
      refine ConditionsFit.record ?_ rfl hnone _
      exact hput.blocks h.orderly hblocks (hput.not_queue_of_not_waiting hnone)
        fun a b => mutexWaitKey_ne_conditionWaitKey handle current a b
    · trivial

/-- The owner leaves a mutex, and the next owner is woken. -/
theorem leaveMutex (hfound : s.mutexes[handle]? = some m) (howner : m.owner = current) :
    ∃ scheduler reads, (s.putMutex handle (m.leave handle current).2).wakeBlockedThreads clock
        (m.leave handle current).1.toList =
          { s.putMutex handle (m.leave handle current).2 with scheduler, reads } ∧
      scheduler.currentThread = s.scheduler.currentThread ∧
      Fits clock { s.putMutex handle (m.leave handle current).2 with scheduler, reads } l := by
  have hmutexes : ∀ other : ℕ, (s.mutexes.insert handle (m.leave handle current).2)[other]? =
      s.mutexes[other]?.map fun m =>
        if decide (other = handle) then (m.leave other current).2 else m := by
    intro other
    rw [getElem?_insert]
    split
    next heq => simp [← heq, hfound]
    next hne => simp [Ne.symm hne]
  refine h.handOver (fun other _ => other = handle) ?_ hmutexes (fun _ r => ([], r)) ?_
    (fun other => map_id'.symm) ?_
  · intro other found hother hleft
    rw [of_decide_eq_true hleft, hfound] at hother
    cases hother
    exact howner
  · exact fun other r hother => ⟨h.rwlocks.fits _ r hother, RwlockState.handsOver_nil rfl⟩
  · intro key
    rw [mem_toList]
    constructor
    · exact fun hkey => .inl ⟨handle, m, hfound, decide_eq_true rfl, hkey⟩
    rintro (⟨other, found, hother, hleft, hkey⟩ | ⟨_, _, -, hkey⟩)
    · rw [of_decide_eq_true hleft] at hother hkey
      cases hfound.symm.trans hother
      exact hkey
    · cases hkey

theorem unlockMutex (handle : ℕ) : Fits clock (s.unlockMutex clock handle).2 l ∧
      (s.unlockMutex clock handle).2.scheduler.currentThread = s.scheduler.currentThread := by
  have hcall := unlocksMutex clock handle s
  generalize s.unlockMutex clock handle = result at hcall
  cases hcall with
  | refuse => exact ⟨h, rfl⟩
  | once current hcur m hfound howner hcount =>
    have hfits := h.mutexes.fits _ m hfound
    refine ⟨h.putMutex hfound ?_ rfl rfl fun _ _ howned hgrant => hgrant howned, rfl⟩
    refine ⟨fun hfree => ?_, fun _ => Nat.le_sub_one_of_lt hcount, hfits.granted, hfits.ordered,
      hfits.owner, hfits.positive⟩
    exact absurd (howner.symm.trans hfree) (h.orderly.current_pos hcur).ne'
  | leave current hcur m hfound howner hcount =>
    obtain ⟨scheduler, reads, hres, hsame, hfits⟩ := h.leaveMutex hfound howner
    rw [hres]
    exact ⟨hfits, hsame⟩

/-! ## Reader-writer locks -/

theorem lockRwlock {write : Bool} (hcur : s.scheduler.currentThread = some current)
    (hmay : l.permits (some current) (.lockRwlock handle write tryOnly) = true) :
    Fits clock (s.lockRwlock handle write tryOnly).2 (l.record (some current)
      (.lockRwlock handle write tryOnly) (s.lockRwlock handle write tryOnly).1) := by
  have hnone := waiting_eq_none hmay rfl
  have howe : ∀ other write', other ≠ handle →
      l.owed[current]? ≠ some (.lockRwlock other write' false) := by
    intro other write' hne hsome
    rcases permits_some_iff.mp hmay with howed | howed
    · cases howed.symm.trans hsome
    · rw [howed, Option.some.injEq, PthreadCall.lockRwlock.injEq] at hsome
      exact hne hsome.1.symm
  have hwait := h.orderly.waitOf_current hcur
  have hcall := locksRwlock handle write tryOnly h.orderly
  generalize s.lockRwlock handle write tryOnly = result at hcall
  cases hcall with
  | refuse status hstat hwhy =>
    have hmissing : s.rwlocks[handle]? = none := by
      rcases hwhy with hidle | hmissing
      · cases hcur.symm.trans hidle
      · exact hmissing
    refine ⟨h.orderly, ?_, ?_, h.conditions.record rfl hnone status,
      recent_record h.recent _ _, startable_record h.startable ?_ _⟩
    · simp only [Ledger.record, if_neg hstat]
      exact h.mutexes
    · refine h.rwlocks.withOwed (fun other r hother => ?_) (owed_record_of_ne l current _ _)
      refine fun write' => howe other write' ?_
      rintro rfl
      cases hmissing.symm.trans hother
    · trivial
  | answer thread hthread r r' hfound status hlocks =>
    obtain rfl := mem_unique hcur hthread
    obtain ⟨hfits, hclear, hwaiters⟩ := (h.rwlocks.fits _ r hfound).answer hlocks
      (permits_some_iff.mp hmay) (h.rwlocks.not_waiting hwait hfound)
    refine ⟨h.orderly, ?_, ?_, (h.conditions.withRwlocks _).record rfl hnone status,
      recent_record h.recent _ _, startable_record h.startable ?_ _⟩
    · simp only [Ledger.record, if_neg hlocks.status_ne]
      exact h.mutexes
    · exact h.rwlocks.put howe (owed_record_of_ne l _ _ _) hfound hfits hclear hwaiters
    · trivial
  | block thread hthread r r' hfound hlocks scheduler hord hblocks =>
    obtain rfl := mem_unique hcur hthread
    have hput := h.conditions.withRwlocks (s.rwlocks.insert handle r')
    refine ⟨hord, ?_, ?_, ?_, recent_record h.recent _ _, startable_record h.startable ?_ _⟩
    · apply MutexesFit.stamp _ (h.not_mutexQueue hcur) l.time
      apply h.mutexes.withListed
      exact h.mutexes.listed.blocks hblocks hwait
        fun a b => (mutexWaitKey_ne_rwlockWaitKey a b handle current).symm
    · refine h.rwlocks.enqueue howe (owed_record_of_ne l current _ _) hfound hlocks
        (h.orderly.current_pos hcur) hwait ?_ hblocks
      simp [Ledger.record]
    · refine ConditionsFit.record ?_ rfl hnone _
      exact hput.blocks h.orderly hblocks (hput.not_queue_of_not_waiting hnone)
        fun a b => (conditionWaitKey_ne_rwlockWaitKey a b handle current).symm
    · trivial

theorem unlockRwlock (hcur : s.scheduler.currentThread = some current)
    (howed : ∀ write, l.owed[current]? ≠ some (.lockRwlock handle write false)) :
    Fits clock (s.unlockRwlock clock handle).2 l ∧
      (s.unlockRwlock clock handle).2.scheduler.currentThread = s.scheduler.currentThread := by
  have hcall := unlocksRwlock clock handle s
  generalize s.unlockRwlock clock handle = result at hcall
  cases hcall with
  | refuse => exact ⟨h, rfl⟩
  | unlock thread hthread r r' hfound hunlock =>
    obtain rfl := mem_unique hcur hthread
    have hfits := h.rwlocks.fits _ r hfound
    have hafter := hfits.afterUnlock (hfits.clear howed) hunlock
    have hhand : ∃ scheduler reads,
        (s.putRwlock handle (r'.afterUnlock handle).2).wakeBlockedThreads clock
          (r'.afterUnlock handle).1 =
            { s.putRwlock handle (r'.afterUnlock handle).2 with scheduler, reads } ∧
        scheduler.currentThread = s.scheduler.currentThread ∧
        Fits clock { s.putRwlock handle (r'.afterUnlock handle).2 with scheduler, reads } l := by
      have hmutexes : ∀ other : ℕ, s.mutexes[other]? = s.mutexes[other]?.map fun m =>
          if false then (m.leave other current).2 else m := by simp
      refine h.handOver (fun _ _ => false) (fun _ _ _ hfalse => absurd hfalse Bool.false_ne_true)
        hmutexes
        (fun other found => if other = handle then r'.afterUnlock handle else ([], found))
        ?_ ?_ ?_
      · intro other found hother
        split
        next heq =>
          subst heq
          cases hfound.symm.trans hother
          exact hafter
        · exact ⟨h.rwlocks.fits _ _ hother, RwlockState.handsOver_nil rfl⟩
      · intro other
        rw [getElem?_insert]
        split
        next heq => simp [← heq, hfound]
        next hne => simp [Ne.symm hne]
      · intro key
        constructor
        · intro hkey
          exact .inr ⟨handle, r, hfound, by rwa [if_pos rfl]⟩
        rintro (⟨_, _, -, hfalse, -⟩ | ⟨other, found, -, hkey⟩)
        · cases hfalse
        · split at hkey
          · exact hkey
          · cases hkey
    obtain ⟨scheduler, reads, hres, hsame, hfitted⟩ := hhand
    rw [hres]
    exact ⟨hfitted, hsame⟩

/-! ## Threads -/

theorem createThread (name : String) (priority : ℤ) (entryAddress argument : ℕ) :
    Fits clock (s.createThread name priority entryAddress argument).2 l := by
  unfold PthreadService.createThread
  split
  · exact h
  exact h.schedule le_rfl (.createThread name priority entryAddress argument) trivial

theorem discardReadyThread (hsettled : l.owed[handle]? = none) :
    Fits clock (s.discardReadyThread handle).2 l :=
  h.schedule le_rfl (.discardReadyThread handle) (waiting_of_settled hsettled)

theorem joinThread (hcur : s.scheduler.currentThread = some current)
    (hmay : l.permits (some current) (.joinThread handle) = true) :
    Fits clock (s.joinThread handle).2
      (l.record (some current) (.joinThread handle) (s.joinThread handle).1.status) := by
  have hnone := waiting_eq_none hmay rfl
  have hjoined := h.schedule le_rfl (.joinThread handle) fun caller hcaller =>
    ⟨mem_unique hcur hcaller ▸ hnone, isPthreadKey_threadExitWaitKey handle⟩
  exact hjoined.record rfl rfl hmay (h.not_mutexQueue hcur) _

theorem exitCurrent (hcur : s.scheduler.currentThread = some current)
    (hsettled : l.owed[current]? = none) (exitValue : ℕ) :
    Fits clock (s.exitCurrent clock exitValue).2 l := by
  have hnone := waiting_of_settled hsettled
  have hdrop : s.dropCompletedWait current = s := by
    rw [dropCompletedWait, h.conditions.not_completed_of_not_waiting hnone]
  have hmutexes : ∀ handle : ℕ,
      (s.mutexes.map fun handle m => (leaveIfOwned handle current m).2)[handle]? =
        s.mutexes[handle]?.map fun m =>
          if decide (m.owner = current) then (m.leave handle current).2 else m := by
    intro handle
    rw [Std.ExtTreeMap.getElem?_map]
    refine congrArg (Option.map · _) (funext fun m => ?_)
    simp only [leaveIfOwned, decide_eq_true_eq]
    split <;> rfl
  have hkeys : ∀ key, key ∈
      s.mutexes.toList.filterMap (fun entry => (entry.2.leaveIfOwned entry.1 current).1) ++
        s.rwlocks.toList.flatMap (fun entry => (entry.2.leave entry.1 current).1) ↔
      (∃ (handle : ℕ) (m : MutexState), s.mutexes[handle]? = some m ∧
        decide (m.owner = current) = true ∧ (m.leave handle current).1 = some key) ∨
      ∃ (handle : ℕ) (r : RwlockState), s.rwlocks[handle]? = some r ∧
        key ∈ (r.leave handle current).1 := by
    intro key
    simp only [List.mem_append, List.mem_filterMap, List.mem_flatMap, Prod.exists,
      Std.ExtTreeMap.mem_toList_iff_getElem?_eq_some, decide_eq_true_eq]
    refine or_congr (exists₂_congr fun handle m => and_congr_right fun _ => ?_) Iff.rfl
    rw [leaveIfOwned]
    split
    next howner => exact (and_iff_right howner).symm
    next howner => exact iff_of_false (some_ne_none _).symm fun h => howner h.1
  obtain ⟨scheduler, reads, hres, hsame, hfits⟩ := h.handOver (fun _ m => m.owner = current)
    (fun _ _ _ hleft => of_decide_eq_true hleft) hmutexes (fun handle r => r.leave handle current)
    (fun handle r hfound => (h.rwlocks.fits _ r hfound).leave
      ((h.rwlocks.fits _ r hfound).clear fun write => by
        rw [hsettled]
        exact (some_ne_none _).symm)
      (h.orderly.current_pos hcur))
    (fun handle => Std.ExtTreeMap.getElem?_map) hkeys
  have hexited := hfits.schedule le_rfl (.exitCurrent exitValue) fun thread hthread =>
    ⟨mem_unique (hsame.trans hcur) hthread ▸ hnone, isPthreadKey_threadExitWaitKey _⟩
  simp only [PthreadService.exitCurrent, hcur, hdrop, hres]
  exact hexited

end PthreadService.Fits

end KajPS5.Kernel
