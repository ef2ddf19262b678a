/-
# What the pthread calls do

One lemma per call says everything the call can do to the service, without any invariant: what
it does to the one object it is about, and whether the current thread blocks or threads are
woken. The calls that create and destroy objects share one description.
-/

import KajPS5.Kernel.PthreadRuns

namespace KajPS5.Kernel

open Math GuestScheduler OrderedMaps PthreadService

/-! ## Creating and destroying -/

/-- A mutex that nobody has used. -/
structure MutexState.Fresh (m : MutexState) : Prop where
  owner : m.owner = invalidKernelHandle
  recursionCount : m.recursionCount = 0
  waiters : m.waiters = []
  grantedWaiters : m.grantedWaiters = ∅
  conditionWaiterCount : m.conditionWaiterCount = 0

/-- An object was added under a free handle, or an idle one was removed, or neither. -/
inductive Exchanged {α : Type} (fresh idle : α → Prop) (t : Std.ExtTreeMap ℕ α) :
    Std.ExtTreeMap ℕ α → Prop
  | same : Exchanged fresh idle t t
  | added (handle : ℕ) (object : α) (hfree : t[handle]? = none) (hfresh : fresh object) :
      Exchanged fresh idle t (t.insert handle object)
  | removed (handle : ℕ) (object : α) (hfound : t[handle]? = some object) (hidle : idle object) :
      Exchanged fresh idle t (t.erase handle)

variable {handle : ℕ}

/-- An object that is there afterwards was there or is new. -/
theorem Exchanged.of_after {α : Type} {fresh idle : α → Prop} {t t' : Std.ExtTreeMap ℕ α}
    (h : Exchanged fresh idle t t') {object : α} (hafter : t'[handle]? = some object) :
    t[handle]? = some object ∨ t[handle]? = none ∧ fresh object := by
  cases h with
  | same => exact .inl hafter
  | added other added hfree hfresh =>
    rw [getElem?_insert] at hafter
    split at hafter
    next heq =>
      cases hafter
      exact .inr ⟨heq ▸ hfree, hfresh⟩
    · exact .inl hafter
  | removed other removed hfound hidle => exact .inl (getElem?_of_erase hafter).2

/-- An object that was there still is, or it was idle. -/
theorem Exchanged.of_before {α : Type} {fresh idle : α → Prop} {t t' : Std.ExtTreeMap ℕ α}
    (h : Exchanged fresh idle t t') {object : α} (hpre : t[handle]? = some object) :
    t'[handle]? = some object ∨ idle object := by
  cases h with
  | same => exact .inl hpre
  | added other added hfree hfresh =>
    rw [getElem?_insert, if_neg]
    · exact .inl hpre
    · rintro rfl
      cases hfree.symm.trans hpre
  | removed other removed hfound hidle =>
    rw [getElem?_erase]
    split
    next heq =>
      rw [← heq, hfound] at hpre
      cases hpre
      exact .inr hidle
    · exact .inl hpre

/-- The call only creates or destroys an object. -/
structure Administers (s s' : PthreadService) : Prop where
  scheduler : s'.scheduler = s.scheduler
  reads : s'.reads = s.reads
  completed : s'.completedConditionWaits = s.completedConditionWaits
  mutexes : Exchanged MutexState.Fresh (·.busy = false) s.mutexes s'.mutexes
  rwlocks : Exchanged (fun r => ∃ guestObjectSlot, r = { guestObjectSlot }) (·.busy = false)
    s.rwlocks s'.rwlocks
  conditions : Exchanged (· = {}) (fun c => c.activeWaiterCount = 0 ∧ c.waiters = [])
    s.conditions s'.conditions

namespace Administers

variable (s : PthreadService)

theorem refl : Administers s s := ⟨rfl, rfl, rfl, .same, .same, .same⟩

theorem createMutexAttribute : Administers s s.createMutexAttribute.2 := by
  unfold PthreadService.createMutexAttribute
  split <;> exact ⟨rfl, rfl, rfl, .same, .same, .same⟩

theorem destroyMutexAttribute (handle : ℕ) : Administers s (s.destroyMutexAttribute handle).2 := by
  unfold PthreadService.destroyMutexAttribute
  repeat' split
  all_goals exact ⟨rfl, rfl, rfl, .same, .same, .same⟩

theorem setMutexAttribute (valid : Bool) (change : PthreadMutexAttribute → PthreadMutexAttribute)
    (handle : ℕ) : Administers s (s.setMutexAttribute valid change handle).2 := by
  unfold PthreadService.setMutexAttribute
  repeat' split
  all_goals exact ⟨rfl, rfl, rfl, .same, .same, .same⟩

variable (attributeHandle : ℕ) (staticType : ℤ)

theorem fresh_newMutex (guestObjectSlot : Option ℕ) :
    (s.newMutex attributeHandle staticType guestObjectSlot).Fresh := ⟨rfl, rfl, rfl, rfl, rfl⟩

theorem probeMutexId_free {candidateId probes id : ℕ}
    (h : s.probeMutexId candidateId probes = some id) :
    s.mutexes[syntheticMutexHandleBase + id]? = none := by
  induction probes generalizing candidateId with
  | zero =>
    rw [probeMutexId] at h
    split at h
    next hfree =>
      cases h
      exact hfree.1
    · cases h
  | succ probes ih =>
    rw [probeMutexId] at h
    split at h
    next hfree =>
      cases h
      exact hfree.1
    split_ifs at h
    exact ih h

/-- A mutex is created under a handle that was free, or nothing happens. -/
theorem createMutexLocked_cases (guestObjectSlot : Option ℕ) :
    (s.createMutexLocked attributeHandle staticType guestObjectSlot).2 = s ∧
        (s.createMutexLocked attributeHandle staticType guestObjectSlot).1.status ≠ .kOk ∨
      ∃ handle mutex nextMutexId, s.mutexes[handle]? = none ∧ mutex.Fresh ∧
        s.createMutexLocked attributeHandle staticType guestObjectSlot =
          ({ handle }, { s with mutexes := s.mutexes.insert handle mutex, nextMutexId }) := by
  unfold createMutexLocked
  split
  · exact .inl ⟨rfl, nofun⟩
  cases guestObjectSlot with
  | some slot =>
    dsimp only
    split
    · exact .inl ⟨rfl, nofun⟩
    split
    next hfree => exact .inr ⟨_, _, _, hfree, fresh_newMutex s _ _ _, rfl⟩
    · exact .inl ⟨rfl, nofun⟩
  | none =>
    dsimp only
    split
    · exact .inl ⟨rfl, nofun⟩
    split
    · exact .inl ⟨rfl, nofun⟩
    next id hid => exact .inr ⟨_, _, _, probeMutexId_free s hid, fresh_newMutex s _ _ _, rfl⟩

theorem createMutex :
    Administers s (s.createMutex attributeHandle staticType).2 := by
  rcases createMutexLocked_cases s attributeHandle staticType none with
    ⟨hsame, -⟩ | ⟨handle, mutex, nextMutexId, hfree, hfresh, hres⟩
  · rw [PthreadService.createMutex, hsame]
    exact refl s
  · rw [PthreadService.createMutex, hres]
    exact ⟨rfl, rfl, rfl, .added handle mutex hfree hfresh, .same, .same⟩

section

variable (memory : ArenaMemory)

theorem createGuestMutexIn (arena : ℕ) (slots : List ℕ) :
    Administers s (s.createGuestMutexIn memory attributeHandle staticType arena slots).2 := by
  induction slots with
  | nil => exact refl s
  | cons slot slots ih =>
    rw [PthreadService.createGuestMutexIn]
    split
    · exact ih
    split
    · exact refl s
    split
    · exact ih
    split
    · exact refl s
    rcases createMutexLocked_cases s _ _ (some slot) with
      ⟨hsame, hstat⟩ | ⟨handle, mutex, nextMutexId, hfree, hfresh, hres⟩
    · dsimp only
      rw [if_pos hstat, hsame]
      exact refl s
    rw [hres]
    have hadded : Administers s { s with
        mutexes := s.mutexes.insert handle mutex, nextMutexId } :=
      ⟨rfl, rfl, rfl, .added handle mutex hfree hfresh, .same, .same⟩
    dsimp only
    split
    · exact hadded
    split
    · exact hadded
    split
    · -- the mutex that could not be written is taken back
      rw [erase_insert_of_none hfree mutex]
      exact ⟨rfl, rfl, rfl, .same, .same, .same⟩
    · exact ⟨rfl, rfl, rfl, hadded.mutexes, .same, .same⟩

theorem createGuestMutex :
    Administers s (s.createGuestMutex memory attributeHandle staticType).2 := by
  unfold PthreadService.createGuestMutex
  split
  · exact refl s
  split
  · exact refl s
  · exact createGuestMutexIn s _ _ _ _ _

theorem destroyMutex (handle : ℕ) : Administers s (s.destroyMutex memory handle).2 := by
  unfold PthreadService.destroyMutex
  split
  · exact refl s
  split
  · exact refl s
  next mutex hfound =>
    split
    · exact refl s
    next hidle =>
      rw [Bool.not_eq_true] at hidle
      have hremoved : Exchanged MutexState.Fresh (·.busy = false) s.mutexes
          (s.mutexes.erase handle) := .removed _ _ hfound hidle
      split
      · exact ⟨rfl, rfl, rfl, hremoved, .same, .same⟩
      dsimp only
      split
      · exact refl s
      split
      · exact refl s
      · exact ⟨rfl, rfl, rfl, hremoved, .same, .same⟩

theorem createGuestRwlockIn (arena : ℕ) (slots : List ℕ) :
    Administers s (s.createGuestRwlockIn memory arena slots).2 := by
  induction slots with
  | nil => exact refl s
  | cons slot slots ih =>
    rw [PthreadService.createGuestRwlockIn]
    split
    · exact ih
    split
    · exact refl s
    split
    · exact ih
    next hfree =>
      simp only [not_or, Option.not_isSome_iff_eq_none] at hfree
      exact ⟨rfl, rfl, rfl, .same, .added _ _ hfree.2.1 ⟨slot, rfl⟩, .same⟩

theorem createGuestRwlock : Administers s (s.createGuestRwlock memory).2 := by
  unfold PthreadService.createGuestRwlock
  split
  · exact refl s
  · exact createGuestRwlockIn s _ _ _

theorem destroyRwlock (handle : ℕ) : Administers s (s.destroyRwlock memory handle).2 := by
  unfold PthreadService.destroyRwlock
  split
  · exact refl s
  next rwlock hfound =>
    split
    · exact refl s
    next hidle =>
      rw [Bool.not_eq_true] at hidle
      split
      · exact refl s
      · exact ⟨rfl, rfl, rfl, .same, .removed _ _ hfound hidle, .same⟩

end

theorem createCondition : Administers s s.createCondition.2 := by
  unfold PthreadService.createCondition
  split
  · exact refl s
  refine ⟨rfl, rfl, rfl, .same, .same, ?_⟩
  dsimp only
  set handle := syntheticConditionHandleBase + s.nextConditionId
  cases hfound : s.conditions[handle]? with
  | none =>
    rw [insertIfNew_of_none hfound]
    exact .added handle _ hfound (Eq.refl _)
  | some condition =>
    rw [insertIfNew_of_some hfound]
    exact .same

theorem destroyCondition (handle : ℕ) : Administers s (s.destroyCondition handle).2 := by
  unfold PthreadService.destroyCondition
  split
  · exact refl s
  split
  · exact refl s
  next condition hfound =>
    split
    · exact refl s
    next hidle =>
      rw [not_or, not_not, not_not] at hidle
      exact ⟨rfl, rfl, rfl, .same, .same, .removed _ _ hfound hidle⟩

theorem configureGuestMutexArena (memory : ArenaMemory) (address : ℕ) :
    Administers s (s.configureGuestMutexArena memory address).2 := by
  unfold PthreadService.configureGuestMutexArena
  split <;> exact ⟨rfl, rfl, rfl, .same, .same, .same⟩

theorem releaseGuestMutexArena : Administers s s.releaseGuestMutexArena.2 := by
  unfold PthreadService.releaseGuestMutexArena
  split <;> exact ⟨rfl, rfl, rfl, .same, .same, .same⟩

end Administers

/-! ## Waking -/

namespace PthreadService

variable (clock : SteadyClock)

/-- Waking touches only the scheduler and the readings of the clock. -/
theorem wakeBlockedThreads_frame (waitKeys : List String) {s t : PthreadService}
    (hsched : t.scheduler = s.scheduler) (hreads : t.reads = s.reads) :
    t.wakeBlockedThreads clock waitKeys = { t with
      scheduler := (s.wakeBlockedThreads clock waitKeys).scheduler
      reads := (s.wakeBlockedThreads clock waitKeys).reads } := by
  induction waitKeys generalizing s t with
  | nil => simp [wakeBlockedThreads, ← hsched, ← hreads]
  | cons waitKey waitKeys ih =>
    have hfirst : (t.wakeBlockedThread clock waitKey).scheduler =
        (s.wakeBlockedThread clock waitKey).scheduler ∧
        (t.wakeBlockedThread clock waitKey).reads = (s.wakeBlockedThread clock waitKey).reads := by
      simp [wakeBlockedThread, monotonicNanoseconds, hsched, hreads]
    exact ih hfirst.1 hfirst.2

/-- The loop over the wake keys: the threads that wait under them are woken, and with them some
whose deadline is reached. -/
theorem wakeBlockedThreads_spec (waitKeys : List String) (s : PthreadService)
    (hs : Orderly s.scheduler) (hkeys : ∀ key ∈ waitKeys, key ≠ "" ∧ s.scheduler.OneWaits key) :
    ∃ scheduler reads, s.wakeBlockedThreads clock waitKeys = { s with scheduler, reads } ∧
      s.reads ≤ reads ∧ Orderly scheduler ∧
      Awakes (· ∈ waitKeys) (clock.monotonicNanoseconds reads) s.scheduler scheduler ∧
      ∀ key ∈ waitKeys, scheduler.NoneWaits key := by
  induction waitKeys generalizing s with
  | nil => exact ⟨s.scheduler, s.reads, rfl, le_rfl, hs, .refl _ _ _, nofun⟩
  | cons waitKey waitKeys ih =>
    set now := clock.monotonicNanoseconds s.reads
    set woken := s.wakeBlockedThread clock waitKey with hwoken
    have hfirst : Awakes (· = waitKey) now s.scheduler woken.scheduler :=
      s.scheduler.awakes_wakeBlockedThreads waitKey 1 now
    obtain ⟨hne, hone⟩ := hkeys waitKey List.mem_cons_self
    have hnone : woken.scheduler.NoneWaits waitKey := noneWaits_wakeBlockedThreads hne _ hone
    obtain ⟨scheduler, reads, hres, hle, hord, hrest, hrestNone⟩ :=
      ih _ (hs.step (.wakeBlockedThreads waitKey 1 now)) fun key hmem =>
        ⟨(hkeys _ (List.mem_cons_of_mem _ hmem)).1,
          (hkeys _ (List.mem_cons_of_mem _ hmem)).2.awakes hfirst⟩
    have hreads : s.reads ≤ reads := (Nat.le_succ _).trans hle
    refine ⟨scheduler, reads, hres, hreads, hord, ?_, ?_⟩
    · refine (hfirst.mono ?_ (clock.steady hreads)).trans (hrest.mono ?_ le_rfl)
      · rintro key rfl
        exact List.mem_cons_self
      · exact fun key hmem => List.mem_cons_of_mem _ hmem
    · intro key hmem
      rcases List.mem_cons.mp hmem with rfl | hmem
      · exact hnone.awakes hrest
      · exact hrestNone _ hmem

end PthreadService

/-! ## Mutexes -/

namespace MutexState

/-- What locking can do to a mutex. -/
inductive Locks (current : ℕ) (tryOnly : Bool) (m : MutexState) :
    Option KernelStatus × MutexState → Prop
  | acquire (howner : m.owner = invalidKernelHandle) :
      Locks current tryOnly m (some .kOk, { m with owner := current, recursionCount := 1 })
  | granted (howner : m.owner = current) (hheld : m.owner ≠ invalidKernelHandle)
      (hgranted : current ∈ m.grantedWaiters) :
      Locks current tryOnly m
        (some .kOk, { m with grantedWaiters := m.grantedWaiters.erase current })
  | again (howner : m.owner = current) (hheld : m.owner ≠ invalidKernelHandle)
      (hgranted : current ∉ m.grantedWaiters) (status : KernelStatus)
      (hstatus : status ≠ .kWouldBlock) (recursionCount : ℕ)
      (hle : m.recursionCount ≤ recursionCount) :
      Locks current tryOnly m (some status, { m with recursionCount })
  | refuse (howner : m.owner ≠ current) (hheld : m.owner ≠ invalidKernelHandle)
      (htry : tryOnly = true) : Locks current tryOnly m (some .kBusy, m)
  | wait (howner : m.owner ≠ current) (hheld : m.owner ≠ invalidKernelHandle)
      (htry : tryOnly = false) :
      Locks current tryOnly m
        (none, if current ∈ m.waiters then m else { m with waiters := m.waiters ++ [current] })

theorem locks (current : ℕ) (tryOnly : Bool) (m : MutexState) :
    Locks current tryOnly m (m.lock current tryOnly) := by
  unfold lock
  split
  next howner => exact .acquire howner
  next hheld =>
    split
    next howner =>
      have hagain (hgrant : current ∉ m.grantedWaiters) :
          Locks current tryOnly m (some m.lockAgain.1, m.lockAgain.2) := by
        unfold lockAgain
        split
        · exact .again howner hheld hgrant .kNoResources nofun _ le_rfl
        · exact .again howner hheld hgrant .kOk nofun _ (Nat.le_succ _)
      split
      next hgrant => exact .granted howner hheld hgrant
      next hgrant =>
        split
        · exact hagain hgrant
        split
        · exact hagain hgrant
        split
        · exact .again howner hheld hgrant .kOk nofun _ le_rfl
        refine .again howner hheld hgrant _ ?_ m.recursionCount le_rfl
        split <;> exact nofun
    next howner =>
      split
      next htry => exact .refuse howner hheld htry
      next htry =>
        have hwait := Locks.wait (m := m) howner hheld (Bool.not_eq_true _ ▸ htry)
        split
        next hmem => simpa [if_pos hmem] using hwait
        next hmem => simpa [if_neg hmem] using hwait

variable {current : ℕ} {m m' : MutexState} {tryOnly : Bool}

/-- A thread that gets an answer owns the mutex, or the mutex is as it was. -/
theorem Locks.of_answer {status : KernelStatus} (h : Locks current tryOnly m (some status, m')) :
    m'.conditionWaiterCount = m.conditionWaiterCount ∧ (m'.owner = current ∨ m' = m) := by
  cases h with
  | acquire => exact ⟨rfl, .inl rfl⟩
  | granted howner | again howner => exact ⟨rfl, .inl howner⟩
  | refuse => exact ⟨rfl, .inr rfl⟩

/-- A thread that has to wait changes only the list of waiters. -/
theorem Locks.of_wait (h : Locks current tryOnly m (none, m')) :
    m'.conditionWaiterCount = m.conditionWaiterCount ∧ m'.owner = m.owner ∧
      m'.grantedWaiters = m.grantedWaiters := by
  generalize hres : ((none : Option KernelStatus), m') = result at h
  cases h with
  | wait =>
    obtain ⟨-, rfl⟩ := hres
    split <;> exact ⟨rfl, rfl, rfl⟩
  | _ => cases hres

/-- The mutex after its owner left: the first waiter has it, if there is one. -/
theorem leave_cases (handle current : ℕ) (m : MutexState) :
    (m.waiters = [] ∧ m.leave handle current = (none, { m with
      owner := invalidKernelHandle
      recursionCount := 0
      grantedWaiters := m.grantedWaiters.erase current })) ∨
    ∃ next waiters, m.waiters = next :: waiters ∧
      m.leave handle current = (some (mutexWaitKey handle next), { m with
        owner := next
        recursionCount := 1
        waiters
        grantedWaiters := insert next (m.grantedWaiters.erase current) }) := by
  unfold leave grantNextMutexWaiterLocked
  cases hwaiters : m.waiters with
  | nil => exact .inl ⟨rfl, rfl⟩
  | cons next waiters => exact .inr ⟨next, waiters, rfl, rfl⟩

/-- The count of condition waits has no part in it. -/
theorem leave_recount (handle current conditionWaiterCount : ℕ) (m : MutexState) :
    { m with conditionWaiterCount }.leave handle current =
      ((m.leave handle current).1, { (m.leave handle current).2 with conditionWaiterCount }) := by
  unfold leave grantNextMutexWaiterLocked
  dsimp only
  split <;> rfl

/-- The new owner has a grant to pick up. -/
theorem leave_grants (handle current : ℕ) (m : MutexState) :
    (m.leave handle current).2.conditionWaiterCount = m.conditionWaiterCount ∧
      ∀ thread, thread ≠ invalidKernelHandle → (m.leave handle current).2.owner = thread →
        thread ∈ (m.leave handle current).2.grantedWaiters := by
  rcases m.leave_cases handle current with ⟨-, hleave⟩ | ⟨next, waiters, -, hleave⟩
  · rw [hleave]
    exact ⟨rfl, fun thread hne howner => absurd howner.symm hne⟩
  · rw [hleave]
    refine ⟨rfl, ?_⟩
    rintro thread - rfl
    exact Finset.mem_insert_self _ _

/-- Only the new owner is woken. -/
theorem leave_key {handle : ℕ} {key : String} (h : (m.leave handle current).1 = some key) :
    ∃ next, key = mutexWaitKey handle next := by
  rcases m.leave_cases handle current with ⟨-, hleave⟩ | ⟨next, waiters, -, hleave⟩
  · rw [hleave] at h
    cases h
  · rw [hleave] at h
    cases h
    exact ⟨next, rfl⟩

end MutexState

namespace PthreadService

variable (clock : SteadyClock)

/-- What `lockMutex` can do. -/
inductive LocksMutex (handle : ℕ) (tryOnly : Bool) (s : PthreadService) :
    KernelStatus × PthreadService → Prop
  | refuse (status : KernelStatus) (hok : status ≠ .kOk) (hstatus : status ≠ .kWouldBlock)
      (hwhy : s.scheduler.currentThread = none ∨ s.mutexes[handle]? = none) :
      LocksMutex handle tryOnly s (status, s)
  | answer (current : ℕ) (hcurrent : s.scheduler.currentThread = some current)
      (m m' : MutexState) (hfound : s.mutexes[handle]? = some m) (status : KernelStatus)
      (hlocks : MutexState.Locks current tryOnly m (some status, m')) :
      LocksMutex handle tryOnly s (status, s.putMutex handle m')
  | block (current : ℕ) (hcurrent : s.scheduler.currentThread = some current)
      (m m' : MutexState) (hfound : s.mutexes[handle]? = some m)
      (hlocks : MutexState.Locks current tryOnly m (none, m')) (scheduler : GuestScheduler)
      (horderly : Orderly scheduler)
      (hblocks : Blocks current (mutexWaitKey handle current, none) s.scheduler scheduler) :
      LocksMutex handle tryOnly s (.kWouldBlock, { s.putMutex handle m' with scheduler })

theorem locksMutex (handle : ℕ) (tryOnly : Bool) {s : PthreadService}
    (hs : Orderly s.scheduler) : LocksMutex handle tryOnly s (s.lockMutex handle tryOnly) := by
  unfold lockMutex
  cases hcur : s.scheduler.currentThread with
  | none => exact .refuse _ nofun nofun (.inl hcur)
  | some current =>
    cases hfound : s.mutexes[handle]? with
    | none => exact .refuse _ nofun nofun (.inr hfound)
    | some m =>
      have hlocks := m.locks current tryOnly
      dsimp only
      split
      next status m' hres =>
        rw [hres] at hlocks
        exact .answer _ hcur m _ hfound _ hlocks
      next m' hres =>
        rw [hres] at hlocks
        obtain ⟨scheduler, hblock, hord, hblocks⟩ := blockCurrentLocked_current hs hcur
          (ne_empty_of_isPthreadKey (isPthreadKey_mutexWaitKey handle current)) none
        rw [blockCurrent, hblock]
        exact .block _ hcur m _ hfound hlocks _ hord hblocks

/-- What `unlockMutex` can do. -/
inductive UnlocksMutex (handle : ℕ) (s : PthreadService) :
    KernelStatus × PthreadService → Prop
  | refuse (status : KernelStatus) (hok : status ≠ .kOk) (hstatus : status ≠ .kWouldBlock)
      (hwhy : ∀ current m, s.scheduler.currentThread = some current →
        s.mutexes[handle]? = some m → m.owner = current → m.recursionCount = 0) :
      UnlocksMutex handle s (status, s)
  | once (current : ℕ) (hcurrent : s.scheduler.currentThread = some current) (m : MutexState)
      (hfound : s.mutexes[handle]? = some m) (howner : m.owner = current)
      (hcount : 1 < m.recursionCount) :
      UnlocksMutex handle s
        (.kOk, s.putMutex handle { m with recursionCount := m.recursionCount - 1 })
  | leave (current : ℕ) (hcurrent : s.scheduler.currentThread = some current) (m : MutexState)
      (hfound : s.mutexes[handle]? = some m) (howner : m.owner = current)
      (hcount : m.recursionCount = 1) :
      UnlocksMutex handle s (.kOk, (s.putMutex handle (m.leave handle current).2).wakeBlockedThreads
        clock (m.leave handle current).1.toList)

theorem unlocksMutex (handle : ℕ) (s : PthreadService) :
    UnlocksMutex clock handle s (s.unlockMutex clock handle) := by
  unfold unlockMutex
  cases hcur : s.scheduler.currentThread with
  | none => exact .refuse _ nofun nofun (by simp [hcur])
  | some current =>
    cases hfound : s.mutexes[handle]? with
    | none => exact .refuse _ nofun nofun (by simp [hfound])
    | some m =>
      dsimp only
      split
      next howner =>
        refine .refuse _ nofun nofun ?_
        intro _ _ hsome hm howned
        rw [hcur] at hsome
        rw [hfound] at hm
        cases hsome
        cases hm
        exact absurd howned howner
      next howner =>
        rw [not_not] at howner
        split
        next hzero =>
          refine .refuse _ nofun nofun ?_
          intro _ _ _ hm _
          cases hfound.symm.trans hm
          exact hzero
        next hzero =>
          split
          next hmore => exact .once _ hcur m hfound howner (by omega)
          next hlast => exact .leave _ hcur m hfound howner (by omega)

end PthreadService

end KajPS5.Kernel
