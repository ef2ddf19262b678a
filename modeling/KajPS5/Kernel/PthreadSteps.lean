/-
# The steps of the pthread service

Every step that respects the owed calls keeps the invariant, so it holds after every run. A step
also keeps the completed waits, except for the one that it answers.
-/

import KajPS5.Kernel.PthreadSignals

namespace KajPS5.Kernel

open Math GuestScheduler Ledger

/-! ## Completed waits last -/

namespace PthreadService

variable (clock : SteadyClock) (s : PthreadService)

end PthreadService

/-- The calls that create, set or destroy an object. -/
def PthreadCall.administers : PthreadCall → Bool
  | lockMutex .. | unlockMutex .. | lockRwlock .. | unlockRwlock .. | waitCondition ..
  | waitConditionFor .. | waitConditionUntilRealtime .. | signalCondition .. | createThread ..
  | joinThread .. => false
  | _ => true

theorem Administers.perform (clock : SteadyClock) (memory : ArenaMemory) (s : PthreadService)
    {call : PthreadCall} (h : call.administers = true) :
    Administers s (s.perform clock memory call).2 := by
  cases call with
  | createMutexAttribute => exact .createMutexAttribute s
  | destroyMutexAttribute handle => exact .destroyMutexAttribute s _
  | setMutexAttributeType handle type | setMutexAttributeProtocol handle protocol =>
    exact .setMutexAttribute s _ _ _
  | createMutex attributeHandle staticType => exact .createMutex s _ _
  | createGuestMutex attributeHandle staticType => exact .createGuestMutex s _ _ _
  | destroyMutex handle => exact .destroyMutex s _ _
  | createGuestRwlock => exact .createGuestRwlock s _
  | destroyRwlock handle => exact .destroyRwlock s _ _
  | createCondition => exact .createCondition s
  | destroyCondition handle => exact .destroyCondition s _
  | _ => cases h

namespace PthreadService

variable {clock : SteadyClock} {s : PthreadService} {l : Ledger}

end PthreadService

/-! ## Every step keeps the invariant -/

namespace PthreadService.Fits

variable {clock : SteadyClock} {s : PthreadService} {l : Ledger}

variable {call : PthreadCall}

section

variable (h : Fits clock s l)
include h

/-- The call of the thread that runs is recorded, if one runs. -/
theorem recordCurrent {current : Option ℕ}
    (hcur : s.scheduler.currentThread = current) (hwaits : call.waitsFor = none)
    (hlocks : call.locksRwlock = false) (hmay : l.permits current call = true)
    (status : KernelStatus) : Fits clock s (l.record current call status) := by
  cases current with
  | none => exact h
  | some thread => exact h.record hwaits hlocks hmay (h.not_mutexQueue hcur) _

/-- A call that creates or destroys an object. -/
theorem administersCurrent {s' : PthreadService}
    (hadministers : Administers s s') (hwaits : call.waitsFor = none)
    (hlocks : call.locksRwlock = false) (hmay : l.permits s.scheduler.currentThread call = true)
    (status : KernelStatus) : Fits clock s' (l.record s.scheduler.currentThread call status) :=
  (h.administers hadministers).recordCurrent
    (congrArg _ hadministers.scheduler) hwaits hlocks hmay status

variable (memory : ArenaMemory)

/-- A wait call with no thread running. -/
theorem waits_idle (hcur : s.scheduler.currentThread = none) (hcall : call.waitsFor ≠ none) :
    Fits clock (s.perform clock memory call).2 l ∧
      (s.perform clock memory call).2.completedConditionWaits = s.completedConditionWaits := by
  cases call with
  | waitCondition c m =>
    simp only [PthreadService.perform, PthreadService.waitCondition,
      PthreadService.waitConditionInternal, hcur]
    exact ⟨h, trivial⟩
  | waitConditionFor c m timeoutMicroseconds =>
    simp only [PthreadService.perform, PthreadService.waitConditionFor,
      PthreadService.monotonicNanoseconds, PthreadService.waitConditionInternal, hcur]
    exact ⟨h.readClock, trivial⟩
  | waitConditionUntilRealtime c m deadline =>
    simp only [PthreadService.perform, PthreadService.waitConditionUntilRealtime]
    rcases realtimeDeadlineToMonotonic_cases clock deadline s with
      ⟨-, hres⟩ | ⟨-, monotonicDeadline, hres⟩
    · rw [hres]
      exact ⟨h, rfl⟩
    · simp only [hres, PthreadService.waitConditionInternal, hcur]
      exact ⟨h.readClock, trivial⟩
  | _ => exact absurd rfl hcall

theorem performWait {wait : ℕ × ℕ} (hcall : call.waitsFor = some wait)
    (hmay : l.permits s.scheduler.currentThread call = true) :
    Fits clock (s.perform clock memory call).2
      (l.record s.scheduler.currentThread call (s.perform clock memory call).1) := by
  cases hcur : s.scheduler.currentThread with
  | none => exact (h.waits_idle _ hcur (by rw [hcall]; exact Option.some_ne_none _)).1
  | some current =>
    rw [hcur] at hmay
    obtain ⟨status, s', hres, hfits, -⟩ := h.waits _ hcur hcall hmay
    rw [hres]
    exact hfits

theorem perform (call : PthreadCall) (hmay : l.permits s.scheduler.currentThread call = true) :
    Fits clock (s.perform clock memory call).2
      (l.record s.scheduler.currentThread call (s.perform clock memory call).1) := by
  cases call with
  | lockMutex handle tryOnly =>
    cases hcur : s.scheduler.currentThread with
    | none =>
      simp only [PthreadService.perform, PthreadService.lockMutex, hcur]
      exact h
    | some current =>
      rw [hcur] at hmay
      exact h.lockMutex hcur hmay
  | unlockMutex handle =>
    obtain ⟨hfits, hcur⟩ := h.unlockMutex handle
    exact hfits.recordCurrent hcur rfl rfl hmay _
  | lockRwlock handle write tryOnly =>
    cases hcur : s.scheduler.currentThread with
    | none =>
      simp only [PthreadService.perform, PthreadService.lockRwlock, hcur]
      exact h
    | some current =>
      rw [hcur] at hmay
      exact h.lockRwlock hcur hmay
  | unlockRwlock handle =>
    cases hcur : s.scheduler.currentThread with
    | none =>
      simp only [PthreadService.perform, PthreadService.unlockRwlock, hcur]
      exact h
    | some current =>
      rw [hcur] at hmay
      obtain ⟨hfits, hsame⟩ := h.unlockRwlock hcur (owed_ne_of_permits hmay rfl handle)
      exact hfits.recordCurrent (hsame.trans hcur) rfl rfl hmay _
  | signalCondition handle broadcast =>
    cases hfound : s.conditions[handle]? with
    | none =>
      simp only [PthreadService.perform, PthreadService.signalCondition, hfound]
      exact h.recordCurrent rfl rfl rfl hmay _
    | some condition =>
      obtain ⟨_, _, _, _, _, -, ⟨hres, hfits⟩, hcur, -⟩ := h.signalCondition hfound broadcast
      simp only [PthreadService.perform, hres]
      exact hfits.recordCurrent hcur rfl rfl hmay _
  | createThread name priority entryAddress argument =>
    refine (h.createThread name priority entryAddress argument).recordCurrent ?_ rfl rfl hmay _
    unfold PthreadService.createThread
    split
    · rfl
    · exact currentThread_createThread _ _ _ _
  | joinThread handle =>
    cases hcur : s.scheduler.currentThread with
    | none =>
      exact h.schedule le_rfl (.joinThread handle) fun caller hcaller => by
        cases hcur.symm.trans hcaller
    | some current =>
      rw [hcur] at hmay
      exact h.joinThread hcur hmay
  | waitCondition | waitConditionFor | waitConditionUntilRealtime => exact h.performWait _ rfl hmay
  | _ => exact h.administersCurrent (.perform _ _ _ rfl) rfl rfl hmay _

end

end PthreadService.Fits

namespace PthreadSystem

variable {clock : SteadyClock} {y : PthreadSystem}

theorem waiting_of_settled_current (h : y.ledger.settled y.current = true) {current : ℕ}
    (hcur : y.service.scheduler.currentThread = some current) : y.ledger.owed[current]? = none := by
  rw [PthreadSystem.current, hcur] at h
  exact settled_some_iff.mp h

section

variable (h : y.service.Fits clock y.ledger)
include h

variable {step : PthreadStep}

theorem fits_effect (hallow : y.allowed step = true) :
    (y.effect clock step).service.Fits clock (y.effect clock step).ledger := by
  have hreads := Nat.le_succ y.service.reads
  cases step with
  | call call memory => exact h.perform _ _ hallow
  | exitCurrent exitValue =>
    cases hcur : y.service.scheduler.currentThread with
    | none =>
      simp only [effect, PthreadService.exitCurrent, hcur]
      exact h
    | some current => exact h.exitCurrent hcur (waiting_of_settled_current hallow hcur) _
  | discardReadyThread handle => exact h.discardReadyThread (settled_some_iff.mp hallow)
  | configureGuestMutexArena memory address => exact h.administers (.configureGuestMutexArena _ _ _)
  | releaseGuestMutexArena => exact h.administers (.releaseGuestMutexArena _)
  | selectNext => exact h.schedule hreads _ (clock.steady hreads)
  | yieldCurrent | insertObject | removeObject => exact h.schedule hreads _ trivial
  | blockCurrent waitKey deadline =>
    obtain ⟨hsettled, hkey⟩ := of_decide_eq_true hallow
    have hmay : ∀ current, y.service.scheduler.currentThread = some current →
        y.ledger.waiting current = none ∧ isPthreadKey waitKey = false :=
      fun current hcur =>
        ⟨waiting_of_settled (waiting_of_settled_current hsettled hcur), hkey⟩
    cases deadline with
    | none => exact h.schedule hreads (.blockCurrent waitKey) hmay
    | some deadline => exact h.schedule hreads (.blockCurrentUntil waitKey deadline) hmay
  | consumeCurrentThreadTimeout waitKey =>
    exact h.schedule hreads _ fun current hcur => waiting_of_settled
      (waiting_of_settled_current (of_decide_eq_true hallow).1 hcur)
  | wakeBlockedThreads waitKey maximumCount | wakeBlockedThread handle waitKey =>
    have hkey : isPthreadKey waitKey = false := of_decide_eq_true hallow
    exact h.schedule hreads _ ⟨hkey, clock.steady hreads⟩

end

/-- A step that is not allowed does nothing. -/
theorem fits_step (h : y.service.Fits clock y.ledger) (step : PthreadStep) :
    (y.step clock step).service.Fits clock (y.step clock step).ledger := by
  rw [PthreadSystem.step]
  split
  next hallow => exact fits_effect h hallow
  · exact h

theorem fits_run (clock : SteadyClock) (steps : List PthreadStep) :
    (run clock {} steps).service.Fits clock (run clock {} steps).ledger :=
  StepRuns.run_induction (P := fun y : PthreadSystem => y.service.Fits clock y.ledger) _
    (fun _ step h => fits_step h step) (.initial _) steps

end PthreadSystem

end KajPS5.Kernel
