/-
# What the calls of semaphores and event flags do

`Consistent` says that the objects agree with the table of handles and that every semaphore's
count is between zero and its maximum. From a consistent state a call has one of a few
outcomes: it is refused and changes nothing, it reads, it makes or deletes an object, it adds
units or bits and wakes every waiting thread, it takes some, or its thread blocks with a request
that the object cannot grant.
-/

import KajPS5.Kernel.WaitObjectRuns

namespace KajPS5.Kernel

open Math WaitObjects EventFlagService Option

/-- The status refuses a call. -/
def KernelStatus.refuses (status : KernelStatus) : Bool := status ≠ .kOk && status ≠ .kWouldBlock

theorem busy_refuses {status : KernelStatus} (h : status = .kBusy) : status.refuses = true := by
  rw [h]
  rfl

/-- The count of a semaphore is between zero and its maximum. -/
def WaitObject.Valid : WaitObject → Prop
  | .semaphore s => 0 ≤ s.count ∧ s.count ≤ s.maximumCount
  | .eventFlag _ => True

/-- The bits that a clear mode asks a wait to consume. -/
def EventFlagClearMode.asked (pattern : BitVec 64) : EventFlagClearMode → BitVec 64
  | .kNone => 0
  | .kAll => BitVec.allOnes 64
  | .kPattern => pattern

/-- A poll that is satisfied consumes the bits that its mode asks for. -/
theorem EventFlag.poll_eq (pattern : BitVec 64) (condition : EventFlagWaitCondition)
    (clearMode : EventFlagClearMode) (f : EventFlag) :
    f.poll pattern condition clearMode = if condition.holds f.bits pattern then
        (⟨true, f.bits⟩, { f with bits := f.bits &&& ~~~clearMode.asked pattern })
      else (⟨false, f.bits⟩, f) := by
  unfold EventFlag.poll
  cases clearMode with
  | kNone =>
    have hones : ~~~(0 : BitVec 64) = BitVec.allOnes 64 := by decide
    simp only [EventFlagClearMode.asked, hones, BitVec.and_allOnes]
  | kAll => simp [EventFlagClearMode.asked]
  | kPattern => rfl

namespace WaitObjects

/-- The objects agree with the table of handles. -/
structure Consistent (s : WaitObjects) : Prop where
  orderly : s.scheduler.Orderly
  kept : s.scheduler.handles.Kept
  fits : s.scheduler.handles.Fits
  typed : ∀ handle type, type = .kSemaphore ∨ type = .kEventFlag →
    (s.scheduler.handles.find handle type = true ↔
      s.objects[handle]?.map WaitObject.type = some type)
  valid : ∀ (handle : ℕ) object, s.objects[handle]? = some object → object.Valid

variable {s : WaitObjects}

variable {handle : ℕ} {s' : WaitObjects}

theorem Consistent.find_eq (hs : s.Consistent) {type : KernelObjectType}
    (htype : type = .kSemaphore ∨ type = .kEventFlag) :
    s.find handle type = s.objects[handle]?.filter fun object => object.type = type := by
  unfold find
  have htyped := hs.typed handle _ htype
  cases hobj : s.objects[handle]? with
  | none => split <;> rfl
  | some object =>
    rw [hobj, map_some, Option.some.injEq] at htyped
    by_cases hfind : s.scheduler.handles.find handle type = true
    · rw [if_pos hfind, filter_some, if_pos (decide_eq_true (htyped.mp hfind))]
    · rw [if_neg hfind, filter_some, if_neg]
      exact fun h => hfind (htyped.mpr (of_decide_eq_true h))

theorem Consistent.find_semaphore (hs : s.Consistent) {semaphore : Semaphore} :
    SemaphoreService.find handle s = some semaphore ↔
      s.objects[handle]? = some (.semaphore semaphore) := by
  rw [SemaphoreService.find, hs.find_eq (.inl rfl)]
  cases s.objects[handle]? with
  | none => simp
  | some object => cases object <;> simp [filter_some, WaitObject.type]

theorem Consistent.find_eventFlag (hs : s.Consistent) {eventFlag : EventFlag} :
    EventFlagService.find handle s = some eventFlag ↔
      s.objects[handle]? = some (.eventFlag eventFlag) := by
  rw [EventFlagService.find, hs.find_eq (.inr rfl)]
  cases s.objects[handle]? with
  | none => simp
  | some object => cases object <;> simp [filter_some, WaitObject.type]

variable {object : WaitObject}

theorem put_self (h : s.objects[handle]? = some object) : s.put handle object = s := by
  rw [put, OrderedMaps.insert_of_getElem? h]

theorem insert_none (h : s.insert object = (none, s')) : s' = s := by
  unfold insert at h
  rcases HandleTable.insert_cases object.type s.scheduler.handles with hnone | ⟨t', hsome, -⟩
  · rw [hnone] at h
    cases h
    rfl
  · rw [hsome] at h
    cases h

theorem remove_false {type : KernelObjectType} (h : s.remove handle type = (false, s')) :
    s' = s := by
  unfold remove at h
  split at h
  · cases h
    rfl
  · cases h

theorem Consistent.remove_true (hs : s.Consistent) {type : KernelObjectType}
    (htype : type = .kSemaphore ∨ type = .kEventFlag) (h : s.remove handle type = (true, s')) :
    ∃ object, s.objects[handle]? = some object ∧ object.type = type := by
  unfold remove at h
  split at h
  · cases h
  · rename_i handles hrem
    have hfind := HandleTable.remove_fst s.scheduler.handles handle type
    rw [hrem] at hfind
    exact map_eq_some_iff.mp ((hs.typed _ _ htype).mp hfind.symm)

theorem blockCurrent_false {waitKey : String} (h : s.blockCurrent waitKey = (false, s')) :
    s' = s := by
  unfold blockCurrent GuestScheduler.blockCurrent GuestScheduler.blockCurrentLocked at h
  split at h
  rename_i blocked scheduler hblock
  cases h
  split at hblock
  · cases hblock
    rfl
  · split at hblock
    · cases hblock
      rfl
    · cases hblock

end WaitObjects

/-! ## Outcomes -/

/-- The object that a call makes. -/
def WaitObjectCall.made : WaitObjectCall → Option WaitObject
  | .createSemaphore name attributes initialCount maximumCount =>
    some (.semaphore ⟨name, attributes, maximumCount, initialCount⟩)
  | .createEventFlag name attributes initialPattern =>
    some (.eventFlag ⟨name, attributes, initialPattern⟩)
  | _ => none

/-- The object that a call deletes. -/
def WaitObjectCall.deleted : WaitObjectCall → Option (ℕ × KernelObjectType)
  | .deleteSemaphore handle => some (handle, .kSemaphore)
  | .deleteEventFlag handle => some (handle, .kEventFlag)
  | _ => none

/-- The units that a call asks a semaphore for. -/
def WaitObjectCall.units : WaitObjectCall → Option (ℕ × ℤ)
  | .waitSemaphore handle count | .pollSemaphore handle count => some (handle, count)
  | _ => none

/-- The bits that a call asks an event flag for, and the mode. -/
def WaitObjectCall.bits : WaitObjectCall → Option (ℕ × BitVec 64 × BitVec 32)
  | .waitEventFlag handle pattern waitMode | .pollEventFlag handle pattern waitMode =>
    some (handle, pattern, waitMode)
  | _ => none

/-- What a call does to a consistent state. -/
inductive Outcome (clock : ℕ → ℕ) (s : WaitObjects) :
    WaitObjectCall → WaitObjectAnswer → WaitObjects → Prop
  | refused {call answer} : answer.status.refuses = true → Outcome clock s call answer s
  | read {handle answer} : answer.status = .kOk → Outcome clock s (.getCount handle) answer s
  | create {call answer object s'} : answer.status = .kOk → call.made = some object →
      object.Valid → s.insert object = (some answer.handle, s') → Outcome clock s call answer s'
  | delete {call answer handle object s'} : answer.status = .kOk →
      call.deleted = some (handle, object.type) → s.objects[handle]? = some object →
      s.remove handle object.type = (true, s') →
      Outcome clock s call answer (s'.wakeBlockedThreads clock (object.waitKey handle))
  | signal {handle count answer semaphore} : answer.status = .kOk →
      s.objects[handle]? = some (.semaphore semaphore) → 0 < count →
      semaphore.count + count ≤ semaphore.maximumCount →
      Outcome clock s (.signal handle count) answer
        ((s.put handle (.semaphore { semaphore with count := semaphore.count + count
          })).wakeBlockedThreads clock (SemaphoreService.makeWaitKey handle))
  | acquire {call answer handle count semaphore} : answer.status = .kOk →
      call.units = some (handle, count) → s.objects[handle]? = some (.semaphore semaphore) →
      0 < count → count ≤ semaphore.count →
      Outcome clock s call answer
        (s.put handle (.semaphore { semaphore with count := semaphore.count - count }))
  | set {handle pattern answer eventFlag} : answer.status = .kOk →
      s.objects[handle]? = some (.eventFlag eventFlag) →
      Outcome clock s (.set handle pattern) answer
        ((s.put handle (.eventFlag { eventFlag with bits := eventFlag.bits ||| pattern
          })).wakeBlockedThreads clock (makeWaitKey handle))
  | clear {handle mask answer eventFlag} : answer.status = .kOk →
      s.objects[handle]? = some (.eventFlag eventFlag) →
      Outcome clock s (.clear handle mask) answer
        (s.put handle (.eventFlag { eventFlag with bits := eventFlag.bits &&& mask }))
  | take {call answer handle pattern waitMode condition clearMode eventFlag} :
      answer.status = .kOk → call.bits = some (handle, pattern, waitMode) →
      decodeWaitMode waitMode = some (condition, clearMode) →
      s.objects[handle]? = some (.eventFlag eventFlag) →
      condition.holds eventFlag.bits pattern = true → answer.observedPattern = eventFlag.bits →
      Outcome clock s call answer (s.put handle (.eventFlag { eventFlag with
        bits := eventFlag.bits &&& ~~~clearMode.asked pattern }))
  | block {call answer handle request object s'} : answer.status = .kWouldBlock →
      call.request = some (handle, request) → s.objects[handle]? = some object →
      object.Unmet request → s.blockCurrent (object.waitKey handle) = (true, s') →
      Outcome clock s call answer s'

/-- What a poll finds: it is settled what becomes of a call that polls and of one that waits,
or the one that waits has a request that its object cannot grant. -/
inductive Polled (clock : ℕ → ℕ) (s : WaitObjects) (polls waits : WaitObjectCall)
    (waitKey : String) : WaitObjectAnswer → WaitObjects → Prop
  | settled {answer s'} : answer.status ≠ .kBusy → Outcome clock s polls answer s' →
      Outcome clock s waits answer s' → Polled clock s polls waits waitKey answer s'
  | unmet {answer handle request object} : answer.status = .kBusy →
      waits.request = some (handle, request) → s.objects[handle]? = some object →
      object.Unmet request → object.waitKey handle = waitKey →
      Polled clock s polls waits waitKey answer s

namespace Polled

variable {clock : ℕ → ℕ} {s s₁ s' : WaitObjects} {polls waits : WaitObjectCall} {waitKey : String}
  {answer : WaitObjectAnswer}

theorem refused (h : answer.status.refuses = true) (hne : answer.status ≠ .kBusy) :
    Polled clock s polls waits waitKey answer s :=
  .settled hne (.refused h) (.refused h)

variable (h : Polled clock s polls waits waitKey answer s₁)
include h

theorem poll : Outcome clock s polls answer s₁ := by
  cases h with
  | settled _ hpolls => exact hpolls
  | unmet hbusy => exact .refused (busy_refuses hbusy)

theorem wait_of_ne (hne : answer.status ≠ .kBusy) : Outcome clock s waits answer s₁ := by
  cases h with
  | settled _ _ hwaits => exact hwaits
  | unmet hbusy => exact absurd hbusy hne

/-- A wait that finds the object busy blocks, if there is a thread to block. -/
theorem wait_of_busy (hbusy : answer.status = .kBusy) :
    (s₁.blockCurrent waitKey = (false, s') → Outcome clock s waits answer s') ∧
      (s₁.blockCurrent waitKey = (true, s') → ∀ blocked : WaitObjectAnswer,
        blocked.status = .kWouldBlock → Outcome clock s waits blocked s') := by
  cases h with
  | settled hne => exact absurd hbusy hne
  | unmet _ hreq hobj hunmet hkey =>
    subst hkey
    refine ⟨fun hblock => ?_, fun hblock blocked hblocked => ?_⟩
    · rw [blockCurrent_false hblock]
      exact .refused (busy_refuses hbusy)
    · exact .block hblocked hreq hobj hunmet hblock

end Polled

/-! ## Each call has an outcome -/

section Calls

variable {clock : ℕ → ℕ} {s : WaitObjects} (hs : s.Consistent)

include hs

section

variable (handle : ℕ)
include handle

theorem outcome_deleteSemaphore : Outcome clock s (.deleteSemaphore handle)
      { status := (SemaphoreService.delete clock handle s).1 }
      (SemaphoreService.delete clock handle s).2 := by
  unfold SemaphoreService.delete
  split
  · rename_i s' hrem
    rw [remove_false hrem]
    exact .refused rfl
  · rename_i s' hrem
    obtain ⟨object, hobj, htype⟩ := hs.remove_true (.inl rfl) hrem
    cases object with
    | semaphore semaphore => exact .delete rfl rfl hobj hrem
    | eventFlag => cases htype

theorem outcome_deleteEventFlag : Outcome clock s (.deleteEventFlag handle)
      { status := (delete clock handle s).1 }
      (delete clock handle s).2 := by
  unfold delete
  split
  · rename_i s' hrem
    rw [remove_false hrem]
    exact .refused rfl
  · rename_i s' hrem
    obtain ⟨object, hobj, htype⟩ := hs.remove_true (.inr rfl) hrem
    cases object with
    | semaphore => cases htype
    | eventFlag eventFlag => exact .delete rfl rfl hobj hrem

theorem outcome_signal (count : ℤ) : Outcome clock s (.signal handle count)
      { status := (SemaphoreService.signal clock handle count s).1 }
      (SemaphoreService.signal clock handle count s).2 := by
  unfold SemaphoreService.signal
  split
  · exact .refused rfl
  rename_i semaphore hfind
  have hobj := hs.find_semaphore.mp hfind
  unfold Semaphore.signal
  split_ifs with hcount hroom
  · dsimp only
    rw [put_self hobj]
    exact .refused rfl
  · dsimp only
    rw [put_self hobj]
    exact .refused rfl
  · exact .signal rfl hobj (by omega) (by omega)

theorem polled_semaphore (count : ℤ) : let result := SemaphoreService.poll handle count s
    Polled clock s (.pollSemaphore handle count) (.waitSemaphore handle count)
      (SemaphoreService.makeWaitKey handle)
      { status := result.1.status, remainingCount := result.1.remainingCount } result.2 := by
  unfold SemaphoreService.poll
  split
  · exact .refused rfl nofun
  rename_i semaphore hfind
  have hobj := hs.find_semaphore.mp hfind
  unfold Semaphore.tryAcquire
  dsimp only
  split_ifs with hcount hbusy
  · rw [put_self hobj]
    exact .refused rfl nofun
  · rw [put_self hobj]
    exact .unmet rfl rfl hobj hbusy rfl
  · have hpos : 0 < count := by omega
    have hunits : count ≤ semaphore.count := by omega
    exact .settled nofun (.acquire rfl rfl hobj hpos hunits) (.acquire rfl rfl hobj hpos hunits)

theorem polled_eventFlag (pattern : BitVec 64) (waitMode : BitVec 32) :
    let result := poll handle pattern waitMode s
    Polled clock s (.pollEventFlag handle pattern waitMode)
      (.waitEventFlag handle pattern waitMode) (makeWaitKey handle)
      { status := result.1.status, observedPattern := result.1.observedPattern } result.2 := by
  unfold poll
  split
  · exact .refused rfl nofun
  rename_i eventFlag hfind
  have hobj := hs.find_eventFlag.mp hfind
  split
  · exact .refused rfl nofun
  split
  · exact .refused rfl nofun
  rename_i condition clearMode hmode
  rw [EventFlag.poll_eq]
  cases hholds : condition.holds eventFlag.bits pattern with
  | true =>
    exact .settled nofun (.take rfl rfl hmode hobj hholds rfl)
      (.take rfl rfl hmode hobj hholds rfl)
  | false =>
    have hreq : (WaitObjectCall.waitEventFlag handle pattern waitMode).request =
        some (handle, .bits pattern condition) := by
      rw [WaitObjectCall.request, hmode, map_some]
    simp only [Bool.false_eq_true, if_false, put_self hobj]
    exact .unmet rfl hreq hobj hholds rfl

theorem outcome_waitSemaphore (count : ℤ) : let result := SemaphoreService.wait handle count s
    Outcome clock s (.waitSemaphore handle count)
      { status := result.1.status, remainingCount := result.1.remainingCount } result.2 := by
  have hpolled := @polled_semaphore clock s hs handle count
  unfold SemaphoreService.wait
  generalize SemaphoreService.poll handle count s = polled at hpolled
  split
  split
  next hbusy => exact hpolled.wait_of_ne hbusy
  next hbusy =>
    split
    · exact (hpolled.wait_of_busy (not_not.mp hbusy)).1 ‹_›
    · exact (hpolled.wait_of_busy (not_not.mp hbusy)).2 ‹_› _ rfl

theorem outcome_waitEventFlag (pattern : BitVec 64) (waitMode : BitVec 32) :
    let result := wait handle pattern waitMode s
    Outcome clock s (.waitEventFlag handle pattern waitMode)
      { status := result.1.status, observedPattern := result.1.observedPattern } result.2 := by
  have hpolled := @polled_eventFlag clock s hs handle pattern waitMode
  unfold wait
  generalize poll handle pattern waitMode s = polled at hpolled
  split
  split
  next hbusy => exact hpolled.wait_of_ne hbusy
  next hbusy =>
    split
    · exact (hpolled.wait_of_busy (not_not.mp hbusy)).1 ‹_›
    · exact (hpolled.wait_of_busy (not_not.mp hbusy)).2 ‹_› _ rfl

end

/-- Every call has an outcome. -/
theorem outcome_perform (clock : ℕ → ℕ) (call : WaitObjectCall) :
    Outcome clock s call (s.perform clock call).1 (s.perform clock call).2 := by
  cases call with
  | createSemaphore name attributes initialCount maximumCount =>
    unfold perform SemaphoreService.create
    dsimp only
    split
    · exact .refused rfl
    split
    · rename_i s' hinsert
      rw [insert_none hinsert]
      exact .refused rfl
    · rename_i handle s' hinsert
      refine .create rfl rfl ?_ hinsert
      simp only [WaitObject.Valid]
      omega
  | deleteSemaphore handle => exact outcome_deleteSemaphore hs _
  | signal handle count => exact outcome_signal hs _ _
  | waitSemaphore handle count => exact outcome_waitSemaphore hs _ _
  | pollSemaphore handle count => exact (polled_semaphore hs _ _).poll
  | getCount handle =>
    unfold perform SemaphoreService.getCount
    dsimp only
    split
    · exact .refused rfl
    · exact .read rfl
  | createEventFlag name attributes initialPattern =>
    unfold perform create
    dsimp only
    split
    · exact .refused rfl
    split
    · rename_i s' hinsert
      rw [insert_none hinsert]
      exact .refused rfl
    · rename_i handle s' hinsert
      exact .create rfl rfl trivial hinsert
  | deleteEventFlag handle => exact outcome_deleteEventFlag hs _
  | set handle pattern =>
    unfold perform EventFlagService.set
    dsimp only
    split
    · exact .refused rfl
    · rename_i eventFlag hfind
      exact .set rfl (hs.find_eventFlag.mp hfind)
  | clear handle mask =>
    unfold perform clear
    dsimp only
    split
    · exact .refused rfl
    · rename_i eventFlag hfind
      exact .clear rfl (hs.find_eventFlag.mp hfind)
  | waitEventFlag handle pattern waitMode => exact outcome_waitEventFlag hs _ _ _
  | pollEventFlag handle pattern waitMode => exact (polled_eventFlag hs _ _ _).poll

end Calls

end KajPS5.Kernel
