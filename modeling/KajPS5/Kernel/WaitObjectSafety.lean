/-
# Semaphores and event flags are safe

Over every run of the two services: the count of a semaphore is what it started with and what was
signalled, without what was acquired, and stays between zero and its maximum; a call that is
refused changes nothing; a wait or poll of an event flag that succeeds consumes the bits that its
mode asks for; and a thread that is blocked for an object asks for what the object does not have.
-/

import KajPS5.Kernel.WaitObjectCalls

namespace KajPS5.Kernel

open Math WaitObjectCall EventFlagService OrderedMaps WaitObjects HandleTable

/-! ## The objects stay consistent -/

theorem WaitObject.type_cases (object : WaitObject) :
    object.type = .kSemaphore ∨ object.type = .kEventFlag := by
  cases object with
  | semaphore => exact .inl rfl
  | eventFlag => exact .inr rfl

namespace WaitObjects

variable {s s' : WaitObjects} {handle : ℕ} {object object' : WaitObject}

theorem getElem?_put (s : WaitObjects) (handle : ℕ) (object : WaitObject) (other : ℕ) :
    (s.put handle object).objects[other]? =
      if handle = other then some object else s.objects[other]? :=
  getElem?_insert _ _ _ _

/-- A semaphore is not touched by a change of an event flag. -/
theorem semaphore_of_put {eventFlag : EventFlag} {semaphore : Semaphore} {other : ℕ}
    (h : (s.put other (.eventFlag eventFlag)).objects[handle]? = some (.semaphore semaphore)) :
    s.objects[handle]? = some (.semaphore semaphore) := by
  rw [getElem?_put] at h
  split at h
  · cases h
  · exact h

theorem objects_remove {type : KernelObjectType} (h : s.remove handle type = (true, s')) :
    s'.scheduler.handles = (s.scheduler.handles.remove handle type).2 ∧
      s'.scheduler = { s.scheduler with handles := s'.scheduler.handles } ∧
      s'.objects = s.objects.erase handle := by
  unfold remove at h
  split at h
  · cases h
  · rename_i handles hrem
    cases h
    exact ⟨(congrArg Prod.snd hrem).symm, rfl, rfl⟩

theorem blockCurrent_true {waitKey : String} (h : s.blockCurrent waitKey = (true, s')) :
    s' = { s with scheduler := (s.scheduler.blockCurrentLocked waitKey none).2 } := by
  have hstate := congrArg Prod.snd h
  exact hstate.symm

theorem handles_wakeBlockedThreads (s : WaitObjects) (clock : ℕ → ℕ) (waitKey : String) :
    (s.wakeBlockedThreads clock waitKey).scheduler.handles = s.scheduler.handles :=
  s.scheduler.handles_step_of_keeps (.wakeBlockedThreads waitKey _ _) rfl

namespace Consistent

theorem initial : Consistent {} where
  orderly := .initial
  kept := .initial
  fits := by unfold HandleTable.Fits; dsimp only; omega
  typed handle type _ := by simp [HandleTable.find]
  valid _ _ h := by simp at h

section

variable (hs : s.Consistent)
include hs

/-- A step of the scheduler that leaves the objects and their keys alone. -/
theorem of_others {scheduler : GuestScheduler} (reads : ℕ) (hord : scheduler.Orderly)
    (hkept : scheduler.handles.Kept) (hfits : scheduler.handles.Fits)
    (hfind : ∀ handle type, type = .kSemaphore ∨ type = .kEventFlag →
      scheduler.handles.find handle type = s.scheduler.handles.find handle type) :
    Consistent { s with scheduler, reads } where
  orderly := hord
  kept := hkept
  fits := hfits
  typed handle type htype := by
    rw [hfind _ _ htype]
    exact hs.typed _ _ htype
  valid := hs.valid

/-- The scheduler makes a step that leaves the handles. -/
theorem of_scheduler {scheduler : GuestScheduler} (reads : ℕ)
    (hord : scheduler.Orderly) (hhandles : scheduler.handles = s.scheduler.handles) :
    Consistent { s with scheduler, reads } :=
  hs.of_others reads hord (hhandles ▸ hs.kept) (hhandles ▸ hs.fits) fun _ _ _ => hhandles ▸ rfl

theorem put (hobj : s.objects[handle]? = some object) (htype : object'.type = object.type)
    (hvalid : object'.Valid) : (s.put handle object').Consistent where
  __ := hs
  typed other type h := by
    rw [getElem?_put]
    refine (hs.typed _ _ h).trans ?_
    split
    next heq => rw [← heq, hobj, Option.map_some, Option.map_some, htype]
    · rfl
  valid := forall_insert hvalid fun other found _ => hs.valid other found

theorem wakeBlockedThreads (clock : ℕ → ℕ) (waitKey : String) :
    (s.wakeBlockedThreads clock waitKey).Consistent :=
  hs.of_scheduler (s.reads + 1) (hs.orderly.step (.wakeBlockedThreads waitKey _ _))
    (s.handles_wakeBlockedThreads clock waitKey)

theorem objects_nextHandle
    (hfree : s.scheduler.handles.objects[s.scheduler.handles.nextHandle]? = none) :
    s.objects[s.scheduler.handles.nextHandle]? = none := by
  cases hobj : s.objects[s.scheduler.handles.nextHandle]? with
  | none => rfl
  | some object =>
    have hfind := (hs.typed _ _ object.type_cases).mpr (by rw [hobj, Option.map_some])
    simp [HandleTable.find, hfree] at hfind

theorem insert (hvalid : object.Valid) (h : s.insert object = (some handle, s')) :
    s'.Consistent ∧ ¬ s.scheduler.handles.Issued handle ∧ s.objects[handle]? = none ∧
      (∀ other, s'.scheduler.handles.Issued other ↔
        s.scheduler.handles.Issued other ∨ other = handle) ∧
      s'.scheduler.threads = s.scheduler.threads ∧
      s'.objects = s.objects.insert handle object := by
  unfold WaitObjects.insert at h
  rcases insert_cases object.type s.scheduler.handles with
    hnone | ⟨handles, hsome, hleft, -, hissued⟩
  · rw [hnone] at h
    cases h
  rcases hs.kept.insert_cases object.type with hnone | ⟨_, hsome', hkept, hfree, hlook⟩
  · rw [hnone] at hsome
    cases hsome
  rw [hsome] at hsome'
  cases hsome'
  have hord : GuestScheduler.Orderly { s.scheduler with handles } := by
    have hstep := hs.orderly.step (.insertObject object.type)
    rwa [GuestScheduler.step, hsome] at hstep
  have hfits : handles.Fits := by
    have hinsert := hs.fits.insert object.type
    rwa [hsome] at hinsert
  rw [hsome] at h
  cases h
  refine ⟨⟨hord, hkept, hfits, fun other type htype => ?_,
    forall_insert hvalid fun other found _ => hs.valid other found⟩,
    not_issued_nextHandle hleft, hs.objects_nextHandle hfree, hissued, rfl, rfl⟩
  have hold := hs.typed other _ htype
  change handles.find other type = true ↔ _
  rw [getElem?_put]
  simp only [HandleTable.find, decide_eq_true_eq, hlook] at hold ⊢
  split
  next heq =>
    have hpos : other ≠ invalidKernelHandle := heq ▸ hs.orderly.positive.ne'
    rw [Option.map_some, and_iff_right hpos]
  · exact hold

theorem remove (hobj : s.objects[handle]? = some object)
    (h : s.remove handle object.type = (true, s')) : s'.Consistent := by
  obtain ⟨hhandles, hsched, hobjects⟩ := objects_remove h
  have hrem := hs.orderly.step (.removeObject handle object.type)
  have hord : s'.scheduler.Orderly := by
    rw [hsched, hhandles]
    exact hrem
  refine ⟨hord, hhandles ▸ hs.kept.remove handle _, hhandles ▸ hs.fits.remove handle _,
    fun other type htype => ?_, fun other found hfound => ?_⟩
  · have hold := hs.typed other _ htype
    rw [hhandles, hobjects, getElem?_erase]
    simp only [HandleTable.find, HandleTable.getElem?_remove] at hold ⊢
    by_cases heq : handle = other
    · have hown := (hs.typed handle object.type object.type_cases).mpr (by rw [hobj]; rfl)
      simp only [HandleTable.find] at hown
      simp [← heq, hown]
    · simp only [heq, and_false]
      exact hold
  · rw [hobjects] at hfound
    exact hs.valid _ _ (getElem?_of_erase hfound).2

theorem blockCurrent {waitKey : String}
    (h : s.blockCurrent waitKey = (true, s')) : s'.Consistent := by
  rw [blockCurrent_true h]
  exact hs.of_scheduler _ (hs.orderly.step (.blockCurrent _))
    (s.scheduler.handles_step_of_keeps (.blockCurrent waitKey) rfl)

theorem of_outcome {clock : ℕ → ℕ} {call : WaitObjectCall}
    {answer : WaitObjectAnswer} (h : Outcome clock s call answer s') : s'.Consistent := by
  cases h with
  | refused | read => exact hs
  | create _ _ hvalid hinsert => exact (hs.insert hvalid hinsert).1
  | delete _ _ hobj hrem => exact (hs.remove hobj hrem).wakeBlockedThreads _ _
  | signal _ hobj hpos hroom =>
    apply Consistent.wakeBlockedThreads
    refine hs.put hobj rfl ?_
    have hvalid := hs.valid _ _ hobj
    simp only [WaitObject.Valid] at hvalid ⊢
    omega
  | acquire _ _ hobj hpos hunits =>
    refine hs.put hobj rfl ?_
    have hvalid := hs.valid _ _ hobj
    simp only [WaitObject.Valid] at hvalid ⊢
    omega
  | set _ hobj =>
    apply Consistent.wakeBlockedThreads
    exact hs.put hobj rfl trivial
  | clear _ hobj | take _ _ _ hobj => exact hs.put hobj rfl trivial
  | block _ _ _ _ hblock => exact hs.blockCurrent hblock

end

end Consistent

/-! ## Blocked threads are not served -/

/-- A thread that waits for an object does so with the request that it is noted with, and the
object cannot grant it. -/
def Unserved (requests : Std.ExtTreeMap ℕ (ℕ × WaitRequest)) (s : WaitObjects) : Prop :=
  ∀ thread key deadline, isWaitObjectKey key = true →
    s.scheduler.waitOf thread = some (key, deadline) →
    ∃ handle object request, requests[thread]? = some (handle, request) ∧
      s.objects[handle]? = some object ∧ object.waitKey handle = key ∧ object.Unmet request

namespace Unserved

variable {requests : Std.ExtTreeMap ℕ (ℕ × WaitRequest)}

section

variable (hs : Unserved requests s)
include hs

/-- No thread starts to wait for an object. -/
theorem of_waits (hobjects : s'.objects = s.objects)
    (hwaits : ∀ thread key deadline, isWaitObjectKey key = true →
      s'.scheduler.waitOf thread = some (key, deadline) →
      s.scheduler.waitOf thread = some (key, deadline)) : Unserved requests s' := by
  intro thread key deadline hkey hwait
  rw [hobjects]
  exact hs _ _ _ hkey (hwaits _ _ _ hkey hwait)

/-- An object comes to grant fewer requests. -/
theorem lower (hobj : s.objects[handle]? = some object) (htype : object'.type = object.type)
    (hlower : ∀ request, object.Unmet request → object'.Unmet request) :
    Unserved requests (s.put handle object') := by
  intro thread key deadline hkey hwait
  obtain ⟨other, found, request, hreq, hfound, hown, hunmet⟩ := hs _ _ _ hkey hwait
  by_cases heq : handle = other
  · subst heq
    cases hobj.symm.trans hfound
    refine ⟨handle, object', request, hreq, ?_, ?_, hlower _ hunmet⟩
    · rw [getElem?_put, if_pos rfl]
    · rw [← hown, waitKey_inj]
      exact ⟨rfl, htype⟩
  · refine ⟨other, found, request, hreq, ?_, hown, hunmet⟩
    rw [getElem?_put, if_neg heq, hfound]

/-- The threads that wait for an object are woken, and the object changes or goes. -/
theorem wake (hconsistent : s'.Consistent) (clock : ℕ → ℕ) (hobj : s.objects[handle]? = some object)
    (hwaits : ∀ thread, s'.scheduler.waitOf thread = s.scheduler.waitOf thread)
    (hobjects : ∀ other, handle ≠ other → s'.objects[other]? = s.objects[other]?) :
    Unserved requests (s'.wakeBlockedThreads clock (object.waitKey handle)) := by
  intro thread key deadline hkey hwait
  have hawakes := GuestScheduler.awakes_wakeBlockedThreads (object.waitKey handle) (2 ^ 64 - 1)
    (clock s'.reads) s'.scheduler
  have hpre := hawakes.waitOf_of_some hwait
  rw [hwaits] at hpre
  obtain ⟨other, found, request, hreq, hfound, hown, hunmet⟩ := hs _ _ _ hkey hpre
  by_cases heq : handle = other
  · -- The thread would wait under the key that was just woken.
    subst heq
    cases hobj.symm.trans hfound
    have hnone := GuestScheduler.noneWaits_wakeAll hconsistent.orderly.toScheduled hconsistent.fits
      (waitKey_ne_empty handle object) (clock s'.reads)
    exact absurd (hown ▸ hwait) (hnone thread deadline)
  · exact ⟨other, found, request, hreq, (hobjects _ heq).trans hfound, hown, hunmet⟩

theorem wake_put (hconsistent : s.Consistent) (clock : ℕ → ℕ)
    (hobj : s.objects[handle]? = some object) (htype : object'.type = object.type)
    (hvalid : object'.Valid) :
    Unserved requests ((s.put handle object').wakeBlockedThreads clock (object.waitKey handle)) :=
  hs.wake (hconsistent.put hobj htype hvalid) clock hobj (fun _ => rfl) fun other hne => by
    rw [getElem?_put, if_neg hne]

/-- The current thread blocks with a request. -/
theorem block (hconsistent : s.Consistent) {request : WaitRequest} {thread : ℕ}
    (hcur : s.scheduler.currentThread = some thread) (hobj : s.objects[handle]? = some object)
    (hunmet : object.Unmet request) (h : s.blockCurrent (object.waitKey handle) = (true, s')) :
    Unserved (requests.insert thread (handle, request)) s' := by
  obtain ⟨scheduler, hblock, -, hblocks⟩ := GuestScheduler.blockCurrentLocked_current
    hconsistent.orderly hcur (waitKey_ne_empty handle object) none
  rw [blockCurrent_true h, hblock]
  intro other key deadline hkey hwait
  rw [hblocks.waitOf] at hwait
  rw [getElem?_insert]
  split at hwait
  next heq =>
    cases hwait
    rw [if_pos heq]
    exact ⟨handle, object, request, rfl, hobj, rfl, hunmet⟩
  next hne =>
    rw [if_neg hne]
    exact hs _ _ _ hkey hwait

end

end Unserved

end WaitObjects

/-! ## Units -/

namespace WaitObjectCall

variable {handle : ℕ} {answer : WaitObjectAnswer} {call : WaitObjectCall}

/-- No units start, come or go. -/
def Idle (handle : ℕ) (answer : WaitObjectAnswer) (call : WaitObjectCall) : Prop :=
  call.initials handle answer = 0 ∧ call.signalled handle answer = 0 ∧
    call.acquired handle answer = 0

theorem idle_of_refuses (h : answer.status.refuses = true) : call.Idle handle answer := by
  have hok : answer.status ≠ .kOk := (Bool.and_eq_true_iff.mp h).1 |> of_decide_eq_true
  cases call <;> simp [Idle, initials, signalled, acquired, hok]

theorem idle_of_wouldBlock (h : answer.status = .kWouldBlock) : call.Idle handle answer := by
  cases call <;> simp [Idle, initials, signalled, acquired, h]

theorem idle_of_deleted {deleted : ℕ × KernelObjectType} (h : call.deleted = some deleted) :
    call.Idle handle answer := by
  cases call <;> first | exact ⟨rfl, rfl, rfl⟩ | cases h

theorem idle_of_bits {bits : ℕ × BitVec 64 × BitVec 32} (h : call.bits = some bits) :
    call.Idle handle answer := by
  cases call <;> first | exact ⟨rfl, rfl, rfl⟩ | cases h

end WaitObjectCall

section Outcomes

variable {clock : ℕ → ℕ} {s s' : WaitObjects} {call : WaitObjectCall} {answer : WaitObjectAnswer}
  {handle : ℕ}

theorem WaitObjects.Consistent.issued (hs : s.Consistent) {object : WaitObject}
    (h : s.objects[handle]? = some object) : s.scheduler.handles.Issued handle := by
  apply hs.kept handle
  have hfind := (hs.typed handle object.type object.type_cases).mpr (by rw [h]; rfl)
  rw [HandleTable.find, decide_eq_true_eq] at hfind
  rw [hfind.2]
  rfl

/-- A semaphore after a call is new, with the units that it starts with, or has the units that it
had, with those that came and without those that went. -/
theorem Outcome.units (hs : s.Consistent) (h : Outcome clock s call answer s')
    {semaphore' : Semaphore} (hobj' : s'.objects[handle]? = some (.semaphore semaphore')) :
    (¬ s.scheduler.handles.Issued handle ∧ semaphore'.count + call.acquired handle answer =
        call.initials handle answer + call.signalled handle answer) ∨
    ∃ semaphore, s.objects[handle]? = some (.semaphore semaphore) ∧
      semaphore'.count + call.acquired handle answer =
        semaphore.count + call.initials handle answer + call.signalled handle answer := by
  -- Where the semaphore is as it was, no units may have come or gone.
  have hsame : call.Idle handle answer → s.objects[handle]? = some (.semaphore semaphore') →
      ∃ semaphore, s.objects[handle]? = some (.semaphore semaphore) ∧
        semaphore'.count + call.acquired handle answer =
          semaphore.count + call.initials handle answer + call.signalled handle answer := by
    rintro ⟨hinitials, hsignalled, hacquired⟩ hobj
    refine ⟨semaphore', hobj, ?_⟩
    rw [hinitials, hsignalled, hacquired]
    simp
  cases h with
  | refused hrefuses => exact .inr (hsame (idle_of_refuses hrefuses) hobj')
  | read => exact .inr (hsame ⟨rfl, rfl, rfl⟩ hobj')
  | create hok hmade hvalid hinsert =>
    obtain ⟨-, hfresh, -, -, -, hobjects⟩ := hs.insert hvalid hinsert
    rw [hobjects, getElem?_insert] at hobj'
    split at hobj'
    next heq =>
      cases hobj'
      cases call <;> cases hmade
      rw [← heq]
      refine .inl ⟨hfresh, ?_⟩
      simp [initials, signalled, acquired, hok, Int.toNat_of_nonneg hvalid.1]
    next hne =>
      refine .inr (hsame ?_ hobj')
      cases call <;> cases hmade <;> simp [WaitObjectCall.Idle, initials, signalled, acquired, hne]
  | @delete _ _ other _ _ _ hdeleted hobj hrem =>
    obtain ⟨-, -, hobjects⟩ := objects_remove hrem
    rw [wakeBlockedThreads, hobjects] at hobj'
    exact .inr (hsame (idle_of_deleted hdeleted) (getElem?_of_erase hobj').2)
  | @signal other count _ semaphore hok hobj hpos hroom =>
    rw [wakeBlockedThreads, getElem?_put] at hobj'
    split at hobj'
    next heq =>
      cases hobj'
      refine .inr ⟨semaphore, heq ▸ hobj, ?_⟩
      simp only [initials, signalled, acquired, hok, heq, and_self, if_true,
        Int.toNat_of_nonneg hpos.le]
      simp
    next hne => exact .inr (hsame ⟨rfl, by simp [signalled, hne], rfl⟩ hobj')
  | @acquire _ _ other count semaphore hok hunits hobj hpos henough =>
    rw [getElem?_put] at hobj'
    split at hobj'
    next heq =>
      cases hobj'
      refine .inr ⟨semaphore, heq ▸ hobj, ?_⟩
      cases call <;> cases hunits <;>
        simp [initials, signalled, acquired, hok, heq, Int.toNat_of_nonneg hpos.le]
    next hne =>
      refine .inr (hsame ?_ hobj')
      cases call <;> cases hunits <;> simp [WaitObjectCall.Idle, initials, signalled, acquired, hne]
  | set | clear => exact .inr (hsame ⟨rfl, rfl, rfl⟩ (semaphore_of_put hobj'))
  | take _ hbits => exact .inr (hsame (idle_of_bits hbits) (semaphore_of_put hobj'))
  | block hblocked _ _ _ hblock =>
    rw [blockCurrent_true hblock] at hobj'
    exact .inr (hsame (idle_of_wouldBlock hblocked) hobj')

/-- A handle that has not been given out after a call had not been before, and the call says
nothing about it. -/
theorem Outcome.fresh (hs : s.Consistent) (h : Outcome clock s call answer s')
    (hissued : ¬ s'.scheduler.handles.Issued handle) :
    ¬ s.scheduler.handles.Issued handle ∧ call.Idle handle answer := by
  cases h with
  | refused hrefuses => exact ⟨hissued, idle_of_refuses hrefuses⟩
  | read | set | clear => exact ⟨hissued, rfl, rfl, rfl⟩
  | create hok hmade hvalid hinsert =>
    obtain ⟨-, -, -, hafter, -, -⟩ := hs.insert hvalid hinsert
    rw [hafter, not_or] at hissued
    refine ⟨hissued.1, ?_⟩
    cases call <;> cases hmade <;>
      simp [WaitObjectCall.Idle, initials, signalled, acquired, Ne.symm hissued.2]
  | delete _ hdeleted _ hrem =>
    rw [handles_wakeBlockedThreads, (objects_remove hrem).1, issued_remove] at hissued
    exact ⟨hissued, idle_of_deleted hdeleted⟩
  | signal _ hobj =>
    refine ⟨hissued, rfl, ?_, rfl⟩
    rw [signalled, if_neg]
    rintro ⟨-, rfl⟩
    exact hissued (hs.issued hobj)
  | acquire _ hunits hobj =>
    refine ⟨hissued, ?_⟩
    have hne : ∀ other, s.scheduler.handles.Issued other → other ≠ handle := by
      rintro _ hother rfl
      exact hissued hother
    cases call <;> cases hunits <;>
      simp [WaitObjectCall.Idle, initials, signalled, acquired, hne _ (hs.issued hobj)]
  | take _ hbits => exact ⟨hissued, idle_of_bits hbits⟩
  | block hblocked _ _ _ hblock =>
    rw [blockCurrent_true hblock] at hissued
    change ¬ (s.scheduler.step (.blockCurrent _)).handles.Issued handle at hissued
    rw [GuestScheduler.handles_step_of_keeps _ _ rfl] at hissued
    exact ⟨hissued, idle_of_wouldBlock hblocked⟩

theorem refuses_iff {status : KernelStatus} :
    status.refuses = true ↔ status ≠ .kOk ∧ status ≠ .kWouldBlock := by
  simp [KernelStatus.refuses]

end Outcomes

/-! ## Steps -/

theorem and_and_self (bits mask : BitVec 64) : bits &&& mask &&& bits = bits &&& mask := by
  rw [BitVec.and_comm bits mask, BitVec.and_assoc, BitVec.and_self]

theorem WaitObjects.exists_current {s s' : WaitObjects} {waitKey : String}
    (h : s.blockCurrent waitKey = (true, s')) :
    ∃ thread, s.scheduler.currentThread = some thread := by
  unfold blockCurrent GuestScheduler.blockCurrent GuestScheduler.blockCurrentLocked at h
  dsimp only at h
  split at h
  · cases h
  · split at h
    · cases h
    · rename_i thread found hrun
      exact ⟨thread, (GuestScheduler.running_eq_some_iff.mp hrun).1⟩

namespace WaitSystem

variable {y : WaitSystem}

/-- What every run keeps. -/
structure Sound (y : WaitSystem) : Prop where
  consistent : y.services.Consistent
  unserved : y.services.Unserved y.requests

theorem Sound.initial : Sound {} where
  consistent := .initial
  unserved _ _ _ _ hwait := by simp [GuestScheduler.waitOf] at hwait

variable {a : WaitObjectStep} {clock : ℕ → ℕ} {handle : ℕ} {answer : WaitObjectAnswer}
  {s' : WaitObjects}

/-- The objects and the threads that wait for them after a call in which none starts to wait. -/
theorem Sound.unserved_of_outcome (hy : y.Sound) {call : WaitObjectCall}
    (h : Outcome clock y.services call answer s')
    (hne : answer.status ≠ .kWouldBlock) : s'.Unserved y.requests := by
  have hs := hy.consistent
  have hun := hy.unserved
  cases h with
  | refused | read => exact hun
  | create _ _ hvalid hinsert =>
    obtain ⟨-, -, hfree, -, hthreads, hobjects⟩ := hs.insert hvalid hinsert
    intro thread key deadline hkey hwait
    rw [GuestScheduler.waitOf, hthreads] at hwait
    obtain ⟨other, found, request, hreq, hfound, hown, hunmet⟩ := hun _ _ _ hkey hwait
    refine ⟨other, found, request, hreq, ?_, hown, hunmet⟩
    rw [hobjects, getElem?_insert, if_neg, hfound]
    rintro rfl
    cases hfree.symm.trans hfound
  | delete _ _ hobj hrem =>
    obtain ⟨-, hsched, hobjects⟩ := objects_remove hrem
    refine hun.wake (hs.remove hobj hrem) _ hobj (fun thread => ?_) fun other hne => ?_
    · rw [hsched]
      rfl
    · rw [hobjects, getElem?_erase, if_neg hne]
  | signal _ hobj hpos hroom =>
    have hvalid := hs.valid _ _ hobj
    refine hun.wake_put hs clock hobj rfl ?_
    simp only [WaitObject.Valid] at hvalid ⊢
    omega
  | acquire _ _ hobj hpos hunits =>
    refine hun.lower hobj rfl fun request hunmet => ?_
    cases request with
    | units count =>
      simp only [WaitObject.Unmet] at hunmet ⊢
      omega
    | bits => exact hunmet.elim
  | set _ hobj => exact hun.wake_put hs clock hobj rfl trivial
  | clear _ hobj | take _ _ _ hobj =>
    refine hun.lower hobj rfl fun request hunmet => ?_
    cases request with
    | units => exact hunmet.elim
    | bits pattern condition => exact holds_mono (and_and_self _ _) hunmet
  | block hblocked => exact absurd hblocked hne

/-- The thread that starts to wait is noted with what the object cannot grant. -/
theorem Sound.unserved_of_wouldBlock (hy : y.Sound) {call : WaitObjectCall}
    (h : Outcome clock y.services call answer s')
    (hblocked : answer.status = .kWouldBlock) : s'.Unserved (y.note call.request) := by
  cases h with
  | refused hrefuses => exact absurd hblocked (refuses_iff.mp hrefuses).2
  | read hok | create hok | delete hok | signal hok | acquire hok | set hok | clear hok
  | take hok => cases hok.symm.trans hblocked
  | @block _ _ handle request _ _ _ hreq hobj hunmet hblock =>
    obtain ⟨thread, hcur⟩ := exists_current hblock
    have hnote : y.note call.request = y.requests.insert thread (handle, request) := by
      simp [note, hcur, hreq]
    rw [hnote]
    exact hy.unserved.block hy.consistent hcur hobj hunmet hblock

theorem Sound.call (hy : y.Sound) (clock : ℕ → ℕ) (call : WaitObjectCall) :
    (y.step clock (.call call)).Sound := by
  have hout := outcome_perform hy.consistent clock call
  refine ⟨hy.consistent.of_outcome hout, ?_⟩
  by_cases hblocked : (y.services.perform clock call).1.status = .kWouldBlock
  · simpa [WaitSystem.step, hblocked] using hy.unserved_of_wouldBlock hout hblocked
  · simpa [WaitSystem.step, hblocked] using hy.unserved_of_outcome hout hblocked

/-- A call of the scheduler by others makes or removes no semaphore and no event flag. -/
theorem handles_of_allows (hy : y.Sound) {call : SchedulerCall} (hallows : y.allows call = true) :
    let handles := (y.services.scheduler.step call).handles
    handles.Kept ∧ handles.Fits ∧
      (∀ handle, y.services.scheduler.handles.Issued handle → handles.Issued handle) ∧
      ∀ handle type, type = .kSemaphore ∨ type = .kEventFlag →
        handles.find handle type = y.services.scheduler.handles.find handle type := by
  intro handles
  have hkept := hy.consistent.kept
  have hfits := hy.consistent.fits
  have hothers : ∀ type, call = .insertObject type ∨ (∃ handle, call = .removeObject handle type) →
      type ≠ .kSemaphore ∧ type ≠ .kEventFlag := by
    rintro type (rfl | ⟨handle, rfl⟩) <;> simpa [allows, SchedulerCall.spares] using hallows
  have hne : ∀ {type other : KernelObjectType}, (other = .kThread ∨ call = .insertObject other ∨
      ∃ handle, call = .removeObject handle other) → (type = .kSemaphore ∨ type = .kEventFlag) →
      other ≠ type := by
    rintro type other (rfl | hcall) htype
    · rcases htype with rfl | rfl <;> decide
    · obtain ⟨hsemaphore, heventFlag⟩ := hothers _ hcall
      rcases htype with rfl | rfl
      · exact hsemaphore
      · exact heventFlag
  rcases GuestScheduler.handles_step y.services.scheduler call with
    hsame | ⟨type, hinsert, hcall⟩ | ⟨handle, type, hrem, hcall⟩
  · rw [show handles = _ from hsame]
    exact ⟨hkept, hfits, fun _ h => h, fun _ _ _ => rfl⟩
  · rw [show handles = _ from hinsert]
    refine ⟨hkept.insert type, hfits.insert type, fun handle h => ?_, fun handle expected h =>
      hkept.find_insert (hne (hcall.imp_right .inl) h) handle⟩
    rcases insert_cases type y.services.scheduler.handles with
      hnone | ⟨t', hsome, -, -, hissued⟩
    · rw [hnone]
      exact h
    · rw [hsome]
      exact (hissued handle).mpr (.inl h)
  · rw [show handles = _ from hrem]
    refine ⟨hkept.remove handle type, hfits.remove handle type, fun other h => ?_,
      fun other expected h => find_remove_of_ne _
        (hne (hcall.imp_right fun heq => .inr ⟨handle, heq⟩) h) handle other⟩
    exact (issued_remove handle other type _).mpr h

theorem Sound.scheduler (hy : y.Sound) (clock : ℕ → ℕ) (call : SchedulerCall) :
    (y.step clock (.scheduler call)).Sound := by
  rw [step]
  split
  next hallows =>
    obtain ⟨hkept, hfits, -, hfind⟩ := handles_of_allows hy hallows
    have hspares := GuestScheduler.spares_step hy.consistent.orderly
      (Bool.and_eq_true_iff.mp hallows).1
    refine ⟨hy.consistent.of_others _ hspares.orderly hkept hfits hfind, ?_⟩
    exact hy.unserved.of_waits rfl fun thread key deadline hkey hwait =>
      hspares.keys _ _ _ hkey hwait
  · exact hy

theorem Sound.step (hy : y.Sound) (clock : ℕ → ℕ) (a : WaitObjectStep) :
    (y.step clock a).Sound := by
  cases a with
  | call call => exact hy.call _ _
  | scheduler call => exact hy.scheduler _ _

/-- What the calls so far come to for each handle: nothing before the handle is given out, and the
units of the semaphore while there is one. -/
structure Accounted (clock : ℕ → ℕ) (steps : List WaitObjectStep) : Prop where
  fresh : ∀ handle, ¬ (run clock {} steps).services.scheduler.handles.Issued handle →
    total clock (initials handle) steps = 0 ∧
    total clock (signalled handle) steps = 0 ∧
    total clock (acquired handle) steps = 0
  units : ∀ (handle : ℕ) (semaphore : Semaphore),
    (run clock {} steps).services.objects[handle]? = some (.semaphore semaphore) →
    semaphore.count + total clock (acquired handle) steps = total clock (initials handle) steps +
        total clock (signalled handle) steps

end WaitSystem

end KajPS5.Kernel
