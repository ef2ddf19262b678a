/-
# Runs of semaphores and event flags

Any calls of the two services in any order, between any calls of the scheduler by others that
do not block under a key of the services. A woken thread that asks again is one such sequence.

A run remembers with which request each thread last blocked. The request of a blocked thread is
`Unmet` in the object that it waits for: a call that takes units or bits leaves it so, and a call
that adds some wakes every thread that waits for the object.
-/

import Mathlib.Order.Interval.Finset.Nat
import KajPS5.Kernel.WaitObjects
import KajPS5.Kernel.SchedulerClients
import KajPS5.Math.StepRuns

namespace KajPS5.Kernel

open Math EventFlagService List

/-! ## The wait keys -/

/-- The key under which threads wait for the object. -/
def WaitObject.waitKey (handle : ℕ) : WaitObject → String
  | .semaphore _ => SemaphoreService.makeWaitKey handle
  | .eventFlag _ => makeWaitKey handle

/-- The key is one of the two services. -/
def isWaitObjectKey (key : String) : Bool :=
  "semaphore:".toList.isPrefixOf key.toList || "event_flag:".toList.isPrefixOf key.toList

theorem isWaitObjectKey_hexName {tag : String} (htag : tag = "semaphore:" ∨ tag = "event_flag:")
    (handle : ℕ) : isWaitObjectKey (NumberedNames.hexName tag handle) = true := by
  rw [isWaitObjectKey, Bool.or_eq_true, isPrefixOf_iff_prefix, isPrefixOf_iff_prefix,
    NumberedNames.toList_hexName]
  rcases htag with rfl | rfl
  · exact .inl (prefix_append _ _)
  · exact .inr (prefix_append _ _)

theorem isWaitObjectKey_waitKey (handle : ℕ) (object : WaitObject) :
    isWaitObjectKey (object.waitKey handle) = true := by
  cases object with
  | semaphore => exact isWaitObjectKey_hexName (.inl rfl) _
  | eventFlag => exact isWaitObjectKey_hexName (.inr rfl) _

theorem waitKey_ne_empty (handle : ℕ) (object : WaitObject) : object.waitKey handle ≠ "" := by
  intro h
  have hkey := isWaitObjectKey_waitKey handle object
  rw [h] at hkey
  cases hkey

theorem makeWaitKey_ne (a b : ℕ) : SemaphoreService.makeWaitKey a ≠ makeWaitKey b := by
  intro h
  have hhead := congrArg (·.toList.head?) h
  simp only [SemaphoreService.makeWaitKey, makeWaitKey, NumberedNames.toList_hexName] at hhead
  cases hhead

/-- Keys of objects are equal only for one handle and one type of object. -/
theorem waitKey_inj {a b : ℕ} {first second : WaitObject} :
    first.waitKey a = second.waitKey b ↔ a = b ∧ first.type = second.type := by
  cases first with
  | semaphore =>
    cases second with
    | semaphore => exact NumberedNames.hexName_inj.trans (and_iff_left rfl).symm
    | eventFlag => exact iff_of_false (makeWaitKey_ne a b) (by simp [WaitObject.type])
  | eventFlag =>
    cases second with
    | semaphore => exact iff_of_false (makeWaitKey_ne b a).symm (by simp [WaitObject.type])
    | eventFlag => exact NumberedNames.hexName_inj.trans (and_iff_left rfl).symm

/-! ## Requests -/

inductive WaitRequest
  | units (count : ℤ)
  | bits (pattern : BitVec 64) (condition : EventFlagWaitCondition)
  deriving DecidableEq, Repr

/-- The object cannot grant the request. -/
def WaitObject.Unmet : WaitObject → WaitRequest → Prop
  | .semaphore s, .units count => s.count < count
  | .eventFlag f, .bits pattern condition => condition.holds f.bits pattern = false
  | _, _ => False

/-- Fewer bits meet fewer requests. -/
theorem holds_mono {bits fewer pattern : BitVec 64} {condition : EventFlagWaitCondition}
    (hfewer : fewer &&& bits = fewer) (h : condition.holds bits pattern = false) :
    condition.holds fewer pattern = false := by
  cases condition with
  | kAll =>
    simp only [EventFlagWaitCondition.holds, decide_eq_false_iff_not] at h ⊢
    intro hall
    apply h
    rw [← hall, ← hfewer]
    ext i
    simp
    tauto
  | kAny =>
    simp only [EventFlagWaitCondition.holds, decide_eq_false_iff_not, not_not] at h ⊢
    rw [← hfewer, BitVec.and_assoc, h]
    simp

/-! ## Waking every thread -/

/-- The handles fit into 64 bits. -/
def HandleTable.Fits (t : HandleTable) : Prop := t.nextHandle ≤ 2 ^ 64 - 1

variable {t : HandleTable}

theorem HandleTable.Fits.insert (ht : t.Fits) (type : KernelObjectType) :
    (t.insert type).2.Fits := by
  unfold HandleTable.insert HandleTable.Fits
  unfold HandleTable.Fits at ht
  split
  · exact ht
  · dsimp only
    split <;> omega

theorem HandleTable.Fits.remove (ht : t.Fits) (handle : ℕ) (type : KernelObjectType) :
    (t.remove handle type).2.Fits :=
  (nextHandle_remove handle type t).le.trans ht

namespace GuestScheduler

variable {s : GuestScheduler} {last : ℕ}

theorem length_handlesWhere_le (hs : Scheduled s) (hlast : s.handles.nextHandle ≤ last)
    (p : GuestThread → Bool) : (s.handlesWhere p).length ≤ last := by
  have hsubset : (s.handlesWhere p).toFinset ⊆ Finset.Icc 1 last := by
    intro handle hmem
    obtain ⟨thread, hthread, -⟩ := mem_handlesWhere.mp (mem_toFinset.mp hmem)
    obtain ⟨hpos, hissued⟩ := hs.issued _ (by rw [hthread]; rfl)
    rw [Finset.mem_Icc]
    rcases hissued with hless | ⟨-, heq⟩ <;> omega
  have hcard := Finset.card_le_card hsubset
  rwa [toFinset_card_of_nodup (s.nodup_handlesWhere p), Nat.card_Icc] at hcard

/-- A wake without a limit leaves no thread under the key. -/
theorem noneWaits_wakeAll (hs : Scheduled s) (hlast : s.handles.nextHandle ≤ last) {key : String}
    (hkey : key ≠ "") (now : ℕ) : (s.wakeBlockedThreads key last now).2.NoneWaits key := by
  intro handle deadline hwait
  have hpos : last ≠ 0 := (hs.positive.trans_le hlast).ne'
  rw [wakeBlockedThreads, if_neg (by simp [hkey, hpos])] at hwait
  dsimp only at hwait
  have hall := length_handlesWhere_le (hs.wakeExpired now) hlast (GuestThread.waitsOn key)
  rw [take_of_length_le hall] at hwait
  obtain ⟨thread, hthread, hblock, hthreadKey, -⟩ := waitOf_eq_some_iff.mp hwait
  rw [getElem?_makeReady] at hthread
  obtain ⟨old, hold, rfl⟩ := Option.map_eq_some_iff.mp hthread
  split at hblock
  · cases hblock
  next hnot =>
    rw [if_neg hnot] at hthreadKey
    exact hnot (mem_handlesWhere.mpr ⟨old, hold, by simp [GuestThread.waitsOn, hblock, hthreadKey]⟩)

end GuestScheduler

/-! ## Calls and steps -/

inductive WaitObjectCall
  | createSemaphore (name : String) (attributes : BitVec 32) (initialCount maximumCount : ℤ)
  | deleteSemaphore (handle : ℕ)
  | signal (handle : ℕ) (count : ℤ)
  | waitSemaphore (handle : ℕ) (count : ℤ)
  | pollSemaphore (handle : ℕ) (count : ℤ)
  | getCount (handle : ℕ)
  | createEventFlag (name : String) (attributes : BitVec 32) (initialPattern : BitVec 64)
  | deleteEventFlag (handle : ℕ)
  | set (handle : ℕ) (pattern : BitVec 64)
  | clear (handle : ℕ) (mask : BitVec 64)
  | waitEventFlag (handle : ℕ) (pattern : BitVec 64) (waitMode : BitVec 32)
  | pollEventFlag (handle : ℕ) (pattern : BitVec 64) (waitMode : BitVec 32)
  deriving DecidableEq

/-- What a call answers: a handle if it creates an object, the count or the bits that it saw. -/
structure WaitObjectAnswer where
  status : KernelStatus := .kOk
  handle : ℕ := invalidKernelHandle
  remainingCount : ℤ := 0
  observedPattern : BitVec 64 := 0
  deriving DecidableEq, Repr

inductive WaitObjectStep
  | call (call : WaitObjectCall)
  | scheduler (call : SchedulerCall)

/-- What a call asks an object for if it has to wait. -/
def WaitObjectCall.request : WaitObjectCall → Option (ℕ × WaitRequest)
  | .waitSemaphore handle count => some (handle, .units count)
  | .waitEventFlag handle pattern waitMode =>
    (decodeWaitMode waitMode).map fun mode => (handle, .bits pattern mode.1)
  | _ => none

/-! ## Counting units -/

namespace WaitObjectCall

variable (handle : ℕ) (answer : WaitObjectAnswer)

/-- The units that a semaphore starts with, if the call makes it. -/
def initials : WaitObjectCall → ℕ
  | .createSemaphore _ _ initialCount _ =>
    if answer.status = .kOk ∧ answer.handle = handle then initialCount.toNat else 0
  | _ => 0

/-- The units that the call adds to a semaphore. -/
def signalled : WaitObjectCall → ℕ
  | .signal other count => if answer.status = .kOk ∧ other = handle then count.toNat else 0
  | _ => 0

/-- The units that the call takes from a semaphore. -/
def acquired : WaitObjectCall → ℕ
  | .waitSemaphore other count | .pollSemaphore other count =>
    if answer.status = .kOk ∧ other = handle then count.toNat else 0
  | _ => 0

end WaitObjectCall

section Clock

variable (clock : ℕ → ℕ)

def WaitObjects.perform (s : WaitObjects) : WaitObjectCall → WaitObjectAnswer × WaitObjects
  | .createSemaphore name attributes initialCount maximumCount =>
    let (created, s) := SemaphoreService.create name attributes initialCount maximumCount s
    ({ status := created.status, handle := created.handle }, s)
  | .deleteSemaphore handle =>
    let (status, s) := SemaphoreService.delete clock handle s
    ({ status }, s)
  | .signal handle count =>
    let (status, s) := SemaphoreService.signal clock handle count s
    ({ status }, s)
  | .waitSemaphore handle count =>
    let (result, s) := SemaphoreService.wait handle count s
    ({ status := result.status, remainingCount := result.remainingCount }, s)
  | .pollSemaphore handle count =>
    let (result, s) := SemaphoreService.poll handle count s
    ({ status := result.status, remainingCount := result.remainingCount }, s)
  | .getCount handle =>
    let result := SemaphoreService.getCount handle s
    ({ status := result.status, remainingCount := result.remainingCount }, s)
  | .createEventFlag name attributes initialPattern =>
    let (created, s) := create name attributes initialPattern s
    ({ status := created.status, handle := created.handle }, s)
  | .deleteEventFlag handle =>
    let (status, s) := delete clock handle s
    ({ status }, s)
  | .set handle pattern =>
    let (status, s) := set clock handle pattern s
    ({ status }, s)
  | .clear handle mask =>
    let (status, s) := clear handle mask s
    ({ status }, s)
  | .waitEventFlag handle pattern waitMode =>
    let (result, s) := wait handle pattern waitMode s
    ({ status := result.status, observedPattern := result.observedPattern }, s)
  | .pollEventFlag handle pattern waitMode =>
    let (result, s) := poll handle pattern waitMode s
    ({ status := result.status, observedPattern := result.observedPattern }, s)

/-- The services, and the object and the request with which each thread last blocked. -/
structure WaitSystem where
  services : WaitObjects := {}
  requests : Std.ExtTreeMap ℕ (ℕ × WaitRequest) := ∅

namespace WaitSystem

variable (y : WaitSystem)

/-- A call of the scheduler by others that leaves the objects and their keys alone. -/
def allows (call : SchedulerCall) : Bool :=
  call.spares (fun _ => false) isWaitObjectKey y.services.scheduler && match call with
    | .insertObject type | .removeObject _ type => type ≠ .kSemaphore && type ≠ .kEventFlag
    | _ => true

/-- The current thread has blocked with a request. -/
def note (request : Option (ℕ × WaitRequest)) : Std.ExtTreeMap ℕ (ℕ × WaitRequest) :=
  match y.services.scheduler.currentThread, request with
  | some thread, some request => y.requests.insert thread request
  | _, _ => y.requests

def step : WaitObjectStep → WaitSystem
  | .call call =>
    let (answer, services) := y.services.perform clock call
    { services
      requests := if answer.status = .kWouldBlock then y.note call.request else y.requests }
  | .scheduler call =>
    if y.allows call then
      { y with services := { y.services with scheduler := y.services.scheduler.step call } }
    else y

def run (steps : List WaitObjectStep) : WaitSystem := StepRuns.run (step clock) y steps

/-- What a count of the calls and their answers is for one step. -/
def weigh (count : WaitObjectAnswer → WaitObjectCall → ℕ) (y : WaitSystem) : WaitObjectStep → ℕ
  | .call call => count (y.services.perform clock call).1 call
  | .scheduler _ => 0

/-- What a count adds up to over a run. -/
def total (count : WaitObjectAnswer → WaitObjectCall → ℕ) (steps : List WaitObjectStep) : ℕ :=
  StepRuns.tally (step clock) (weigh clock count) {} steps

end WaitSystem

end Clock

end KajPS5.Kernel
