/-
# Runs of the event queue service

Any calls of the service in any order, by guest threads and by the host, between any calls of
the scheduler that spare the service: a thread that waits for a queue blocks for nothing else
and does not exit before its wait is answered. A run is any list of steps; a call of the
scheduler that would break the rule has no effect.

The steps of a run are counted from the outside. For one queue and one event, with its
contents and the generation of its registration: how often it is triggered, handed to a caller,
overwritten by a later trigger of its registration, and given up because its registration is
deleted or replaced or its queue is deleted.
-/

import KajPS5.Kernel.EventQueue
import KajPS5.Kernel.SchedulerClients
import KajPS5.Math.StepRuns

namespace KajPS5.Kernel

open Math

/-! ## The wait keys -/

/-- The key is one of the event queue service. -/
def isEventQueueKey (key : String) : Bool := "event_queue:".toList.isPrefixOf key.toList

theorem isEventQueueKey_eventQueueWaitKey (handle : ℕ) :
    isEventQueueKey (eventQueueWaitKey handle) = true := by
  rw [isEventQueueKey, eventQueueWaitKey, NumberedNames.toList_hexName, List.isPrefixOf_iff_prefix]
  exact List.prefix_append _ _

theorem eventQueueWaitKey_ne_empty (handle : ℕ) : eventQueueWaitKey handle ≠ "" := by
  intro h
  have hkey := isEventQueueKey_eventQueueWaitKey handle
  rw [h] at hkey
  cases hkey

/-! ## Calls and steps -/

inductive EventQueueCall
  | create (name : String) (stored : Bool)
  | delete (handle : ℕ)
  | addUserEvent (handle ident : ℕ) (edge stored : Bool)
  | deleteUserEvent (handle ident : ℕ)
  | triggerUserEvent (handle ident userData : ℕ)
  | addGraphicsEvent (handle ident userData : ℕ) (stored : Bool)
  | deleteGraphicsEvent (handle ident : ℕ)
  | triggerGraphicsEvents (data : ℕ)
  | addVideoOutEvent (handle ident userData : ℕ) (stored : Bool)
  | deleteVideoOutEvent (handle ident : ℕ)
  | triggerVideoOutEvents (data : ℕ)
  | poll (handle maximumCount : ℕ)
  | wait (handle maximumCount : ℕ) (timeoutMicroseconds : Option ℕ)
  deriving DecidableEq

inductive EventQueueStep
  | call (call : EventQueueCall)
  | scheduler (call : SchedulerCall)

namespace EventQueueService

/-- An answer without events. -/
def statusOnly (result : KernelStatus × EventQueueService) :
    EventQueuePollResult × EventQueueService :=
  ({ status := result.1 }, result.2)

section Clock

variable (clock : ℕ → ℕ)

variable (s : EventQueueService)

/-- One call, with the status and the events that it hands to its caller. -/
def perform : EventQueueCall → EventQueuePollResult × EventQueueService
  | .create name stored =>
    let (created, s) := s.create name stored
    ({ status := created.status }, s)
  | .delete handle => statusOnly (s.delete clock handle)
  | .addUserEvent handle ident edge stored => statusOnly (s.addUserEvent handle ident edge stored)
  | .deleteUserEvent handle ident => statusOnly (s.deleteUserEvent handle ident)
  | .triggerUserEvent handle ident userData =>
    statusOnly (s.triggerUserEvent clock handle ident userData)
  | .addGraphicsEvent handle ident userData stored =>
    statusOnly (s.addGraphicsEvent handle ident userData stored)
  | .deleteGraphicsEvent handle ident => statusOnly (s.deleteGraphicsEvent handle ident)
  | .triggerGraphicsEvents data => ({}, (s.triggerGraphicsEvents clock data).2)
  | .addVideoOutEvent handle ident userData stored =>
    statusOnly (s.addVideoOutEvent handle ident userData stored)
  | .deleteVideoOutEvent handle ident => statusOnly (s.deleteVideoOutEvent handle ident)
  | .triggerVideoOutEvents data => ({}, (s.triggerVideoOutEvents clock data).2)
  | .poll handle maximumCount => s.pollLocked handle maximumCount
  | .wait handle maximumCount timeoutMicroseconds =>
    s.wait clock handle maximumCount timeoutMicroseconds

/-- The thread has a waiter. -/
def waits (thread : ℕ) : Bool := s.waiters[thread]?.isSome

/-- A call of the scheduler by others that spares the service, its queues included. -/
def allows (call : SchedulerCall) : Bool :=
  call.spares s.waits isEventQueueKey s.scheduler && match call with
    | .insertObject type | .removeObject _ type => type ≠ .kEventQueue
    | _ => true

def step : EventQueueStep → EventQueueService
  | .call call => (s.perform clock call).2
  | .scheduler call => if s.allows call then { s with scheduler := s.scheduler.step call } else s

def run (steps : List EventQueueStep) : EventQueueService := StepRuns.run (step clock) s steps

end Clock

end EventQueueService

/-! ## Counting -/

/-- The events of the registration are level events. -/
def EventRegistration.persistent (registration : EventRegistration) : Bool :=
  registration.filter = eventFilterUser ∧ registration.flags &&& eventClear = 0

/-- An event as its registration marks it. -/
def EventRegistration.mark (registration : EventRegistration) (event : KernelEvent) :
    RegisteredKernelEvent :=
  ⟨event, registration.generation, registration.persistent⟩

/-- An event as the queue's registration of its number and filter marks it. -/
def EventQueue.mark (q : EventQueue) (event : KernelEvent) : Option RegisteredKernelEvent :=
  (q.findRegistration event.ident event.filter).map (·.mark event)

namespace EventQueueCall

/-- The registration of a queue that the call triggers, and the event it makes. -/
def trigger (handle : ℕ) (q : EventQueue) : EventQueueCall →
    Option (EventRegistration × RegisteredKernelEvent)
  | .triggerUserEvent other ident userData =>
    if other = handle then
      (q.findRegistration ident eventFilterUser).map fun r =>
        (r, r.mark { ident := r.ident, filter := r.filter, flags := r.flags, userData })
    else none
  | .triggerGraphicsEvents data => triggerByFilter eventFilterGraphics data
  | .triggerVideoOutEvents data => triggerByFilter eventFilterVideoOut data
  | _ => none
where
  triggerByFilter (filter : ℤ) (data : ℕ) : Option (EventRegistration × RegisteredKernelEvent) :=
    (q.registrations.find? fun r => r.filter = filter).map fun r =>
      (r, r.mark {
        ident := r.ident, filter := r.filter, fflags := 1, data, userData := r.userData })

/-- The call asks one queue for events. -/
def asks (handle : ℕ) : EventQueueCall → Bool
  | .poll other _ | .wait other _ _ => other = handle
  | _ => false

/-- The call deletes or replaces the registration of the event, or deletes its queue. -/
def retires (handle : ℕ) (event : RegisteredKernelEvent) : EventQueueCall → Bool
  | .delete other => other = handle
  | .addUserEvent other ident _ _ | .deleteUserEvent other ident =>
    other = handle ∧ event.isFor ident eventFilterUser
  | .addGraphicsEvent other ident _ _ | .deleteGraphicsEvent other ident =>
    other = handle ∧ event.isFor ident eventFilterGraphics
  | .addVideoOutEvent other ident _ _ | .deleteVideoOutEvent other ident =>
    other = handle ∧ event.isFor ident eventFilterVideoOut
  | _ => false

end EventQueueCall

section Trigger

variable (trigger : EventQueue → Option (EventRegistration × RegisteredKernelEvent))
  (event : RegisteredKernelEvent) (q : EventQueue)

/-- The trigger makes the event. -/
def EventQueue.triggered : ℕ := if (trigger q).map Prod.snd = some event then 1 else 0

/-- The event is pending and the trigger overwrites it. -/
def EventQueue.overwritten : ℕ :=
  if ((trigger q).bind fun made => q.pendingEvents.find? (·.isOf made.1)) = some event then 1
  else 0

end Trigger

/-- How often the event is reserved for the waiter. -/
def EventWaiter.reserves (handle : ℕ) (event : RegisteredKernelEvent) (waiter : EventWaiter) : ℕ :=
  if waiter.queueHandle = handle then waiter.events.count event else 0

namespace EventQueueService

/-- The event is current in its queue. -/
def live (handle : ℕ) (event : RegisteredKernelEvent) (s : EventQueueService) : Bool :=
  s.queues[handle]?.any (·.isCurrent event)

/-- How often the event is pending in its queue. -/
def pendingCount (handle : ℕ) (event : RegisteredKernelEvent) (s : EventQueueService) : ℕ :=
  s.queues[handle]?.elim 0 (·.pendingEvents.count event)

/-- How often the event is reserved for threads that wait for its queue. -/
def reservedCount (handle : ℕ) (event : RegisteredKernelEvent) (s : EventQueueService) : ℕ :=
  OrderedMaps.total (·.reserves handle event) s.waiters

/-- How often the current event is held, pending or reserved. -/
def held (handle : ℕ) (event : RegisteredKernelEvent) (s : EventQueueService) : ℕ :=
  if s.live handle event then s.pendingCount handle event + s.reservedCount handle event else 0

section Clock

variable (clock : ℕ → ℕ)

/-- The step triggers the event. -/
def triggers (handle : ℕ) (event : RegisteredKernelEvent) (s : EventQueueService) :
    EventQueueStep → ℕ
  | .call call => s.queues[handle]?.elim 0 (·.triggered (call.trigger handle) event)
  | .scheduler _ => 0

/-- The step overwrites the pending event by a later one of the same registration. -/
def coalesces (handle : ℕ) (event : RegisteredKernelEvent) (s : EventQueueService) :
    EventQueueStep → ℕ
  | .call call => s.queues[handle]?.elim 0 (·.overwritten (call.trigger handle) event)
  | .scheduler _ => 0

/-- How often the step hands the event to its caller. -/
def delivers (handle : ℕ) (event : RegisteredKernelEvent) (s : EventQueueService) :
    EventQueueStep → ℕ
  | .call call =>
    if call.asks handle then
      s.queues[handle]?.elim 0 fun q =>
        ((s.perform clock call).1.events.filterMap q.mark).count event
    else 0
  | .scheduler _ => 0

/-- How often the step gives the event up with its registration. -/
def drops (handle : ℕ) (event : RegisteredKernelEvent) (s : EventQueueService) :
    EventQueueStep → ℕ
  | .call call =>
    if call.retires handle event ∧ (s.perform clock call).2.live handle event = false then
      s.held handle event
    else 0
  | .scheduler _ => 0

/-- What a count adds up to over the steps of a run. -/
def total (count : EventQueueService → EventQueueStep → ℕ) (steps : List EventQueueStep) : ℕ :=
  StepRuns.tally (step clock) count {} steps

end Clock

end EventQueueService

end KajPS5.Kernel
