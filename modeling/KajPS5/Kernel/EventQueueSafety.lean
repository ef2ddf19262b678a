/-
# What the event queue service promises

Every step keeps `Fits` and balances the events that are held against what the step triggers,
hands over, overwrites and gives up. Both go over to whole runs.
-/

import KajPS5.Kernel.EventWaits

namespace KajPS5.Kernel

open Math List

namespace EventQueueService

variable {clock : ℕ → ℕ} {s s' : EventQueueService}

/-! ## Calls -/

/-- A call keeps the invariant and accounts for every edge event. -/
structure Balances (clock : ℕ → ℕ) (call : EventQueueCall) (s : EventQueueService) : Prop where
  fits : (s.perform clock call).2.Fits clock
  held : ∀ handle e, e.persistent = false → s.held handle e + s.triggers handle e (.call call) =
      (s.perform clock call).2.held handle e +
        (s.delivers clock handle e (.call call) + s.coalesces handle e (.call call) +
          s.drops clock handle e (.call call))

variable {call : EventQueueCall} {handle : ℕ}

theorem triggers_eq_zero (e : RegisteredKernelEvent)
    (htrigger : ∀ q, call.trigger handle q = none) :
    s.triggers handle e (.call call) = 0 := by
  rw [triggers]
  cases s.queues[handle]? with
  | none => rfl
  | some q => simp [EventQueue.triggered, htrigger]

theorem coalesces_eq_zero (e : RegisteredKernelEvent)
    (htrigger : ∀ q, call.trigger handle q = none) :
    s.coalesces handle e (.call call) = 0 := by
  rw [coalesces]
  cases s.queues[handle]? with
  | none => rfl
  | some q => simp [EventQueue.overwritten, htrigger]

theorem delivers_eq_zero (e : RegisteredKernelEvent) (hasks : call.asks handle = false) :
    s.delivers clock handle e (.call call) = 0 := by
  rw [delivers, hasks, if_neg Bool.false_ne_true]

variable {e : RegisteredKernelEvent} {filter : ℤ} {entries : List RegisteredKernelEvent}

theorem drops_eq_zero (hretires : call.retires handle e = false) :
    s.drops clock handle e (.call call) = 0 := by
  rw [drops, hretires, if_neg (by simp)]

/-- A call that neither triggers nor hands over. -/
theorem Balances.of_drops (hfits : (s.perform clock call).2.Fits clock)
    (htrigger : ∀ handle q, call.trigger handle q = none)
    (hasks : ∀ handle, call.asks handle = false)
    (hheld : ∀ handle e, e.persistent = false → s.held handle e =
      (s.perform clock call).2.held handle e + s.drops clock handle e (.call call)) :
    Balances clock call s := by
  refine ⟨hfits, fun handle e hedge => ?_⟩
  rw [triggers_eq_zero e (htrigger handle), coalesces_eq_zero e (htrigger handle),
    delivers_eq_zero e (hasks handle), Nat.zero_add]
  exact hheld _ e hedge

/-- A call that registers or deletes one event of one queue. -/
theorem Balances.of_onQueue (hs : s.Fits clock) {ident : ℕ}
    {revise : EventQueue → KernelStatus × EventQueue}
    (hperform : (s.perform clock call).2 = (s.onQueue handle revise).2)
    (hrevise : ∀ q : EventQueue, q.Fits → q.Revises ident filter (revise q).2)
    (hretires : ∀ other e, call.retires other e = true ↔
      handle = other ∧ e.isFor ident filter = true)
    (htrigger : ∀ handle q, call.trigger handle q = none)
    (hasks : ∀ handle, call.asks handle = false) : Balances clock call s := by
  obtain ⟨hfits, hheld⟩ := hs.onQueue hrevise
  refine .of_drops (hperform ▸ hfits) htrigger hasks fun other e _ => ?_
  rw [drops, hperform]
  simp only [hretires]
  exact hheld _ e

/-- A trigger of every queue that has a registration with the filter. -/
theorem Balances.of_triggerQueues (hs : s.Fits clock) {data : ℕ}
    (hfilter : filter ≠ eventFilterUser) (hperform : (s.perform clock call).2 =
      (s.triggerQueues clock filter data s.queues.keys).2)
    (htrigger : ∀ handle q, call.trigger handle q =
      EventQueueCall.trigger.triggerByFilter q filter data)
    (hretires : ∀ handle e, call.retires handle e = false)
    (hasks : ∀ handle, call.asks handle = false) : Balances clock call s := by
  obtain ⟨hfits, hheld⟩ := triggerQueues_spec hs hfilter data s.queues.nodup_keys
  refine ⟨by rw [hperform]; exact hfits, fun handle e hedge => ?_⟩
  have hlaw := hheld handle e hedge
  rw [delivers_eq_zero e (hasks handle), drops_eq_zero (hretires handle e), Nat.zero_add, hperform,
    triggers, coalesces, funext (htrigger handle)]
  cases hq : s.queues[handle]? with
  | none =>
    rw [hq] at hlaw
    simpa using hlaw
  | some q =>
    have hmem : handle ∈ s.queues.keys := by
      rw [Std.ExtTreeMap.mem_keys, Std.ExtTreeMap.mem_iff_isSome_getElem?, hq]
      rfl
    rwa [if_pos hmem, if_pos hmem, hq] at hlaw

/-- The events that a caller gets are the entries that were taken. -/
theorem Answers.delivers (hs : s.Sound) {result : EventQueuePollResult × EventQueueService}
    (h : Answers clock handle entries s result) {q : EventQueue} (hq : s.queues[handle]? = some q) :
    result.1.events.filterMap q.mark = entries := by
  rw [h.events, filterMap_map]
  have hmark : ∀ e ∈ entries, (q.mark ∘ (·.event)) e = some e := by
    intro e he
    obtain ⟨found, hfound, hcur, hknows, -⟩ := h.current e he
    rw [hq, Option.some.injEq] at hfound
    subst hfound
    exact (hs.queues _ q hq).mark_eq hknows hcur
  rw [filterMap_congr hmark, filterMap_some]

/-- A call that hands the events of one queue to its caller. -/
theorem Balances.of_answers (hs : s.Fits clock)
    (h : Answers clock handle entries s (s.perform clock call))
    (htrigger : ∀ handle q, call.trigger handle q = none)
    (hasks : ∀ other, call.asks other = true ↔ handle = other)
    (hretires : ∀ handle e, call.retires handle e = false) : Balances clock call s := by
  refine ⟨h.fits, fun other e hedge => ?_⟩
  rw [triggers_eq_zero e (htrigger other), coalesces_eq_zero e (htrigger other),
    drops_eq_zero (hretires other e), Nat.add_zero, Nat.add_zero]
  have hcur : ∀ e ∈ entries, s.live handle e = true := by
    intro e he
    obtain ⟨q, hq, hnow, -⟩ := h.current e he
    rw [live_eq hq, hnow]
  rw [h.hands.held hcur _ hedge, delivers]
  by_cases heq : handle = other
  · subst heq
    rw [if_pos rfl, if_pos ((hasks handle).mpr rfl)]
    cases hq : s.queues[handle]? with
    | some q => rw [Option.elim_some, h.delivers hs.toSound hq]
    | none =>
      have hnil : entries = [] := by
        rw [eq_nil_iff_forall_not_mem]
        intro e he
        obtain ⟨q, hsome, -⟩ := h.current e he
        cases hq.symm.trans hsome
      rw [hnil, count_nil, Option.elim_none]
  · rw [if_neg (Ne.symm heq), if_neg (fun h => heq ((hasks other).mp h))]

theorem Fits.perform (hs : s.Fits clock) (call : EventQueueCall) : Balances clock call s := by
  cases call with
  | create name stored =>
    obtain ⟨hfits, hheld⟩ := hs.create name stored
    refine .of_drops hfits (fun _ _ => rfl) (fun _ => rfl) fun handle e _ => ?_
    exact (hheld _ e).symm
  | delete handle =>
    obtain ⟨hfits, hheld⟩ := hs.delete handle
    refine .of_drops hfits (fun _ _ => rfl) (fun _ => rfl) fun other e _ => ?_
    rw [drops]
    simp only [EventQueueCall.retires, decide_eq_true_eq]
    exact hheld _ e
  | addUserEvent handle ident edge stored =>
    exact .of_onQueue hs rfl (fun q hq => hq.registerEvent _ _ _ 0 stored)
      (fun _ _ => decide_eq_true_iff) (fun _ _ => rfl) (fun _ => rfl)
  | deleteUserEvent handle ident | deleteGraphicsEvent handle ident
  | deleteVideoOutEvent handle ident =>
    exact .of_onQueue hs rfl (fun q hq => hq.deleteEvent _ _)
      (fun _ _ => decide_eq_true_iff) (fun _ _ => rfl) (fun _ => rfl)
  | triggerUserEvent handle ident userData =>
    have haccounts := hs.triggerUserEvent handle ident userData
    refine ⟨haccounts.fits, fun other e hedge => ?_⟩
    have hlaw := haccounts.held other e hedge
    rw [delivers_eq_zero e rfl, Nat.zero_add]
    by_cases heq : handle = other
    · subst heq
      rwa [if_pos rfl, if_pos rfl] at hlaw
    · have hnone : ∀ q, (EventQueueCall.triggerUserEvent handle ident userData).trigger other q =
          none := fun q => if_neg heq
      rw [triggers_eq_zero e hnone, coalesces_eq_zero e hnone]
      rwa [if_neg heq, if_neg heq] at hlaw
  | addGraphicsEvent handle ident userData stored | addVideoOutEvent handle ident userData stored =>
    exact .of_onQueue hs rfl (fun q hq => hq.registerEvent _ _ 0 userData _)
      (fun _ _ => decide_eq_true_iff) (fun _ _ => rfl) (fun _ => rfl)
  | triggerGraphicsEvents data | triggerVideoOutEvents data =>
    exact .of_triggerQueues hs (by decide) rfl (fun _ _ => rfl) (fun _ _ => rfl) (fun _ => rfl)
  | poll handle maximumCount =>
    obtain ⟨entries, hanswers⟩ := hs.pollLocked handle maximumCount
    exact .of_answers hs hanswers (fun _ _ => rfl) (fun _ => decide_eq_true_iff) (fun _ _ => rfl)
  | wait handle maximumCount timeoutMicroseconds =>
    obtain ⟨entries, hanswers⟩ := hs.wait handle maximumCount timeoutMicroseconds
    exact .of_answers hs hanswers (fun _ _ => rfl) (fun _ => decide_eq_true_iff) (fun _ _ => rfl)

/-! ## Steps and runs -/

/-- The other users of the scheduler leave the event queues in its table of handles. -/
theorem find_step (hs : s.Sound) {call : SchedulerCall} (hallows : s.allows call = true) :
    (s.scheduler.step call).handles.Kept ∧
      ∀ handle, (s.scheduler.step call).handles.find handle .kEventQueue =
        s.scheduler.handles.find handle .kEventQueue := by
  have htypes := (Bool.and_eq_true_iff.mp hallows).2
  rcases s.scheduler.handles_step call with
    hsame | ⟨type, hinsert, htype⟩ | ⟨other, type, hrem, htype⟩
  · rw [hsame]
    exact ⟨hs.kept, fun _ => rfl⟩
  · have hne : type ≠ .kEventQueue := by
      rcases htype with rfl | rfl
      · decide
      · exact of_decide_eq_true htypes
    rw [hinsert]
    exact ⟨hs.kept.insert _, hs.kept.find_insert hne⟩
  · have hne : type ≠ .kEventQueue := by
      rcases htype with rfl | rfl
      · decide
      · exact of_decide_eq_true htypes
    rw [hrem]
    exact ⟨hs.kept.remove _ _, HandleTable.find_remove_of_ne _ hne _⟩

theorem Fits.scheduler (hs : s.Fits clock) {call : SchedulerCall} (hallows : s.allows call = true) :
    Fits clock { s with scheduler := s.scheduler.step call } := by
  obtain ⟨hkept, hfind⟩ := find_step hs.toSound hallows
  have hspares := GuestScheduler.spares_step hs.orderly (Bool.and_eq_true_iff.mp hallows).1
  exact ⟨hs.toSound.reschedule _ hspares hkept hfind, hs.attached, hs.served⟩

theorem Fits.step (hs : s.Fits clock) (a : EventQueueStep) : (s.step clock a).Fits clock := by
  cases a with
  | call call => exact (hs.perform _).fits
  | scheduler call =>
    rw [EventQueueService.step]
    split
    next hallows => exact hs.scheduler hallows
    · exact hs

theorem fits_run (clock : ℕ → ℕ) (steps : List EventQueueStep) :
    (run clock {} steps).Fits clock := by
  refine StepRuns.run_induction (step clock) (fun s a hs => hs.step a) ?_ steps
  exact ⟨.initial, fun thread waiter h => by simp at h, fun thread waiter h => by simp at h⟩

/-- Every event that a call hands to its caller is current, and was pending or reserved for it. -/
theorem Fits.delivered (hs : s.Fits clock) {event : KernelEvent}
    (hevent : event ∈ (s.perform clock call).1.events) :
    ∃ handle q e, call.asks handle = true ∧ s.queues[handle]? = some q ∧ e.event = event ∧
      q.isCurrent e = true ∧ (e ∈ q.pendingEvents ∨ s.ReservedForCurrent handle e) := by
  have hasked : ∀ {handle : ℕ} {entries : List RegisteredKernelEvent},
      call.asks handle = true → Answers clock handle entries s (s.perform clock call) →
      ∃ handle q e, call.asks handle = true ∧ s.queues[handle]? = some q ∧ e.event = event ∧
        q.isCurrent e = true ∧ (e ∈ q.pendingEvents ∨ s.ReservedForCurrent handle e) := by
    intro handle entries hasks hanswers
    rw [hanswers.events, mem_map] at hevent
    obtain ⟨e, he, heq⟩ := hevent
    obtain ⟨q, hq, hcur, -, hfrom⟩ := hanswers.current e he
    exact ⟨handle, q, e, hasks, hq, heq, hcur, hfrom⟩
  cases call with
  | poll handle maximumCount =>
    obtain ⟨entries, hanswers⟩ := hs.pollLocked handle maximumCount
    exact hasked (decide_eq_true rfl) hanswers
  | wait handle maximumCount timeoutMicroseconds =>
    obtain ⟨entries, hanswers⟩ := hs.wait handle maximumCount timeoutMicroseconds
    exact hasked (decide_eq_true rfl) hanswers
  | _ => exact absurd hevent not_mem_nil

/-- After every run no queue has two registrations for one number and filter. -/
theorem run_registrations (clock : ℕ → ℕ) (steps : List EventQueueStep) (handle ident : ℕ)
    (filter : ℤ) : FirstMatches.AtMostOne (·.isFor ident filter)
      ((run clock {} steps).queues[handle]?.elim [] EventQueue.registrations) := by
  cases hq : (run clock {} steps).queues[handle]? with
  | none => exact .nil
  | some q => exact ((fits_run clock steps).queues _ q hq).keys _ _

end EventQueueService

end KajPS5.Kernel
