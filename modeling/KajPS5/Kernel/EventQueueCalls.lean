/-
# Calls of the event queue service

Every call keeps `Fits`, and every call accounts for every edge event of every queue: what
is held before it and triggered by it is held after it, handed to its caller, overwritten by
a later event of the same registration, or given up with its registration.
-/

import KajPS5.Kernel.EventDelivery

namespace KajPS5.Kernel

open Math List

namespace EventQueueService

variable {clock : ℕ → ℕ} {s s' : EventQueueService}

variable {handle ident : ℕ} {q q' : EventQueue} {filter : ℤ} {e : RegisteredKernelEvent}
  {call : EventQueue → KernelStatus × EventQueue} {made : EventRegistration × RegisteredKernelEvent}

theorem held_congr (hqueue : s'.queues[handle]? = s.queues[handle]?)
    (hreserved : s'.reservedCount handle e = s.reservedCount handle e) :
    s'.held handle e = s.held handle e := by
  unfold held live pendingCount
  rw [hqueue, hreserved]

theorem held_putQueue_of_ne {other : ℕ} (h : handle ≠ other) :
    (s.putQueue handle q').held other e = s.held other e :=
  held_congr (by rw [queues_putQueue, if_neg h]) rfl

theorem held_of_live (h : s.live handle e = true) : s.held handle e = s.stock handle e := if_pos h

theorem held_of_not_live (h : s.live handle e = false) :
    s.held handle e = 0 := if_neg (h ▸ Bool.false_ne_true)

theorem live_eq (hq : s.queues[handle]? = some q) (e : RegisteredKernelEvent) :
    s.live handle e = q.isCurrent e := by
  rw [live, hq, Option.any_some]

theorem pendingCount_eq (hq : s.queues[handle]? = some q) (e : RegisteredKernelEvent) :
    s.pendingCount handle e = q.pendingEvents.count e := by
  rw [pendingCount, hq, Option.elim_some]

/-- What is handed over is what is held less. -/
theorem Hands.held {entries : List RegisteredKernelEvent} (h : Hands handle entries s s')
    (hcur : ∀ e ∈ entries, s.live handle e = true) (other : ℕ) (hedge : e.persistent = false) :
    s.held other e = s'.held other e + if other = handle then entries.count e else 0 := by
  cases hlive : s.live other e with
  | true =>
    rw [held_of_live hlive, held_of_live ((h.live other e).trans hlive), h.stock _ e hedge hlive]
  | false =>
    rw [held_of_not_live hlive, held_of_not_live ((h.live other e).trans hlive)]
    split
    next heq =>
      symm
      rw [Nat.zero_add, count_eq_zero]
      intro hmem
      rw [heq, hcur e hmem] at hlive
      cases hlive
    · rfl

/-! ## Registering and deleting events -/

theorem reservedCount_eq_zero (hs : s.Sound) (hq : s.queues[handle]? = some q)
    (he : ¬ q.Issued e.registrationGeneration) : s.reservedCount handle e = 0 := by
  rw [reservedCount, OrderedMaps.total_eq_zero_iff]
  intro thread waiter hwaiter
  rw [EventWaiter.reserves]
  split
  next heq =>
    rw [count_eq_zero]
    intro hmem
    exact he ((hs.waiters _ _ hwaiter).knows q (heq ▸ hq) e hmem).1
  · rfl

theorem Fits.revise (hs : s.Fits clock) (hq : s.queues[handle]? = some q)
    (hrevises : q.Revises ident filter q') : (s.putQueue handle q').Fits clock := by
  have hdrains : Drains s (s.putQueue handle q') := .putPending hq hrevises.fewer
  refine ⟨hs.putQueue hq hrevises.fits fun e he => hrevises.knows he,
    fun thread waiter hwaiter => (hs.attached _ _ hwaiter).drains hdrains,
    fun thread waiter hwaiter => (hs.served _ _ hwaiter).drains hdrains le_rfl⟩

/-- Only events of the number and filter are given up, and only if they are no longer current. -/
theorem held_revise (hs : s.Sound) (hq : s.queues[handle]? = some q)
    (hrevises : q.Revises ident filter q') (other : ℕ) (e : RegisteredKernelEvent) :
    s.held other e = (s.putQueue handle q').held other e +
      if (handle = other ∧ e.isFor ident filter = true) ∧
        (s.putQueue handle q').live other e = false then s.held other e else 0 := by
  by_cases hother : handle = other
  · subst hother
    have hq' : (s.putQueue handle q').queues[handle]? = some q' := by
      rw [queues_putQueue, if_pos rfl]
    have hfits := hs.queues _ q hq
    cases hlive : (s.putQueue handle q').live handle e with
    | true =>
      have hcur : q'.isCurrent e = true := by rw [← live_eq hq', hlive]
      have hstock : (s.putQueue handle q').stock handle e = s.stock handle e := by
        rw [stock, stock, pendingCount_eq hq, pendingCount_eq hq', hrevises.pending e hcur]
        rfl
      rw [if_neg (by simp), held_of_live hlive, hstock]
      by_cases hissued : q.Issued e.registrationGeneration
      · exact held_of_live (by rw [live_eq hq]; exact hrevises.isCurrent_of hissued hcur)
      have hzero : s.stock handle e = 0 := by
        rw [stock, pendingCount_eq hq, hfits.count_eq_zero hissued,
          reservedCount_eq_zero hs hq hissued]
      rw [hzero, held]
      split
      · exact hzero
      · rfl
    | false =>
      rw [held_of_not_live hlive, Nat.zero_add]
      split
      · rfl
      next hnot =>
        have hfor : e.isFor ident filter = false := by simpa using hnot
        apply held_of_not_live
        rw [live_eq hq]
        by_contra hcur
        rw [Bool.not_eq_false] at hcur
        rw [live_eq hq', hrevises.isCurrent_of_not_isFor hfor hcur] at hlive
        cases hlive
  · rw [if_neg (by simp [hother]), Nat.add_zero, held_putQueue_of_ne hother]

/-- A call on one queue that revises one of its registrations. -/
theorem Fits.onQueue (hs : s.Fits clock)
    (hcall : ∀ q : EventQueue, q.Fits → q.Revises ident filter (call q).2) :
    (s.onQueue handle call).2.Fits clock ∧ ∀ other e, s.held other e =
      (s.onQueue handle call).2.held other e +
        if (handle = other ∧ e.isFor ident filter = true) ∧
          (s.onQueue handle call).2.live other e = false then s.held other e else 0 := by
  rw [EventQueueService.onQueue, find_eq hs.toSound]
  cases hq : s.queues[handle]? with
  | none =>
    refine ⟨hs, fun other e => ?_⟩
    dsimp only
    split
    next h => rw [held_of_not_live h.2]
    · rfl
  | some q =>
    have hrevises := hcall q (hs.queues _ q hq)
    exact ⟨hs.revise hq hrevises, held_revise hs.toSound hq hrevises⟩

/-! ## Triggering -/

theorem Fits.unserved (hs : s.Fits clock) (hq : s.queues[handle]? = some q)
    (htriggers : q.Triggers made q') :
    Unserved clock handle (s.putQueue handle q').waiters.keys (s.putQueue handle q') := by
  refine ⟨hs.putQueue hq htriggers.fits fun e he => ?_, fun thread waiter hwaiter hdeleted => ?_,
    fun thread waiter hwaiter => ?_⟩
  · rw [htriggers.same]
    exact he
  · rw [queues_putQueue]
    split
    · rfl
    · exact hs.attached _ _ hwaiter hdeleted
  · by_cases hhandle : waiter.queueHandle = handle
    · refine .inr ⟨?_, hhandle⟩
      rw [Std.ExtTreeMap.mem_keys, Std.ExtTreeMap.mem_iff_isSome_getElem?, hwaiter]
      rfl
    · refine .inl fun hwait found hfound => ?_
      rw [queues_putQueue, if_neg (Ne.symm hhandle)] at hfound
      exact hs.served _ _ hwaiter hwait _ hfound

/-- What a trigger on one queue accounts for. -/
structure Accounts (trigger : EventQueue → Option (EventRegistration × RegisteredKernelEvent))
    (clock : ℕ → ℕ) (handle : ℕ) (s s' : EventQueueService) : Prop where
  fits : s'.Fits clock
  others : ∀ other : ℕ, other ≠ handle → s'.queues[other]? = s.queues[other]?
  held : ∀ other e, e.persistent = false → s.held other e +
      (if handle = other then s.queues[other]?.elim 0 (·.triggered trigger e) else 0) =
      s'.held other e +
        if handle = other then s.queues[other]?.elim 0 (·.overwritten trigger e) else 0

variable {trigger : EventQueue → Option (EventRegistration × RegisteredKernelEvent)}

/-- Nothing is triggered. -/
theorem Accounts.refl (hs : s.Fits clock) (hnone : s.queues[handle]?.bind trigger = none) :
    Accounts trigger clock handle s s := by
  refine ⟨hs, fun _ _ => rfl, fun other e _ => ?_⟩
  split
  next heq =>
    subst heq
    cases hq : s.queues[handle]? with
    | none => rfl
    | some q =>
      rw [hq, Option.bind_some] at hnone
      simp [EventQueue.triggered, EventQueue.overwritten, hnone]
  · rfl

theorem held_trigger (hq : s.queues[handle]? = some q) (hfits : q.Fits)
    (htriggers : q.Triggers made q') (hreserves : Reserves clock handle (s.putQueue handle q') s')
    (other : ℕ) (hedge : e.persistent = false) :
    s.held other e + (if handle = other ∧ made.2 = e then 1 else 0) =
      s'.held other e + if handle = other ∧ q.pendingEvents.find? (·.isOf made.1) = some e
        then 1 else 0 := by
  have hlater := hreserves.hands.held (forall_mem_nil _) other hedge
  simp only [count_nil, ite_self, Nat.add_zero] at hlater
  rw [← hlater]
  by_cases hother : handle = other
  · subst hother
    have hq' : (s.putQueue handle q').queues[handle]? = some q' := by
      rw [queues_putQueue, if_pos rfl]
    have hbook : q'.isCurrent e = q.isCurrent e := by
      rw [htriggers.same]
      rfl
    have hcount := htriggers.count e
    simp only [true_and]
    cases hcur : q.isCurrent e with
    | true =>
      rw [held_of_live (by rw [live_eq hq, hcur]),
        held_of_live (by rw [live_eq hq', hbook, hcur]), stock, stock, pendingCount_eq hq,
        pendingCount_eq hq']
      have hreserved : (s.putQueue handle q').reservedCount handle e =
        s.reservedCount handle e := rfl
      omega
    | false =>
      -- an event that is not current is neither triggered nor pending
      have hmade : made.2 ≠ e := by
        rintro rfl
        rw [EventQueue.isCurrent_iff.mpr ⟨made.1, htriggers.registered, htriggers.isOf⟩] at hcur
        cases hcur
      have hpend : q.pendingEvents.find? (·.isOf made.1) ≠ some e := by
        intro hfind
        cases (hfits.isCurrent_of_pending (mem_of_find?_eq_some hfind)).symm.trans hcur
      rw [if_neg hmade, if_neg hpend, held_of_not_live (by rw [live_eq hq, hcur]),
        held_of_not_live (by rw [live_eq hq', hbook, hcur])]
  · rw [if_neg (by simp [hother]), if_neg (by simp [hother]), Nat.add_zero, Nat.add_zero,
      held_putQueue_of_ne hother]

theorem Accounts.of_reserves (hs : s.Fits clock) (hq : s.queues[handle]? = some q)
    (hmade : trigger q = some made) (htriggers : q.Triggers made q') :
    Accounts trigger clock handle s
      ((s.putQueue handle q').reserveWaitingThreadsLocked clock handle) := by
  have hreserves : Reserves clock handle (s.putQueue handle q')
      ((s.putQueue handle q').reserveWaitingThreadsLocked clock handle) :=
    reserveWaiters_spec (hs.unserved hq htriggers)
  refine ⟨hreserves.fits, fun other hne => ?_, fun other e hedge => ?_⟩
  · rw [hreserves.others _ hne, queues_putQueue, if_neg (Ne.symm hne)]
  have hheld := held_trigger hq (hs.queues _ q hq) htriggers hreserves other hedge
  by_cases heq : handle = other
  · subst heq
    simpa [hq, EventQueue.triggered, EventQueue.overwritten, hmade] using hheld
  · simpa [heq] using hheld

theorem Fits.triggerUserEvent (hs : s.Fits clock) (handle ident userData : ℕ) :
    Accounts ((EventQueueCall.triggerUserEvent handle ident userData).trigger handle) clock handle s
      (s.triggerUserEvent clock handle ident userData).2 := by
  rw [EventQueueService.triggerUserEvent, find_eq hs.toSound]
  cases hq : s.queues[handle]? with
  | none => exact .refl hs (by rw [hq]; rfl)
  | some q =>
    rcases (hs.queues _ q hq).triggerUserEvent handle ident userData with
      ⟨hres, hnone⟩ | ⟨made, q', hres, hmade, htriggers⟩
    · simp only [hres, putQueue_self hq]
      exact .refl hs (hq ▸ hnone)
    · simp only [hres]
      exact .of_reserves hs hq hmade htriggers

theorem Fits.triggerQueue (hs : s.Fits clock) (hfilter : filter ≠ eventFilterUser)
    (data handle : ℕ) :
    Accounts (EventQueueCall.trigger.triggerByFilter · filter data) clock handle s
      (s.triggerQueue clock filter data handle).2 := by
  rw [EventQueueService.triggerQueue]
  cases hq : s.queues[handle]? with
  | none => exact .refl hs (by rw [hq]; rfl)
  | some q =>
    dsimp only
    rcases (hs.queues _ q hq).triggerFirstByFilter hfilter data with
      ⟨hres, hnone⟩ | ⟨made, q', hres, hmade, htriggers⟩
    · rw [hres]
      exact .refl hs (hq ▸ hnone)
    · rw [hres]
      exact .of_reserves hs hq hmade htriggers

/-- The queues of the loop are triggered, each by its own turn. -/
theorem triggerQueues_spec (hs : s.Fits clock) (hfilter : filter ≠ eventFilterUser) (data : ℕ)
    {handles : List ℕ} (hnodup : handles.Nodup) :
    (s.triggerQueues clock filter data handles).2.Fits clock ∧ ∀ other e, e.persistent = false →
        s.held other e + (if other ∈ handles then s.queues[other]?.elim 0
          (·.triggered (EventQueueCall.trigger.triggerByFilter · filter data) e) else 0) =
        (s.triggerQueues clock filter data handles).2.held other e +
          if other ∈ handles then s.queues[other]?.elim 0
            (·.overwritten (EventQueueCall.trigger.triggerByFilter · filter data) e) else 0 := by
  induction handles generalizing s with
  | nil => exact ⟨hs, fun other e _ => by simp [triggerQueues]⟩
  | cons handle rest ih =>
    obtain ⟨hout, hrest⟩ := nodup_cons.mp hnodup
    have hturn := hs.triggerQueue hfilter data handle
    obtain ⟨hfits, hheld⟩ := ih hturn.fits hrest
    refine ⟨hfits, fun other e hedge => ?_⟩
    have hfirst := hturn.held other e hedge
    have hlater := hheld other e hedge
    by_cases heq : handle = other
    · -- no later turn is for this queue
      subst heq
      simp only [hout, mem_cons] at hfirst hlater ⊢
      exact hfirst.trans (congrArg (· + _) hlater)
    · have hmem : other ∈ handle :: rest ↔ other ∈ rest := by simp [Ne.symm heq]
      rw [if_neg heq, if_neg heq, Nat.add_zero, Nat.add_zero] at hfirst
      rw [hturn.others _ (Ne.symm heq), ← hfirst] at hlater
      simp only [hmem]
      exact hlater

/-! ## Creating and deleting queues -/

/-- The table of handles and the queues change together. -/
theorem Sound.rehandle (hs : s.Sound) {handles : HandleTable}
    {queues : Std.ExtTreeMap ℕ EventQueue}
    (hord : GuestScheduler.Orderly { s.scheduler with handles }) (hkept : handles.Kept)
    (hstore : ∀ handle : ℕ, handles.find handle .kEventQueue = true ↔ queues[handle]?.isSome = true)
    (hqueues : ∀ (handle : ℕ) q, queues[handle]? = some q →
      s.queues[handle]? = some q ∨ q.Fits ∧ s.queues[handle]? = none)
    (hattached : ∀ (thread : ℕ) waiter, s.waiters[thread]? = some waiter →
      s.Attached waiter) :
    Sound { s with scheduler := { s.scheduler with handles }, queues } where
  orderly := hord
  kept := hkept
  stored := hstore
  queues handle q hq := (hqueues _ q hq).elim (hs.queues handle q) And.left
  waiters thread waiter hwaiter := by
    have hold := hs.waiters _ _ hwaiter
    refine { hold with knows := fun q hq e he => ?_ }
    rcases hqueues _ q hq with hsame | ⟨-, hnone⟩
    · exact hold.knows q hsame e he
    -- a waiter for a queue that was not there has no reservation
    have hdeleted : waiter.completion = .kDeleted := by
      by_contra hne
      have hsome := hattached _ _ hwaiter hne
      rw [hnone] at hsome
      cases hsome
    rw [hold.idle (by rw [hdeleted]; decide)] at he
    cases he
  blocked := hs.blocked

theorem Sound.queues_eq_none (hs : s.Sound)
    (h : s.scheduler.handles.find handle .kEventQueue = false) : s.queues[handle]? = none := by
  cases hq : s.queues[handle]? with
  | none => rfl
  | some q =>
    rw [(hs.stored handle).mpr (by rw [hq]; rfl)] at h
    cases h

theorem Fits.create (hs : s.Fits clock) (name : String) (stored : Bool) :
    (s.create name stored).2.Fits clock ∧
      ∀ other e, (s.create name stored).2.held other e = s.held other e := by
  rw [EventQueueService.create]
  split
  · exact ⟨hs, fun _ _ => rfl⟩
  rcases hs.kept.insert_cases .kEventQueue with hnone | ⟨handles, hsome, hkept, hfree, hlook⟩
  · rw [hnone]
    exact ⟨hs, fun _ _ => rfl⟩
  have hord := hs.orderly.step (.insertObject .kEventQueue)
  rw [GuestScheduler.step, hsome] at hord
  set handle := s.scheduler.handles.nextHandle with hhandle
  have hpos : handle ≠ invalidKernelHandle := hs.orderly.positive.ne'
  have habsent : s.queues[handle]? = none := hs.queues_eq_none (by simp [HandleTable.find, hfree])
  rw [hsome]
  dsimp only
  split
  · have hput : ∀ other : ℕ, (s.queues.insert handle { name })[other]? =
        if handle = other then some { name } else s.queues[other]? :=
      fun other => OrderedMaps.getElem?_insert _ _ _ _
    refine ⟨⟨hs.rehandle hord hkept (fun other => ?_) (OrderedMaps.forall_insert
        (.inr ⟨.initial name, habsent⟩) fun _ _ _ hq => .inl hq) hs.attached,
      fun thread waiter hwaiter hdeleted => ?_,
      fun thread waiter hwaiter hwait q hq => ?_⟩, fun other e => ?_⟩
    · rw [hput, HandleTable.find, hlook]
      by_cases heq : handle = other
      · simp [← heq, hpos]
      · rw [if_neg heq, if_neg heq, ← hs.stored, HandleTable.find]
    · have hsame := hs.attached _ _ hwaiter hdeleted
      change ((s.queues.insert handle { name })[waiter.queueHandle]?).isSome = true
      rw [hput]
      split
      · rfl
      · exact hsame
    · have hattached := hs.attached _ _ hwaiter (by rw [hwait]; decide)
      change (s.queues.insert handle { name })[waiter.queueHandle]? = some q at hq
      rw [hput] at hq
      split at hq
      next heq =>
        rw [← heq, habsent] at hattached
        cases hattached
      · exact hs.served _ _ hwaiter hwait q hq
    · by_cases heq : handle = other
      · subst heq
        rw [held_of_not_live, held_of_not_live]
        · rw [live, habsent]
          rfl
        · change Option.any _ (s.queues.insert handle { name })[handle]? = false
          rw [hput, if_pos rfl]
          rfl
      · apply held_congr
        · exact (hput _).trans (if_neg heq)
        · rfl
  · have hback : ∀ other : ℕ, (handles.remove handle .kEventQueue).2.objects[other]? =
        s.scheduler.handles.objects[other]? := by
      intro other
      have hfound : handles.find handle .kEventQueue = true := by
        simp [HandleTable.find, hlook, hpos]
      rw [HandleTable.getElem?_remove, hlook, hfound]
      by_cases heq : handle = other
      · simp [← heq, hfree]
      · simp [heq]
    have hremoved := hord.step (.removeObject handle .kEventQueue)
    have hrest : Sound { s with scheduler :=
        { s.scheduler with handles := (handles.remove handle .kEventQueue).2 } } := by
      refine hs.rehandle hremoved (hkept.remove handle _) (fun other => ?_)
        (fun _ _ hq => .inl hq) hs.attached
      have hsame : (handles.remove handle .kEventQueue).2.find other .kEventQueue =
          s.scheduler.handles.find other .kEventQueue :=
        HandleTable.find_congr (by rw [hback])
      rw [← hs.stored, hsame]
    exact ⟨⟨hrest, hs.attached, hs.served⟩, fun _ _ => rfl⟩

theorem Fits.delete (hs : s.Fits clock) (handle : ℕ) : (s.delete clock handle).2.Fits clock ∧
      ∀ other e, s.held other e = (s.delete clock handle).2.held other e +
        if handle = other ∧ (s.delete clock handle).2.live other e = false then s.held other e
        else 0 := by
  rw [EventQueueService.delete]
  have hfst := s.scheduler.handles.remove_fst handle .kEventQueue
  have hobjects := s.scheduler.handles.getElem?_remove handle
  have hkept := hs.kept.remove handle .kEventQueue
  have hord := hs.orderly.step (.removeObject handle .kEventQueue)
  rw [GuestScheduler.step] at hord
  rcases hres : s.scheduler.handles.remove handle .kEventQueue with ⟨removed, handles⟩
  rw [hres] at hfst hkept hord
  cases removed with
  | false =>
    refine ⟨hs, fun other e => ?_⟩
    dsimp only
    split
    next h => rw [held_of_not_live h.2]
    · rfl
  | true =>
    have herase : ∀ other : ℕ, (s.queues.erase handle)[other]? =
        if handle = other then none else s.queues[other]? :=
      fun other => OrderedMaps.getElem?_erase _ _ _
    have hfind : ∀ other, handles.find other .kEventQueue = true ↔
        (s.queues.erase handle)[other]?.isSome = true := by
      intro other
      have hlook := hobjects other .kEventQueue
      rw [hres, ← hfst] at hlook
      rw [herase, HandleTable.find, hlook]
      by_cases heq : handle = other
      · simp [heq]
      · rw [if_neg (by simp [heq]), if_neg heq, ← hs.stored, HandleTable.find]
    have hfew : ∀ (other : ℕ) q, (s.queues.erase handle)[other]? = some q →
        s.queues[other]? = some q := fun _ _ hq => (OrderedMaps.getElem?_of_erase hq).2
    have hsound := hs.rehandle hord hkept hfind (fun other q hq => .inl (hfew _ q hq)) hs.attached
    have hloop : Unattached clock handle s.waiters.keys { s with
        scheduler := { s.scheduler with handles }, queues := s.queues.erase handle } := by
      refine ⟨hsound, fun thread waiter hwaiter => ?_, fun thread waiter hwaiter hwait q hq => ?_⟩
      · by_cases heq : waiter.queueHandle = handle
        · refine .inr ⟨?_, heq⟩
          rw [Std.ExtTreeMap.mem_keys, Std.ExtTreeMap.mem_iff_isSome_getElem?]
          exact Option.isSome_iff_exists.mpr ⟨waiter, hwaiter⟩
        · refine .inl fun hdeleted => ?_
          have hsame := hs.attached _ _ hwaiter hdeleted
          rwa [herase, if_neg (Ne.symm heq)]
      · exact hs.served _ _ hwaiter hwait q (hfew _ q hq)
    obtain ⟨hfits, hqueues, hreserved⟩ := deleteWaiters_spec hloop
    refine ⟨hfits, fun other e => ?_⟩
    by_cases heq : handle = other
    · subst heq
      have hlive : live handle e (deleteWaiters clock handle s.waiters.keys { s with
          scheduler := { s.scheduler with handles }, queues := s.queues.erase handle }) =
          false := by
        rw [live, hqueues]
        rw [herase, if_pos rfl]
        rfl
      rw [if_pos ⟨rfl, hlive⟩, held_of_not_live hlive, Nat.zero_add]
    · rw [if_neg (by simp [heq])]
      symm
      apply held_congr
      · rw [hqueues]
        exact (herase _).trans (if_neg heq)
      · exact hreserved _ e (Ne.symm heq)

end EventQueueService

end KajPS5.Kernel
