/-
# Delivery of events

Events move from the pending events of a queue to the reservations of its waiters and from
either to a caller. `Hands` says that nothing else happens to the current edge events: what a
step hands to its caller is what the queue and the reservations lose. The loops that reserve
events and that forget a deleted queue are followed here from waiter to waiter.
-/

import KajPS5.Kernel.EventWaiters

namespace KajPS5.Kernel

open Math EventWaiter List OrderedMaps

namespace EventQueueService

/-- How often the event is pending or reserved, current or not. -/
def stock (handle : ℕ) (event : RegisteredKernelEvent) (s : EventQueueService) : ℕ :=
  s.pendingCount handle event + s.reservedCount handle event

/-- Between the two states the entries of one queue were handed over. -/
structure Hands (handle : ℕ) (entries : List RegisteredKernelEvent) (s s' : EventQueueService) :
    Prop where
  live : ∀ other e, s'.live other e = s.live other e
  stock : ∀ other e, e.persistent = false → s.live other e = true →
    s'.stock other e + (if other = handle then entries.count e else 0) = s.stock other e

namespace Hands

variable {handle : ℕ} {entries : List RegisteredKernelEvent} {s s' s'' : EventQueueService}

theorem of_eq (hqueues : s'.queues = s.queues) (hwaiters : s'.waiters = s.waiters) :
    Hands handle [] s s' where
  live other e := by rw [EventQueueService.live, hqueues, EventQueueService.live]
  stock other e _ _ := by
    simp [EventQueueService.stock, pendingCount, reservedCount, hqueues, hwaiters]

theorem refl (handle : ℕ) (s : EventQueueService) : Hands handle [] s s := of_eq rfl rfl

theorem trans {later : List RegisteredKernelEvent} (h : Hands handle entries s s')
    (h' : Hands handle later s' s'') : Hands handle (entries ++ later) s s'' where
  live other e := (h'.live other e).trans (h.live other e)
  stock other e hedge hlive := by
    rw [← h.stock _ e hedge hlive, ← h'.stock _ e hedge (by rw [h.live, hlive])]
    split
    · rw [count_append]
      omega
    · rfl

theorem of_reserved (hqueues : s'.queues = s.queues)
    (h : ∀ other e, s.live other e = true → s'.reservedCount other e +
      (if other = handle then entries.count e else 0) = s.reservedCount other e) :
    Hands handle entries s s' where
  live other e := by rw [EventQueueService.live, hqueues, EventQueueService.live]
  stock other e _ hlive := by
    have hpend : s'.pendingCount other e = s.pendingCount other e := by
      rw [pendingCount, hqueues, pendingCount]
    rw [EventQueueService.stock, EventQueueService.stock, ← h _ e hlive]
    omega

end Hands

/-! ## Single moves -/

section Moves

variable {s : EventQueueService} {thread : ℕ} {waiter : EventWaiter}

theorem reservedCount_eraseWaiter (hwaiter : s.waiters[thread]? = some waiter) (handle : ℕ)
    (e : RegisteredKernelEvent) :
    (s.eraseWaiter thread).reservedCount handle e + waiter.reserves handle e =
      s.reservedCount handle e := by
  have herase := total_erase (reserves handle e) s.waiters thread
  rw [hwaiter] at herase
  exact herase

theorem reservedCount_putWaiter (thread : ℕ) (waiter' : EventWaiter) (handle : ℕ)
    (e : RegisteredKernelEvent) :
    (s.putWaiter thread waiter').reservedCount handle e +
        s.waiters[thread]?.elim 0 (·.reserves handle e) =
      s.reservedCount handle e + waiter'.reserves handle e :=
  total_insert (reserves handle e) s.waiters thread waiter'

/-- A waiter goes with the current events it had. -/
theorem hands_eraseWaiter (hwaiter : s.waiters[thread]? = some waiter)
    {entries : List RegisteredKernelEvent}
    (hentries : ∀ e, s.live waiter.queueHandle e = true → waiter.events.count e = entries.count e) :
    Hands waiter.queueHandle entries s (s.eraseWaiter thread) := by
  refine .of_reserved rfl fun other e hlive => ?_
  have hcount := reservedCount_eraseWaiter hwaiter other e
  rw [reserves] at hcount
  by_cases heq : waiter.queueHandle = other
  · rw [← heq] at hlive hcount ⊢
    rw [if_pos rfl, hentries e hlive] at hcount
    rw [if_pos rfl, hcount]
  · rw [if_neg heq] at hcount
    rw [if_neg (Ne.symm heq), hcount]

/-- A waiter without events is stored in the place of one without current events. -/
theorem hands_putWaiter (handle : ℕ) {waiter' : EventWaiter} (hnone : waiter'.events = [])
    (hold : ∀ waiter, s.waiters[thread]? = some waiter → ∀ e,
      s.live waiter.queueHandle e = true → waiter.events.count e = 0) :
    Hands handle [] s (s.putWaiter thread waiter') := by
  refine .of_reserved rfl fun other e hlive => ?_
  have hcount := s.reservedCount_putWaiter thread waiter' other e
  have hzero : s.waiters[thread]?.elim 0 (·.reserves other e) = 0 := by
    cases hwaiter : s.waiters[thread]? with
    | none => rfl
    | some waiter =>
      rw [Option.elim_some, reserves]
      split
      next heq => exact hold _ hwaiter e (heq ▸ hlive)
      · rfl
  simp only [reserves, hnone, count_nil, ite_self] at hcount hzero ⊢
  omega

theorem queues_putQueue (s : EventQueueService) (handle other : ℕ) (q : EventQueue) :
    (s.putQueue handle q).queues[other]? = if handle = other then some q else s.queues[other]? :=
  getElem?_insert _ _ _ _

variable {q : EventQueue}

section

variable {handle : ℕ} (hq : s.queues[handle]? = some q)
include hq

theorem putQueue_self : s.putQueue handle q = s := by
  rw [putQueue, insert_of_getElem? hq]

variable {pending : List RegisteredKernelEvent}

/-- A queue exchanges its pending events for what is left of them. -/
theorem hands_putPending {entries : List RegisteredKernelEvent}
    (hcount : ∀ e, e.persistent = false →
      pending.count e + entries.count e = q.pendingEvents.count e) :
    Hands handle entries s (s.putQueue handle { q with pendingEvents := pending }) where
  live other e := by
    rw [live, live, queues_putQueue]
    split
    next heq => rw [← heq, hq]; rfl
    · rfl
  stock other e hedge _ := by
    have hreserved : (s.putQueue handle { q with pendingEvents := pending }).reservedCount other e =
      s.reservedCount other e := rfl
    rw [stock, stock, hreserved, pendingCount, pendingCount, queues_putQueue]
    by_cases heq : handle = other
    · have := hcount e hedge
      simp only [← heq, hq, if_true, Option.elim_some]
      omega
    · simp [heq, Ne.symm heq]

/-- Pending events are reserved for a waiter that had none. -/
theorem hands_reserve {events : List RegisteredKernelEvent} (hcount : ∀ e, e.persistent = false →
      pending.count e + events.count e = q.pendingEvents.count e)
    (hwaiter : s.waiters[thread]? = some waiter) (hidle : waiter.events = [])
    {waiter' : EventWaiter} (hhandle : waiter'.queueHandle = handle)
    (hevents : waiter'.events = events) :
    Hands handle [] s
      ((s.putQueue handle { q with pendingEvents := pending }).putWaiter thread waiter') := by
  have hpoll := hands_putPending hq hcount
  refine ⟨hpoll.live, fun other e hedge hlive => ?_⟩
  have hstock := hpoll.stock _ e hedge hlive
  have hput := (s.putQueue handle { q with pendingEvents := pending }).reservedCount_putWaiter
    thread waiter' other e
  have hold : (s.putQueue handle { q with pendingEvents := pending }).waiters[thread]? =
    some waiter := hwaiter
  rw [hold, Option.elim_some, reserves, reserves, hidle, hhandle, hevents] at hput
  rw [stock, stock] at hstock
  rw [stock, stock]
  have hpend : ((s.putQueue handle { q with pendingEvents := pending }).putWaiter thread
    waiter').pendingCount other e =
      (s.putQueue handle { q with pendingEvents := pending }).pendingCount other e := rfl
  simp only [count_nil, ite_self, eq_comm (a := handle)] at hput ⊢
  omega

end

end Moves

/-! ## Reserving -/

/-- The queues of the second state are those of the first with at most their pending events. -/
def Drains (s s' : EventQueueService) : Prop :=
  ∀ handle : ℕ, s'.queues[handle]? = s.queues[handle]? ∨
    ∃ q q', s.queues[handle]? = some q ∧ s'.queues[handle]? = some q' ∧
      ∀ e ∈ q'.pendingEvents, e ∈ q.pendingEvents

variable {clock : ℕ → ℕ} {rest threads : List ℕ} {q : EventQueue} {s : EventQueueService}
  {handle thread : ℕ}

theorem Drains.putPending (hq : s.queues[handle]? = some q) {q' : EventQueue}
    (hfewer : ∀ e ∈ q'.pendingEvents, e ∈ q.pendingEvents) : Drains s (s.putQueue handle q') := by
  intro other
  rw [queues_putQueue]
  split
  next heq => exact .inr ⟨q, q', heq ▸ hq, rfl, hfewer⟩
  · exact .inl rfl

variable {s' : EventQueueService} {waiter : EventWaiter}

theorem Served.drains (h : s.Served clock waiter)
    (hdrains : Drains s s') (hle : s.reads ≤ s'.reads) : s'.Served clock waiter := by
  intro hwait q' hq' hpend
  refine Passed.mono ?_ hle
  rcases hdrains waiter.queueHandle with hsame | ⟨q, found, hq, hfound, hfewer⟩
  · exact h hwait _ (hsame ▸ hq') hpend
  rw [hfound, Option.some.injEq] at hq'
  rw [hq'] at hfewer
  refine h hwait q hq fun hnil => hpend ?_
  rw [hnil] at hfewer
  exact eq_nil_iff_forall_not_mem.mpr fun e he => absurd (hfewer e he) not_mem_nil

theorem Attached.drains (h : s.Attached waiter) (hdrains : Drains s s') : s'.Attached waiter := by
  intro hdeleted
  rcases hdrains waiter.queueHandle with hsame | ⟨q, q', -, hq', -⟩
  · rw [hsame]
    exact h hdeleted
  · rw [hq']
    rfl

theorem deadlineReached_cases (clock : ℕ → ℕ) (s : EventQueueService) (waiter : EventWaiter) :
    ∃ reads, s.reads ≤ reads ∧ (s.deadlineReached clock waiter).2 = { s with reads } ∧
      ((s.deadlineReached clock waiter).1 = true →
        Passed clock { s with reads } waiter.deadlineNanoseconds) := by
  unfold deadlineReached
  cases hdue : waiter.deadlineNanoseconds with
  | none => exact ⟨s.reads, le_rfl, rfl, fun h => absurd h Bool.false_ne_true⟩
  | some deadline =>
    refine ⟨s.reads + 1, Nat.le_succ _, rfl, fun h => ?_⟩
    exact ⟨deadline, rfl, s.reads, Nat.lt_succ_self _, of_decide_eq_true h⟩

variable {events pending : List RegisteredKernelEvent}

/-- A waiter gets a reservation and its thread is woken. -/
theorem Sound.reserve (hs : s.Sound) (clock : ℕ → ℕ) (hq : s.queues[handle]? = some q)
    (hwaiter : s.waiters[thread]? = some waiter) (hhandle : waiter.queueHandle = handle)
    (hfits : EventQueue.Fits { q with pendingEvents := pending })
    (hevents : ∀ e ∈ events, e ∈ q.pendingEvents) :
    Sound (((s.putQueue handle { q with pendingEvents := pending }).putWaiter thread
      { waiter with events, completion := .kReserved }).wakeBlockedThread clock thread
        (eventQueueWaitKey handle)) := by
  have hold := hs.waiters _ _ hwaiter
  rw [← hhandle] at hq ⊢
  refine (hs.putPending hq hfits).wakeWaiter hwaiter _ hold.positive
    (fun h => absurd rfl h) fun found hfound e he => ?_
  rw [queues_putQueue, if_pos rfl, Option.some.injEq] at hfound
  rw [← hfound]
  exact (hs.queues _ q hq).knows (hevents e he)

/-- What the loop over the waiting threads is for. -/
structure Reserves (clock : ℕ → ℕ) (handle : ℕ) (s s' : EventQueueService) : Prop where
  fits : s'.Fits clock
  hands : Hands handle [] s s'
  others : ∀ other : ℕ, other ≠ handle → s'.queues[other]? = s.queues[other]?

theorem Reserves.of_first {s'' : EventQueueService}
    (h : Reserves clock handle s' s'') (hhands : Hands handle [] s s')
    (hothers : ∀ other : ℕ, other ≠ handle → s'.queues[other]? = s.queues[other]?) :
    Reserves clock handle s s'' :=
  ⟨h.fits, hhands.trans h.hands, fun _ hne => (h.others _ hne).trans (hothers _ hne)⟩

/-- The waiters that the loop has still to visit are the only ones not served. -/
structure Unserved (clock : ℕ → ℕ) (handle : ℕ) (threads : List ℕ) (s : EventQueueService) :
    Prop where
  sound : s.Sound
  attached : ∀ (thread : ℕ) waiter, s.waiters[thread]? = some waiter →
    s.Attached waiter
  served : ∀ (thread : ℕ) waiter, s.waiters[thread]? = some waiter →
    s.Served clock waiter ∨ thread ∈ threads ∧ waiter.queueHandle = handle

/-- The next waiter is served, or no longer unserved for another reason. -/
theorem Unserved.skip
    (h : Unserved clock handle (thread :: rest) s)
    (hthis : ∀ waiter, s.waiters[thread]? = some waiter → waiter.queueHandle = handle →
      s.Served clock waiter) : Unserved clock handle rest s := by
  refine ⟨h.sound, h.attached, fun other waiter hwaiter => ?_⟩
  rcases h.served _ _ hwaiter with hdone | ⟨hmem, hhandle⟩
  · exact .inl hdone
  · rcases mem_cons.mp hmem with rfl | hmem
    · exact .inl (hthis _ hwaiter hhandle)
    · exact .inr ⟨hmem, hhandle⟩

theorem Unserved.withReads
    (h : Unserved clock handle threads s) {reads : ℕ} (hle : s.reads ≤ reads) :
    Unserved clock handle threads { s with reads } :=
  ⟨h.sound.withReads reads, h.attached, fun _ _ hwaiter =>
    (h.served _ _ hwaiter).imp_left fun hserved => hserved.drains (fun _ => .inl rfl) hle⟩

/-- Nothing is pending any more. -/
theorem Unserved.fits (h : Unserved clock handle threads s)
    (hnone : ∀ q, s.queues[handle]? = some q → q.pendingEvents = []) : s.Fits clock := by
  refine ⟨h.sound, h.attached, fun thread waiter hwaiter => ?_⟩
  rcases h.served _ _ hwaiter with hdone | ⟨-, hhandle⟩
  · exact hdone
  · exact fun _ q hq hpend => absurd (hnone q (hhandle ▸ hq)) hpend

/-- The next waiter gets the events that were polled. -/
theorem Unserved.reserve (h : Unserved clock handle (thread :: rest) s)
    (hq : s.queues[handle]? = some q) (hwaiter : s.waiters[thread]? = some waiter)
    (hhandle : waiter.queueHandle = handle)
    (hfits : EventQueue.Fits { q with pendingEvents := pending })
    (hevents : ∀ e ∈ events, e ∈ q.pendingEvents) (hfewer : ∀ e ∈ pending, e ∈ q.pendingEvents) :
    Unserved clock handle rest (((s.putQueue handle { q with pendingEvents := pending }).putWaiter
      thread { waiter with events, completion := .kReserved }).wakeBlockedThread clock thread
        (eventQueueWaitKey handle)) := by
  have hdrains : Drains s (s.putQueue handle { q with pendingEvents := pending }) :=
    .putPending hq hfewer
  refine ⟨h.sound.reserve _ hq hwaiter hhandle hfits hevents,
    forall_insert ?_ fun other found _ hfound => ?_,
    forall_insert ?_ fun other found hne hfound => ?_⟩
  · intro _
    change ((s.putQueue handle { q with pendingEvents := pending }).queues[
      waiter.queueHandle]?).isSome = true
    rw [queues_putQueue, if_pos hhandle.symm]
    rfl
  · exact (h.attached _ _ hfound).drains hdrains
  · exact .inl nofun
  · rcases h.served _ _ hfound with hdone | ⟨hmem, hother⟩
    · exact .inl (hdone.drains hdrains (Nat.le_succ _))
    · exact .inr ⟨(mem_cons.mp hmem).resolve_left (Ne.symm hne), hother⟩

theorem reserveWaiters_spec (h : Unserved clock handle threads s) :
    Reserves clock handle s (s.reserveWaiters clock handle threads) := by
  induction threads generalizing s with
  | nil =>
    refine ⟨⟨h.sound, h.attached, fun thread waiter hwaiter => ?_⟩, .refl handle s, fun _ _ => rfl⟩
    exact (h.served _ _ hwaiter).resolve_right fun hmem => absurd hmem.1 not_mem_nil
  | cons thread rest ih =>
    rw [reserveWaiters]
    cases hwaiter : s.waiters[thread]? with
    | none =>
      refine ih (h.skip fun waiter hfound => ?_)
      cases hwaiter.symm.trans hfound
    | some waiter =>
      cases hq : s.queues[handle]? with
      | none =>
        refine ih (h.skip fun found _ hhandle _ q hfound => ?_)
        rw [hhandle, hq] at hfound
        cases hfound
      | some q =>
        dsimp only
        split
        next hother =>
          refine ih (h.skip fun found hfound hhandle hwait => ?_)
          rw [hwaiter, Option.some.injEq] at hfound
          rw [← hfound] at hhandle hwait
          exact absurd hother (by simp [hhandle, hwait])
        next hthis =>
          rw [not_or, not_not, not_not] at hthis
          obtain ⟨reads, hle, hclock, hreached⟩ := deadlineReached_cases clock s waiter
          have hread : Hands handle [] s { s with reads } := .of_eq rfl rfl
          have hlater := h.withReads hle
          rw [hclock]
          split
          next hpassed =>
            refine (ih (hlater.skip fun found hfound _ _ _ _ _ => ?_)).of_first hread fun _ _ => rfl
            have hsame : s.waiters[thread]? = some found := hfound
            rw [hwaiter, Option.some.injEq] at hsame
            exact hsame ▸ hreached hpassed
          · have hold := h.sound.waiters _ _ hwaiter
            obtain ⟨events, pending, hpoll, hfits, hevents, hfewer, hempty, hcount⟩ :=
              (h.sound.queues _ q hq).poll waiter.maximumCount
            rw [hpoll]
            split
            next hnil =>
              obtain ⟨hnone, hsame⟩ := hempty hold.positive hnil
              rw [hsame, putQueue_self (s := { s with reads }) hq]
              refine ⟨hlater.fits fun found hfound => ?_, hread, fun _ _ => rfl⟩
              have hfound' : s.queues[handle]? = some found := hfound
              rw [hq, Option.some.injEq] at hfound'
              exact hfound' ▸ hnone
            · have hidle := hold.idle (by rw [hthis.2]; decide)
              refine (ih (hlater.reserve hq hwaiter hthis.1 hfits hevents hfewer)).of_first
                (hread.trans ?_) fun other hne => ?_
              · have hreserve : Hands handle [] { s with reads } (putWaiter thread
                    { waiter with events, completion := .kReserved }
                    (putQueue handle { q with pendingEvents := pending } { s with reads })) :=
                  hands_reserve (s := { s with reads }) hq hcount hwaiter hidle hthis.1 rfl
                exact hreserve.trans (.of_eq rfl rfl)
              · exact (queues_putQueue _ _ _ _).trans (if_neg (Ne.symm hne))

/-! ## Deleting a queue -/

/-- The waiters of a deleted queue that the loop has still to visit are the only ones whose queue
is gone. -/
structure Unattached (clock : ℕ → ℕ) (handle : ℕ) (threads : List ℕ) (s : EventQueueService) :
    Prop where
  sound : s.Sound
  attached : ∀ (thread : ℕ) waiter, s.waiters[thread]? = some waiter →
    s.Attached waiter ∨ thread ∈ threads ∧ waiter.queueHandle = handle
  served : ∀ (thread : ℕ) waiter, s.waiters[thread]? = some waiter →
    s.Served clock waiter

/-- The next waiter has its queue, or there is none. -/
theorem Unattached.skip (h : Unattached clock handle (thread :: rest) s)
    (hthis : ∀ waiter, s.waiters[thread]? = some waiter → waiter.queueHandle ≠ handle) :
    Unattached clock handle rest s := by
  refine { h with attached := fun other waiter hwaiter => ?_ }
  rcases h.attached _ _ hwaiter with hdone | ⟨hmem, hhandle⟩
  · exact .inl hdone
  · rcases mem_cons.mp hmem with rfl | hmem
    · exact absurd hhandle (hthis _ hwaiter)
    · exact .inr ⟨hmem, hhandle⟩

/-- The next waiter is told that its queue is gone. -/
theorem Unattached.forsake
    (h : Unattached clock handle (thread :: rest) s)
    (hsound : s'.Sound) (hqueues : s'.queues = s.queues) (hle : s.reads ≤ s'.reads)
    (hwaiters : s'.waiters = s.waiters.insert thread
      { waiter with completion := .kDeleted, events := [] }) : Unattached clock handle rest s' := by
  have hdrains : Drains s s' := fun _ => .inl (by rw [hqueues])
  refine ⟨hsound, ?_, ?_⟩
  all_goals
    rw [hwaiters]
    refine forall_insert ?_ fun other found hne hfound => ?_
  · exact .inl fun hdeleted => absurd rfl hdeleted
  · rcases h.attached _ _ hfound with hdone | ⟨hmem, hother⟩
    · exact .inl (hdone.drains hdrains)
    · exact .inr ⟨(mem_cons.mp hmem).resolve_left (Ne.symm hne), hother⟩
  · exact nofun
  · exact (h.served _ _ hfound).drains hdrains hle

theorem deleteWaiters_spec (h : Unattached clock handle threads s) :
    (s.deleteWaiters clock handle threads).Fits clock ∧
      (s.deleteWaiters clock handle threads).queues = s.queues ∧
      ∀ other e, other ≠ handle →
        (s.deleteWaiters clock handle threads).reservedCount other e = s.reservedCount other e := by
  induction threads generalizing s with
  | nil =>
    refine ⟨⟨h.sound, fun thread waiter hwaiter => ?_, h.served⟩, rfl, fun _ _ _ => rfl⟩
    exact (h.attached _ _ hwaiter).resolve_right fun hmem => absurd hmem.1 not_mem_nil
  | cons thread rest ih =>
    rw [deleteWaiters]
    cases hwaiter : s.waiters[thread]? with
    | none =>
      refine ih (h.skip fun waiter hfound => ?_)
      cases hwaiter.symm.trans hfound
    | some waiter =>
      dsimp only
      split
      next hother =>
        refine ih (h.skip fun found hfound => ?_)
        rw [hwaiter, Option.some.injEq] at hfound
        exact hfound ▸ hother
      next hthis =>
        rw [not_not] at hthis
        have hold := h.sound.waiters _ _ hwaiter
        set deleted : EventWaiter := { waiter with completion := .kDeleted, events := [] }
          with hdeleted
        have hcount : ∀ other e, other ≠ handle →
            (s.putWaiter thread deleted).reservedCount other e = s.reservedCount other e := by
          intro other e hne
          have hput := s.reservedCount_putWaiter thread deleted other e
          have hne' : waiter.queueHandle ≠ other := hthis ▸ hne.symm
          simpa [hwaiter, hdeleted, reserves, hne'] using hput
        have hknows : ∀ q, s.queues[deleted.queueHandle]? = some q →
            ∀ e ∈ deleted.events, q.Knows e := fun _ _ => forall_mem_nil _
        split
        · have hpositive : 0 < deleted.maximumCount := hold.positive
          have hwoken := h.sound.wakeWaiter hwaiter clock hpositive (fun _ => rfl) hknows
          rw [hthis] at hwoken
          obtain ⟨hfits, hqueues, hothers⟩ := ih (h.forsake hwoken rfl (Nat.le_succ _) rfl)
          exact ⟨hfits, hqueues, fun other e hne => (hothers _ e hne).trans (hcount _ e hne)⟩
        next hwait =>
          have hput : (s.putWaiter thread deleted).Sound :=
            h.sound.putWaiter ⟨hold.positive, fun _ => rfl, hknows,
              .inl (hold.waits.resolve_right fun hblock => hwait hblock.1), hold.alive⟩
          obtain ⟨hfits, hqueues, hothers⟩ := ih (h.forsake hput rfl le_rfl rfl)
          exact ⟨hfits, hqueues, fun other e hne => (hothers _ e hne).trans (hcount _ e hne)⟩

end EventQueueService

end KajPS5.Kernel
