/-
# Polling and waiting

A poll takes pending events, a repeated wait finds its reservation, times out, polls again
or blocks again. Whatever a call hands to its caller was pending or reserved and is current.
-/

import KajPS5.Kernel.EventQueueCalls

namespace KajPS5.Kernel

open Math List OrderedMaps Option

namespace EventQueueService

variable {clock : ℕ → ℕ} {s s' : EventQueueService}

/-- The event is reserved for the current thread, which waits for the queue. -/
def ReservedForCurrent (handle : ℕ) (e : RegisteredKernelEvent) (s : EventQueueService) : Prop :=
  ∃ thread waiter, s.scheduler.currentThread = some thread ∧ s.waiters[thread]? = some waiter ∧
    waiter.queueHandle = handle ∧ e ∈ waiter.events

/-- A call on one queue hands over the entries. -/
structure Answers (clock : ℕ → ℕ) (handle : ℕ) (entries : List RegisteredKernelEvent)
    (s : EventQueueService) (result : EventQueuePollResult × EventQueueService) : Prop where
  events : result.1.events = entries.map (·.event)
  current : ∀ e ∈ entries, ∃ q, s.queues[handle]? = some q ∧ q.isCurrent e = true ∧ q.Knows e ∧
    (e ∈ q.pendingEvents ∨ s.ReservedForCurrent handle e)
  fits : result.2.Fits clock
  hands : Hands handle entries s result.2

variable {handle thread : ℕ} {q : EventQueue} {events pending : List RegisteredKernelEvent}
  {waiter : EventWaiter}

theorem Answers.nothing {result : EventQueuePollResult × EventQueueService}
    (hevents : result.1.events = []) (hfits : result.2.Fits clock)
    (hhands : Hands handle [] s result.2) : Answers clock handle [] s result :=
  ⟨hevents, forall_mem_nil _, hfits, hhands⟩

/-! ## Polling -/

theorem currentEvents_eq (h : ∀ e ∈ events, q.isCurrent e = true) :
    q.currentEvents events = events.map (·.event) := by
  rw [EventQueue.currentEvents, filter_eq_self.mpr h]

/-- What a poll of one queue takes. -/
structure Polls (handle : ℕ) (q : EventQueue) (events pending : List RegisteredKernelEvent)
    (s : EventQueueService) : Prop where
  queue : s.queues[handle]? = some q
  fits : EventQueue.Fits { q with pendingEvents := pending }
  taken : ∀ e ∈ events, e ∈ q.pendingEvents
  fewer : ∀ e ∈ pending, e ∈ q.pendingEvents
  count : ∀ e, e.persistent = false → pending.count e + events.count e = q.pendingEvents.count e

variable {maximumCount : ℕ} {threads : List ℕ}

theorem pollLocked_cases (hs : s.Sound) (handle : ℕ) (hpos : 0 < maximumCount) :
    s.pollLocked handle maximumCount = ({ status := .kNotFound }, s) ∨
    (∃ q, s.queues[handle]? = some q ∧ q.pendingEvents = []) ∧
      s.pollLocked handle maximumCount = ({ status := .kBusy }, s) ∨
    ∃ q events pending, Polls handle q events pending s ∧
      s.pollLocked handle maximumCount = ({ events := events.map (·.event) },
        s.putQueue handle { q with pendingEvents := pending }) := by
  rw [pollLocked, if_neg hpos.ne', find_eq hs]
  cases hq : s.queues[handle]? with
  | none => exact .inl rfl
  | some q =>
    right
    have hfits := hs.queues _ q hq
    obtain ⟨events, pending, hpoll, hfits', hevents, hfewer, hempty, hcount⟩ :=
      hfits.poll maximumCount
    have hcur : ∀ e ∈ events, EventQueue.isCurrent e { q with pendingEvents := pending } = true :=
      fun e he => hfits.isCurrent_of_pending (hevents e he)
    simp only [hpoll, currentEvents_eq hcur]
    by_cases hnil : events = []
    · left
      obtain ⟨hnone, hsame⟩ := hempty hpos hnil
      rw [hsame, putQueue_self hq, if_pos (by rw [hnil]; rfl)]
      exact ⟨⟨q, rfl, hnone⟩, rfl⟩
    · right
      refine ⟨q, events, pending, ⟨hq, hfits', hevents, hfewer, hcount⟩, ?_⟩
      rw [if_neg (by simpa using hnil)]

section

variable (h : Polls handle q events pending s)
include h

theorem Polls.hands :
    Hands handle events s (s.putQueue handle { q with pendingEvents := pending }) :=
  hands_putPending h.queue h.count

theorem Polls.drains : Drains s (s.putQueue handle { q with pendingEvents := pending }) :=
  .putPending h.queue h.fewer

theorem Polls.current (hs : s.Sound) : ∀ e ∈ events, ∃ q, s.queues[handle]? = some q ∧
    q.isCurrent e = true ∧ q.Knows e ∧ (e ∈ q.pendingEvents ∨ s'.ReservedForCurrent handle e) := by
  intro e he
  have hfits := hs.queues _ q h.queue
  have hpend := h.taken e he
  exact ⟨q, h.queue, hfits.isCurrent_of_pending hpend, hfits.knows hpend, .inl hpend⟩

end

theorem Fits.poll (hs : s.Fits clock) (h : Polls handle q events pending s) :
    (s.putQueue handle { q with pendingEvents := pending }).Fits clock :=
  ⟨hs.putPending h.queue h.fits,
    fun _ _ hwaiter => (hs.attached _ _ hwaiter).drains h.drains,
    fun _ _ hwaiter => (hs.served _ _ hwaiter).drains h.drains le_rfl⟩

theorem Fits.pollLocked (hs : s.Fits clock) (handle maximumCount : ℕ) :
    ∃ entries, Answers clock handle entries s (s.pollLocked handle maximumCount) := by
  rcases Nat.eq_zero_or_pos maximumCount with rfl | hpos
  · exact ⟨[], .nothing rfl hs (.refl _ s)⟩
  rcases pollLocked_cases hs.toSound _ hpos with
    hres | ⟨-, hres⟩ | ⟨q, events, pending, hpolls, hres⟩
  · rw [hres]
    exact ⟨[], .nothing rfl hs (.refl handle s)⟩
  · rw [hres]
    exact ⟨[], .nothing rfl hs (.refl handle s)⟩
  · rw [hres]
    exact ⟨events, rfl, hpolls.current hs.toSound, hs.poll hpolls, hpolls.hands⟩

/-! ## Blocking -/

theorem blockCurrent_eq (waitKey : String) (deadline : Option ℕ) (s : EventQueueService) :
    s.blockCurrent waitKey deadline = ((s.scheduler.blockCurrentLocked waitKey deadline).1,
        { s with scheduler := (s.scheduler.blockCurrentLocked waitKey deadline).2 }) := by
  cases deadline <;> rfl

/-- The current thread blocks for the queue of its waiter. -/
theorem Sound.blockCurrent (hs : s.Sound) (hcur : s.scheduler.currentThread = some thread)
    (hwaiter : s.waiters[thread]? = some waiter) (hwaiting : waiter.completion = .kWaiting) :
    ∃ scheduler, s.blockCurrent (eventQueueWaitKey waiter.queueHandle)
        waiter.deadlineNanoseconds = (true, { s with scheduler }) ∧
      Sound { s with scheduler } := by
  have hkey := eventQueueWaitKey_ne_empty waiter.queueHandle
  obtain ⟨scheduler, hblock, hord, hblocks⟩ :=
    GuestScheduler.blockCurrentLocked_current hs.orderly hcur hkey waiter.deadlineNanoseconds
  have halive : ∀ other, s.scheduler.Alive other → scheduler.Alive other := by
    intro other h
    have hafter := h.blockCurrentLocked (eventQueueWaitKey waiter.queueHandle)
      waiter.deadlineNanoseconds
    rwa [hblock] at hafter
  refine ⟨scheduler, by rw [blockCurrent_eq, hblock], hord, hblocks.handles ▸ hs.kept, ?_,
    hs.queues, fun other found hfound => ?_, fun other key deadline hown hwait => ?_⟩
  · rw [hblocks.handles]
    exact hs.stored
  · have hold := hs.waiters _ _ hfound
    refine { hold with waits := ?_, alive := halive other hold.alive }
    rw [hblocks.waitOf]
    split
    next heq =>
      have hfound' : s.waiters[other]? = some found := hfound
      rw [← heq, hwaiter, Option.some.injEq] at hfound'
      exact .inr ⟨hfound' ▸ hwaiting, by rw [hfound']⟩
    · exact hold.waits
  · have hwait' : scheduler.waitOf other = some (key, deadline) := hwait
    rw [hblocks.waitOf] at hwait'
    split at hwait'
    next heq => exact waits_iff.mpr ⟨waiter, heq ▸ hwaiter⟩
    · exact hs.blocked _ _ _ hown hwait'

/-! ## A repeated wait -/

theorem Sound.consume (hs : s.Sound) (waitKey : String) :
    Sound { s with scheduler := (s.scheduler.consumeCurrentThreadTimeout waitKey).2 } :=
  hs.schedule s.reads (.consumeCurrentThreadTimeout waitKey) rfl rfl

/-- The waiter of the current thread is the only one that may not be served; it goes. -/
theorem Unserved.eraseWaiter (h : Unserved clock handle [thread] s)
    (hwait : s.scheduler.waitOf thread = none) : (s.eraseWaiter thread).Fits clock := by
  refine ⟨h.sound.eraseWaiter hwait, fun other found hfound => ?_, fun other found hfound => ?_⟩
  · exact h.attached _ _ (getElem?_of_erase hfound).2
  · obtain ⟨hne, hold⟩ := getElem?_of_erase hfound
    refine (h.served _ _ hold).resolve_right fun hmem => ?_
    exact hne (mem_singleton.mp hmem.1).symm

theorem Unserved.consume (h : Unserved clock handle threads s) (waitKey : String) :
    Unserved clock handle threads
      { s with scheduler := (s.scheduler.consumeCurrentThreadTimeout waitKey).2 } :=
  ⟨h.sound.consume waitKey, h.attached, h.served⟩

theorem Unserved.poll (h : Unserved clock handle threads s)
    (hpolls : Polls handle q events pending s) :
    Unserved clock handle threads (s.putQueue handle { q with pendingEvents := pending }) :=
  ⟨h.sound.putPending hpolls.queue hpolls.fits,
    fun _ _ hwaiter => (h.attached _ _ hwaiter).drains hpolls.drains,
    fun _ _ hwaiter => (h.served _ _ hwaiter).imp_left fun hserved =>
      hserved.drains hpolls.drains le_rfl⟩

/-- A wait is resumed by a thread that has no reservation. -/
theorem Unserved.resumeWait (h : Unserved clock waiter.queueHandle [thread] s)
    (hcur : s.scheduler.currentThread = some thread)
    (hwaiter : s.waiters[thread]? = some waiter) (hwaiting : waiter.completion = .kWaiting) :
    ∃ entries, Answers clock waiter.queueHandle entries s
      (s.resumeWait waiter.queueHandle thread waiter) := by
  have hold := h.sound.waiters _ _ hwaiter
  have hidle := hold.idle (by rw [hwaiting]; decide)
  set key := eventQueueWaitKey waiter.queueHandle with hkey
  set later : EventQueueService :=
    { s with scheduler := (s.scheduler.consumeCurrentThreadTimeout key).2 } with hlater
  have hconsume := h.consume key
  have hfirst : Hands waiter.queueHandle [] s later := .of_eq rfl rfl
  have hcur' : later.scheduler.currentThread = some thread := by
    rcases s.scheduler.consume_cases key with ⟨hsame, -⟩ | ⟨_, c, hsome, -, -, hkeeps, -⟩
    · rw [hlater, hsame]
      exact hcur
    · rw [hlater, hsome]
      exact hkeeps.trans hcur
  have hwait : later.scheduler.waitOf thread = none := hconsume.sound.orderly.waitOf_current hcur'
  have herase : Hands waiter.queueHandle [] later (later.eraseWaiter thread) :=
    hands_eraseWaiter (s := later) hwaiter fun e _ => by rw [hidle]
  rw [EventQueueService.resumeWait]
  dsimp only
  split
  · exact ⟨[], .nothing rfl (hconsume.eraseWaiter hwait) (hfirst.trans herase)⟩
  rcases pollLocked_cases hconsume.sound _ hold.positive with
    hres | ⟨⟨q, hq, hnone⟩, hres⟩ | ⟨q, events, pending, hpolls, hres⟩
  · rw [hres]
    exact ⟨[], .nothing rfl (hconsume.eraseWaiter hwait) (hfirst.trans herase)⟩
  · rw [hres]
    obtain ⟨scheduler, hblock, hsound⟩ := hconsume.sound.blockCurrent hcur' hwaiter hwaiting
    have hfits := hconsume.fits fun found hfound => by
      rw [hq, Option.some.injEq] at hfound
      exact hfound ▸ hnone
    refine ⟨[], ?_⟩
    simp only [hblock]
    exact .nothing rfl ⟨hsound, hfits.attached, hfits.served⟩ (hfirst.trans (.of_eq rfl rfl))
  · rw [hres]
    refine ⟨events, rfl, hpolls.current hconsume.sound,
      (hconsume.poll hpolls).eraseWaiter hwait, ?_⟩
    have hgone : Hands waiter.queueHandle []
        (later.putQueue waiter.queueHandle { q with pendingEvents := pending })
        ((later.putQueue waiter.queueHandle { q with pendingEvents := pending }).eraseWaiter
          thread) :=
      hands_eraseWaiter (s := later.putQueue waiter.queueHandle _) hwaiter fun e _ => by
        rw [hidle]
    have hall := (hfirst.trans hpolls.hands).trans hgone
    rwa [append_nil] at hall

/-- A wait of a thread that has a waiter. -/
theorem Fits.waitAgain (hs : s.Fits clock) (hcur : s.scheduler.currentThread = some thread)
    (hwaiter : s.waiters[thread]? = some waiter) (handle : ℕ) :
    ∃ entries, Answers clock handle entries s (s.waitAgain handle thread waiter) := by
  have hold := hs.waiters _ _ hwaiter
  have hwait := hs.orderly.waitOf_current hcur
  have hserved : ∀ handle, Unserved clock handle [thread] s := fun handle =>
    ⟨hs.toSound, hs.attached, fun other found hfound => .inl (hs.served _ _ hfound)⟩
  rw [EventQueueService.waitAgain]
  split
  · exact ⟨[], .nothing rfl hs (.refl _ s)⟩
  next hhandle =>
    rw [not_not] at hhandle
    subst hhandle
    cases hcompletion : waiter.completion with
    | kDeleted =>
      have hidle := hold.idle (by rw [hcompletion]; decide)
      exact ⟨[], .nothing rfl ((hserved 0).eraseWaiter hwait)
        (hands_eraseWaiter hwaiter fun e _ => by rw [hidle])⟩
    | kWaiting => exact (hserved _).resumeWait hcur hwaiter hcompletion
    | kReserved =>
      obtain ⟨q, hq⟩ := isSome_iff_exists.mp
        (hs.attached _ _ hwaiter (by rw [hcompletion]; decide))
      have hlive : ∀ e, s.live waiter.queueHandle e = q.isCurrent e := live_eq hq
      rw [find_eq hs.toSound, hq]
      dsimp only
      split
      next hsome =>
        refine ⟨waiter.events.filter (q.isCurrent ·), rfl, fun e he => ?_,
          (hserved 0).eraseWaiter hwait, hands_eraseWaiter hwaiter fun e he => ?_⟩
        · obtain ⟨hmem, hnow⟩ := mem_filter.mp he
          exact ⟨q, hq, hnow, hold.knows q hq e hmem, .inr ⟨thread, waiter, hcur, hwaiter,
            rfl, hmem⟩⟩
        · rw [hlive] at he
          exact (count_filter (p := fun x => q.isCurrent x) he).symm
      next hnone =>
        rw [not_not, EventQueue.currentEvents, map_eq_nil_iff] at hnone
        have hstale : ∀ e, s.live waiter.queueHandle e = true → waiter.events.count e = 0 := by
          intro e he
          rw [hlive] at he
          rw [count_eq_zero]
          intro hmem
          have hfound := mem_filter (p := fun x => q.isCurrent x).mpr ⟨hmem, he⟩
          rw [hnone] at hfound
          cases hfound
        set idle : EventWaiter := { waiter with completion := .kWaiting, events := [] } with hdef
        have hput : Unserved clock idle.queueHandle [thread] (s.putWaiter thread idle) := by
          refine ⟨hs.putWaiter ⟨hold.positive, fun _ => rfl, fun _ _ => forall_mem_nil _,
            .inl hwait, hold.alive⟩, forall_insert ?_ fun other found _ => ?_,
            forall_insert ?_ fun other found _ hfound => ?_⟩
          · exact fun _ => isSome_iff_exists.mpr ⟨q, hq⟩
          · exact hs.attached _ _
          · exact .inr ⟨mem_singleton_self _, rfl⟩
          · exact .inl (hs.served _ _ hfound)
        have hlook : (s.putWaiter thread idle).waiters[thread]? = some idle := by
          rw [EventQueueService.putWaiter, OrderedMaps.getElem?_insert, if_pos rfl]
        have hhands : Hands waiter.queueHandle [] s (s.putWaiter thread idle) :=
          hands_putWaiter _ rfl fun found hfound e he => by
            rw [hwaiter, Option.some.injEq] at hfound
            rw [← hfound] at he ⊢
            exact hstale e he
        obtain ⟨entries, hanswers⟩ := hput.resumeWait hcur hlook rfl
        refine ⟨entries, hanswers.events, fun e he => ?_, hanswers.fits,
          hhands.trans hanswers.hands⟩
        obtain ⟨found, hfound, hnow, hknows, hpend | ⟨_, owner, hthread, howner, -, hmem⟩⟩ :=
          hanswers.current e he
        · exact ⟨found, hfound, hnow, hknows, .inl hpend⟩
        have hsame := hcur.symm.trans hthread
        rw [Option.some.injEq] at hsame
        rw [← hsame, hlook, Option.some.injEq] at howner
        rw [← howner] at hmem
        cases hmem

/-! ## A first wait -/

theorem waitDeadline_snd (clock : ℕ → ℕ) (timeoutMicroseconds : Option ℕ) (s : EventQueueService) :
    ∃ reads, s.reads ≤ reads ∧ (s.waitDeadline clock timeoutMicroseconds).2 = { s with reads } := by
  cases timeoutMicroseconds with
  | none => exact ⟨s.reads, le_rfl, rfl⟩
  | some timeout => exact ⟨s.reads + 1, Nat.le_succ _, rfl⟩

/-- The current thread becomes a waiter for a queue that has nothing pending. -/
theorem Fits.startWait (hs : s.Fits clock) (hpos : 0 < waiter.maximumCount)
    (hwait : waiter.completion = .kWaiting) (hidle : waiter.events = [])
    (hcur : s.scheduler.currentThread = some thread) (hfree : s.waiters[thread]? = none)
    (hq : s.queues[waiter.queueHandle]? = some q) (hnone : q.pendingEvents = []) {reads : ℕ}
    (hle : s.reads ≤ reads) :
    ∃ s', blockCurrent (eventQueueWaitKey waiter.queueHandle) waiter.deadlineNanoseconds
        (putWaiter thread waiter { s with reads }) = (true, s') ∧
      s'.Fits clock ∧ Hands waiter.queueHandle [] s s' := by
  set waits : EventQueueService := putWaiter thread waiter { s with reads } with hwaits
  have hsound : waits.Sound := (hs.toSound.withReads reads).putWaiter
    ⟨hpos, fun _ => hidle, fun _ _ => hidle ▸ forall_mem_nil _,
      .inl (hs.orderly.waitOf_current hcur), .of_current hs.orderly hcur⟩
  have hlook : ∀ (other : ℕ) found, waits.waiters[other]? = some found →
      found = waiter ∨ s.waiters[other]? = some found :=
    forall_insert (.inl rfl) fun other found _ => .inr
  have hwaiter : waits.waiters[thread]? = some waiter := by
    rw [hwaits, putWaiter, OrderedMaps.getElem?_insert, if_pos rfl]
  have hput : Hands waiter.queueHandle [] s (s.putWaiter thread waiter) :=
    hands_putWaiter _ hidle fun found hfound => by
      cases hfree.symm.trans hfound
  obtain ⟨scheduler, hblock, hafter⟩ := hsound.blockCurrent hcur hwaiter hwait
  refine ⟨_, hblock, ⟨hafter, fun other found hfound => ?_, fun other found hfound => ?_⟩,
    hput.trans (.of_eq rfl rfl)⟩
  · rcases hlook _ _ hfound with rfl | hold
    · exact fun _ => isSome_iff_exists.mpr ⟨q, hq⟩
    · exact hs.attached _ _ hold
  · rcases hlook _ _ hfound with rfl | hold
    · intro _ other hother hpend
      have hsame : s.queues[found.queueHandle]? = some other := hother
      rw [hq, Option.some.injEq] at hsame
      exact absurd (hsame ▸ hnone) hpend
    · exact (hs.served _ _ hold).drains (fun _ => .inl rfl) hle

theorem Fits.waitFirst (hs : s.Fits clock) (hpos : 0 < maximumCount)
    (timeoutMicroseconds : Option ℕ)
    (hfree : ∀ thread, s.scheduler.currentThread = some thread → s.waiters[thread]? = none) :
    ∃ entries, Answers clock handle entries s
      (s.waitFirst clock handle maximumCount timeoutMicroseconds) := by
  rw [EventQueueService.waitFirst]
  rcases pollLocked_cases hs.toSound _ hpos with
    hres | ⟨⟨q, hq, hnone⟩, hres⟩ | ⟨q, events, pending, hpolls, hres⟩
  · rw [hres]
    exact ⟨[], .nothing rfl hs (.refl handle s)⟩
  · rw [hres]
    dsimp only
    rw [if_neg (by simp)]
    split
    · exact ⟨[], .nothing rfl hs (.refl _ s)⟩
    cases hcur : s.scheduler.currentThread with
    | none => exact ⟨[], .nothing rfl hs (.refl _ s)⟩
    | some thread =>
      obtain ⟨reads, hle, hclock⟩ := s.waitDeadline_snd clock timeoutMicroseconds
      have hstart : ∀ deadline, ∃ s', blockCurrent (eventQueueWaitKey handle) deadline
          (putWaiter thread ⟨handle, maximumCount, deadline, .kWaiting, []⟩
            { s with reads }) = (true, s') ∧ s'.Fits clock ∧ Hands handle [] s s' :=
        fun deadline => @Fits.startWait _ s _ q
          ⟨handle, maximumCount, deadline, .kWaiting, []⟩ hs hpos rfl rfl hcur
          (hfree _ hcur) hq hnone _ hle
      obtain ⟨s', hblock, hfits, hhands⟩ := hstart (s.waitDeadline clock timeoutMicroseconds).1
      refine ⟨[], ?_⟩
      simp only [hclock, hblock]
      exact .nothing rfl hfits hhands
  · rw [hres]
    exact ⟨events, rfl, hpolls.current hs.toSound, hs.poll hpolls, hpolls.hands⟩

theorem Fits.wait (hs : s.Fits clock) (handle maximumCount : ℕ) (timeoutMicroseconds : Option ℕ) :
    ∃ entries, Answers clock handle entries s
      (s.wait clock handle maximumCount timeoutMicroseconds) := by
  rw [EventQueueService.wait]
  split
  · exact ⟨[], .nothing rfl hs (.refl _ s)⟩
  next hpos =>
    cases hwaiter : s.currentWaiter with
    | none =>
      refine hs.waitFirst (Nat.pos_of_ne_zero hpos) timeoutMicroseconds fun thread hcur => ?_
      rw [currentWaiter, hcur, bind_some, map_eq_none_iff] at hwaiter
      exact hwaiter
    | some entry =>
      rw [currentWaiter, bind_eq_some_iff] at hwaiter
      obtain ⟨thread, hcur, hfound⟩ := hwaiter
      obtain ⟨waiter, hwaiter, rfl⟩ := map_eq_some_iff.mp hfound
      exact hs.waitAgain hcur hwaiter _

end EventQueueService

end KajPS5.Kernel
