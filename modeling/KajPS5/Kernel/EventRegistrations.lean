/-
# Registrations and generations

What one queue keeps: at most one registration for each number and filter, generations that
are never given out twice, and pending events that are all current. `Revises` says what
registering and deleting do to the events of a queue, `putPending` and `poll` change nothing but
the pending events.
-/

import KajPS5.Kernel.EventQueueRuns

namespace KajPS5.Kernel

open Math RegisteredKernelEvent EventQueueCall List

theorem EventRegistration.isFor_iff {r : EventRegistration} {ident : ℕ} {filter : ℤ} :
    r.isFor ident filter = true ↔ r.ident = ident ∧ r.filter = filter := by
  simp [EventRegistration.isFor]

namespace RegisteredKernelEvent

variable {e : RegisteredKernelEvent} {r : EventRegistration}

theorem isOf_iff : e.isOf r = true ↔ r.isFor e.event.ident e.event.filter = true ∧
      e.registrationGeneration = r.generation := by
  simp only [isOf, isFor, EventRegistration.isFor, decide_eq_true_eq]
  rw [eq_comm (a := e.event.ident), eq_comm (a := e.event.filter)]

/-- The event is of the registration's number and filter. -/
theorem isFor_of_isOf (h : e.isOf r = true)
    {ident : ℕ} {filter : ℤ} : e.isFor ident filter = r.isFor ident filter := by
  obtain ⟨hkey, -⟩ := isOf_iff.mp h
  obtain ⟨hident, hfilter⟩ := EventRegistration.isFor_iff.mp hkey
  rw [isFor, EventRegistration.isFor, hident, hfilter]

end RegisteredKernelEvent

namespace EventQueue

/-! ## Generations -/

/-- The generation has been given out. -/
def Issued (q : EventQueue) (generation : ℕ) : Prop :=
  generation < q.nextGeneration ∨ q.generationExhausted = true ∧ generation = q.nextGeneration

theorem not_issued_nextGeneration {q : EventQueue} (h : q.generationExhausted = false) :
    ¬ q.Issued q.nextGeneration := by
  simp [Issued, h]

theorem issued_advanceGeneration {q : EventQueue} (h : q.generationExhausted = false)
    (generation : ℕ) : q.advanceGeneration.Issued generation ↔
      q.Issued generation ∨ generation = q.nextGeneration := by
  unfold advanceGeneration Issued
  split
  · simp [h]
  simp only [h, Bool.false_eq_true, false_and, or_false]
  omega

theorem advanceGeneration_eq (q : EventQueue) : ∃ nextGeneration generationExhausted,
    q.advanceGeneration = { q with nextGeneration, generationExhausted } := by
  unfold advanceGeneration
  split <;> exact ⟨_, _, rfl⟩

/-! ## What a queue keeps -/

theorem isCurrent_iff {q : EventQueue} {e : RegisteredKernelEvent} :
    q.isCurrent e = true ↔ ∃ r ∈ q.registrations, e.isOf r = true := by
  rw [isCurrent, any_eq_true]

structure Fits (q : EventQueue) : Prop where
  keys : ∀ ident filter, FirstMatches.AtMostOne (·.isFor ident filter) q.registrations
  issued : ∀ r ∈ q.registrations, q.Issued r.generation
  pending : ∀ e ∈ q.pendingEvents, ∃ r ∈ q.registrations, e.isOf r = true ∧
    e.persistent = r.persistent

/-- The event may have been triggered here. -/
def Knows (q : EventQueue) (e : RegisteredKernelEvent) : Prop :=
  q.Issued e.registrationGeneration ∧
    ∀ r ∈ q.registrations, e.isOf r = true → e.persistent = r.persistent

namespace Fits

variable {q : EventQueue} (hq : q.Fits)

theorem initial (name : String) : Fits { name } where
  keys _ _ := List.Pairwise.nil
  issued := forall_mem_nil _
  pending := forall_mem_nil _

include hq

variable {e : RegisteredKernelEvent} {r : EventRegistration}

/-- A number and a filter have one registration. -/
theorem findRegistration_eq (hr : r ∈ q.registrations) :
    q.findRegistration r.ident r.filter = some r :=
  FirstMatches.find?_eq_of_mem (hq.keys r.ident r.filter) hr
    (EventRegistration.isFor_iff.mpr ⟨rfl, rfl⟩)

theorem findRegistration_event (hr : r ∈ q.registrations) (h : e.isOf r = true) :
    q.findRegistration e.event.ident e.event.filter = some r := by
  obtain ⟨hkey, -⟩ := isOf_iff.mp h
  obtain ⟨hident, hfilter⟩ := EventRegistration.isFor_iff.mp hkey
  rw [← hident, ← hfilter]
  exact hq.findRegistration_eq hr

theorem eq_of_isOf {r' : EventRegistration} (hr : r ∈ q.registrations) (h : e.isOf r = true)
    (hr' : r' ∈ q.registrations) (h' : e.isOf r' = true) : r = r' := by
  have heq := hq.findRegistration_event hr h
  rw [hq.findRegistration_event hr' h', Option.some.injEq] at heq
  exact heq.symm

theorem isCurrent_of_pending (he : e ∈ q.pendingEvents) : q.isCurrent e = true := by
  obtain ⟨r, hr, hof, -⟩ := hq.pending e he
  exact isCurrent_iff.mpr ⟨r, hr, hof⟩

theorem knows (he : e ∈ q.pendingEvents) : q.Knows e := by
  obtain ⟨r, hr, hof, hpersistent⟩ := hq.pending e he
  refine ⟨?_, fun r' hr' hof' => ?_⟩
  · rw [(isOf_iff.mp hof).2]
    exact hq.issued r hr
  · rw [hpersistent, hq.eq_of_isOf hr hof hr' hof']

theorem count_eq_zero (he : ¬ q.Issued e.registrationGeneration) : q.pendingEvents.count e = 0 :=
  List.count_eq_zero.mpr fun hmem => he (hq.knows hmem).1

/-- The queue marks a current event as it was marked when it was triggered. -/
theorem mark_eq (hknows : q.Knows e) (hcur : q.isCurrent e = true) : q.mark e.event = some e := by
  obtain ⟨r, hr, hof⟩ := isCurrent_iff.mp hcur
  rw [EventQueue.mark, hq.findRegistration_event hr hof, Option.map_some, EventRegistration.mark,
    ← (isOf_iff.mp hof).2, ← hknows.2 r hr hof]

end Fits

/-! ## Registering and deleting -/

/-- The registration of one number and filter is kept, replaced or deleted; a new one has a
new generation. -/
structure Revises (ident : ℕ) (filter : ℤ) (q q' : EventQueue) : Prop where
  fits : q'.Fits
  issued : ∀ generation, q.Issued generation → q'.Issued generation
  kept : ∀ r ∈ q'.registrations, r ∈ q.registrations ∨ ¬ q.Issued r.generation
  others : ∀ r ∈ q.registrations, r.isFor ident filter = false → r ∈ q'.registrations
  pending : ∀ e, q'.isCurrent e = true → q'.pendingEvents.count e = q.pendingEvents.count e
  fewer : ∀ e ∈ q'.pendingEvents, e ∈ q.pendingEvents

namespace Revises

variable {ident : ℕ} {filter : ℤ} {q q' : EventQueue}

theorem refl (hq : q.Fits) : Revises ident filter q q :=
  ⟨hq, fun _ h => h, fun _ h => .inl h, fun _ h _ => h, fun _ _ => rfl, fun _ h => h⟩

variable {e : RegisteredKernelEvent}

theorem knows (h : Revises ident filter q q') (he : q.Knows e) : q'.Knows e := by
  refine ⟨h.issued _ he.1, fun r hr hof => ?_⟩
  rcases h.kept r hr with hold | hnew
  · exact he.2 r hold hof
  · exact absurd ((isOf_iff.mp hof).2 ▸ he.1) hnew

/-- Only an event of a new generation becomes current. -/
theorem isCurrent_of (h : Revises ident filter q q') (hissued : q.Issued e.registrationGeneration)
    (hcur : q'.isCurrent e = true) : q.isCurrent e = true := by
  obtain ⟨r, hr, hof⟩ := isCurrent_iff.mp hcur
  rcases h.kept r hr with hold | hnew
  · exact isCurrent_iff.mpr ⟨r, hold, hof⟩
  · exact absurd ((isOf_iff.mp hof).2 ▸ hissued) hnew

/-- Events of other numbers and filters stay current. -/
theorem isCurrent_of_not_isFor (h : Revises ident filter q q')
    (hother : e.isFor ident filter = false) (hcur : q.isCurrent e = true) :
    q'.isCurrent e = true := by
  obtain ⟨r, hr, hof⟩ := isCurrent_iff.mp hcur
  refine isCurrent_iff.mpr ⟨r, h.others r hr ?_, hof⟩
  rw [← isFor_of_isOf hof, hother]

/-- The pending events of the number and filter go, and what registrations it has after that
are of a new generation. -/
theorem of_erase (hq : q.Fits) {registrations : List EventRegistration} {book : EventQueue}
    (hpend : book.pendingEvents = q.pendingEvents)
    (hregistrations : book.registrations = registrations)
    (hkeys : ∀ ident filter, FirstMatches.AtMostOne (·.isFor ident filter) registrations)
    (hissued : ∀ generation, q.Issued generation → book.Issued generation)
    (hnew : ∀ r ∈ registrations, r.isFor ident filter = true →
      book.Issued r.generation ∧ ¬ q.Issued r.generation)
    (hothers : ∀ r, r.isFor ident filter = false → (r ∈ registrations ↔ r ∈ q.registrations)) :
    Revises ident filter q (book.erasePending ident filter) := by
  have hkept : ∀ r ∈ registrations, r ∈ q.registrations ∧ r.isFor ident filter = false ∨
      book.Issued r.generation ∧ ¬ q.Issued r.generation := by
    intro r hr
    cases hfor : r.isFor ident filter with
    | true => exact .inr (hnew r hr hfor)
    | false => exact .inl ⟨(hothers r hfor).mp hr, rfl⟩
  have hmem : ∀ e, e ∈ (book.erasePending ident filter).pendingEvents ↔
      e ∈ q.pendingEvents ∧ e.isFor ident filter = false := by
    simp [erasePending, hpend]
  have hbook : (book.erasePending ident filter).registrations = registrations := hregistrations
  constructor
  · constructor
    · rwa [hbook]
    · intro r hr
      rw [hbook] at hr
      rcases hkept r hr with ⟨hold, -⟩ | ⟨hgiven, -⟩
      · exact hissued _ (hq.issued r hold)
      · exact hgiven
    · intro e he
      obtain ⟨hold, hother⟩ := (hmem e).mp he
      obtain ⟨r, hr, hof, hpersistent⟩ := hq.pending e hold
      refine ⟨r, ?_, hof, hpersistent⟩
      rw [hbook, hothers r (by rw [← isFor_of_isOf hof, hother])]
      exact hr
  · exact hissued
  · intro r hr
    rw [hbook] at hr
    exact (hkept r hr).imp And.left And.right
  · intro r hr hother
    rw [hbook]
    exact (hothers r hother).mpr hr
  · intro e hcur
    obtain ⟨r, hr, hof⟩ := isCurrent_iff.mp hcur
    rw [hbook] at hr
    rcases hkept r hr with ⟨-, hother⟩ | ⟨-, hfresh⟩
    · have hkeep : (!e.isFor ident filter) = true := by
        rw [isFor_of_isOf hof, hother, Bool.not_false]
      rw [erasePending, hpend]
      exact count_filter hkeep
    · -- no pending event has a generation that was not given out
      rw [← (isOf_iff.mp hof).2] at hfresh
      rw [hq.count_eq_zero hfresh, count_eq_zero]
      exact fun he => hfresh (hq.knows ((hmem e).mp he).1).1
  · exact fun e he => ((hmem e).mp he).1

end Revises

theorem isOf_mark (r : EventRegistration) {event : KernelEvent} (hident : event.ident = r.ident)
    (hfilter : event.filter = r.filter) : (r.mark event).isOf r = true := by
  simp [EventRegistration.mark, isOf, isFor, hident, hfilter]

variable {q : EventQueue} (hq : q.Fits)
include hq

/-- A generation is used up and nothing else changes. -/
theorem Fits.advanceGeneration (hleft : q.generationExhausted = false) (ident : ℕ) (filter : ℤ) :
    Revises ident filter q q.advanceGeneration := by
  have hissued : ∀ generation, q.Issued generation → q.advanceGeneration.Issued generation :=
    fun generation h => (issued_advanceGeneration hleft generation).mpr (.inl h)
  obtain ⟨_, _, heq⟩ := q.advanceGeneration_eq
  rw [heq] at hissued ⊢
  exact ⟨⟨hq.keys, fun r hr => hissued _ (hq.issued r hr), hq.pending⟩, hissued,
    fun _ hr => .inl hr, fun _ hr _ => hr, fun _ _ => rfl, fun _ he => he⟩

theorem Fits.registerEvent (ident : ℕ) (filter : ℤ) (flags userData : ℕ) (stored : Bool) :
    Revises ident filter q (q.registerEvent ident filter flags userData stored).2 := by
  unfold EventQueue.registerEvent
  dsimp only
  split
  · exact .refl hq
  split
  · exact .refl hq
  next hleft =>
    rw [Bool.not_eq_true] at hleft
    have hfresh := not_issued_nextGeneration hleft
    have hgiven := (issued_advanceGeneration hleft q.nextGeneration).mpr (.inr rfl)
    have hadvance := hq.advanceGeneration hleft ident filter
    obtain ⟨_, _, heq⟩ := q.advanceGeneration_eq
    rw [heq] at hgiven hadvance ⊢
    split
    next hfound =>
      rw [FirstMatches.replaceFirst_eq_map _ (hq.keys ident filter)]
      refine .of_erase hq rfl rfl (fun i f => ?_) hadvance.issued (fun r hr hfor => ?_)
        (fun r hother => ?_)
      · -- the new registration has the key of the old one
        refine List.Pairwise.map _ (fun a b hab => ?_) (hq.keys i f)
        intro ha
        rw [← hab (by split at ha <;> exact ha)]
        split <;> rfl
      · obtain ⟨old, -, rfl⟩ := mem_map.mp hr
        split
        · exact ⟨hgiven, hfresh⟩
        next hnot =>
          rw [if_neg hnot] at hfor
          exact absurd hfor hnot
      · rw [mem_map]
        constructor
        · rintro ⟨old, hold, rfl⟩
          split at hother
          next hfor =>
            have hsame : old.isFor ident filter = false := hother
            cases hsame.symm.trans hfor
          next hnot => rwa [if_neg hnot]
        · exact fun hr => ⟨r, hr, by rw [hother]; rfl⟩
    next hnone =>
      split
      · have habsent : ∀ r ∈ q.registrations, r.isFor ident filter = false := by
          rw [findRegistration, Bool.not_eq_true, Option.isSome_eq_false_iff,
            Option.isNone_iff_eq_none, find?_eq_none] at hnone
          exact fun r hr => Bool.not_eq_true _ ▸ hnone r hr
        refine .of_erase hq rfl rfl (fun i f => ?_) hadvance.issued (fun r hr hfor => ?_)
          (fun r hother => ?_)
        · refine pairwise_append.mpr ⟨hq.keys i f, pairwise_singleton _ _, ?_⟩
          intro old hold new hnew hfor
          rw [mem_singleton.mp hnew]
          by_contra hsame
          rw [Bool.not_eq_false, EventRegistration.isFor_iff] at hsame
          dsimp only at hsame hfor
          rw [← hsame.1, ← hsame.2, habsent _ hold] at hfor
          cases hfor
        · rcases mem_append.mp hr with hold | hnew
          · cases (habsent r hold).symm.trans hfor
          · rw [mem_singleton.mp hnew]
            exact ⟨hgiven, hfresh⟩
        · rw [mem_append, mem_singleton]
          refine or_iff_left ?_
          rintro rfl
          simp [EventRegistration.isFor] at hother
      · exact hadvance

theorem Fits.deleteEvent (ident : ℕ) (filter : ℤ) :
    Revises ident filter q (q.deleteEvent ident filter).2 := by
  unfold EventQueue.deleteEvent
  split
  · exact .refl hq
  rw [FirstMatches.eraseP_eq_filter (hq.keys ident filter)]
  refine .of_erase hq rfl rfl (fun i f => (hq.keys i f).filter _) (fun _ h => h)
    (fun r hr hfor => ?_) (fun r hother => ?_)
  · simp [hfor] at hr
  · simp [hother]

/-! ## Triggering and polling -/

/-- An event is triggered for a registration: it takes the place of the pending event of the
registration, if there is one. -/
structure Triggers (made : EventRegistration × RegisteredKernelEvent) (q q' : EventQueue) :
    Prop where
  registered : made.1 ∈ q.registrations
  isOf : made.2.isOf made.1 = true
  fits : q'.Fits
  same : q' = { q with pendingEvents := q'.pendingEvents }
  count : ∀ e, q'.pendingEvents.count e +
      (if q.pendingEvents.find? (·.isOf made.1) = some e then 1 else 0) =
    q.pendingEvents.count e + if made.2 = e then 1 else 0

theorem Fits.putPending {r : EventRegistration} (hr : r ∈ q.registrations)
    {update : RegisteredKernelEvent → RegisteredKernelEvent} {fresh : RegisteredKernelEvent}
    (hof : fresh.isOf r = true) (hpersistent : fresh.persistent = r.persistent)
    (hupdate : ∀ e, e.isOf r = true → e.persistent = r.persistent → update e = fresh) :
    Triggers (r, fresh) q (q.putPending r update fresh) := by
  have hmarked : ∀ e ∈ q.pendingEvents, e.isOf r = true → update e = fresh := by
    intro e he heof
    obtain ⟨r', hr', hof', hmark⟩ := hq.pending e he
    exact hupdate e heof (hmark.trans (by rw [hq.eq_of_isOf hr' hof' hr heof]))
  have hfits : ∀ pending : List RegisteredKernelEvent,
      (∀ e ∈ pending, e ∈ q.pendingEvents ∨ e = fresh) →
      Fits { q with pendingEvents := pending } := by
    intro pending hmem
    refine { hq with pending := fun e he => ?_ }
    rcases hmem e he with hold | rfl
    · exact hq.pending e hold
    · exact ⟨r, hr, hof, hpersistent⟩
  unfold EventQueue.putPending
  cases hfind : q.pendingEvents.find? (·.isOf r) with
  | none =>
    have hany : ¬ q.pendingEvents.any (·.isOf r) = true := by
      rw [any_eq_true]
      rintro ⟨e, he, heof⟩
      exact find?_eq_none.mp hfind e he heof
    rw [if_neg hany]
    refine ⟨hr, hof, hfits _ fun e he => ?_, rfl, fun e => ?_⟩
    · rcases mem_append.mp he with hold | hnew
      · exact .inl hold
      · exact .inr (mem_singleton.mp hnew)
    · simp [hfind, count_singleton]
  | some old =>
    have hold := mem_of_find?_eq_some hfind
    have holdOf := find?_some hfind
    rw [if_pos (any_eq_true.mpr ⟨old, hold, holdOf⟩)]
    have hcount := FirstMatches.count_replaceFirst update hfind
    rw [hmarked _ hold holdOf] at hcount
    refine ⟨hr, hof, hfits _ fun e he => ?_, rfl, fun e => ?_⟩
    · rcases FirstMatches.mem_replaceFirst _ he with hkeep | ⟨a, ha, haof, rfl⟩
      · exact .inl hkeep
      · exact .inr (hmarked a ha haof)
    · simpa [hfind] using hcount e

/-- `TriggerUserEvent` triggers what the call says. -/
theorem Fits.triggerUserEvent (handle ident userData : ℕ) :
    (q.triggerUserEvent ident userData = (.kNoSuchEntry, q) ∧
      trigger handle q (.triggerUserEvent handle ident userData) = none) ∨
    ∃ made q', q.triggerUserEvent ident userData = (.kOk, q') ∧
      trigger handle q (.triggerUserEvent handle ident userData) = some made ∧
      Triggers made q q' := by
  have htrigger : trigger handle q (.triggerUserEvent handle ident userData) =
      (q.findRegistration ident eventFilterUser).map fun r =>
        (r, r.mark { ident := r.ident, filter := r.filter, flags := r.flags, userData }) :=
    if_pos rfl
  rw [htrigger, EventQueue.triggerUserEvent]
  cases hfound : q.findRegistration ident eventFilterUser with
  | none => exact .inl ⟨rfl, rfl⟩
  | some r =>
    have hr := mem_of_find?_eq_some hfound
    have hfor := EventRegistration.isFor_iff.mp (find?_some hfound)
    have hlevel : decide (r.flags &&& eventClear = 0) = r.persistent := by
      simp [EventRegistration.persistent, hfor.2]
    refine .inr ⟨_, _, rfl, rfl, ?_⟩
    rw [hlevel]
    apply hq.putPending hr (isOf_mark r rfl rfl) rfl
    intro e heof hmark
    rw [EventRegistration.mark, ← hmark, ← (isOf_iff.mp heof).2]

/-- `TriggerFirstByFilter` triggers what the calls say. -/
theorem Fits.triggerFirstByFilter {filter : ℤ} (hfilter : filter ≠ eventFilterUser) (data : ℕ) :
    (q.triggerFirstByFilter filter data = (false, q) ∧
      trigger.triggerByFilter q filter data = none) ∨
    ∃ made q', q.triggerFirstByFilter filter data = (true, q') ∧
      trigger.triggerByFilter q filter data = some made ∧ Triggers made q q' := by
  unfold EventQueue.triggerFirstByFilter trigger.triggerByFilter
  cases hfound : q.registrations.find? (fun r => r.filter = filter) with
  | none => exact .inl ⟨rfl, rfl⟩
  | some r =>
    have hr := mem_of_find?_eq_some hfound
    have hfor := find?_some hfound
    rw [decide_eq_true_eq] at hfor
    have hedge : r.persistent = false := by simp [EventRegistration.persistent, hfor, hfilter]
    refine .inr ⟨_, _, rfl, rfl, ?_⟩
    simp only [EventRegistration.mark, hedge]
    apply hq.putPending hr _ hedge.symm
    · exact fun _ _ _ => rfl
    · exact isOf_mark r rfl rfl

/-- Polling takes events from the front and keeps the level events. -/
theorem Fits.poll (maximumCount : ℕ) :
    ∃ events pending, q.poll maximumCount = (events, { q with pendingEvents := pending }) ∧
      Fits { q with pendingEvents := pending } ∧
      (∀ e ∈ events, e ∈ q.pendingEvents) ∧ (∀ e ∈ pending, e ∈ q.pendingEvents) ∧
      (0 < maximumCount → events = [] →
        q.pendingEvents = [] ∧ { q with pendingEvents := pending } = q) ∧
      ∀ e, e.persistent = false → pending.count e + events.count e = q.pendingEvents.count e := by
  refine ⟨_, _, rfl, ?_⟩
  have hevents : ∀ e ∈ q.pendingEvents.take maximumCount, e ∈ q.pendingEvents :=
    fun e he => mem_of_mem_take he
  have hpend : ∀ e ∈ q.pendingEvents.drop maximumCount ++
      (q.pendingEvents.take maximumCount).filter (·.persistent), e ∈ q.pendingEvents := by
    intro e he
    rcases mem_append.mp he with hdrop | hfilter
    · exact mem_of_mem_drop hdrop
    · exact hevents e (mem_filter.mp hfilter).1
  refine ⟨{ hq with pending := fun e he => hq.pending e (hpend e he) }, hevents, hpend,
    fun hpos hnil => ?_, fun e hedge => ?_⟩
  · rcases take_eq_nil_iff.mp hnil with hzero | hempty
    · omega
    refine ⟨hempty, ?_⟩
    simp only [hempty, drop_nil, take_nil, filter_nil, append_nil]
    rw [← hempty]
  have hnone : ((q.pendingEvents.take maximumCount).filter (·.persistent)).count e = 0 := by
    rw [List.count_eq_zero]
    intro he
    rw [mem_filter, hedge] at he
    cases he.2
  have hsplit := congrArg (List.count e) (take_append_drop maximumCount q.pendingEvents)
  rw [count_append] at hsplit ⊢
  omega

end EventQueue

end KajPS5.Kernel
