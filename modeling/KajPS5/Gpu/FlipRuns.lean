/-
# Every accepted flip is shown once

Over any sequence of calls, an accepted flip should have its own frame submitted
once, and then be counted once and trigger its event once with its own argument; a
refused flip should submit nothing. The service keeps this promise while the
presenter finishes an earlier frame before the next flip and takes a submitted
frame to its end. It breaks it otherwise: for the presenter, retained work is an
earlier frame and the new one was not submitted, while the service takes the same
answer for an accepted flip; and a frame that was submitted, but whose registration
or presentation then failed, is answered as an error.
-/

import KajPS5.Gpu.VideoOut
import KajPS5.Math.Postconditions
import KajPS5.Math.StepRuns

namespace KajPS5.Gpu

open Kernel Math.Postconditions Memory VideoOutService VideoOutSystem List

/-! ## Calls and runs -/

/-- A call of the video output or of the window it shows its frames in. -/
inductive VideoOutCall
  | submitFlip (handle bufferIndex flipMode flipArg : ℤ) (meets : CallMeets)
  | getFlipStatus (handle : ℤ) (meets : CallMeets)
  | isFlipPending (handle : ℤ) (meets : CallMeets)
  | pollPresentation (meets : CallMeets)
  | openOutput (userId busType index : ℤ) (meets : CallMeets)
  | close (handle : ℤ) (meets : CallMeets)
  | setFlipRate (handle rate : ℤ) (meets : CallMeets)
  | registerBuffers (handle startIndex : ℤ) (addresses : List ℕ)
      (bufferAttribute : VideoOutBufferAttribute) (meets : CallMeets)
  | registerBuffers2 (handle groupIndex startIndex : ℤ) (buffers : List VideoOutBufferEntry)
      (bufferAttribute : VideoOutBufferAttribute) (category option : ℕ) (meets : CallMeets)
  | unregisterBuffers (handle groupIndex : ℤ) (meets : CallMeets)
  | addFlipEvent (queue : ℕ) (handle : ℤ) (userData : ℕ) (meets : CallMeets)
  | deleteFlipEvent (queue : ℕ) (handle : ℤ) (meets : CallMeets)
  | resize (width height : ℕ)

namespace VideoOutSystem

variable (clock : ℕ → ℕ)

/-- The system after a call. -/
def step (s : VideoOutSystem) : VideoOutCall → VideoOutSystem
  | .submitFlip handle bufferIndex flipMode flipArg meets =>
    (s.submitFlip clock handle bufferIndex flipMode flipArg meets).2
  | .getFlipStatus handle meets => (s.getFlipStatus clock handle meets).2
  | .isFlipPending handle meets => (s.isFlipPending clock handle meets).2
  | .pollPresentation meets => (s.pollPresentation clock meets).2
  | .openOutput userId busType index meets => (s.openOutput clock userId busType index meets).2
  | .close handle meets => (s.close clock handle meets).2
  | .setFlipRate handle rate meets => (s.setFlipRate clock handle rate meets).2
  | .registerBuffers handle startIndex addresses bufferAttribute meets =>
    (s.registerBuffers clock handle startIndex addresses bufferAttribute meets).2
  | .registerBuffers2 handle groupIndex startIndex buffers bufferAttribute category option meets =>
    (s.registerBuffers2 clock handle groupIndex startIndex buffers bufferAttribute category
      option meets).2
  | .unregisterBuffers handle groupIndex meets =>
    (s.unregisterBuffers clock handle groupIndex meets).2
  | .addFlipEvent queue handle userData meets =>
    (s.addFlipEvent clock queue handle userData meets).2
  | .deleteFlipEvent queue handle meets => (s.deleteFlipEvent clock queue handle meets).2
  | .resize width height => (s.resize width height).2

/-- The system after a sequence of calls. -/
def run (s : VideoOutSystem) (calls : List VideoOutCall) : VideoOutSystem :=
  Math.StepRuns.run (step clock) s calls

/-- The presenter is done with the frame before, and the device and the image cache
take the frame of this call to its end. -/
def Settles (s : VideoOutSystem) : VideoOutCall → Prop
  | .submitFlip _ _ _ _ meets =>
    (∀ p, s.presenter = some p → p.pending = true → meets.presented.fence ≠ .notReady) ∧
      meets.presented.registers = true ∧ meets.presented.present = .success
  | _ => True

/-- Every call of the sequence settles. -/
def RunSettles (s : VideoOutSystem) (calls : List VideoOutCall) : Prop :=
  Math.StepRuns.Along (step clock) Settles s calls

end VideoOutSystem

/-! ## What a log should say -/

/-- The event is a trigger for the flip. -/
def FlipEvent.triggers (flip : ℕ) : FlipEvent → Bool
  | .triggered other _ => other = flip
  | _ => false

/-- What the log of a run should say about its flips. -/
structure FlipsDelivered (log : List FlipEvent) : Prop where
  /-- An accepted flip has its frame submitted once, is counted once, and triggers its
  event once, with its own argument. -/
  once : ∀ flip flipArg, .answered flip flipArg 0 ∈ log →
    log.count (.submitted flip) = 1 ∧ log.count (.counted flip) = 1 ∧
      log.filter (·.triggers flip) = [.triggered flip flipArg]
  /-- The frame comes first. -/
  order : ∀ flip flipArg, .answered flip flipArg 0 ∈ log →
    [.submitted flip, .counted flip].Sublist log ∧
      [.submitted flip, .triggered flip flipArg].Sublist log
  /-- A refused flip submits no frame. -/
  refused : ∀ flip flipArg answer, .answered flip flipArg answer ∈ log → answer ≠ 0 →
    .submitted flip ∉ log

/-- What the flips have come to: the count and the argument of the flip status, and the event
queues. -/
structure FlipTotals where
  count : ℕ
  flipArg : ℤ
  queues : EventQueueService

def VideoOutSystem.totals (s : VideoOutSystem) : FlipTotals :=
  ⟨s.service.flipStatus.count, s.service.flipStatus.flipArg, s.queues⟩

/-- What an event of the log stands for. -/
def FlipTotals.add (clock : ℕ → ℕ) (totals : FlipTotals) : FlipEvent → FlipTotals
  | .counted _ => { totals with count := (totals.count + 1) % 2 ^ 64 }
  | .triggered _ flipArg =>
    { totals with
      flipArg
      queues := (totals.queues.triggerVideoOutEvents clock (flipArg % 2 ^ 64).toNat).2 }
  | .submitted _ | .answered _ _ _ => totals

/-- Opening the output starts a new flip status. -/
def VideoOutCall.restarts : VideoOutCall → Bool
  | .openOutput .. => true
  | _ => false

/-- The call registers or removes events of the queues. -/
def VideoOutCall.registers : VideoOutCall → Bool
  | .close .. | .addFlipEvent .. | .deleteFlipEvent .. => true
  | _ => false

/-- What a call logs is what it does to the flip status and to the event queues. -/
def Carries (clock : ℕ → ℕ) (s : VideoOutSystem) (call : VideoOutCall) : Prop :=
  ∃ events, (s.step clock call).log = s.log ++ events ∧
    let totals := events.foldl (.add clock) s.totals
    let totals' := (s.step clock call).totals
    (call.restarts = false → totals'.count = totals.count ∧ totals'.flipArg = totals.flipArg) ∧
      (call.registers = false → totals'.queues = totals.queues)

/-- What happens to an accepted flip, in order. -/
def shown (flip : ℕ) (flipArg : ℤ) : List FlipEvent :=
  [.submitted flip, .counted flip, .triggered flip flipArg, .answered flip flipArg 0]

/-- The events of one flip. -/
def eventsOf (flip : ℕ) (log : List FlipEvent) : List FlipEvent :=
  log.filter fun event => event.flip = flip

/-- Nothing has happened to the flip, or all that should. -/
def Settled (flip : ℕ) (events : List FlipEvent) : Prop :=
  events = [] ∨ (∃ flipArg, events = shown flip flipArg) ∨
    ∃ flipArg answer, answer ≠ 0 ∧ events = [.answered flip flipArg answer]

variable {log : List FlipEvent}

theorem mem_eventsOf {flip : ℕ} {event : FlipEvent} :
    event ∈ eventsOf flip log ↔ event ∈ log ∧ event.flip = flip := by
  simp [eventsOf]

theorem flipsDelivered_of_settled (h : ∀ flip, Settled flip (eventsOf flip log)) :
    FlipsDelivered log := by
  -- An answer of zero is only found among the events of a flip that was shown.
  have hshown : ∀ flip flipArg, .answered flip flipArg 0 ∈ log →
      eventsOf flip log = shown flip flipArg := by
    intro flip flipArg hmem
    have hevent : .answered flip flipArg 0 ∈ eventsOf flip log := mem_eventsOf.mpr ⟨hmem, rfl⟩
    rcases h flip with hnil | ⟨arg, heq⟩ | ⟨arg, answer, hans, heq⟩
    · rw [hnil] at hevent
      exact absurd hevent not_mem_nil
    · rw [heq] at hevent ⊢
      simp only [shown, mem_cons, reduceCtorEq, FlipEvent.answered.injEq, true_and, and_true,
        not_mem_nil, or_false, false_or] at hevent
      rw [hevent]
    · rw [heq, mem_singleton, FlipEvent.answered.injEq] at hevent
      exact absurd hevent.2.2.symm hans
  refine ⟨fun flip flipArg hmem => ?_, fun flip flipArg hmem => ?_, ?_⟩
  · have hevents := hshown _ _ hmem
    have hcount : ∀ event : FlipEvent, event.flip = flip →
        log.count event = (shown flip flipArg).count event := by
      intro event hevent
      rw [← hevents, eventsOf, count_filter (by simpa using hevent)]
    refine ⟨?_, ?_, ?_⟩
    · rw [hcount _ rfl]
      simp [shown]
    · rw [hcount _ rfl]
      simp [shown]
    have hfilter : log.filter (·.triggers flip) = (eventsOf flip log).filter (·.triggers flip) := by
      rw [eventsOf, filter_filter]
      apply filter_congr
      intro event _
      cases event <;> simp +contextual [FlipEvent.triggers, FlipEvent.flip]
    rw [hfilter, hevents]
    simp [shown, FlipEvent.triggers]
  · have hsublist : (shown flip flipArg).Sublist log := by
      rw [← hshown _ _ hmem]
      exact filter_sublist
    exact ⟨List.Sublist.trans (by simp [shown]) hsublist,
      List.Sublist.trans (by simp [shown]) hsublist⟩
  · intro flip flipArg answer hmem hans hsub
    have hevent : .answered flip flipArg answer ∈ eventsOf flip log := mem_eventsOf.mpr ⟨hmem, rfl⟩
    have hsub : .submitted flip ∈ eventsOf flip log := mem_eventsOf.mpr ⟨hsub, rfl⟩
    rcases h flip with hnil | ⟨arg, heq⟩ | ⟨arg, other, -, heq⟩
    · rw [hnil] at hevent
      exact absurd hevent not_mem_nil
    · rw [heq] at hevent
      simp [shown, hans] at hevent
    · rw [heq] at hsub
      simp at hsub

/-! ## One call -/

/-- A check answers an error that is not zero, or a value in the presence of a fact. -/
abbrev RefusesUnless {α : Type} (fact : Prop) : Except ℤ α → Prop := Ensures (· ≠ 0) fun _ => fact

section

variable {fact : Prop} (h : fact) (entry : VideoOutBufferEntry)
  (bufferAttribute : VideoOutBufferAttribute) (format : GuestFormat)
include h

theorem refusesUnless_renderTargetInput :
    RefusesUnless fact (renderTargetInput entry bufferAttribute format) := by
  rw [renderTargetInput]
  split_ifs
  any_goals exact .error (by decide)
  exact .ok h

theorem refusesUnless_linearInput :
    RefusesUnless fact (linearInput entry bufferAttribute format) := by
  simp only [linearInput]
  split_ifs
  any_goals exact .error (by decide)
  all_goals exact .ok h

end

/-- The checks under the first lock refuse with an error, or the output is open. -/
theorem refusesUnless_flipInput (service : VideoOutService) (handle bufferIndex flipMode : ℤ) :
    RefusesUnless (service.isOpenLocked handle = true)
      (service.flipInput handle bufferIndex flipMode) := by
  simp only [flipInput]
  by_cases hopen : service.isOpenLocked handle = true
  · split_ifs
    any_goals exact .error (by decide)
    split
    · exact .map (refusesUnless_renderTargetInput hopen _ _ _)
    · exact .map (refusesUnless_linearInput hopen _ _ _)
    · exact .error (by decide)
  · rw [if_pos (show (!service.isOpenLocked handle) = true by simp [hopen])]
    split_ifs <;> exact .error (by decide)

namespace VideoOutSystem

section Calls

variable (clock : ℕ → ℕ)

/-- What the calls other than a flip do to the flips when none is pending. -/
structure KeepsFlips (call : VideoOutCall) (s s' : VideoOutSystem) : Prop where
  pending : s'.service.pending = false
  flips : s'.flips = s.flips
  log : s'.log = s.log
  flipStatus : call.restarts = false → s'.service.flipStatus = s.service.flipStatus
  queues : call.registers = false → s'.queues = s.queues

variable {s : VideoOutSystem} {flipArg bufferIndex handle : ℤ} {flip : ℕ}

section

variable (h : s.service.pending = false)
include h

theorem pollPending_of_not_pending (answers : DeviceAnswers) :
    s.pollPending clock answers = (false, s) := by
  rw [pollPending, h]
  rfl

theorem keepsFlips_refl (call : VideoOutCall) : KeepsFlips call s s :=
  ⟨h, rfl, rfl, fun _ => rfl, fun _ => rfl⟩

theorem keepsFlips_register (call : VideoOutCall) (handle groupIndex startIndex : ℤ)
    (buffers : List VideoOutBufferEntry) (bufferAttribute : VideoOutBufferAttribute)
    (category : ℕ) (meets : CallMeets) :
    KeepsFlips call s
      (s.register clock handle groupIndex startIndex buffers bufferAttribute category meets).2 := by
  rw [register, pollPending_of_not_pending _ h]
  split_ifs <;> exact ⟨h, rfl, rfl, fun _ => rfl, fun _ => rfl⟩

end

/-- What a flip does when none is pending and the presenter settles it: it is shown
and answered zero, or refused and answered an error. -/
structure FlipSpec (clock : ℕ → ℕ) (s : VideoOutSystem) (flip : ℕ) (flipArg : ℤ)
    (outcome : ℤ × VideoOutSystem) : Prop where
  pending : outcome.2.service.pending = false
  log : ∃ events, outcome.2.log = s.log ++ events ∧
    outcome.2.totals = events.foldl (.add clock) s.totals ∧
    (events ++ [.answered flip flipArg outcome.1] = shown flip flipArg ∨
      outcome.1 ≠ 0 ∧ events = [])

variable {clock} in
theorem FlipSpec.of_refused {outcome : ℤ × VideoOutSystem}
    (hpend : outcome.2.service.pending = false) (hno : outcome.1 ≠ 0)
    (hlog : outcome.2.log = s.log) (htotals : outcome.2.totals = s.totals) :
    FlipSpec clock s flip flipArg outcome :=
  ⟨hpend, [], by rw [hlog, append_nil], htotals, .inr ⟨hno, rfl⟩⟩

theorem flipSpec_takePresented {result : VulkanPresentationResult}
    (hpend : s.service.pending = false) (hretained : result.status ≠ .kRetainedWorkPending)
    (start : VideoOutSystem) (hok : result.status = .kOk → s.log = start.log ++ [.submitted flip])
    (hno : result.status ≠ .kOk → s.log = start.log) (htotals : s.totals = start.totals) :
    FlipSpec clock start flip flipArg (s.takePresented clock flip bufferIndex flipArg result) := by
  simp only [takePresented]
  split_ifs with hstat
  · apply FlipSpec.mk
    · rfl
    refine ⟨[.submitted flip, .counted flip, .triggered flip flipArg], ?_, ?_, .inl rfl⟩
    · show s.log ++ _ = _
      rw [hok hstat, append_assoc]
      rfl
    · rw [← htotals]
      rfl
  · exact .of_refused hpend (show kVideoOutErrorInvalidValue ≠ 0 by decide) (hno hstat) htotals
  · exact .of_refused hpend (show kVideoOutErrorResourceBusy ≠ 0 by decide) (hno hstat) htotals

/-- The presentation leaves the service alone. -/
theorem service_presentVulkanGuestFrame (s : VideoOutSystem) (flip : ℕ) (answers : DeviceAnswers) :
    (s.presentVulkanGuestFrame flip answers).2.service = s.service := by
  rw [presentVulkanGuestFrame]
  cases s.presenter with
  | none => rfl
  | some p => rfl

theorem flipSpec_presentFlip {answers : DeviceAnswers} (hpend : s.service.pending = false)
    (hopen : s.service.isOpenLocked handle = true)
    (hfence : ∀ p, s.presenter = some p → p.pending = true → answers.fence ≠ .notReady)
    (hregisters : answers.registers = true) (hpresent : answers.present = .success) :
    FlipSpec clock s flip flipArg
      (s.presentFlip clock flip handle bufferIndex flipArg answers) := by
  have hservice := service_presentVulkanGuestFrame s flip answers
  simp only [presentFlip]
  rw [hservice, if_neg (by simp [hopen]), if_neg (by simp)]
  cases hpresenter : s.presenter with
  | none =>
    simp only [presentVulkanGuestFrame, hpresenter]
    apply flipSpec_takePresented _ hpend
    · simp
    · simp
    · intro _
      rfl
    · rfl
  | some p =>
    have hspec := Presentation.presentSpec_present p 50000000 answers
    simp only [presentVulkanGuestFrame, hpresenter]
    generalize p.present 50000000 answers = outcome at hspec
    apply flipSpec_takePresented clock
    · exact hpend
    · intro hstat
      obtain ⟨-, hwork, hnotReady⟩ := hspec.retained hstat
      exact hfence p hpresenter hwork hnotReady
    · intro hstat
      rw [hspec.submitted_of_ok hstat, if_pos rfl]
    · intro hstat
      have hsub : outcome.submitted = false := by
        rw [Bool.eq_false_iff]
        intro hsub
        exact hstat (hspec.ok_of_submitted hsub hregisters hpresent)
      simp [hsub]
    · rfl

variable {flipMode : ℤ} {meets : CallMeets} {s' : VideoOutSystem}

theorem flipSpec_submitPolled (hpend : s.service.pending = false)
    (hsettles : s.Settles (.submitFlip handle bufferIndex flipMode flipArg meets)) :
    FlipSpec clock s flip flipArg
      (s.submitPolled clock flip handle bufferIndex flipMode flipArg meets) := by
  obtain ⟨hfence, hregisters, hpresent⟩ := hsettles
  have hinput := refusesUnless_flipInput s.service handle bufferIndex flipMode
  simp only [submitPolled]
  cases hans : s.service.flipInput handle bufferIndex flipMode with
  | error error =>
    rw [hans] at hinput
    exact .of_refused hpend hinput rfl rfl
  | ok input =>
    rw [hans] at hinput
    simp only
    cases meets.layout input.1 with
    | none => exact .of_refused hpend (show kVideoOutErrorInvalidValue ≠ 0 by decide) rfl rfl
    | some storage =>
      simp only
      split_ifs
      · exact .of_refused hpend (show kVideoOutErrorInvalidAddress ≠ 0 by decide) rfl rfl
      · exact flipSpec_presentFlip _ hpend hinput hfence hregisters hpresent

/-! ## Runs -/

/-- No flip is pending, and to each flip so far all has happened that should. -/
structure FlipsSettled (s : VideoOutSystem) : Prop where
  pending : s.service.pending = false
  asked : ∀ event ∈ s.log, event.flip < s.flips
  settled : ∀ flip, Settled flip (eventsOf flip s.log)

theorem FlipsSettled.keepsFlips (hs : s.FlipsSettled) {call : VideoOutCall}
    (h : KeepsFlips call s (s.step clock call)) :
    (s.step clock call).FlipsSettled ∧ Carries clock s call := by
  constructor
  · apply FlipsSettled.mk h.pending
    · rw [h.log, h.flips]
      exact hs.asked
    · rw [h.log]
      exact hs.settled
  · refine ⟨[], by rw [h.log, append_nil], fun hcall => ?_, h.queues⟩
    simp [totals, h.flipStatus hcall]

/-- The next flip appends its own events. -/
theorem FlipsSettled.append (hs : s.FlipsSettled) (events : List FlipEvent)
    (hpend : s'.service.pending = false) (hflips : s'.flips = s.flips + 1)
    (hlog : s'.log = s.log ++ events) (hevents : ∀ event ∈ events, event.flip = s.flips)
    (hsettled : Settled s.flips events) : s'.FlipsSettled := by
  apply FlipsSettled.mk hpend
  · intro event hmem
    rw [hlog, mem_append] at hmem
    rw [hflips]
    rcases hmem with hold | hnew
    · exact Nat.lt_succ_of_lt (hs.asked _ hold)
    · exact (hevents _ hnew).trans_lt (Nat.lt_succ_self _)
  · intro flip
    rw [hlog, eventsOf, filter_append]
    by_cases hflip : flip = s.flips
    · -- The log has nothing of the new flip yet.
      have hold : s.log.filter (fun event => event.flip = flip) = [] := by
        rw [filter_eq_nil_iff]
        intro event hmem
        have hlt := hs.asked _ hmem
        simp only [decide_eq_true_eq]
        omega
      have hnew : events.filter (fun event => event.flip = flip) = events := by
        rw [filter_eq_self]
        intro event hmem
        simp [hevents _ hmem, hflip]
      rw [hold, hnew, hflip]
      exact hsettled
    · have hnew : events.filter (fun event => event.flip = flip) = [] := by
        rw [filter_eq_nil_iff]
        intro event hmem
        simpa [hevents _ hmem] using Ne.symm hflip
      rw [hnew, append_nil]
      exact hs.settled _

theorem FlipsSettled.submitFlip (hs : s.FlipsSettled)
    (hsettles : s.Settles (.submitFlip handle bufferIndex flipMode flipArg meets)) :
    (s.submitFlip clock handle bufferIndex flipMode flipArg meets).2.FlipsSettled ∧
      Carries clock s (.submitFlip handle bufferIndex flipMode flipArg meets) := by
  have hspec : FlipSpec clock s s.flips flipArg
      (s.submitPolled clock s.flips handle bufferIndex flipMode flipArg meets) :=
    flipSpec_submitPolled _ hs.pending hsettles
  rw [Carries, VideoOutSystem.step, VideoOutSystem.submitFlip,
    pollPending_of_not_pending _ hs.pending]
  generalize s.submitPolled clock s.flips handle bufferIndex flipMode flipArg meets = outcome
    at hspec
  obtain ⟨answer, after⟩ := outcome
  obtain ⟨events, hlog, htotals, hflip⟩ := hspec.log
  have hanswered : after.log ++ [.answered s.flips flipArg answer] =
      s.log ++ (events ++ [.answered s.flips flipArg answer]) := by
    rw [← append_assoc, ← hlog]
  refine ⟨?_, _, hanswered, ?_⟩
  · refine hs.append _ hspec.pending rfl hanswered ?_ ?_
    · rcases hflip with hshown | ⟨-, rfl⟩
      · simp [hshown, shown, FlipEvent.flip]
      · simp [FlipEvent.flip]
    · rcases hflip with hshown | ⟨hno, rfl⟩
      · exact .inr (.inl ⟨flipArg, hshown⟩)
      · exact .inr (.inr ⟨flipArg, answer, hno, rfl⟩)
  · rw [foldl_append, ← htotals]
    exact ⟨fun _ => ⟨rfl, rfl⟩, fun _ => rfl⟩

theorem keepsFlips_step (h : s.service.pending = false) {call : VideoOutCall}
    (hcall : ∀ handle bufferIndex flipMode flipArg meets,
      call ≠ .submitFlip handle bufferIndex flipMode flipArg meets) :
    KeepsFlips call s (s.step clock call) := by
  cases call with
  | submitFlip => exact absurd rfl (hcall _ _ _ _ _)
  | isFlipPending | pollPresentation =>
    simp only [step, isFlipPending, pollPresentation, pollPending_of_not_pending _ h]
    exact keepsFlips_refl h _
  | getFlipStatus | setFlipRate | unregisterBuffers =>
    simp only [step, getFlipStatus, setFlipRate, unregisterBuffers,
      pollPending_of_not_pending _ h]
    split_ifs <;> exact ⟨h, rfl, rfl, fun _ => rfl, fun _ => rfl⟩
  | addFlipEvent | deleteFlipEvent =>
    simp only [step, addFlipEvent, deleteFlipEvent, pollPending_of_not_pending _ h]
    split_ifs <;> exact ⟨h, rfl, rfl, fun _ => rfl, nofun⟩
  | openOutput | close =>
    simp only [step, openOutput, close, pollPending_of_not_pending _ h]
    split_ifs <;> first
      | exact keepsFlips_refl h _
      | exact ⟨rfl, rfl, rfl, nofun, fun _ => rfl⟩
      | exact ⟨rfl, rfl, rfl, fun _ => rfl, nofun⟩
  | registerBuffers | registerBuffers2 =>
    simp only [step, registerBuffers, registerBuffers2]
    split_ifs
    · exact keepsFlips_refl h _
    · exact keepsFlips_register _ h _ _ _ _ _ _ _ _
  | resize width height =>
    rw [step, resize]
    cases s.presenter <;> exact ⟨h, rfl, rfl, fun _ => rfl, fun _ => rfl⟩

theorem FlipsSettled.step (hs : s.FlipsSettled) {call : VideoOutCall} (hsettles : s.Settles call) :
    (s.step clock call).FlipsSettled ∧ Carries clock s call := by
  cases call with
  | submitFlip => exact hs.submitFlip clock hsettles
  | _ => exact hs.keepsFlips _ (keepsFlips_step clock hs.pending (by simp))

end Calls

end VideoOutSystem

/-- In every run of calls that settle, from any presenter and any event queues, an
accepted flip has its frame submitted once and is then counted once and triggers its
event once, with its own argument; a refused one submits nothing. What each call of the
run logs, it does: a count in the log is one of the flip status, and a trigger one of
the event queues. -/
theorem settled_flips_delivered (clock : ℕ → ℕ) (presenter : Option Presentation)
    (queues : EventQueueService) (calls : List VideoOutCall)
    (hsettles : VideoOutSystem.RunSettles clock { presenter, queues } calls) :
    FlipsDelivered (run clock { presenter, queues } calls).log ∧
      Math.StepRuns.Along (step clock) (Carries clock) { presenter, queues } calls := by
  have hstart : VideoOutSystem.FlipsSettled { presenter, queues } := by
    apply VideoOutSystem.FlipsSettled.mk
    · rfl
    · exact forall_mem_nil _
    · intro flip
      exact .inl rfl
  constructor
  · exact flipsDelivered_of_settled (Math.StepRuns.run_along _
      (fun _ _ _ hsettles hs => (hs.step clock hsettles).1) hstart hsettles).settled
  · exact hsettles.imp _ (fun _ _ hsettles hs => (hs.step clock hsettles).1)
      (fun _ _ hsettles hs => (hs.step clock hsettles).2) hstart

/-- A call that meets memory it can read and an image of sixteen bytes. -/
def readable : CallMeets where
  layout input := some (input.guestAddress, 16)
  canAccess _ _ _ := true

/-- Open the output and register a linear buffer of two by two pixels. -/
def opened : List VideoOutCall :=
  [.openOutput 255 0 0 readable, .registerBuffers 1 0 [0x10000]
      { tilingMode := kVideoOutTilingModeLinear, width := 2, height := 2,
        pixelFormat := 0x8000000022000000 } readable]

/-- Two flips, of which the second finds the frame of the first finished. -/
def twoFlips : List VideoOutCall :=
  opened ++ [.submitFlip 1 0 1 7 readable, .submitFlip 1 0 1 8 readable]

theorem settled_flips_delivered_two :
    let log := (run id { presenter := some {}, queues := {} } twoFlips).log
    log = shown 0 7 ++ shown 1 8 ∧ FlipsDelivered log :=
  ⟨by decide +kernel, (settled_flips_delivered _ (some {}) {} twoFlips
    ⟨trivial, trivial, ⟨fun _ _ _ => by decide, rfl, rfl⟩, ⟨fun _ _ _ => by decide, rfl, rfl⟩,
      trivial⟩).1⟩

/-- The second flip finds the frame of the first one unfinished. -/
def retainedFlips : List VideoOutCall :=
  opened ++ [.submitFlip 1 0 1 7 readable,
    .submitFlip 1 0 1 8 { readable with presented := { fence := .notReady } },
    .pollPresentation {}]

/-- The frame is submitted, and then the window turns out not to fit it. -/
def suboptimalFlip : List VideoOutCall :=
  opened ++ [.submitFlip 1 0 1 7 { readable with presented := { present := .suboptimal } }]

/-- A flip that finds an earlier frame unfinished is accepted, counted and triggered
without its frame; a flip whose frame was submitted is refused when the window does
not fit. -/
theorem unsettled_flips_not_delivered :
    (run id { presenter := some {}, queues := {} } retainedFlips).log =
      shown 0 7 ++ [.answered 1 8 0, .counted 1, .triggered 1 8] ∧
    ¬ FlipsDelivered
      (run id { presenter := some {}, queues := {} } retainedFlips).log ∧
    (run id { presenter := some {}, queues := {} } suboptimalFlip).log =
      [.submitted 0, .answered 0 7 kVideoOutErrorResourceBusy] ∧
    ¬ FlipsDelivered
      (run id { presenter := some {}, queues := {} } suboptimalFlip).log := by
  refine ⟨rfl, fun h => ?_, rfl, fun h => ?_⟩
  · exact absurd (h.once 1 8 (by decide)).1 (by decide)
  · exact h.refused 0 7 kVideoOutErrorResourceBusy (by decide) (by decide) (by decide)

end KajPS5.Gpu
