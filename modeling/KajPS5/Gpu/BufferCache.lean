/-
# Preparing guest buffers

`VulkanGuestBufferCache::Prepare` registers each buffer of a shader with the
tracker, copies its bytes from guest memory and, when the device side is ready,
asks the tracker for the generation of each buffer and acknowledges it. The
generation is asked for after the bytes were copied, and a write in between is
acknowledged with the rest although its bytes were not copied.

The model follows `Prepare` between the decoding of the descriptors and its return.
Decoding and the device calls enter as the list of buffers and as an answer.
-/

import KajPS5.Gpu.CoherenceSystem

namespace KajPS5.Gpu

open Math Memory GuestMemoryProtection CoherenceSystem List

/-- A buffer as decoded from its descriptor. -/
structure BufferRequest where
  (guestAddress size : ℕ)
  (shaderReads shaderWrites : Bool)
  deriving DecidableEq, Repr

/-- The fields of a view that concern guest memory. -/
structure VulkanGuestBufferView where
  resource : GpuResourceId
  (guestAddress size : ℕ)
  (shaderReads shaderWrites : Bool)
  uploadedBytes : List UInt8
  /-- The write generation of guest memory when the copying began. `Prepare` does
  not look at it. -/
  copiedSince : GuestMemoryGeneration
  deriving DecidableEq, Repr

/-- Where `Prepare` is. -/
inductive PreparePhase
  | collecting (requests : List BufferRequest)
  | copying (view : VulkanGuestBufferView) (requests : List BufferRequest)
  | device
  /-- The views to be acknowledged, and the answer for the first of them. -/
  | acknowledging (remaining : List VulkanGuestBufferView)
      (queried : Option GuestMemoryGeneration)
  | finished (ok : Bool)

structure PrepareSystem where
  base : CoherenceSystem
  phase : PreparePhase
  views : List VulkanGuestBufferView

inductive PrepareAction
  | other (action : CoherenceAction)
  | register (snapshot : CoherenceSnapshot) (alloc : Bool)
  | copyByte
  | finishDevice (ok : Bool)
  | query
  | acknowledge

/-- A mapping call of another thread. -/
def PrepareAction.isMapping : PrepareAction → Bool
  | other action => action.isMapping
  | register .. | copyByte | finishDevice _ | query | acknowledge => false

namespace PrepareSystem

/-- The beginning of a call. -/
def create (base : CoherenceSystem) (requests : List BufferRequest) : PrepareSystem where
  base
  phase := .collecting requests
  views := []

/-- Failing discards the views collected so far. -/
def fail (s : PrepareSystem) : PrepareSystem where
  base :=
    { s.base with
      tracker := s.views.foldl
        (fun tracker view => (tracker.unregisterResource view.resource).2) s.base.tracker }
  phase := .finished false
  views := []

/-- One turn of the loop over the buffers up to `RegisterResource`. -/
def registerNext (s : PrepareSystem) (snapshot : CoherenceSnapshot) (alloc : Bool) :
    List BufferRequest → PrepareSystem
  | [] => { s with phase := .device }
  | request :: requests =>
    let memory := s.base.world.memory
    if !memory.canAccessLocked request.guestAddress request.size (kRead ||| kGpuRead) then s.fail
    else if request.shaderWrites &&
        !memory.canAccessLocked request.guestAddress request.size (kWrite ||| kGpuWrite) then
      s.fail
    else
      match s.base.tracker.registerResource memory snapshot alloc request.guestAddress
        request.size with
      | (none, _) => s.fail
      | (some resource, tracker) =>
        { s with
          base := { s.base with tracker }
          phase := .copying
            { resource
              guestAddress := request.guestAddress
              size := request.size
              shaderReads := request.shaderReads
              shaderWrites := request.shaderWrites
              uploadedBytes := []
              copiedSince := memory.writeGeneration }
            requests }

/-- One byte of `Read`, or the end of it. -/
def copyNext (s : PrepareSystem) (view : VulkanGuestBufferView)
    (requests : List BufferRequest) : PrepareSystem :=
  if view.uploadedBytes.length = view.size then
    { s with phase := .collecting requests, views := s.views ++ [view] }
  else match s.base.world.read (view.guestAddress + view.uploadedBytes.length) 1 with
    | some [value] =>
      { s with
        phase := .copying
          { view with uploadedBytes := view.uploadedBytes ++ [value] } requests }
    | _ => { s with base := s.base.step (.unregister view.resource) }.fail

/-- One step. An action that does not fit the phase changes nothing. -/
def step (s : PrepareSystem) : PrepareAction → PrepareSystem
  | .other action => { s with base := s.base.step action }
  | .register snapshot alloc => match s.phase with
    | .collecting requests =>
      if CoherenceSystem.Precedes snapshot s.base.world.memory then
        s.registerNext snapshot alloc requests
      else s
    | _ => s
  | .copyByte => match s.phase with
    | .copying view requests => s.copyNext view requests
    | _ => s
  | .finishDevice ok => match s.phase with
    | .device => if ok then { s with phase := .acknowledging s.views none } else s.fail
    | _ => s
  | .query => match s.phase with
    | .acknowledging [] none => { s with phase := .finished true }
    | .acknowledging (view :: rest) none =>
      match s.base.tracker.query s.base.world.memory view.resource with
      | none => s.fail
      | some state =>
        { s with phase := .acknowledging (view :: rest) (some state.cpuWriteGeneration) }
    | _ => s
  | .acknowledge => match s.phase with
    | .acknowledging (view :: rest) (some generation) =>
      match s.base.tracker.acknowledgeCpuUpload s.base.world.memory view.resource
        generation with
      | (false, _) => s.fail
      | (true, tracker) =>
        { s with
          base := { s.base with tracker }
          phase := .acknowledging rest none }
    | _ => s

def run (s : PrepareSystem) (actions : List PrepareAction) : PrepareSystem :=
  StepRuns.run step s actions

/-- The views whose copying has begun and whose generation has not been asked for. -/
def unqueried (s : PrepareSystem) : List VulkanGuestBufferView :=
  match s.phase with
  | .collecting _ | .device => s.views
  | .copying view _ => view :: s.views
  | .acknowledging remaining none => remaining
  | .acknowledging remaining (some _) => remaining.tail
  | .finished _ => []

/-- No event stamped after the copying of a view began reaches the tracker before the
generation of the view is asked for. -/
def DeliversInTime (s : PrepareSystem) : PrepareAction → Prop
  | .other action =>
    ∀ event, s.base.deliveredBy action = some event → ∀ view ∈ s.unqueried,
      rangesOverlap view.guestAddress view.size event.address event.size = true →
        event.generation ≤ view.copiedSince
  | .register .. | .copyByte | .finishDevice _ | .query | .acknowledge => True

/-- Every step of the run does so. -/
def RunsInTime (s : PrepareSystem) (actions : List PrepareAction) : Prop :=
  StepRuns.Along step DeliversInTime s actions

/-! ## Views -/

/-- The copy a view holds. -/
def uploaded (view : VulkanGuestBufferView) (a : ℕ) : UInt8 :=
  view.uploadedBytes.getD (a - view.guestAddress) 0

/-- The copied bytes of a view are fresh since the copying began. -/
structure ViewValid (base : CoherenceSystem) (view : VulkanGuestBufferView) : Prop where
  resource_lt : view.resource < base.tracker.nextResourceId
  since_le : view.copiedSince ≤ base.world.memory.writeGeneration
  range : ∀ record, base.tracker.records view.resource = some record →
    record.address = view.guestAddress ∧ record.size = view.size
  fresh : ∀ i value, view.uploadedBytes[i]? = some value →
    base.Fresh view.resource view.copiedSince (view.guestAddress + i) value

/-- The tracker has heard of no write stamped since the copying of the view began. -/
def Unheard (base : CoherenceSystem) (view : VulkanGuestBufferView) : Prop :=
  ∀ record, base.tracker.records view.resource = some record →
    record.cpuWriteGeneration ≤ view.copiedSince

/-- All bytes of the view have been copied. -/
structure Copied (base : CoherenceSystem) (view : VulkanGuestBufferView) : Prop where
  valid : ViewValid base view
  complete : view.uploadedBytes.length = view.size

/-- An acknowledged view. -/
structure Acknowledged (base : CoherenceSystem) (view : VulkanGuestBufferView) : Prop where
  range : ∀ record, base.tracker.records view.resource = some record →
    record.address = view.guestAddress ∧ record.size = view.size
  resource_lt : view.resource < base.tracker.nextResourceId
  settled : base.Settled view.resource (uploaded view)

variable {s : PrepareSystem} {base base' : CoherenceSystem} {view : VulkanGuestBufferView}
  {delivered : Option GuestMemoryWriteEvent}

section

variable (ht : CoherenceSystem.Transition delivered base base')
include ht

theorem range_transition
    (hlt : view.resource < base.tracker.nextResourceId)
    (h : ∀ record, base.tracker.records view.resource = some record →
      record.address = view.guestAddress ∧ record.size = view.size) :
    ∀ record, base'.tracker.records view.resource = some record →
      record.address = view.guestAddress ∧ record.size = view.size := by
  intro record' hrec'
  obtain ⟨record, hrec, hevolves⟩ :=
    (ht.records _ _ hrec').resolve_right fun hnew => not_lt.mpr hnew.1 hlt
  rw [hevolves.address, hevolves.size]
  exact h _ hrec

theorem ViewValid.transition (h : ViewValid base view) : ViewValid base' view where
  resource_lt := lt_of_lt_of_le h.resource_lt ht.nextResourceId
  since_le := h.since_le.trans ht.generation
  range := range_transition ht h.resource_lt h.range
  fresh i _ hvalue := (h.fresh i _ hvalue).transition ht h.resource_lt h.since_le

theorem Copied.transition (h : Copied base view) : Copied base' view :=
  ⟨h.valid.transition ht, h.complete⟩

end

theorem Acknowledged.transition (hinv : base.Inv)
    (ht : CoherenceSystem.Transition delivered base base') (h : Acknowledged base view) :
    Acknowledged base' view :=
  ⟨range_transition ht h.resource_lt h.range, lt_of_lt_of_le h.resource_lt ht.nextResourceId,
    h.settled.transition hinv ht⟩

/-- Deliveries in time tell the tracker nothing new about a view. -/
theorem Unheard.transition (ht : CoherenceSystem.Transition delivered base base')
    (hvalid : ViewValid base view) (h : Unheard base view)
    (hintime : ∀ event, delivered = some event →
      rangesOverlap view.guestAddress view.size event.address event.size = true →
        event.generation ≤ view.copiedSince) : Unheard base' view := by
  intro record' hrec'
  obtain ⟨record, hrec, hevolves⟩ := (ht.records _ _ hrec').resolve_right
    fun hnew => not_lt.mpr hnew.1 hvalid.resource_lt
  rcases hevolves.heard with hsame | ⟨event, hdelivered, hover, hgen⟩
  · rw [hsame]
    exact h _ hrec
  · rw [hgen]
    obtain ⟨haddr, hsize⟩ := hvalid.range _ hrec
    rw [haddr, hsize] at hover
    exact hintime _ hdelivered hover

/-! ## The invariant -/

/-- What holds of the views in each phase. -/
def PhaseInv (base : CoherenceSystem) (views : List VulkanGuestBufferView) : PreparePhase → Prop
  | .collecting _ | .device => ∀ view ∈ views, Copied base view ∧ Unheard base view
  | .copying current _ =>
    (ViewValid base current ∧ Unheard base current ∧
      ∀ view ∈ views, view.resource ≠ current.resource) ∧
      ∀ view ∈ views, Copied base view ∧ Unheard base view
  | .acknowledging remaining queried =>
    ∃ acknowledged, views = acknowledged ++ remaining ∧
      (∀ view ∈ acknowledged, Acknowledged base view) ∧
      (∀ view ∈ remaining, Copied base view) ∧
      match queried with
      | none => ∀ view ∈ remaining, Unheard base view
      | some generation =>
        (∀ view, remaining.head? = some view → generation ≤ view.copiedSince) ∧
          ∀ view ∈ remaining.tail, Unheard base view
  | .finished ok => ok = true → ∀ view ∈ views, Acknowledged base view

/-- The mappings of the resources from some identifier on have not changed. -/
structure BaseInv (first : GpuResourceId) (base : CoherenceSystem) : Prop where
  inv : base.Inv
  next : first ≤ base.tracker.nextResourceId
  current : base.CurrentFrom first

/-- The views, with the one being copied. -/
def allViews (s : PrepareSystem) : List VulkanGuestBufferView :=
  match s.phase with
  | .copying view _ => view :: s.views
  | _ => s.views

/-- The views of a call are registered from some identifier on. -/
structure Inv (first : GpuResourceId) (s : PrepareSystem) : Prop where
  base : BaseInv first s.base
  distinct : s.views.Pairwise fun first second => first.resource ≠ second.resource
  phase : PhaseInv s.base s.views s.phase
  views : ∀ view ∈ s.allViews, first ≤ view.resource

variable {action : CoherenceAction} {snapshot : CoherenceSnapshot} {actions : List PrepareAction}
  {first : GpuResourceId}

theorem BaseInv.step (h : BaseInv first base) (action : CoherenceAction)
    (hmap : action.isMapping = false) : BaseInv first (base.step action) :=
  have ht := transition_step h.inv action
  ⟨ht.inv, h.next.trans ht.nextResourceId, h.current.step h.inv _ hmap⟩

theorem Inv.of_mem (h : s.Inv first) (hmem : view ∈ s.views) : first ≤ view.resource := by
  refine h.views _ ?_
  rw [allViews]
  split
  · exact mem_cons_of_mem _ hmem
  · exact hmem

theorem inv_other (h : s.Inv first) (hintime : s.DeliversInTime (.other action))
    (hmap : action.isMapping = false) : (s.step (.other action)).Inv first := by
  have ht := transition_step h.base.inv action
  have hkeeps : ∀ view ∈ s.unqueried, ViewValid s.base view → Unheard s.base view →
      Unheard (s.base.step action) view := fun view hmem hvalid hunheard =>
    hunheard.transition ht hvalid fun event hevent hover => hintime _ hevent _ hmem hover
  refine ⟨h.base.step action hmap, h.distinct, ?_, h.views⟩
  have hphase := h.phase
  rw [unqueried] at hkeeps
  simp only [step]
  cases hcase : s.phase with
  | collecting | device =>
    rw [hcase] at hphase hkeeps
    exact fun view hmem => ⟨(hphase _ hmem).1.transition ht,
      hkeeps _ hmem (hphase _ hmem).1.valid (hphase _ hmem).2⟩
  | copying current requests =>
    rw [hcase] at hphase hkeeps
    obtain ⟨⟨hvalid, hunheard, hother⟩, hviews⟩ := hphase
    exact ⟨⟨hvalid.transition ht, hkeeps _ mem_cons_self hvalid hunheard, hother⟩,
      fun view hmem => ⟨(hviews _ hmem).1.transition ht,
        hkeeps _ (mem_cons_of_mem _ hmem) (hviews _ hmem).1.valid
          (hviews _ hmem).2⟩⟩
  | acknowledging remaining queried =>
    rw [hcase] at hphase hkeeps
    obtain ⟨acknowledged, hsplit, hdone, hcopied, hqueried⟩ := hphase
    refine ⟨acknowledged, hsplit, fun view hmem => (hdone _ hmem).transition h.base.inv ht,
      fun view hmem => (hcopied _ hmem).transition ht, ?_⟩
    cases queried with
    | none => exact fun view hmem => hkeeps _ hmem (hcopied _ hmem).valid (hqueried _ hmem)
    | some generation =>
      exact ⟨hqueried.1, fun view hmem => hkeeps _ hmem
        (hcopied _ (mem_of_mem_tail hmem)).valid (hqueried.2 _ hmem)⟩
  | finished ok =>
    rw [hcase] at hphase
    exact fun hok view hmem => (hphase hok _ hmem).transition h.base.inv ht

/-- Failing is a sequence of `UnregisterResource` calls. -/
theorem fail_induction {motive : CoherenceSystem → Prop}
    (hunregister : ∀ base resource, motive base → motive (base.step (.unregister resource)))
    (h : motive s.base) : motive s.fail.base := by
  have hviews : ∀ (views : List VulkanGuestBufferView) (base : CoherenceSystem), motive base →
      motive { base with
        tracker := views.foldl
          (fun tracker view => (tracker.unregisterResource view.resource).2) base.tracker } := by
    intro views
    induction views with
    | nil => exact fun base hbase => hbase
    | cons view views ih =>
      intro base hbase
      exact ih _ (hunregister _ _ hbase)
  exact hviews _ _ h

/-- Failing leaves a well-formed system without views. -/
theorem inv_fail (h : BaseInv first s.base) : s.fail.Inv first :=
  ⟨fail_induction (fun _ resource hbase => hbase.step (.unregister resource) rfl) h, .nil,
    fun hok => absurd hok (by simp), fun view hmem => by simp [allViews, fail] at hmem⟩

variable {record : ResourceRecord} {requests : List BufferRequest} {resource : GpuResourceId}

theorem inv_registerNext (h : s.Inv first) (hphase : s.phase = .collecting requests)
    (alloc : Bool) (hprecedes : CoherenceSystem.Precedes snapshot s.base.world.memory) :
    (s.registerNext snapshot alloc requests).Inv first := by
  have hviews := h.phase
  rw [hphase] at hviews
  cases requests with
  | nil => exact ⟨h.base, h.distinct, hviews, fun _ => h.of_mem⟩
  | cons request requests =>
    rw [registerNext]
    split_ifs with hread hwrite
    · exact inv_fail h.base
    · exact inv_fail h.base
    have ht := transition_register h.base.inv snapshot alloc request.guestAddress request.size
    have hbase := h.base.step (.register snapshot alloc request.guestAddress request.size) rfl
    rw [CoherenceSystem.step, if_pos hprecedes] at ht hbase
    rcases registerResource_cases s.base.tracker s.base.world.memory snapshot
      alloc request.guestAddress request.size with
        hfail | ⟨record, haddr, hsize, -, hgen, -, hdone⟩
    · rw [hfail]
      exact inv_fail h.base
    rw [hdone] at ht hbase ⊢
    have hnew : ∀ record', (Function.update s.base.tracker.records
        s.base.tracker.nextResourceId (some record)) s.base.tracker.nextResourceId =
          some record' → record' = record := by
      intro record' hrec'
      rw [Function.update_self] at hrec'
      exact (Option.some.inj hrec').symm
    refine ⟨hbase, h.distinct, ⟨⟨⟨Nat.lt_succ_self _, le_rfl, ?_, ?_⟩, ?_, ?_⟩, ?_⟩,
      forall_mem_cons.mpr ⟨h.base.next, fun _ => h.of_mem⟩⟩
    · intro record' hrec'
      rw [hnew record' hrec']
      exact ⟨haddr, hsize⟩
    · intro i value hvalue
      simp at hvalue
    · intro record' hrec'
      rw [hnew record' hrec', hgen]
      exact hprecedes.1
    · exact fun view hmem => Nat.ne_of_lt (hviews _ hmem).1.valid.resource_lt
    · exact fun view hmem => ⟨(hviews _ hmem).1.transition ht,
        (hviews _ hmem).2.transition ht (hviews _ hmem).1.valid
          fun event hevent => by simp at hevent⟩

theorem inv_copyNext (h : s.Inv first)
    (hphase : s.phase = .copying view requests) : (s.copyNext view requests).Inv first := by
  have hview : first ≤ view.resource := h.views _ (by simp [allViews, hphase])
  have hviews := h.phase
  rw [hphase] at hviews
  obtain ⟨⟨hvalid, hunheard, hother⟩, hviews⟩ := hviews
  rw [copyNext]
  split_ifs with hcomplete
  · refine ⟨h.base, ?_, fun other hmem => ?_,
      forall_mem_append.mpr ⟨fun _ => h.of_mem, forall_mem_singleton.mpr hview⟩⟩
    · refine pairwise_append.mpr ⟨h.distinct, pairwise_singleton _ _, ?_⟩
      intro first hfirst second hsecond
      rw [mem_singleton.mp hsecond]
      exact hother first hfirst
    · rcases mem_append.mp hmem with hmem | hmem
      · exact hviews _ hmem
      · rw [mem_singleton.mp hmem]
        exact ⟨⟨hvalid, hcomplete⟩, hunheard⟩
  · split
    · rename_i value hread
      refine ⟨h.base, h.distinct, ⟨⟨⟨hvalid.resource_lt, hvalid.since_le, hvalid.range, ?_⟩,
        hunheard, hother⟩, hviews⟩, forall_mem_cons.mpr ⟨hview, fun _ => h.of_mem⟩⟩
      intro i byte hbyte
      rw [getElem?_append] at hbyte
      split_ifs at hbyte with hi
      · exact hvalid.fresh i _ hbyte
      -- The byte just read.
      obtain ⟨rfl, rfl⟩ : i = view.uploadedBytes.length ∧ byte = value := by
        cases hindex : i - view.uploadedBytes.length with
        | zero =>
          rw [hindex] at hbyte
          exact ⟨by omega, by simpa using hbyte.symm⟩
        | succ n => rw [hindex] at hbyte; simp at hbyte
      rw [MemoryWorld.read_eq h.base.inv.world] at hread
      split_ifs at hread
      have hvalue : [s.base.world.byteAt (view.guestAddress + view.uploadedBytes.length)] =
        [byte] := Option.some.inj hread
      intro record _ _ _
      exact .inl (List.cons.inj hvalue).1.symm
    · exact inv_fail (h.base.step (.unregister _) rfl)

/-! ## Acknowledging -/

theorem BaseInv.acknowledged (h : BaseInv first base)
    (hrec : base.tracker.records resource = some record) :
    BaseInv first (acknowledged base resource record) where
  inv := inv_acknowledged hrec h.inv
  next := h.next
  current other record' hfirst hrec' := by
    obtain ⟨before, hpre, heq, -⟩ := records_acknowledged hrec hrec'
    rw [heq]
    exact h.current _ before hfirst hpre

theorem ViewValid.acknowledged (h : ViewValid base view)
    (hrec : base.tracker.records resource = some record) :
    ViewValid (acknowledged base resource record) view where
  __ := h
  range record' hrec' := by
    obtain ⟨before, hpre, heq, -⟩ := records_acknowledged hrec hrec'
    rw [heq]
    exact h.range before hpre
  fresh i value hvalue := fresh_acknowledged hrec (h.fresh i value hvalue)

theorem Unheard.acknowledged (h : Unheard base view)
    (hrec : base.tracker.records resource = some record) :
    Unheard (acknowledged base resource record) view := by
  intro record' hrec'
  obtain ⟨before, hpre, heq, -⟩ := records_acknowledged hrec hrec'
  rw [heq]
  exact h before hpre

theorem Acknowledged.acknowledged (h : Acknowledged base view)
    (hrec : base.tracker.records resource = some record) (hother : view.resource ≠ resource) :
    Acknowledged (acknowledged base resource record) view where
  range record' hrec' := by
    obtain ⟨before, hpre, heq, -⟩ := records_acknowledged hrec hrec'
    rw [heq]
    exact h.range before hpre
  resource_lt := h.resource_lt
  settled := settled_acknowledged hrec hother h.settled

/-- Acknowledging a generation no newer than the copy settles the view. -/
theorem Copied.acknowledged_self (h : Copied base view)
    (hrec : base.tracker.records view.resource = some record)
    (hprecise : record.cpuGenerationPrecise = true)
    (hle : record.cpuWriteGeneration ≤ view.copiedSince) :
    Acknowledged (acknowledged base view.resource record) view where
  range := (h.valid.acknowledged hrec).range
  resource_lt := h.valid.resource_lt
  settled := by
    refine settled_acknowledged_self hrec hprecise fun a ha => ?_
    obtain ⟨haddr, hsize⟩ := h.valid.range _ hrec
    rw [haddr, InRange] at ha
    have hlt : a - view.guestAddress < view.uploadedBytes.length := by
      rw [h.complete]
      omega
    have hvalue : view.uploadedBytes[a - view.guestAddress]? = some (uploaded view a) := by
      rw [uploaded, getD_eq_getElem?_getD, getElem?_eq_getElem hlt]
      rfl
    have hfresh := (h.valid.fresh _ _ hvalue).anti hle
    rwa [Nat.add_sub_cancel' ha.1] at hfresh

theorem inv_finishDevice (h : s.Inv first) (ok : Bool) : (s.step (.finishDevice ok)).Inv first := by
  rw [step]
  split
  · rename_i hphase
    have hviews := h.phase
    rw [hphase] at hviews
    split_ifs
    · exact ⟨h.base, h.distinct, ⟨[], rfl, by simp, fun view hmem => (hviews _ hmem).1,
        fun view hmem => (hviews _ hmem).2⟩, fun _ => h.of_mem⟩
    · exact inv_fail h.base
  · exact h

theorem inv_query (h : s.Inv first) : (s.step .query).Inv first := by
  rw [step]
  split
  · rename_i hphase
    have hviews := h.phase
    rw [hphase] at hviews
    obtain ⟨acknowledged, hsplit, hdone, -, -⟩ := hviews
    rw [append_nil] at hsplit
    exact ⟨h.base, h.distinct, fun _ => by rw [hsplit]; exact hdone, fun _ => h.of_mem⟩
  · rename_i view rest hphase
    have hviews := h.phase
    rw [hphase] at hviews
    obtain ⟨acknowledged, hsplit, hdone, hcopied, hunheard⟩ := hviews
    rw [GpuResourceCoherence.query]
    cases hrec : s.base.tracker.records view.resource with
    | none => exact inv_fail h.base
    | some record =>
      refine ⟨h.base, h.distinct, ⟨acknowledged, hsplit, hdone, hcopied, ?_,
        fun other hmem => hunheard _ (mem_cons_of_mem _ hmem)⟩, fun _ => h.of_mem⟩
      intro other hother
      cases hother
      exact hunheard _ mem_cons_self _ hrec
  · exact h

theorem inv_acknowledge (h : s.Inv first) : (s.step .acknowledge).Inv first := by
  rw [step]
  split
  · rename_i view rest generation hphase
    have hviews := h.phase
    rw [hphase] at hviews
    obtain ⟨acknowledged, hsplit, hdone, hcopied, hqueried, hunheard⟩ := hviews
    rcases acknowledgeCpuUpload_cases s.base.tracker s.base.world.memory
      view.resource generation with hfail | ⟨record, hrec, hprecise, hgen, hdone'⟩
    · rw [hfail]
      exact inv_fail h.base
    rw [hdone']
    have hdistinct := h.distinct
    rw [hsplit] at hdistinct
    have hothers := (pairwise_append.mp hdistinct).2.2
    refine ⟨h.base.acknowledged hrec, h.distinct,
      ⟨acknowledged ++ [view], by simpa using hsplit, fun other hmem => ?_,
        fun other hmem => ?_, fun other hmem => ?_⟩, fun _ => h.of_mem⟩
    · rcases mem_append.mp hmem with hmem | hmem
      · exact (hdone _ hmem).acknowledged hrec (hothers _ hmem _ mem_cons_self)
      · rw [mem_singleton.mp hmem]
        refine (hcopied view mem_cons_self).acknowledged_self hrec hprecise ?_
        rw [hgen]
        exact hqueried _ rfl
    · have hother := hcopied _ (mem_cons_of_mem _ hmem)
      exact ⟨hother.valid.acknowledged hrec, hother.complete⟩
    · exact (hunheard _ hmem).acknowledged hrec
  · exact h

theorem inv_step (h : s.Inv first) {action : PrepareAction} (hintime : s.DeliversInTime action)
    (hmap : action.isMapping = false) : (s.step action).Inv first := by
  cases action with
  | other action => exact inv_other h hintime hmap
  | register snapshot alloc =>
    rw [step]
    split
    · rename_i requests hphase
      split_ifs with hprecedes
      · exact inv_registerNext h hphase _ hprecedes
      · exact h
    · exact h
  | copyByte =>
    rw [step]
    split
    · rename_i view requests hphase
      exact inv_copyNext h hphase
    · exact h
  | finishDevice ok => exact inv_finishDevice h _
  | query => exact inv_query h
  | acknowledge => exact inv_acknowledge h

theorem inv_run (h : s.Inv first) (hintime : s.RunsInTime actions)
    (hmap : ∀ action ∈ actions, action.isMapping = false) : (s.run actions).Inv first :=
  StepRuns.run_along (P := Inv first) step
    (fun _ action hmem hintime hs => inv_step hs hintime (hmap action hmem)) h hintime

/-- In every run of a `Prepare` call among the steps of any number of writers, from any
state the system can be in, in which no event stamped after the copying of a view
began reaches the tracker before the generation of the view is asked for: when the
call has succeeded, each view whose record needs no upload holds the bytes in guest
memory, or an event that overlaps it has not been delivered. -/
theorem prepared_or_undelivered {baseAddress size : ℕ} {initialProtection : GuestMemoryProtection}
    {m : GuestMemory} (hcreate : GuestMemory.create baseAddress size initialProtection = some m)
    (backings : Backings) (threads : ℕ) (earlier : List CoherenceAction)
    (requests : List BufferRequest) {actions : List PrepareAction}
    (hmapping : ∀ action ∈ actions, action.isMapping = false)
    (hintime : (create ((CoherenceSystem.create m backings threads).run earlier)
      requests).RunsInTime actions) :
    let s := (create ((CoherenceSystem.create m backings threads).run earlier) requests).run actions
    s.phase = .finished true → ∀ view ∈ s.views, ∀ record,
      s.base.tracker.records view.resource = some record → record.needsCpuUpload = false →
        (∀ a, InRange view.guestAddress view.size a → uploaded view a = s.base.world.byteAt a) ∨
        ∃ a, InRange view.guestAddress view.size a ∧ s.base.Undelivered (fun _ => True) a := by
  intro s hphase view hmem record hrecord hclean
  have hbase := CoherenceSystem.inv_run (CoherenceSystem.inv_create hcreate backings threads)
    earlier
  have hstart : Inv _ (create ((CoherenceSystem.create m backings threads).run earlier) requests) :=
    ⟨⟨hbase, le_rfl, fun resource record hfirst hrecord =>
      absurd (hbase.records _ _ hrecord).resource_lt (not_lt.mpr hfirst)⟩, .nil,
      fun view hmem => by simp [create] at hmem,
      fun view hmem => by simp [create, allViews] at hmem⟩
  have hinv := inv_run hstart hintime hmapping
  have hviews := hinv.phase
  have hphase' : (run (create ((CoherenceSystem.create m backings threads).run earlier) requests)
    actions).phase = .finished true := hphase
  rw [hphase'] at hviews
  have hdone := hviews rfl _ hmem
  obtain ⟨haddress, hsize⟩ := hdone.range _ hrecord
  have hcurrent := hinv.base.current _ _ (hinv.of_mem hmem) hrecord
  by_cases howed : ∃ a, InRange view.guestAddress view.size a ∧ s.base.Undelivered (fun _ => True) a
  · exact .inr howed
  · refine .inl fun a ha => ?_
    refine (hdone.settled.byteAt_or_undelivered hrecord hcurrent hclean
      (by rwa [haddress, hsize])).resolve_right ?_
    exact fun hnewer => howed ⟨a, ha, hnewer.of_accept fun _ _ => trivial⟩

/-- A writer stores the byte 7 and delivers its event. -/
def writeSeven : List PrepareAction :=
  [.other (.beginStore 0), .other (.store 0 false (fun _ _ => true) (.write 0x1000 [7])),
    .other (.finishStore 0), .other (.assign 0), .other (.deliver 0)]

/-- `Prepare` copies one byte up to the device calls, and goes on after them. -/
def copyOne : List PrepareAction :=
  [.register ⟨{}, false⟩ true, .copyByte, .copyByte, .register ⟨{}, false⟩ true]

def acknowledgeOne : List PrepareAction := [.finishDevice true, .query, .acknowledge, .query]

def oneByte : BufferRequest := ⟨0x1000, 1, true, false⟩

/-- The write before the copy is in it. -/
theorem prepared_or_undelivered_early_write :
    ∃ m, GuestMemory.create 0x1000 0x8000 (kRead ||| kWrite ||| kGpuRead) = some m ∧
      let s := (create ((CoherenceSystem.create m (fun _ => .create 0) 1).run []) [oneByte]).run
        (writeSeven ++ copyOne ++ acknowledgeOne)
      ∃ view record, s.views = [view] ∧ s.base.tracker.records view.resource = some record ∧
        record.needsCpuUpload = false ∧ view.uploadedBytes = [7] ∧
        ((∀ a, InRange view.guestAddress view.size a → uploaded view a = s.base.world.byteAt a) ∨
          ∃ a, InRange view.guestAddress view.size a ∧ s.base.Undelivered (fun _ => True) a) := by
  have hcreate : GuestMemory.create 0x1000 0x8000 (kRead ||| kWrite ||| kGpuRead) = some _ := rfl
  refine ⟨_, hcreate, _, _, rfl, rfl, rfl, rfl, ?_⟩
  refine prepared_or_undelivered hcreate (fun _ => .create 0) 1 [] [oneByte] ?_ ?_ rfl _
    mem_cons_self _ rfl rfl
  · simp [writeSeven, copyOne, acknowledgeOne, PrepareAction.isMapping, CoherenceAction.isMapping]
  · -- No view has been collected when the event is delivered.
    refine ⟨?_, ?_, ?_, ?_, ?_, trivial, trivial, trivial, trivial, trivial, trivial, trivial,
      trivial, trivial⟩ <;> exact fun event hevent view hmem => absurd hmem not_mem_nil

/-- The write between the copy and the question is acknowledged without being in the
copy, and nothing is left to tell the tracker. -/
theorem acknowledged_without_late_write :
    ∃ m, GuestMemory.create 0x1000 0x8000 (kRead ||| kWrite ||| kGpuRead) = some m ∧
      let s := (create ((CoherenceSystem.create m (fun _ => .create 0) 1).run []) [oneByte]).run
        (copyOne ++ writeSeven ++ acknowledgeOne)
      s.phase = .finished true ∧
      (∃ view record, s.views = [view] ∧ s.base.tracker.records view.resource = some record ∧
        record.needsCpuUpload = false ∧ view.guestAddress = 0x1000 ∧ view.size = 1 ∧
        uploaded view 0x1000 = 0 ∧ s.base.world.byteAt 0x1000 = 7) ∧
      ¬ ∃ a, s.base.Undelivered (fun _ => True) a := by
  refine ⟨_, rfl, rfl, ⟨_, _, rfl, rfl, rfl, rfl, rfl, rfl, rfl⟩, ?_⟩
  rintro ⟨a, u, writer, hu, howes⟩
  have hidle : ([.notifying [] none] : List Writer)[u]? = some writer := hu
  obtain rfl := mem_singleton.mp (mem_of_getElem? hidle)
  rcases howes with ⟨r, hr, -⟩ | ⟨e, he, -⟩
  · simp at hr
  · simp at he

end PrepareSystem

end KajPS5.Gpu
