/-
# Several queues on one action bridge

Each queue issues the actions of its program in order and issues an action again
while the bridge answers `kBlocked`. The backend is free in its answers. Two things
are counted for every occurrence of an action in a program: how often its work was
handed to the device, and whether the bridge answered `kComplete` for it.

The bridge has one slot, so an occurrence runs once only if nothing else is executed
while its work is retained: `Serial` states this for one call, and
`completed_executed_once` says that it suffices over whole runs.
-/

import Mathlib.Order.Nat
import KajPS5.Gpu.ActionBridge
import KajPS5.Math.StepRuns

namespace KajPS5.Gpu

open Math VulkanActionBridge BackendAnswer Function

/-- A queue and the index of an action in its program. -/
abbrev Occurrence := ℕ × ℕ

/-- One call to `Submit` by a queue. -/
structure SubmitCall where
  queue : ℕ
  answers : BackendAnswers
  downstream : GpuCommandStatus

structure ActionQueues where
  bridge : VulkanActionBridge
  position : ℕ → ℕ
  executions : Occurrence → ℕ
  completed : Occurrence → Bool

namespace ActionQueues

/-- All queues at the start of their programs, and the bridge just enabled. -/
def create : ActionQueues where
  bridge := enable true {}
  position _ := 0
  executions _ := 0
  completed _ := false

/-- The occurrence a queue issues next. -/
def current (s : ActionQueues) (queue : ℕ) : Occurrence := (queue, s.position queue)

/-- A call hands the action's work to the device. -/
def starts (bridge : VulkanActionBridge) (answers : BackendAnswers) (action : GpuAction) : Bool :=
  bridge.enabled && action.isWork && !bridge.sameAction action && answers.startsWork action

variable (program : Occurrence → GpuAction)

/-- A queue submits its next action and goes on unless it is told to come again. -/
def step (s : ActionQueues) (call : SubmitCall) : ActionQueues :=
  let occurrence := s.current call.queue
  let action := program occurrence
  let reply := s.bridge.submit call.answers call.downstream action
  { bridge := reply.2
    position :=
      if reply.1 = .kBlocked then s.position
      else Function.update s.position call.queue (occurrence.2 + 1)
    executions := Function.update s.executions occurrence
      (s.executions occurrence + (starts s.bridge call.answers action).toNat)
    completed := Function.update s.completed occurrence
      (s.completed occurrence || reply.1 = .kComplete) }

def run (s : ActionQueues) (calls : List SubmitCall) : ActionQueues :=
  StepRuns.run (step program) s calls

/-- The calls during which no occurrence can lose track of its work. The next sink does
not ask for the action again; with nothing retained the backend starts the work or
fails it; and while another occurrence is retained nothing is started or given up. -/
def Serial (s : ActionQueues) (call : SubmitCall) : Prop :=
  let action := program (s.current call.queue)
  action.isWork = true → call.downstream ≠ .kBlocked ∧
    (s.bridge.blockedAction = none → call.answers.executeAnswer action ≠ .pending) ∧
    (s.bridge.blockedAction ≠ none → s.executions (s.current call.queue) = 0 →
      if s.bridge.sameAction action then call.answers.pollAnswer action = .running
      else call.answers.executeAnswer action = .pending)

/-- Every call of a run is serial in the state it finds. -/
def RunsSerial (s : ActionQueues) (calls : List SubmitCall) : Prop :=
  StepRuns.Along (step program) (Serial program) s calls

/-! ## The slot belongs to the occurrence whose work is retained -/

/-- The invariant, in the parts of the state it speaks of. -/
structure Inv (slot : Option GpuAction) (position : ℕ → ℕ) (executions : Occurrence → ℕ)
    (completed : Occurrence → Bool) : Prop where
  once : ∀ o, executions o ≤ 1
  done : ∀ o, (program o).isWork = true → completed o = true → executions o = 1
  work : ∀ o, executions o ≠ 0 → (program o).isWork = true
  future : ∀ queue index, position queue < index → executions (queue, index) = 0
  undone : ∀ queue index, position queue ≤ index → completed (queue, index) = false
  retained : ∀ queue, executions (queue, position queue) ≠ 0 →
    slot = some (program (queue, position queue))
  alone : ∀ queue other, executions (queue, position queue) ≠ 0 →
    executions (other, position other) ≠ 0 → queue = other

variable {program} {slot : Option GpuAction} {position : ℕ → ℕ} {executions : Occurrence → ℕ}
  {completed : Occurrence → Bool}

/-- A queue leaves its current action with a final count and a final answer. -/
theorem Inv.advance (h : Inv program slot position executions completed) {slot' : Option GpuAction}
    (queue count : ℕ) (answered : Bool)
    (hslot : ∀ other ≠ queue, executions (other, position other) ≠ 0 → slot' = slot)
    (hcount : count ≤ 1) (hwork : count ≠ 0 → (program (queue, position queue)).isWork = true)
    (hdone : (program (queue, position queue)).isWork = true → answered = true → count = 1) :
    Inv program slot' (Function.update position queue (position queue + 1))
      (Function.update executions (queue, position queue) count)
      (Function.update completed (queue, position queue) answered) := by
  have hmoved : position ≤ update position queue (position queue + 1) :=
    le_update_self_iff.mpr (Nat.le_succ _)
  have hkey : ∀ q i, update position queue (position queue + 1) q ≤ i →
      (q, i) ≠ (queue, position queue) := by
    rintro q i hle ⟨⟩
    rw [update_self] at hle
    omega
  have hcur : ∀ other, update executions (queue, position queue) count
      (other, update position queue (position queue + 1) other) ≠ 0 →
      other ≠ queue ∧ executions (other, position other) ≠ 0 := by
    intro other hne
    rw [update_of_ne (hkey _ _ le_rfl)] at hne
    have hother : other ≠ queue := by
      rintro rfl
      exact hne (h.future _ _ (by simp))
    rw [update_of_ne hother] at hne
    exact ⟨hother, hne⟩
  refine ⟨?_, fun o => ?_, ?_, fun q i hlt => ?_, fun q i hle => ?_, fun other hne => ?_,
    fun first second hfirst hsecond => ?_⟩
  · exact (forall_update_iff _ fun _ n => n ≤ 1).mpr ⟨hcount, fun o _ => h.once o⟩
  · by_cases ho : o = (queue, position queue)
    · rw [ho, update_self, update_self]
      exact hdone
    · rw [update_of_ne ho, update_of_ne ho]
      exact h.done o
  · exact (forall_update_iff _ fun o n => n ≠ 0 → (program o).isWork = true).mpr
      ⟨hwork, fun o _ => h.work o⟩
  · rw [update_of_ne (hkey q i hlt.le)]
    exact h.future q i ((hmoved q).trans_lt hlt)
  · rw [update_of_ne (hkey q i hle)]
    exact h.undone q i ((hmoved q).trans hle)
  · obtain ⟨hother, hexec⟩ := hcur _ hne
    rw [hslot _ hother hexec, update_of_ne hother]
    exact h.retained _ hexec
  · exact h.alone first second (hcur first hfirst).2 (hcur _ hsecond).2

/-- A queue's work starts while nothing is retained, and is retained itself. -/
theorem Inv.start (h : Inv program none position executions completed) (queue : ℕ)
    (hwork : (program (queue, position queue)).isWork = true) :
    Inv program (some (program (queue, position queue))) position
      (Function.update executions (queue, position queue) 1) completed := by
  have hfree : ∀ other, executions (other, position other) = 0 := fun other =>
    of_not_not fun hne => by simpa using h.retained _ hne
  have hcur : ∀ other, update executions (queue, position queue) 1
      (other, position other) ≠ 0 → other = queue := by
    intro other hne
    by_contra hother
    rw [update_of_ne (by simp [hother])] at hne
    exact hne (hfree _)
  refine ⟨?_, ?_, ?_, fun q i hlt => ?_, h.undone, fun other hne => ?_,
    fun first second hfirst hsecond => ?_⟩
  · exact (forall_update_iff _ fun _ n => n ≤ 1).mpr ⟨le_rfl, fun o _ => h.once o⟩
  · exact (forall_update_iff _ fun o n => (program o).isWork = true →
      completed o = true → n = 1).mpr ⟨fun _ _ => rfl, fun o _ => h.done o⟩
  · exact (forall_update_iff _ fun o n => n ≠ 0 → (program o).isWork = true).mpr
      ⟨fun _ => hwork, fun o _ => h.work o⟩
  · rw [update_of_ne]
    · exact h.future q i hlt
    · rintro ⟨⟩
      omega
  · rw [hcur _ hne]
  · rw [hcur first hfirst, hcur _ hsecond]

/-! ## Steps and runs -/

/-- A state of the system in which the bridge is enabled and the invariant holds. -/
structure Valid (program : Occurrence → GpuAction) (s : ActionQueues) : Prop where
  enabled : s.bridge.enabled = true
  inv : Inv program s.bridge.blockedAction s.position s.executions s.completed

theorem valid_create (program : Occurrence → GpuAction) : Valid program create where
  enabled := rfl
  inv :=
    { once := fun _ => Nat.zero_le 1
      done := fun _ _ hdone => absurd hdone Bool.false_ne_true
      work := fun _ hne => absurd rfl hne
      future := fun _ _ _ => rfl
      undone := fun _ _ _ => rfl
      retained := fun _ hne => absurd rfl hne
      alone := fun _ _ hne => absurd rfl hne }

variable {s : ActionQueues} {call : SubmitCall}

/-- A call that starts nothing and is to be repeated changes the slot at most. -/
theorem Valid.stay (hs : Valid program s)
    (hreply : (s.bridge.submit call.answers call.downstream
      (program (s.current call.queue))).1 = .kBlocked)
    (hslot : (s.bridge.submit call.answers call.downstream
      (program (s.current call.queue))).2.blockedAction = s.bridge.blockedAction)
    (hstarts : starts s.bridge call.answers (program (s.current call.queue)) = false) :
    Valid program (step program s call) := by
  refine ⟨(enabled_submit ..).trans hs.enabled, ?_⟩
  simp only [step, hreply, hslot, hstarts, Bool.toNat_false, Nat.add_zero, reduceCtorEq,
    decide_false, Bool.or_false, update_eq_self]
  exact hs.inv

/-- A call that is not to be repeated ends the current action. -/
theorem Valid.leave (hs : Valid program s)
    (hreply : (s.bridge.submit call.answers call.downstream
      (program (s.current call.queue))).1 ≠ .kBlocked)
    (hslot : ∀ other ≠ call.queue, s.executions (s.current other) ≠ 0 →
      (s.bridge.submit call.answers call.downstream
        (program (s.current call.queue))).2.blockedAction = s.bridge.blockedAction)
    (hcount : s.executions (s.current call.queue) = 0 ∨
      starts s.bridge call.answers (program (s.current call.queue)) = false)
    (hdone : (program (s.current call.queue)).isWork = true →
      (s.bridge.submit call.answers call.downstream
        (program (s.current call.queue))).1 = .kComplete →
      s.executions (s.current call.queue) = 1 ∨
        starts s.bridge call.answers (program (s.current call.queue)) = true) :
    Valid program (step program s call) := by
  refine ⟨(enabled_submit ..).trans hs.enabled, ?_⟩
  have honce := hs.inv.once (s.current call.queue)
  have hundone : s.completed (s.current call.queue) = false := hs.inv.undone _ _ (Nat.le_refl _)
  have hwork : starts s.bridge call.answers (program (s.current call.queue)) = true →
      (program (s.current call.queue)).isWork = true := by
    simp only [starts, Bool.and_eq_true]
    exact fun h => h.1.1.2
  simp only [step, hreply, hundone]
  refine hs.inv.advance _ _ _ hslot ?_ ?_ ?_
  · rcases hcount with h | h <;> rw [h]
    · simpa using Bool.toNat_le _
    · simpa using honce
  · intro hne
    by_cases hexec : s.executions (s.current call.queue) = 0
    · rw [hexec] at hne
      exact hwork (by simpa using hne)
    · exact hs.inv.work _ hexec
  · intro hkind hcomplete
    rcases hcount with hzero | hnot <;>
      rcases hdone hkind (by simpa using hcomplete) with h | h <;> simp_all

variable {action : GpuAction} {answers : BackendAnswers}

theorem starts_of_sameAction {bridge : VulkanActionBridge} (h : bridge.sameAction action = true)
    (answers : BackendAnswers) : starts bridge answers action = false := by
  simp [starts, h]

/-- Completed and running work has reached the device. -/
theorem startsWork_of_answer
    (h : answers.executeAnswer action = .completed ∨ answers.executeAnswer action = .running) :
    answers.startsWork action = true := by
  unfold BackendAnswers.startsWork
  cases hprepare : prepareVulkanAction answers action with
  | error _ => simp [BackendAnswers.executeAnswer, hprepare] at h
  | ok _ => rcases h with h | h <;> simp [h]

/-- Refused work has not. -/
theorem startsWork_of_pending (h : answers.executeAnswer action = .pending) :
    answers.startsWork action = false := by
  unfold BackendAnswers.startsWork
  cases prepareVulkanAction answers action with
  | error _ => rfl
  | ok _ => simp [h]

section

variable (hs : Valid program s)
include hs

/-- The retained occurrence comes again and is polled. -/
theorem Valid.poll (hdownstream : call.downstream ≠ .kBlocked)
    (hexec : s.executions (s.current call.queue) ≠ 0) : Valid program (step program s call) := by
  have hwork := hs.inv.work _ hexec
  have hslot := hs.inv.retained _ hexec
  have hsame := sameAction_self hslot
  have hstarts := starts_of_sameAction hsame call.answers
  obtain ⟨hreply, hslot'⟩ := submit_work hs.enabled hwork call.answers call.downstream
  have hone : s.executions (s.current call.queue) = 1 :=
    Nat.le_antisymm (hs.inv.once _) (Nat.one_le_iff_ne_zero.mpr hexec)
  have halone : ∀ other ≠ call.queue, s.executions (s.current other) = 0 := fun other hother =>
    of_not_not fun hne => hother (hs.inv.alone _ _ hne hexec)
  cases hans : s.bridge.answer call.answers (program (s.current call.queue)) with
  | running | pending =>
    rw [hans] at hreply hslot'
    refine hs.stay hreply (hslot'.trans ?_) hstarts
    rw [hslot]
    rfl
  | completed | failed =>
    rw [hans] at hreply hslot'
    refine hs.leave ?_ (fun other hother hne => absurd (halone _ hother) hne)
      (.inr hstarts) (fun _ _ => .inl hone)
    rw [hreply]
    simp [reply, hdownstream]

/-- An occurrence is executed while nothing is retained. -/
theorem Valid.execute (hdownstream : call.downstream ≠ .kBlocked)
    (hwork : (program (s.current call.queue)).isWork = true) (hfree : s.bridge.blockedAction = none)
    (hpend : call.answers.executeAnswer (program (s.current call.queue)) ≠ .pending) :
    Valid program (step program s call) := by
  have hsame : s.bridge.sameAction (program (s.current call.queue)) = false := by
    simp [sameAction, hfree]
  have hnone : ∀ other, s.executions (s.current other) = 0 := fun other =>
    of_not_not fun hne => by simpa [hfree] using hs.inv.retained _ hne
  obtain ⟨hreply, hslot⟩ := submit_work hs.enabled hwork call.answers call.downstream
  have hstarts : starts s.bridge call.answers (program (s.current call.queue)) =
      call.answers.startsWork (program (s.current call.queue)) := by
    simp [starts, hs.enabled, hwork, hsame]
  have hans : s.bridge.answer call.answers (program (s.current call.queue)) =
      call.answers.executeAnswer (program (s.current call.queue)) := by
    simp [answer, hsame]
  rw [hans] at hreply hslot
  cases hexecute : call.answers.executeAnswer (program (s.current call.queue)) with
  | pending => exact absurd hexecute hpend
  | running =>
    have hstarted := startsWork_of_answer (.inr hexecute)
    refine ⟨(enabled_submit ..).trans hs.enabled, ?_⟩
    rw [hexecute] at hreply hslot
    have hinv := hs.inv
    rw [hfree] at hinv hslot
    simp only [step, hreply, hslot, hstarts, hstarted, hnone, reply, reduceCtorEq, decide_false,
      Bool.or_false, update_eq_self]
    exact hinv.start _ hwork
  | completed =>
    refine hs.leave ?_ (fun other _ hne => absurd (hnone other) hne) (.inl (hnone _))
      (fun _ _ => .inr (hstarts.trans (startsWork_of_answer (.inl hexecute))))
    rw [hreply, hexecute]
    exact hdownstream
  | failed =>
    rw [hexecute] at hreply
    refine hs.leave ?_ (fun other _ hne => absurd (hnone other) hne) (.inl (hnone _)) ?_
    · rw [hreply]
      simp [reply]
    · intro _ hcomplete
      rw [hreply] at hcomplete
      simp [reply] at hcomplete

/-- An occurrence comes while another one is retained, and is put off. -/
theorem Valid.putOff
    (hwork : (program (s.current call.queue)).isWork = true)
    (hbusy : s.bridge.blockedAction ≠ none)
    (hans : if s.bridge.sameAction (program (s.current call.queue)) then
        call.answers.pollAnswer (program (s.current call.queue)) = .running
      else call.answers.executeAnswer (program (s.current call.queue)) = .pending) :
    Valid program (step program s call) := by
  obtain ⟨hreply, hslot⟩ := submit_work hs.enabled hwork call.answers call.downstream
  obtain ⟨retained, hretained⟩ := Option.ne_none_iff_exists'.mp hbusy
  rw [hretained] at hslot
  split_ifs at hans with hsame
  · simp only [answer, hsame, hans] at hreply hslot
    exact hs.stay hreply (hslot.trans hretained.symm) (starts_of_sameAction hsame _)
  · simp only [answer, hsame, hans] at hreply hslot
    refine hs.stay hreply (hslot.trans hretained.symm) ?_
    simp [starts, startsWork_of_pending hans]

theorem valid_step (hserial : Serial program s call) : Valid program (step program s call) := by
  by_cases hwork : (program (s.current call.queue)).isWork = true
  · obtain ⟨hdownstream, hfree, hbusy⟩ := hserial hwork
    by_cases hexec : s.executions (s.current call.queue) = 0
    · by_cases hslot : s.bridge.blockedAction = none
      · exact hs.execute hdownstream hwork hslot (hfree hslot)
      · exact hs.putOff hwork hslot (hbusy hslot hexec)
    · exact hs.poll hdownstream hexec
  · have hsubmit := submit_not_work (by simpa using hwork) call.answers call.downstream s.bridge
    have hstarts : starts s.bridge call.answers (program (s.current call.queue)) = false := by
      simp [starts, hwork]
    by_cases hblock : call.downstream = .kBlocked
    · exact hs.stay (by rw [hsubmit, hblock]) (by rw [hsubmit]) hstarts
    · exact hs.leave (by rwa [hsubmit]) (fun _ _ _ => by rw [hsubmit]) (.inr hstarts)
        (fun h => absurd h hwork)

end

/-- In a run of serial calls no work reaches the device twice, and the work of an action
that is answered `kComplete` has reached it. -/
theorem completed_executed_once (program : Occurrence → GpuAction) (calls : List SubmitCall)
    (hserial : RunsSerial program create calls) (occurrence : Occurrence)
    (hwork : (program occurrence).isWork = true) :
    ((run program create calls).completed occurrence = true →
        (run program create calls).executions occurrence = 1) ∧
      (run program create calls).executions occurrence ≤ 1 := by
  have hvalid : Valid program (run program create calls) :=
    StepRuns.run_along _ (fun _ _ _ hserial hs => valid_step hs hserial) (valid_create program)
      hserial
  exact ⟨hvalid.inv.done _ hwork, hvalid.inv.once _⟩

/-- A registered dispatch in the command buffer of a queue. -/
def dispatchOf (occurrence : Occurrence) : GpuAction where
  type := .kDispatch
  packetAddress := .ofNat 64 (0x1000 * occurrence.1 + 0x20 * occurrence.2)
  packetDwords := 5
  opcode := 0x15
  shaderBindings := (Vector.replicate _ {}).set 0
    { stage := .kCompute, status := .kRegistered, codeAddress := 0x10000 }
  shaderBindingCount := 1
  render := { status := .kReady, groupCountX := 1, groupCountY := 1, groupCountZ := 1 }

/-- The backend answers with the given statuses. -/
def answering (draw : VulkanGraphicsStatus) (compute : VulkanComputeStatus) (retained : ℕ) :
    BackendAnswers where
  hasVulkanContext := true
  recompileRegisteredShader _ _ := none
  submitVulkanTranslatedDraw := { status := draw }
  submitVulkanTranslatedCompute := { status := compute }
  pollVulkanGraphics := { status := .kOk, retainedSubmissionCount := retained }
  pollVulkanCompute := { status := .kOk, retainedSubmissionCount := retained }
  throws := false
  queuedBeforeFailure := false

/-- A dispatch that outlasts its fence is polled to its end, then another queue's runs. -/
def polledCalls : List SubmitCall :=
  [⟨0, answering .kOk .kFenceWaitTimedOut 1, .kComplete⟩,
    ⟨0, answering .kOk .kOk 0, .kComplete⟩, ⟨1, answering .kOk .kOk 0, .kComplete⟩]

theorem completed_executed_once_polled :
    (run dispatchOf create polledCalls).completed (0, 0) = true ∧
      (((run dispatchOf create polledCalls).completed (0, 0) = true →
        (run dispatchOf create polledCalls).executions (0, 0) = 1) ∧
      (run dispatchOf create polledCalls).executions (0, 0) ≤ 1) := by
  refine ⟨rfl, completed_executed_once dispatchOf polledCalls ?_ (0, 0) rfl⟩
  refine ⟨fun _ => ⟨?_, ?_, ?_⟩, fun _ => ⟨?_, ?_, ?_⟩, fun _ => ⟨?_, ?_, ?_⟩, trivial⟩
  · decide
  · exact fun _ => by decide
  · exact fun h => absurd rfl h
  · decide
  · exact fun h => absurd h (by decide)
  · exact fun _ h => absurd h (by decide)
  · decide
  · exact fun _ => by decide
  · exact fun h => absurd rfl h

/-- A draw of registered programs with an opaque one-sample target. -/
def drawOf (occurrence : Occurrence) : GpuAction where
  type := .kDraw
  packetAddress := .ofNat 64 (0x1000 * occurrence.1 + 0x20 * occurrence.2)
  packetDwords := 3
  opcode := 0x2d
  shaderBindings := ((Vector.replicate _ {}).set 0
    { stage := .kPixel, status := .kRegistered, codeAddress := 0x10000 }).set 1
    { stage := .kExport, status := .kRegistered, codeAddress := 0x20000 }
  shaderBindingCount := 2
  render :=
    { status := .kReady, primitiveType := 4, vertexCount := 3, instanceCount := 1,
      viewportXScaleBits := 0x3f800000, viewportYScaleBits := 0x3f800000 }

/-- Two queues dispatch, and both works outlast their fences. -/
def overlappingCalls : List SubmitCall :=
  [⟨0, answering .kOk .kFenceWaitTimedOut 1, .kComplete⟩,
    ⟨1, answering .kOk .kFenceWaitTimedOut 2, .kComplete⟩,
    ⟨1, answering .kOk .kOk 2, .kComplete⟩]

/-- A draw is refused with nothing retained by the bridge, and comes again. -/
def refusedCalls : List SubmitCall :=
  [⟨0, answering .kRetainedWorkPending .kOk 1, .kComplete⟩, ⟨0, answering .kOk .kOk 0, .kComplete⟩]

/-- The slot keeps the first of the overlapping works, so the second is executed again
and then answered `kComplete`. A refused draw takes the slot too, and the next poll
answers `kComplete` for work that never started. -/
theorem completed_executed_twice_or_never : ((dispatchOf (1, 0)).isWork = true ∧
      (run dispatchOf create overlappingCalls).completed (1, 0) = true ∧
      (run dispatchOf create overlappingCalls).executions (1, 0) = 2) ∧
    (drawOf (0, 0)).isWork = true ∧ (run drawOf create refusedCalls).completed (0, 0) = true ∧
      (run drawOf create refusedCalls).executions (0, 0) = 0 :=
  ⟨⟨rfl, rfl, rfl⟩, rfl, rfl, rfl⟩

end ActionQueues

end KajPS5.Gpu
