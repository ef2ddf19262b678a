/-
# The Vulkan action bridge

A sink that hands draws and dispatches to the Vulkan backend. When the backend
answers that an action's work is not finished the bridge keeps the action, and the
next time it sees that action it polls the backend instead of executing again.
There is one such slot for all queues.

What the backend answers, the outcome of each shader compilation and the failure
of an allocation are arguments, gathered in `BackendAnswers`. Of a compiled shader
and of a draw request only the fact that they exist is kept: their contents go to
the device alone.
-/

import Mathlib.Data.Int.Notation
import KajPS5.Math.Postconditions
import KajPS5.Gpu.Action

namespace KajPS5.Gpu

open Math.Postconditions

inductive VulkanActionBridgeStatus
  | kDisabled | kCompleted | kBlocked | kRendererUnavailable | kUnsupportedState
  | kShaderUnavailable | kCompilationFailed | kDeviceLost | kExecutionFailed
  deriving DecidableEq, Repr

structure VulkanActionBridgeResult where
  status : VulkanActionBridgeStatus := .kDisabled
  packetAddress : BitVec 64 := 0
  opcode : BitVec 32 := 0
  stage : GpuShaderStage := .kCompute
  (firstRegister firstValue : BitVec 32 := 0)
  timeline : BitVec 64 := 0
  message : String := ""
  deriving DecidableEq, Repr

inductive VulkanGraphicsStatus
  | kOk | kInvalidArgument | kUnsupported | kContextUnavailable | kDeviceFunctionUnavailable
  | kResourceLimit | kReadbackFailed | kRetainedWorkPending | kFenceWaitTimedOut | kFenceWaitFailed
  | kFenceStatusFailed | kDeviceLost
  deriving DecidableEq, Repr

inductive VulkanComputeStatus
  | kOk | kInvalidArgument | kContextUnavailable | kExecutionAlreadyOwned
  | kDeviceFunctionUnavailable | kCommandPoolCreationFailed | kCommandBufferAllocationFailed
  | kShaderModuleCreationFailed | kPipelineLayoutCreationFailed | kComputePipelineCreationFailed
  | kFenceCreationFailed | kCommandBufferBeginFailed | kCommandBufferEndFailed | kQueueSubmitFailed
  | kFenceWaitTimedOut | kFenceWaitFailed | kFenceStatusFailed | kReadbackFailed | kDeviceLost
  | kResourceLimit
  deriving DecidableEq, Repr

/-- `VulkanGraphicsResult` and `VulkanComputeResult`; of the diagnostics the messages. -/
structure VulkanExecutionResult (Status : Type) where
  status : Status
  (timeline completedTimeline : BitVec 64 := 0)
  retainedSubmissionCount : ℕ := 0
  diagnostics : List String := []

/-- Everything one call to `Submit` learns from outside the bridge. -/
structure BackendAnswers where
  hasVulkanContext : Bool
  /-- The error of a failed compilation of the program at a code address. -/
  recompileRegisteredShader : GpuShaderStage → BitVec 64 → Option String
  submitVulkanTranslatedDraw : VulkanExecutionResult VulkanGraphicsStatus
  submitVulkanTranslatedCompute : VulkanExecutionResult VulkanComputeStatus
  pollVulkanGraphics : VulkanExecutionResult VulkanGraphicsStatus
  pollVulkanCompute : VulkanExecutionResult VulkanComputeStatus
  /-- An allocation fails and the call throws. -/
  throws : Bool
  /-- A call that throws or fails had already handed its work to the device. -/
  queuedBeforeFailure : Bool

/-! ## The state a draw request is made from -/

/-- `std::isfinite` on the bits of a binary32 value. -/
def isFiniteBits (bits : BitVec 32) : Bool := bits &&& 0x7f800000 ≠ 0x7f800000

/-- Sign and magnitude of a binary32 pattern as an integer: finite values compare as
these integers do, both zeros being 0. -/
def floatOrder (bits : BitVec 32) : ℤ :=
  let magnitude : ℤ := (bits &&& 0x7fffffff).toNat
  if bits.msb then -magnitude else magnitude

/-- `ActionTopology` has a value. -/
def actionTopology (primitiveType : BitVec 32) : Bool := primitiveType ∈ [1, 2, 3, 4, 6]

/-- `ActionDepthCompare` has a value. -/
def actionDepthCompare (compare : BitVec 32) : Bool := compare ≤ 7

/-- `ActionBlendFactor` has a value. -/
def actionBlendFactor (factor : BitVec 32) : Bool := factor ≤ 10

/-- `ActionBlendOp` has a value. -/
def actionBlendOp (operation : BitVec 32) : Bool := operation ≤ 4

/-- `MakeActionDrawRequest` has a value. -/
def makeActionDrawRequest (state : GpuRenderSnapshot) : Bool :=
  actionTopology state.primitiveType && actionDepthCompare state.depthCompare &&
  actionBlendFactor (state.blendControl &&& 0x1f) &&
  actionBlendOp (state.blendControl >>> 5 &&& 7) &&
  actionBlendFactor (state.blendControl >>> 8 &&& 0x1f) &&
  actionBlendFactor (state.blendControl >>> 16 &&& 0x1f) &&
  actionBlendOp (state.blendControl >>> 21 &&& 7) &&
  actionBlendFactor (state.blendControl >>> 24 &&& 0x1f) &&
  isFiniteBits state.viewportXScaleBits && isFiniteBits state.viewportXOffsetBits &&
  isFiniteBits state.viewportYScaleBits && isFiniteBits state.viewportYOffsetBits &&
  isFiniteBits state.viewportZMinBits && isFiniteBits state.viewportZMaxBits &&
  0 < floatOrder state.viewportXScaleBits && 0 < floatOrder state.viewportYScaleBits &&
  0 ≤ floatOrder state.viewportZMinBits &&
  -- The pattern of 1.0.
  floatOrder state.viewportZMaxBits ≤ 0x3f800000 &&
  floatOrder state.viewportZMinBits ≤ floatOrder state.viewportZMaxBits

/-! ## Execution -/

/-- What `ExecuteVulkanAction` has filled in before its first check. -/
def actionResult (action : GpuAction) : VulkanActionBridgeResult where
  packetAddress := action.packetAddress
  opcode := action.opcode
  firstRegister := action.render.firstRegister
  firstValue := action.render.firstValue

/-- The vertex and the pixel binding of a draw, the last of each kind, or the stage of
the first binding outside the subset. -/
def drawBindings : List GpuShaderBinding → Option GpuShaderBinding → Option GpuShaderBinding →
    Except GpuShaderStage (Option GpuShaderBinding × Option GpuShaderBinding)
  | [], vertex, pixel => .ok (vertex, pixel)
  | binding :: rest, vertex, pixel =>
    if binding.stage = .kExport then drawBindings rest (some binding) pixel
    else if binding.stage = .kPixel then drawBindings rest vertex (some binding)
    else if binding.programAddress ≠ 0 then .error binding.stage
    else drawBindings rest vertex pixel

/-- The binding names a registered program. -/
def GpuShaderBinding.isUsable (binding : GpuShaderBinding) : Bool :=
  binding.status = .kRegistered && binding.codeAddress ≠ 0

/-- The compilation of the program a binding names. -/
def compileBinding (answers : BackendAnswers) (result : VulkanActionBridgeResult)
    (binding : GpuShaderBinding) (message : String) : Except VulkanActionBridgeResult Unit :=
  match answers.recompileRegisteredShader binding.stage binding.codeAddress with
  | none => .ok ()
  | some error =>
    .error { result with
      status := .kCompilationFailed
      stage := binding.stage
      message := if error.isEmpty then message else error }

/-- The checks of a draw up to its submission. -/
def prepareDraw (answers : BackendAnswers) (action : GpuAction) :
    Except VulkanActionBridgeResult Unit :=
  let result := actionResult action
  match drawBindings action.bindings none none with
  | .error stage =>
    .error { result with
      status := .kUnsupportedState
      stage
      message := "PM4 draw uses geometry, hull, or local shader state " ++
        "outside the bridge subset" }
  | .ok (some vertex, some pixel) =>
    if vertex.isUsable && pixel.isUsable then do
      compileBinding answers result vertex "registered export shader compilation failed"
      compileBinding answers result pixel "registered pixel shader compilation failed"
      if makeActionDrawRequest action.render then .ok ()
      else .error { result with
        status := .kUnsupportedState
        stage := .kPixel
        message := "PM4 draw snapshot contains an unsupported topology, " ++
          "blend, depth, or viewport state" }
    else .error { result with
      status := .kShaderUnavailable
      stage := .kPixel
      message := "DrawIndexAuto requires registered export/vertex and " ++ "pixel shader bindings" }
  | .ok (vertex, _) =>
    .error { result with
      status := .kShaderUnavailable
      stage := if vertex.isNone then .kExport else .kPixel
      message := "DrawIndexAuto requires registered export/vertex and " ++ "pixel shader bindings" }

/-- The checks of a dispatch up to its submission. -/
def prepareDispatch (answers : BackendAnswers) (action : GpuAction) :
    Except VulkanActionBridgeResult Unit :=
  let result := actionResult action
  match action.bindings with
  | [binding] =>
    if action.type = .kDispatch ∧ binding.stage = .kCompute ∧ binding.isUsable then
      compileBinding answers result binding "registered compute shader compilation failed"
    else unavailable result
  | _ => unavailable result
where
  unavailable (result : VulkanActionBridgeResult) : Except VulkanActionBridgeResult Unit :=
    .error { result with
      status := .kShaderUnavailable
      stage := .kCompute
      message := "direct compute requires exactly one registered CS program binding" }

/-- The checks of `ExecuteVulkanAction` up to the submission. -/
def prepareVulkanAction (answers : BackendAnswers) (action : GpuAction) :
    Except VulkanActionBridgeResult Unit :=
  let result := actionResult action
  if !answers.hasVulkanContext then
    .error { result with
      status := .kRendererUnavailable
      message := "Vulkan action execution was enabled without InitializeVulkan" }
  else if action.render.status ≠ .kReady then
    .error { result with
      status := .kUnsupportedState
      message := "PM4 action is outside the immutable Vulkan bridge subset" }
  else if action.type = .kDraw then prepareDraw answers action
  else prepareDispatch answers action

/-- The first diagnostic, or a text of the caller's. -/
def VulkanExecutionResult.message {Status : Type} (execution : VulkanExecutionResult Status)
    (default : String) : String := execution.diagnostics.headD default

/-- `ExecuteVulkanAction`. -/
def executeVulkanAction (answers : BackendAnswers) (action : GpuAction) :
    VulkanActionBridgeResult := match prepareVulkanAction answers action with
  | .error result => result
  | .ok () =>
    if action.type = .kDraw then
      let execution := answers.submitVulkanTranslatedDraw
      let result :=
        { actionResult action with timeline := execution.timeline, stage := .kPixel }
      match execution.status with
      | .kOk =>
        { result with status := .kCompleted, message := "translated DrawIndexAuto completed" }
      | .kFenceWaitTimedOut | .kRetainedWorkPending =>
        { result with
          status := .kBlocked
          message := "translated DrawIndexAuto retained work; action will " ++ "resume by polling" }
      | .kDeviceLost =>
        { result with
          status := .kDeviceLost
          message := "Vulkan device lost while executing translated DrawIndexAuto" }
      | _ =>
        { result with
          status := .kExecutionFailed
          message := execution.message "translated DrawIndexAuto execution failed" }
    else
      let execution := answers.submitVulkanTranslatedCompute
      let result :=
        { actionResult action with timeline := execution.timeline, stage := .kCompute }
      match execution.status with
      | .kOk => { result with status := .kCompleted, message := "direct compute completed" }
      | .kFenceWaitTimedOut =>
        { result with
          status := .kBlocked
          message := "direct compute fence timed out; action retained for polling" }
      | .kDeviceLost =>
        { result with
          status := .kDeviceLost
          message := "Vulkan device lost while executing direct compute" }
      | _ =>
        { result with
          status := .kExecutionFailed
          message := execution.message "direct compute execution failed" }

/-- `PollVulkanActionExecution`. -/
def pollVulkanActionExecution (answers : BackendAnswers) (action : GpuAction) :
    VulkanActionBridgeResult :=
  if action.type = .kDraw then
    let execution := answers.pollVulkanGraphics
    let result :=
      { actionResult action with timeline := execution.completedTimeline, stage := .kPixel }
    if execution.status = .kDeviceLost then
      { result with
        status := .kDeviceLost
        message := "Vulkan device lost while polling retained translated DrawIndexAuto" }
    else if execution.status ≠ .kOk then
      { result with
        status := .kExecutionFailed
        message := execution.message "translated DrawIndexAuto polling failed" }
    else if execution.retainedSubmissionCount ≠ 0 then
      { result with
        status := .kBlocked
        message := "translated DrawIndexAuto remains retained by an unsignalled fence" }
    else
      { result with
        status := .kCompleted
        message := "retained translated DrawIndexAuto completed" }
  else
    let execution := answers.pollVulkanCompute
    let result :=
      { actionResult action with timeline := execution.completedTimeline, stage := .kCompute }
    if execution.status = .kDeviceLost then
      { result with
        status := .kDeviceLost
        message := "Vulkan device lost while polling retained direct compute" }
    else if execution.status ≠ .kOk then
      { result with
        status := .kExecutionFailed
        message := execution.message "direct compute polling failed" }
    else if execution.retainedSubmissionCount ≠ 0 then
      { result with
        status := .kBlocked
        message := "direct compute remains retained by an unsignalled fence" }
    else
      { result with status := .kCompleted, message := "retained direct compute completed" }

/-! ## The slot -/

structure VulkanActionBridge where
  enabled : Bool := false
  blockedAction : Option GpuAction := none
  lastResult : VulkanActionBridgeResult := {}

/-- The fields of a binding that `SameAction` compares. -/
def sameBinding (left right : GpuShaderBinding) : Bool :=
  left.stage = right.stage && left.status = right.status &&
  left.programAddress = right.programAddress && left.codeAddress = right.codeAddress &&
  left.headerAddress = right.headerAddress && left.codeOffsetBytes = right.codeOffsetBytes &&
  left.codeSizeBytes = right.codeSizeBytes && left.binaryType = right.binaryType

/-- The fields of the render state that `SameAction` compares: all but the two that
name an unsupported element. -/
def sameRender (left right : GpuRenderSnapshot) : Bool :=
  left.status = right.status &&
  left.groupCountX = right.groupCountX &&
  left.groupCountY = right.groupCountY &&
  left.groupCountZ = right.groupCountZ &&
  left.vertexCount = right.vertexCount &&
  left.instanceCount = right.instanceCount &&
  left.colorBase = right.colorBase &&
  left.colorRowPitchBytes = right.colorRowPitchBytes &&
  left.colorWidth = right.colorWidth &&
  left.colorHeight = right.colorHeight &&
  left.colorFormat = right.colorFormat &&
  left.colorWriteMask = right.colorWriteMask &&
  left.primitiveType = right.primitiveType &&
  left.cullMode = right.cullMode &&
  left.frontFaceClockwise = right.frontFaceClockwise &&
  left.blendEnable = right.blendEnable &&
  left.blendControl = right.blendControl &&
  left.viewportXScaleBits = right.viewportXScaleBits &&
  left.viewportXOffsetBits = right.viewportXOffsetBits &&
  left.viewportYScaleBits = right.viewportYScaleBits &&
  left.viewportYOffsetBits = right.viewportYOffsetBits &&
  left.viewportZMinBits = right.viewportZMinBits &&
  left.viewportZMaxBits = right.viewportZMaxBits &&
  left.scissorLeft = right.scissorLeft &&
  left.scissorTop = right.scissorTop &&
  left.scissorRight = right.scissorRight &&
  left.scissorBottom = right.scissorBottom &&
  left.depthEnabled = right.depthEnabled &&
  left.depthWriteEnabled = right.depthWriteEnabled &&
  left.depthCompare = right.depthCompare &&
  left.depthBase = right.depthBase &&
  left.depthRowPitchBytes = right.depthRowPitchBytes &&
  left.depthWidth = right.depthWidth &&
  left.depthHeight = right.depthHeight

namespace VulkanActionBridge

/-- `Enable`. -/
def enable (enabled : Bool) (bridge : VulkanActionBridge) : VulkanActionBridge :=
  if enabled then { bridge with enabled }
  else { enabled, blockedAction := none, lastResult := {} }

/-- `SameAction`. Payload, register selector and the two diagnostic fields of the
render state are not compared. -/
def sameAction (bridge : VulkanActionBridge) (action : GpuAction) : Bool :=
  match bridge.blockedAction with
  | none => false
  | some retained =>
    retained.packetAddress = action.packetAddress &&
    retained.packetDwords = action.packetDwords &&
    retained.opcode = action.opcode && retained.type = action.type &&
    retained.valueCount = action.valueCount &&
    retained.shaderBindingCount = action.shaderBindingCount &&
    retained.values = action.values &&
    (List.zipWith sameBinding retained.bindings action.bindings).all id &&
    sameRender retained.render action.render

/-- What the backend is asked in `Submit`, and its answer. -/
def consult (answers : BackendAnswers) (action : GpuAction) (bridge : VulkanActionBridge) :
    VulkanActionBridgeResult :=
  if answers.throws then
    { status := .kExecutionFailed
      packetAddress := action.packetAddress
      opcode := action.opcode
      stage := .kCompute
      message := "Vulkan action bridge allocation failed" }
  else if bridge.sameAction action then pollVulkanActionExecution answers action
  else executeVulkanAction answers action

/-- `Submit`, where `downstream` is what the next sink answers if it is asked. -/
def submit (answers : BackendAnswers) (downstream : GpuCommandStatus) (action : GpuAction)
    (bridge : VulkanActionBridge) : GpuCommandStatus × VulkanActionBridge :=
  if !bridge.enabled || !action.isWork then (downstream, bridge)
  else
    let result := bridge.consult answers action
    if result.status = .kBlocked then
      (.kBlocked, { bridge with
        blockedAction := bridge.blockedAction.or (some action), lastResult := result })
    else if result.status ≠ .kCompleted then
      (.kUnsupportedPacket, { bridge with blockedAction := none, lastResult := result })
    else (downstream, { bridge with blockedAction := none, lastResult := result })

@[simp] theorem enabled_submit (answers : BackendAnswers) (downstream : GpuCommandStatus)
    (action : GpuAction) (bridge : VulkanActionBridge) :
    (bridge.submit answers downstream action).2.enabled = bridge.enabled := by
  unfold submit
  dsimp only
  split_ifs <;> rfl

/-- The retained action is recognised when it comes again. -/
theorem sameAction_self {bridge : VulkanActionBridge} {action : GpuAction}
    (hslot : bridge.blockedAction = some action) : bridge.sameAction action = true := by
  simp [sameAction, hslot, sameBinding, sameRender]

end VulkanActionBridge

/-! ## The backend's answers as the protocol sees them -/

/-- What the backend says about an action's work. `pending` is the refusal to start a
draw while retained work overlaps its targets. -/
inductive BackendAnswer
  | completed | running | pending | failed
  deriving DecidableEq, Repr

namespace BackendAnswer

/-- The status `Submit` returns on an answer. -/
def reply (downstream : GpuCommandStatus) : BackendAnswer → GpuCommandStatus
  | completed => downstream
  | running | pending => .kBlocked
  | failed => .kUnsupportedPacket

/-- The slot after `Submit`. Starting and refusing a work leave the same trace. -/
def slot (action : GpuAction) (slot : Option GpuAction) : BackendAnswer → Option GpuAction
  | completed | failed => none
  | running | pending => slot.or (some action)

/-- The answer behind a bridge status. A blocked execution is read as running here;
`executeAnswer` tells it from a refusal. -/
def ofStatus : VulkanActionBridgeStatus → BackendAnswer
  | .kCompleted => completed
  | .kBlocked => running
  | _ => failed

variable {status : VulkanActionBridgeStatus}

theorem ofStatus_eq_completed : ofStatus status = completed ↔ status = .kCompleted := by
  cases status <;> simp [ofStatus]

theorem ofStatus_eq_running : ofStatus status = running ↔ status = .kBlocked := by
  cases status <;> simp [ofStatus]

theorem ofStatus_eq_failed :
    ofStatus status = failed ↔ status ≠ .kBlocked ∧ status ≠ .kCompleted := by
  cases status <;> simp [ofStatus]

end BackendAnswer

namespace BackendAnswers

/-- The answer to `ExecuteVulkanAction`. -/
def executeAnswer (answers : BackendAnswers) (action : GpuAction) : BackendAnswer :=
  match prepareVulkanAction answers action with
  | .error _ => .failed
  | .ok () =>
    if answers.throws then .failed
    else if action.type = .kDraw then match answers.submitVulkanTranslatedDraw.status with
      | .kOk => .completed
      | .kFenceWaitTimedOut => .running
      | .kRetainedWorkPending => .pending
      | _ => .failed
    else match answers.submitVulkanTranslatedCompute.status with
      | .kOk => .completed
      | .kFenceWaitTimedOut => .running
      | _ => .failed

/-- The answer to `PollVulkanActionExecution`. -/
def pollAnswer (answers : BackendAnswers) (action : GpuAction) : BackendAnswer :=
  if answers.throws then .failed
  else .ofStatus (pollVulkanActionExecution answers action).status

/-- `ExecuteVulkanAction` hands the action's work to the device. A fence is waited for
only after the work was queued, and a refusal comes before anything is prepared. -/
def startsWork (answers : BackendAnswers) (action : GpuAction) : Bool :=
  match prepareVulkanAction answers action with
  | .error _ => false
  | .ok () => match answers.executeAnswer action with
    | .completed | .running => true
    | .pending => false
    | .failed => answers.queuedBeforeFailure

end BackendAnswers

/-- The bridge statuses that a failed check reports. -/
def checkStatuses : List VulkanActionBridgeStatus :=
  [.kRendererUnavailable, .kUnsupportedState, .kShaderUnavailable, .kCompilationFailed]

/-- A check fails with one of its statuses. -/
abbrev Checks : Except VulkanActionBridgeResult Unit → Prop :=
  Ensures (·.status ∈ checkStatuses) fun _ => True

variable {answers : BackendAnswers} {action : GpuAction}

theorem checks_compileBinding {result : VulkanActionBridgeResult} {binding : GpuShaderBinding}
    {message : String} : Checks (compileBinding answers result binding message) := by
  unfold compileBinding
  split
  · exact .ok trivial
  · exact .error (by simp [checkStatuses])

theorem checks_prepareDraw : Checks (prepareDraw answers action) := by
  unfold prepareDraw
  split
  · exact .error (by simp [checkStatuses])
  · refine .ite ?_ (.error (by simp [checkStatuses]))
    refine .bind (fun _ => checks_compileBinding.of_error) fun _ _ => ?_
    refine .bind (fun _ => checks_compileBinding.of_error) fun _ _ => ?_
    exact .ite (.ok trivial) (.error (by simp [checkStatuses]))
  · exact .error (by simp [checkStatuses])

theorem checks_prepareDispatch : Checks (prepareDispatch answers action) := by
  unfold prepareDispatch
  split
  · exact .ite checks_compileBinding (.error (by simp [checkStatuses]))
  · exact .error (by simp [checkStatuses])

/-- An action that fails a check is neither completed nor blocked. -/
theorem checks_prepareVulkanAction : Checks (prepareVulkanAction answers action) :=
  .ite (.error (by simp [checkStatuses])) (.ite (.error (by simp [checkStatuses]))
    (.ite checks_prepareDraw checks_prepareDispatch))

/-- The status of an execution that does not throw: a refusal looks like running work. -/
theorem ofStatus_executeVulkanAction (hthrows : answers.throws = false) (action : GpuAction) :
    BackendAnswer.ofStatus (executeVulkanAction answers action).status =
      match answers.executeAnswer action with
      | .pending => .running
      | answer => answer := by
  unfold executeVulkanAction BackendAnswers.executeAnswer
  cases hprepare : prepareVulkanAction answers action with
  | error failure =>
    have hstat := checks_prepareVulkanAction.of_error hprepare
    simp only [checkStatuses, List.mem_cons, List.not_mem_nil, or_false] at hstat
    rcases hstat with h | h | h | h <;> simp [h, BackendAnswer.ofStatus]
  | ok _ =>
    simp only [hthrows]
    by_cases hdraw : action.type = .kDraw
    · simp only [hdraw]
      cases answers.submitVulkanTranslatedDraw.status <;> rfl
    · simp only [hdraw]
      cases answers.submitVulkanTranslatedCompute.status <;> rfl

namespace VulkanActionBridge

/-- The backend's answer to the question that `Submit` asks. -/
def answer (answers : BackendAnswers) (action : GpuAction) (bridge : VulkanActionBridge) :
    BackendAnswer :=
  if bridge.sameAction action then answers.pollAnswer action else answers.executeAnswer action

theorem ofStatus_consult (answers : BackendAnswers) (action : GpuAction)
    (bridge : VulkanActionBridge) :
    BackendAnswer.ofStatus (bridge.consult answers action).status =
      match bridge.answer answers action with
      | .pending => .running
      | answer => answer := by
  unfold consult answer
  by_cases hthrows : answers.throws = true
  · have hexecute : answers.executeAnswer action = .failed := by
      unfold BackendAnswers.executeAnswer
      split <;> simp [hthrows]
    have hpoll : answers.pollAnswer action = .failed := by simp [BackendAnswers.pollAnswer, hthrows]
    split_ifs <;> simp [hexecute, hpoll, BackendAnswer.ofStatus]
  · by_cases hsame : bridge.sameAction action = true
    · simp only [hthrows, hsame, if_true, BackendAnswers.pollAnswer, Bool.false_eq_true, if_false]
      cases (pollVulkanActionExecution answers action).status <;> rfl
    · simp only [hthrows, hsame]
      exact ofStatus_executeVulkanAction (by simpa using hthrows) _

/-- `Submit` on a draw or a dispatch depends on the backend through its answer alone. -/
theorem submit_work {bridge : VulkanActionBridge} (henabled : bridge.enabled = true)
    (hwork : action.isWork = true) (answers : BackendAnswers) (downstream : GpuCommandStatus) :
    (bridge.submit answers downstream action).1 = (bridge.answer answers action).reply downstream ∧
      (bridge.submit answers downstream action).2.blockedAction =
        (bridge.answer answers action).slot action bridge.blockedAction := by
  have hstat := bridge.ofStatus_consult answers action
  unfold submit
  simp only [henabled, hwork]
  cases hans : bridge.answer answers action with
  | completed =>
    rw [hans, BackendAnswer.ofStatus_eq_completed] at hstat
    simp [hstat, BackendAnswer.reply, BackendAnswer.slot]
  | running | pending =>
    rw [hans, BackendAnswer.ofStatus_eq_running] at hstat
    simp [hstat, BackendAnswer.reply, BackendAnswer.slot]
  | failed =>
    rw [hans, BackendAnswer.ofStatus_eq_failed] at hstat
    simp [hstat, BackendAnswer.reply, BackendAnswer.slot]

/-- Every other action goes to the next sink. -/
theorem submit_not_work (hwork : action.isWork = false)
    (answers : BackendAnswers) (downstream : GpuCommandStatus) (bridge : VulkanActionBridge) :
    bridge.submit answers downstream action = (downstream, bridge) := by
  simp [submit, hwork]

end VulkanActionBridge

end KajPS5.Gpu
