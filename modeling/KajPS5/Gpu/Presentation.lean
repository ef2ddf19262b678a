/-
# Presenting a frame

The presenter owns one swapchain, one command buffer and one fence, so it holds at
most one frame that the device has not finished. `Poll` looks at the fence of that
frame. `Present` polls first; only when nothing is retained any more does it
prepare, record and submit the new frame. What the device, the surface and the
image cache answer during one call is an argument.
-/

import Mathlib.Algebra.Order.Ring.Nat

namespace KajPS5.Gpu

/-- The results of the Vulkan API the presenter tells apart. -/
inductive VkResult
  | success | notReady | timeout | suboptimal | errorOutOfDate | errorDeviceLost
  | errorInitializationFailed
  | other (code : ℤ)
  deriving DecidableEq, Repr

inductive VulkanPresentationStatus
  | kOk | kContextUnavailable | kInvalidFrame | kSurfaceUnavailable | kMinimized | kAcquireTimeout
  | kRetainedWorkPending | kRecreateRequired | kDeviceLost | kDeviceFailure
  deriving DecidableEq, Repr

structure VulkanPresentationDiagnostic where
  status : VulkanPresentationStatus
  apiResult : VkResult
  message : String
  deriving DecidableEq, Repr

structure VulkanPresentationResult where
  status : VulkanPresentationStatus := .kOk
  timeline : ℕ := 0
  diagnostics : List VulkanPresentationDiagnostic := []
  deriving DecidableEq, Repr

def VulkanPresentationResult.add (result : VulkanPresentationResult)
    (status : VulkanPresentationStatus) (message : String) (api : VkResult) :
    VulkanPresentationResult :=
  { result with status, diagnostics := result.diagnostics ++ [⟨status, api, message⟩] }

@[simp]
theorem VulkanPresentationResult.status_add (result : VulkanPresentationResult)
    (status : VulkanPresentationStatus) (message : String) (api : VkResult) :
    (result.add status message api).status = status := rfl

/-- How an attempt to create a swapchain ends. -/
inductive SwapchainOutcome
  | created
  | capabilitiesFailed (api : VkResult)
  | noTransferDestination | noFormats | minimized | noBlitDestination
  | creationFailed (api : VkResult)
  | noImages
  deriving DecidableEq, Repr

/-- What the device, the surface and the image cache answer during one call. -/
structure DeviceAnswers where
  /-- The context has noticed a device loss. -/
  deviceLost : Bool := false
  fence : VkResult := .success
  /-- `Complete` of the image cache for the frame that was retained. -/
  completes : Bool := true
  (pollSwapchain presentSwapchain : SwapchainOutcome := .created)
  /-- `Prepare` of the image cache. -/
  (prepares blitSource : Bool := true)
  (acquire resetCommand beginCommand : VkResult := .success)
  /-- `RecordUpload` of the image cache. -/
  records : Bool := true
  (endCommand resetFences submit : VkResult := .success)
  /-- The recovery after a failed submission. -/
  (idle semaphore : VkResult := .success)
  /-- `MarkSubmitted` of the image cache. -/
  registers : Bool := true
  present : VkResult := .success
  deriving DecidableEq, Repr

/-- The part of `VulkanPresentation::Impl` that decides what a call does. -/
structure Presentation where
  (pending recreate poisoned failed : Bool := false)
  timeline : ℕ := 0
  deriving DecidableEq, Repr

namespace Presentation

def markDeviceLost (p : Presentation) (result : VulkanPresentationResult) (message : String)
    (api : VkResult) : VulkanPresentationResult × Presentation :=
  (result.add .kDeviceLost message api, { p with poisoned := true })

/-! ## The swapchain -/

def createSwapchain (p : Presentation) (result : VulkanPresentationResult) :
    SwapchainOutcome → Bool × VulkanPresentationResult × Presentation
  | .created => (true, result, { p with recreate := false })
  | .capabilitiesFailed api =>
    (false, result.add .kDeviceFailure "surface capabilities query failed" api, p)
  | .noTransferDestination =>
    (false, result.add .kSurfaceUnavailable
      "surface does not support transfer-destination swapchain images" .success, p)
  | .noFormats =>
    (false, result.add .kSurfaceUnavailable
      "surface formats or present modes are unavailable" .success, p)
  | .minimized => (false, result.add .kMinimized "surface has zero extent" .success, p)
  | .noBlitDestination =>
    (false, result.add .kSurfaceUnavailable
      "chosen swapchain format does not support blit destination" .success, p)
  | .creationFailed api => (false, result.add .kRecreateRequired "swapchain creation failed" api, p)
  | .noImages => (false, result.add .kDeviceFailure "swapchain returned no images" .success, p)

/-- A new swapchain, where one is due. -/
def ensureSwapchain (p : Presentation) (result : VulkanPresentationResult)
    (outcome : SwapchainOutcome) : Bool × VulkanPresentationResult × Presentation :=
  if p.recreate then p.createSwapchain result outcome else (true, result, p)

def requestResize (p : Presentation) (width height : ℕ) :
    VulkanPresentationResult × Presentation :=
  let result : VulkanPresentationResult := {}
  (if width = 0 ∨ height = 0 then
      result.add .kMinimized "presentation resize is minimized" .success
    else result,
    { p with recreate := true })

/-! ## Polling -/

/-- `Poll` once the fence is signalled: the retained frame is completed. -/
def retire (p : Presentation) (answers : DeviceAnswers) :
    VulkanPresentationResult × Presentation :=
  let p := { p with pending := false }
  let result : VulkanPresentationResult := {}
  if !answers.completes then
    (result.add .kDeviceFailure
      "completed present work could not be finalized in guest-image coherence" .success, p)
  else match p.ensureSwapchain result answers.pollSwapchain with
    | (false, result, p) => (result, p)
    | (true, result, p) => ({ result with timeline := p.timeline }, p)

/-- `Poll` with a retained frame. -/
def pollFence (p : Presentation) (answers : DeviceAnswers) :
    VulkanPresentationResult × Presentation :=
  let result : VulkanPresentationResult := {}
  if answers.fence = .notReady then
    (result.add .kRetainedWorkPending "presentation work remains retained" .success, p)
  else if answers.fence = .errorDeviceLost then
    p.markDeviceLost result "presentation fence reported device loss" answers.fence
  else if answers.fence ≠ .success then
    (result.add .kDeviceFailure "presentation fence status failed" answers.fence, p)
  else p.retire answers

def poll (p : Presentation) (answers : DeviceAnswers) :
    VulkanPresentationResult × Presentation :=
  let result : VulkanPresentationResult := {}
  if p.poisoned || answers.deviceLost then
    (result.add .kDeviceLost "Vulkan device is terminally lost" .success,
      { p with poisoned := true })
  else if p.failed then (result.add .kDeviceFailure "presentation is terminally failed" .success, p)
  else if !p.pending then (p.ensureSwapchain result answers.pollSwapchain).2
  else p.pollFence answers

/-! ## Presenting -/

def recoverAfterAcquireFailure (p : Presentation) (answers : DeviceAnswers) (message : String)
    (failure : VkResult) : VulkanPresentationResult × Presentation :=
  let result : VulkanPresentationResult := {}
  if answers.idle = .errorDeviceLost then
    p.markDeviceLost result "presentation recovery device idle reported device loss" answers.idle
  else if answers.idle ≠ .success then
    (result.add .kDeviceFailure "presentation recovery device idle failed" answers.idle,
      { p with failed := true })
  else if answers.semaphore = .errorDeviceLost then
    p.markDeviceLost result "presentation recovery semaphore creation reported device loss"
      answers.semaphore
  else if answers.semaphore ≠ .success then
    (result.add .kDeviceFailure "presentation recovery semaphore creation failed"
      answers.semaphore, { p with failed := true })
  else (result.add .kDeviceFailure message failure, { p with recreate := true })

/-- A step between the acquisition of an image and the submission of the frame, with
its messages for a lost device and for any other failure. -/
structure CommandStep where
  api : VkResult
  (lost failed : String)

/-- The steps in their order. The recording answers no Vulkan result of its own. -/
def commandSteps (answers : DeviceAnswers) : List CommandStep :=
  [⟨answers.resetCommand, "command buffer reset reported device loss",
      "command buffer reset failed"⟩,
    ⟨answers.beginCommand, "command buffer begin reported device loss",
      "command buffer begin failed"⟩,
    ⟨if answers.records then .success else .errorInitializationFailed,
      "guest frame upload recording failed", "guest frame upload recording failed"⟩,
    ⟨answers.endCommand, "presentation command end reported device loss",
      "presentation command end failed"⟩,
    ⟨answers.resetFences, "presentation fence reset reported device loss",
      "presentation fence reset failed"⟩,
    ⟨answers.submit, "presentation submit reported device loss", "presentation submit failed"⟩]

/-- What a failed step does. -/
def abandon (p : Presentation) (answers : DeviceAnswers) (step : CommandStep) :
    VulkanPresentationResult × Presentation :=
  if step.api = .errorDeviceLost then p.markDeviceLost {} step.lost step.api
  else p.recoverAfterAcquireFailure answers step.failed step.api

/-- `Present` after the frame was submitted to the device. -/
def presentSubmitted (p : Presentation) (answers : DeviceAnswers) :
    VulkanPresentationResult × Presentation :=
  let p := { p with pending := true, timeline := (p.timeline + 1) % 2 ^ 64 }
  let result : VulkanPresentationResult := { timeline := p.timeline }
  if !answers.registers then
    (result.add .kDeviceFailure
      "submitted present work could not be registered with guest-image coherence" .success, p)
  else if answers.present = .errorOutOfDate ∨ answers.present = .suboptimal then
    (result.add .kRecreateRequired "presentation requires swapchain recreation" answers.present,
      { p with recreate := true })
  else if answers.present = .errorDeviceLost then
    p.markDeviceLost result "queue present reported device loss" answers.present
  else if answers.present ≠ .success then
    (result.add .kDeviceFailure "queue present failed" answers.present, p)
  else (result, p)

/-- What `Present` answers and leaves, and whether the device took the frame. -/
structure PresentOutcome where
  result : VulkanPresentationResult
  presentation : Presentation
  submitted : Bool
  deriving DecidableEq, Repr

/-- No frame was submitted. -/
def withoutFrame (outcome : VulkanPresentationResult × Presentation) : PresentOutcome :=
  ⟨outcome.1, outcome.2, false⟩

/-- `Present` after an image was acquired. -/
def presentAcquired (p : Presentation) (answers : DeviceAnswers) : PresentOutcome :=
  match (commandSteps answers).find? fun step => step.api ≠ .success with
  | some step => withoutFrame (p.abandon answers step)
  | none =>
    let outcome := p.presentSubmitted answers
    ⟨outcome.1, outcome.2, true⟩

/-- `Present` once no earlier frame is retained. -/
def presentPrepared (p : Presentation) (answers : DeviceAnswers) : PresentOutcome :=
  let result : VulkanPresentationResult := {}
  if !answers.prepares then
    withoutFrame (result.add .kInvalidFrame
      "guest frame layout or checked guest memory was rejected" .success, p)
  else if !answers.blitSource then
    withoutFrame (result.add .kDeviceFailure "guest image format does not support blit source"
      .success, p)
  else if answers.acquire = .timeout then
    withoutFrame (result.add .kAcquireTimeout "swapchain acquire timed out" answers.acquire, p)
  else if answers.acquire = .errorOutOfDate then
    withoutFrame (result.add .kRecreateRequired "swapchain acquire is out of date"
      answers.acquire, { p with recreate := true })
  else if answers.acquire = .errorDeviceLost then
    withoutFrame (p.markDeviceLost result "swapchain acquire reported device loss"
      answers.acquire)
  else if answers.acquire ≠ .success ∧ answers.acquire ≠ .suboptimal then
    withoutFrame (result.add .kDeviceFailure "swapchain acquire failed" answers.acquire, p)
  else
    let p := if answers.acquire = .suboptimal then { p with recreate := true } else p
    p.presentAcquired answers

def present (p : Presentation) (timeout : ℕ) (answers : DeviceAnswers) : PresentOutcome :=
  if timeout = 0 ∨ timeout = 2 ^ 64 - 1 then
    withoutFrame ((({} : VulkanPresentationResult).add .kInvalidFrame
      "presentation requires a finite nonzero timeout" .success), p)
  else match p.poll answers with
    | (result, p) =>
      if result.status ≠ .kOk then withoutFrame (result, p)
      else match p.ensureSwapchain {} answers.presentSwapchain with
        | (false, result, p) => withoutFrame (result, p)
        | (true, _, p) => p.presentPrepared answers

/-! ## What the answers of `Present` mean -/

/-- The status is a refusal: neither success nor work that is still retained. -/
def Refuses (status : VulkanPresentationStatus) : Prop :=
  status ≠ .kOk ∧ status ≠ .kRetainedWorkPending

variable {result : VulkanPresentationResult} {outcome : SwapchainOutcome}

variable {p : Presentation} {answers : DeviceAnswers}

theorem refuses_createSwapchain (h : (p.createSwapchain result outcome).1 = false) :
    Refuses (p.createSwapchain result outcome).2.1.status := by
  cases outcome with
  | created => exact absurd h.symm Bool.false_ne_true
  | _ => simp [createSwapchain, Refuses]

theorem refuses_ensureSwapchain (h : (p.ensureSwapchain result outcome).1 = false) :
    Refuses (p.ensureSwapchain result outcome).2.1.status := by
  rw [ensureSwapchain] at h ⊢
  split_ifs at h ⊢
  exact refuses_createSwapchain h

theorem status_ensureSwapchain (p : Presentation) (outcome : SwapchainOutcome) :
    (p.ensureSwapchain {} outcome).2.1.status ≠ .kRetainedWorkPending := by
  cases hok : (p.ensureSwapchain {} outcome).1 with
  | false => exact (refuses_ensureSwapchain hok).2
  | true =>
    rw [ensureSwapchain] at hok ⊢
    split_ifs at hok ⊢
    · cases outcome with
      | created => simp [createSwapchain]
      | _ => cases hok
    · simp

/-- Only an earlier frame that the device has not finished is retained work. -/
theorem retained_of_poll (h : (p.poll answers).1.status = .kRetainedWorkPending) :
    p.pending = true ∧ answers.fence = .notReady := by
  rw [poll] at h
  split_ifs at h with hlost hfail hpend
  · simp at h
  · simp at h
  · exact absurd h (status_ensureSwapchain p _)
  refine ⟨by simpa using hpend, ?_⟩
  by_contra hfence
  rw [pollFence] at h
  split_ifs at h
  · simp [markDeviceLost] at h
  · simp at h
  rw [retire] at h
  split_ifs at h
  · simp at h
  have hstat := status_ensureSwapchain { p with pending := false } answers.pollSwapchain
  generalize ({ p with pending := false } : Presentation).ensureSwapchain {}
    answers.pollSwapchain = outcome at h hstat
  obtain ⟨ok, result, p'⟩ := outcome
  cases ok <;> exact hstat h

section

variable (p : Presentation) (answers : DeviceAnswers)

theorem refuses_recoverAfterAcquireFailure (message : String) (failure : VkResult) :
    Refuses (p.recoverAfterAcquireFailure answers message failure).1.status := by
  rw [recoverAfterAcquireFailure]
  split_ifs <;> simp [markDeviceLost, Refuses]

theorem refuses_abandon (step : CommandStep) : Refuses (p.abandon answers step).1.status := by
  rw [abandon]
  split_ifs
  · simp [markDeviceLost, Refuses]
  · exact refuses_recoverAfterAcquireFailure p _ _ _

/-- A submitted frame is never answered as retained work, and it is answered with
success when the cache takes it and the device presents it. -/
theorem status_presentSubmitted : (p.presentSubmitted answers).1.status ≠ .kRetainedWorkPending ∧
      (answers.registers = true → answers.present = .success →
        (p.presentSubmitted answers).1.status = .kOk) := by
  rw [presentSubmitted]
  refine ⟨?_, fun hregisters hpresent => ?_⟩
  · split_ifs <;> simp [markDeviceLost]
  · simp [hregisters, hpresent]

end

/-- What `Present` can answer. -/
structure PresentSpec (p : Presentation) (answers : DeviceAnswers) (outcome : PresentOutcome) :
    Prop where
  /-- Success is only answered for a frame that was submitted. -/
  submitted_of_ok : outcome.result.status = .kOk → outcome.submitted = true
  /-- Retained work is an earlier frame; the new one was not submitted. -/
  retained : outcome.result.status = .kRetainedWorkPending →
    outcome.submitted = false ∧ p.pending = true ∧ answers.fence = .notReady
  ok_of_submitted : outcome.submitted = true → answers.registers = true →
    answers.present = .success → outcome.result.status = .kOk

theorem PresentSpec.of_refuses {outcome : VulkanPresentationResult × Presentation}
    (h : Refuses outcome.1.status) : PresentSpec p answers (withoutFrame outcome) :=
  ⟨fun hok => absurd hok h.1, fun hretained => absurd hretained h.2,
    fun hsub => absurd hsub Bool.false_ne_true⟩

theorem presentSpec_presentAcquired (p p' : Presentation) (answers : DeviceAnswers) :
    PresentSpec p answers (p'.presentAcquired answers) := by
  rw [presentAcquired]
  cases (commandSteps answers).find? fun step => step.api ≠ .success with
  | some step => exact .of_refuses (refuses_abandon _ _ _)
  | none =>
    obtain ⟨hretained, hok⟩ := status_presentSubmitted p' answers
    exact ⟨fun _ => rfl, fun h => absurd h hretained, fun _ => hok⟩

theorem presentSpec_presentPrepared (p p' : Presentation) (answers : DeviceAnswers) :
    PresentSpec p answers (p'.presentPrepared answers) := by
  rw [presentPrepared]
  split_ifs
  iterate 6 exact .of_refuses (by simp [markDeviceLost, Refuses])
  all_goals exact presentSpec_presentAcquired p _ _

theorem presentSpec_present (p : Presentation) (timeout : ℕ) (answers : DeviceAnswers) :
    PresentSpec p answers (p.present timeout answers) := by
  rw [present]
  split_ifs
  · exact .of_refuses (by simp [Refuses])
  have hpoll := @retained_of_poll p answers
  generalize p.poll answers = polled at hpoll
  obtain ⟨result, p'⟩ := polled
  simp only
  split_ifs with hok
  · exact ⟨fun h => absurd h hok, fun h => ⟨rfl, hpoll h⟩, fun h => absurd h Bool.false_ne_true⟩
  have hrefuses := @refuses_ensureSwapchain {} answers.presentSwapchain p'
  generalize p'.ensureSwapchain {} answers.presentSwapchain = ensured at hrefuses
  obtain ⟨ready, result', p''⟩ := ensured
  cases ready with
  | false => exact .of_refuses (hrefuses rfl)
  | true => exact presentSpec_presentPrepared p _ _

end Presentation

end KajPS5.Gpu
