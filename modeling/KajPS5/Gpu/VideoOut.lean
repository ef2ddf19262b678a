/-
# Video output

`VideoOutService` accepts flips of registered buffers. A flip is counted and
triggers its event when the presenter answers success; when the presenter answers
that work is retained, the flip stays pending and a later call polls for it. The
model also keeps a log of what happens to each flip. No call reads the log, the
numbers of the flips or the owner of the pending flip: they only label the events.
-/

import KajPS5.Gpu.Presentation
import KajPS5.Kernel.EventQueue
import KajPS5.Memory.GuestMemory

namespace KajPS5.Gpu

open Kernel Memory

/-- A code of the service as a signed word. -/
def videoOutError (code : ℤ) : ℤ := 0x80290000 + code - 2 ^ 32

def kVideoOutErrorInvalidValue : ℤ := videoOutError 0x1
def kVideoOutErrorInvalidAddress : ℤ := videoOutError 0x2
def kVideoOutErrorResourceBusy : ℤ := videoOutError 0x9
def kVideoOutErrorInvalidIndex : ℤ := videoOutError 0xa
def kVideoOutErrorInvalidHandle : ℤ := videoOutError 0xb
def kVideoOutErrorInvalidEventQueue : ℤ := videoOutError 0xc
def kVideoOutErrorInvalidEvent : ℤ := videoOutError 0xd

def kVideoOutMaximumBuffers : ℕ := 16
def kVideoOutMaximumGroups : ℕ := 4
def kVideoOutFlipEventIdent : ℕ := 0x6
def kVideoOutCategoryUncompressed : ℕ := 0
def kVideoOutCategoryCompressed : ℕ := 1
def kVideoOutTilingModeRenderTarget : ℕ := 0
def kVideoOutTilingModeLinear : ℕ := 1
def kVideoOutRenderTargetAlignment : ℕ := 64 * 1024

structure VideoOutBufferAttribute where
  (tilingMode aspectRatio width height pitchInPixels option pixelFormat dccClear : ℕ := 0)
  dccControl : ℕ := 0
  deriving DecidableEq, Repr

structure VideoOutBufferEntry where
  (dataAddress metadataAddress : ℕ := 0)
  deriving DecidableEq, Repr

structure VideoOutFlipStatus where
  count : ℕ := 0
  flipArg : ℤ := -1
  pendingCount : ℤ := 0
  currentBuffer : ℤ := -1
  timeline : ℕ := 0
  deriving DecidableEq, Repr

structure BufferSlot where
  groupIndex : ℤ := -1
  entry : VideoOutBufferEntry := {}
  deriving DecidableEq, Repr

structure Group where
  occupied : Bool := false
  category : ℕ := 0
  bufferAttribute : VideoOutBufferAttribute := {}
  deriving DecidableEq, Repr

/-- The formats of the guest the service supports. -/
inductive GuestFormat
  | k8_8_8_8Srgb
  | k10_10_10_2UNorm
  deriving DecidableEq, Repr

/-- The formats of the device it asks for. -/
inductive VkFormat
  | r8g8b8a8Srgb | b8g8r8a8Srgb | a2b10g10r10UNorm | a2r10g10b10UNorm
  deriving DecidableEq, Repr

inductive TileMode
  | kLinear
  | kRenderTarget
  deriving DecidableEq, Repr

/-- A color image of two dimensions; the other image types do not occur here. -/
structure GuestImageLayoutInput where
  guestAddress : ℕ
  format : GuestFormat
  (width height : ℕ)
  (depth layers mipCount : ℕ := 1)
  (rowPitchBytes slicePitchBytes : ℕ)
  tileMode : TileMode
  tightlyPacked : Bool
  deriving DecidableEq, Repr

/-- What happens to a flip. Flips are numbered by their calls. -/
inductive FlipEvent
  /-- Its frame was submitted to the device. -/
  | submitted (flip : ℕ)
  /-- It was counted. -/
  | counted (flip : ℕ)
  /-- Its event was triggered with an argument. -/
  | triggered (flip : ℕ) (flipArg : ℤ)
  /-- The call that asked for the flip with an argument was answered. -/
  | answered (flip : ℕ) (flipArg answer : ℤ)
  deriving DecidableEq, Repr

def FlipEvent.flip : FlipEvent → ℕ
  | submitted flip | counted flip | triggered flip _ | answered flip _ _ => flip

structure VideoOutService where
  isOpen : Bool := false
  flipRate : ℤ := 0
  buffers : ℕ → BufferSlot := fun _ => {}
  groups : ℕ → Group := fun _ => {}
  eventQueues : List ℕ := []
  flipStatus : VideoOutFlipStatus := {}
  pending : Bool := false
  pendingFlipArg : ℤ := -1
  lastPresentation : VulkanPresentationResult := {}

/-- The service with the presenter of the GPU runtime, if there is one, and the
event queues. -/
structure VideoOutSystem where
  service : VideoOutService := {}
  presenter : Option Presentation := none
  queues : EventQueueService
  /-- The number of flips asked for. -/
  flips : ℕ := 0
  /-- The flip the pending argument belongs to. -/
  owner : ℕ := 0
  log : List FlipEvent := []

def isSupportedFormat (pixelFormat : ℕ) : Option (GuestFormat × VkFormat) :=
  if pixelFormat = 0x8000000022000000 then some (.k8_8_8_8Srgb, .r8g8b8a8Srgb)
  else if pixelFormat = 0x8000000000000000 then some (.k8_8_8_8Srgb, .b8g8r8a8Srgb)
  else if pixelFormat = 0x8100000022000000 then some (.k10_10_10_2UNorm, .a2b10g10r10UNorm)
  else if pixelFormat = 0x8100000000000000 then some (.k10_10_10_2UNorm, .a2r10g10b10UNorm)
  else none

def isSupportedTileMode (raw : ℕ) : Option TileMode :=
  if raw = kVideoOutTilingModeRenderTarget then some .kRenderTarget
  else if raw = kVideoOutTilingModeLinear then some .kLinear
  else none

namespace VideoOutService

def isOpenLocked (service : VideoOutService) (handle : ℤ) : Bool := service.isOpen && handle = 1

/-- The image of a buffer with a tiled render target. -/
def renderTargetInput (entry : VideoOutBufferEntry) (bufferAttribute : VideoOutBufferAttribute)
    (format : GuestFormat) : Except ℤ GuestImageLayoutInput :=
  if bufferAttribute.pitchInPixels ≠ 0 then .error kVideoOutErrorInvalidValue
  else if entry.dataAddress &&& (kVideoOutRenderTargetAlignment - 1) ≠ 0 then
    .error kVideoOutErrorInvalidAddress
  else
    .ok
      { guestAddress := entry.dataAddress
        format
        width := bufferAttribute.width
        height := bufferAttribute.height
        rowPitchBytes := 0
        slicePitchBytes := 0
        tileMode := .kRenderTarget
        tightlyPacked := true }

/-- The image of a linear buffer. -/
def linearInput (entry : VideoOutBufferEntry) (bufferAttribute : VideoOutBufferAttribute)
    (format : GuestFormat) : Except ℤ GuestImageLayoutInput :=
  let pitch := if bufferAttribute.pitchInPixels = 0 then bufferAttribute.width
    else bufferAttribute.pitchInPixels
  if pitch < bufferAttribute.width ∨ pitch > Memory.uint64Max / 4 then
    .error kVideoOutErrorInvalidValue
  else
    let rowPitchBytes := pitch * 4
    if rowPitchBytes > Memory.uint64Max / bufferAttribute.height then
      .error kVideoOutErrorInvalidValue
    else
      .ok
        { guestAddress := entry.dataAddress
          format
          width := bufferAttribute.width
          height := bufferAttribute.height
          rowPitchBytes
          slicePitchBytes := rowPitchBytes * bufferAttribute.height
          tileMode := .kLinear
          tightlyPacked := false }

/-- The checks of `SubmitFlip` under the first lock: the image of the buffer, or the
error. -/
def flipInput (service : VideoOutService) (handle bufferIndex flipMode : ℤ) :
    Except ℤ (GuestImageLayoutInput × VkFormat) :=
  if bufferIndex < 0 ∨ bufferIndex ≥ kVideoOutMaximumBuffers then .error kVideoOutErrorInvalidIndex
  else if flipMode ≠ 1 ∧ flipMode ≠ 4 then .error kVideoOutErrorInvalidValue
  else if !service.isOpenLocked handle then .error kVideoOutErrorInvalidHandle
  else if service.pending then .error kVideoOutErrorResourceBusy
  else
    let slot := service.buffers bufferIndex.toNat
    if slot.groupIndex < 0 then .error kVideoOutErrorInvalidIndex
    else
      let group := service.groups slot.groupIndex.toNat
      match group.occupied, isSupportedFormat group.bufferAttribute.pixelFormat,
        isSupportedTileMode group.bufferAttribute.tilingMode with
      | true, some (format, device), some .kRenderTarget =>
        (renderTargetInput slot.entry group.bufferAttribute format).map (·, device)
      | true, some (format, device), some .kLinear =>
        (linearInput slot.entry group.bufferAttribute format).map (·, device)
      | _, _, _ => .error kVideoOutErrorInvalidValue

end VideoOutService

/-- What a call meets besides its arguments: the answers to the poll at its
beginning, and for a flip the layout of the image, the guest memory and the answers
to the presentation. -/
structure CallMeets where
  polled : DeviceAnswers := {}
  /-- `CalculateGuestImageLayout`: the storage of an image it accepts. -/
  layout : GuestImageLayoutInput → Option (ℕ × ℕ) := fun _ => none
  /-- `CanAccess` of the guest memory. -/
  canAccess : ℕ → ℕ → GuestMemoryProtection → Bool := fun _ _ _ => false
  presented : DeviceAnswers := {}
  /-- Whether an event queue finds room for a registration. -/
  stored : Bool := true

namespace VideoOutSystem

section Calls

variable (clock : ℕ → ℕ)

variable (s : VideoOutSystem)

/-- `CompleteLocked`. -/
def completeLocked : VideoOutSystem :=
  let flipArg := s.service.pendingFlipArg
  { s with
    service :=
      { s.service with
        pending := false
        flipStatus :=
          { s.service.flipStatus with
            pendingCount := 0
            flipArg
            count := (s.service.flipStatus.count + 1) % 2 ^ 64 } }
    queues := (s.queues.triggerVideoOutEvents clock (flipArg % 2 ^ 64).toNat).2
    log := s.log ++ [.counted s.owner, .triggered s.owner flipArg] }

/-- Keep what the presenter answered. -/
def recordResult (result : VulkanPresentationResult) : VideoOutSystem :=
  { s with
    service :=
      { s.service with
        lastPresentation := result
        flipStatus := { s.service.flipStatus with timeline := result.timeline } } }

/-- `PollVulkanPresentation` of the runtime. -/
def pollVulkanPresentation (answers : DeviceAnswers) : VulkanPresentationResult × VideoOutSystem :=
  match s.presenter with
  | none => ({ status := .kContextUnavailable }, s)
  | some p => ((p.poll answers).1, { s with presenter := some (p.poll answers).2 })

/-- `PresentVulkanGuestFrame` of the runtime, for the flip of this call. -/
def presentVulkanGuestFrame (flip : ℕ) (answers : DeviceAnswers) : VulkanPresentationResult ×
    VideoOutSystem := match s.presenter with
  | none =>
    (({} : VulkanPresentationResult).add .kContextUnavailable
      "InitializeVulkanPresentation must succeed before presenting a guest frame" .success, s)
  | some p =>
    let outcome := p.present 50000000 answers
    (outcome.result, { s with
        presenter := some outcome.presentation
        log := s.log ++ if outcome.submitted then [.submitted flip] else [] })

/-- What `PollPending` does with the answer of the presenter. -/
def takePolled (result : VulkanPresentationResult) (s : VideoOutSystem) :
    Bool × VideoOutSystem :=
  if result.status = .kOk then (true, (s.recordResult result).completeLocked clock)
  else if result.status = .kRetainedWorkPending then (false, s.recordResult result)
  else (false, s)

def pollPending (answers : DeviceAnswers) : Bool × VideoOutSystem :=
  if !s.service.pending then (false, s)
  else
    let (result, s) := s.pollVulkanPresentation answers
    s.takePolled clock result

/-- What `SubmitFlip` does with the answer of the presenter. -/
def takePresented (flip : ℕ) (bufferIndex flipArg : ℤ) (result : VulkanPresentationResult) : ℤ ×
    VideoOutSystem :=
  let accepted : VideoOutSystem :=
    { s with
      service :=
        { s.service with
          flipStatus := { s.service.flipStatus with currentBuffer := bufferIndex }
          pendingFlipArg := flipArg }
      owner := flip }
  if result.status = .kOk then (0, (accepted.recordResult result).completeLocked clock)
  else if result.status = .kRetainedWorkPending then
    let s := accepted.recordResult result
    (0, { s with
      service :=
        { s.service with
          pending := true
          flipStatus := { s.service.flipStatus with pendingCount := 1 } } })
  else if result.status = .kInvalidFrame then (kVideoOutErrorInvalidValue, s)
  else (kVideoOutErrorResourceBusy, s)

/-- `SubmitFlip` from the presentation on. Under the second lock it looks again at
what it saw under the first one. -/
def presentFlip (flip : ℕ) (handle bufferIndex flipArg : ℤ) (answers : DeviceAnswers) : ℤ ×
    VideoOutSystem :=
  let slot := s.service.buffers bufferIndex.toNat
  let group := s.service.groups slot.groupIndex.toNat
  let (result, s) := s.presentVulkanGuestFrame flip answers
  if !s.service.isOpenLocked handle then (kVideoOutErrorInvalidHandle, s)
  else if s.service.buffers bufferIndex.toNat ≠ slot ∨
      s.service.groups slot.groupIndex.toNat ≠ group then (kVideoOutErrorInvalidIndex, s)
  else s.takePresented clock flip bufferIndex flipArg result

/-- `SubmitFlip` after its poll. -/
def submitPolled (flip : ℕ) (handle bufferIndex flipMode flipArg : ℤ) (meets : CallMeets) : ℤ ×
    VideoOutSystem := match s.service.flipInput handle bufferIndex flipMode with
  | .error error => (error, s)
  | .ok (input, _) => match meets.layout input with
    | none => (kVideoOutErrorInvalidValue, s)
    | some (address, bytes) =>
      if !meets.canAccess address bytes
          (GuestMemoryProtection.kRead ||| GuestMemoryProtection.kGpuRead) then
        (kVideoOutErrorInvalidAddress, s)
      else s.presentFlip clock flip handle bufferIndex flipArg meets.presented

def submitFlip (handle bufferIndex flipMode flipArg : ℤ) (meets : CallMeets) : ℤ × VideoOutSystem :=
  let flip := s.flips
  let s := (s.pollPending clock meets.polled).2
  let (answer, s) := s.submitPolled clock flip handle bufferIndex flipMode flipArg meets
  (answer, { s with flips := flip + 1, log := s.log ++ [.answered flip flipArg answer] })

def getFlipStatus (handle : ℤ) (meets : CallMeets) : (ℤ × Option VideoOutFlipStatus) ×
    VideoOutSystem :=
  let s := (s.pollPending clock meets.polled).2
  if !s.service.isOpenLocked handle then ((kVideoOutErrorInvalidHandle, none), s)
  else ((0, some s.service.flipStatus), s)

def isFlipPending (handle : ℤ) (meets : CallMeets) : ℤ × VideoOutSystem :=
  let s := (s.pollPending clock meets.polled).2
  (if s.service.isOpenLocked handle then s.service.flipStatus.pendingCount
    else kVideoOutErrorInvalidHandle, s)

def pollPresentation (meets : CallMeets) : Bool × VideoOutSystem := s.pollPending clock meets.polled

/-! ## The other calls -/

/-- `Open`. It answers the only handle there is. -/
def openOutput (userId busType index : ℤ) (meets : CallMeets) : ℤ × VideoOutSystem :=
  let s := (s.pollPending clock meets.polled).2
  if (userId ≠ 0 ∧ userId ≠ 255) ∨ busType ≠ 0 ∨ index ≠ 0 then (kVideoOutErrorInvalidValue, s)
  else if s.service.isOpen then (kVideoOutErrorResourceBusy, s)
  else (1, { s with service := { isOpen := true } })

def close (handle : ℤ) (meets : CallMeets) : ℤ × VideoOutSystem :=
  let s := (s.pollPending clock meets.polled).2
  if !s.service.isOpenLocked handle then (kVideoOutErrorInvalidHandle, s)
  else
    (0, { s with
      service :=
        { s.service with
          isOpen := false
          buffers := fun _ => {}
          groups := fun _ => {}
          eventQueues := []
          pending := false }
      queues := s.service.eventQueues.foldl
        (fun queues handle => (queues.deleteVideoOutEvent handle kVideoOutFlipEventIdent).2)
        s.queues })

def setFlipRate (handle rate : ℤ) (meets : CallMeets) : ℤ × VideoOutSystem :=
  let s := (s.pollPending clock meets.polled).2
  if rate < 0 ∨ rate > 2 then (kVideoOutErrorInvalidValue, s)
  else if !s.service.isOpenLocked handle then (kVideoOutErrorInvalidHandle, s)
  else (0, { s with service := { s.service with flipRate := rate } })

/-- The tables after a registration. -/
def registered (service : VideoOutService) (groupIndex startIndex : ℕ)
    (buffers : List VideoOutBufferEntry) (bufferAttribute : VideoOutBufferAttribute)
    (category : ℕ) : VideoOutService :=
  { service with
    groups := Function.update service.groups groupIndex ⟨true, category, bufferAttribute⟩
    buffers := fun i =>
      if startIndex ≤ i ∧ i < startIndex + buffers.length then
        ⟨groupIndex, buffers.getD (i - startIndex) {}⟩
      else service.buffers i }

/-- `Register`, which both registrations end in. -/
def register (handle groupIndex startIndex : ℤ) (buffers : List VideoOutBufferEntry)
    (bufferAttribute : VideoOutBufferAttribute) (category : ℕ) (meets : CallMeets) : ℤ ×
    VideoOutSystem :=
  let s := (s.pollPending clock meets.polled).2
  if groupIndex < 0 ∨ groupIndex ≥ kVideoOutMaximumGroups ∨ startIndex < 0 ∨ buffers = [] ∨
      buffers.length > kVideoOutMaximumBuffers ∨
      startIndex.toNat > kVideoOutMaximumBuffers - buffers.length ∨
      bufferAttribute.width = 0 ∨ bufferAttribute.height = 0 then (kVideoOutErrorInvalidValue, s)
  else if buffers.any (·.dataAddress = 0) then (kVideoOutErrorInvalidAddress, s)
  else if !s.service.isOpenLocked handle then (kVideoOutErrorInvalidHandle, s)
  else if (s.service.groups groupIndex.toNat).occupied then (kVideoOutErrorResourceBusy, s)
  else if (List.range' startIndex.toNat buffers.length).any fun i =>
      (s.service.buffers i).groupIndex ≥ 0 then (kVideoOutErrorResourceBusy, s)
  else
    (groupIndex, { s with
      service := registered s.service groupIndex.toNat startIndex.toNat buffers bufferAttribute
        category })

def registerBuffers (handle startIndex : ℤ) (addresses : List ℕ)
    (bufferAttribute : VideoOutBufferAttribute) (meets : CallMeets) : ℤ × VideoOutSystem :=
  if addresses = [] ∨ addresses.length > kVideoOutMaximumBuffers then
    (kVideoOutErrorInvalidValue, s)
  else
    s.register clock handle 0 startIndex (addresses.map fun dataAddress => { dataAddress })
      bufferAttribute kVideoOutCategoryUncompressed meets

def registerBuffers2 (handle groupIndex startIndex : ℤ) (buffers : List VideoOutBufferEntry)
    (bufferAttribute : VideoOutBufferAttribute) (category option : ℕ) (meets : CallMeets) : ℤ ×
    VideoOutSystem :=
  if option ≠ 0 ∨ (category ≠ kVideoOutCategoryUncompressed ∧
      category ≠ kVideoOutCategoryCompressed) then (kVideoOutErrorInvalidValue, s)
  else s.register clock handle groupIndex startIndex buffers bufferAttribute category meets

def unregisterBuffers (handle groupIndex : ℤ) (meets : CallMeets) : ℤ × VideoOutSystem :=
  let s := (s.pollPending clock meets.polled).2
  if groupIndex < 0 ∨ groupIndex ≥ kVideoOutMaximumGroups then (kVideoOutErrorInvalidIndex, s)
  else if !s.service.isOpenLocked handle then (kVideoOutErrorInvalidHandle, s)
  else if !(s.service.groups groupIndex.toNat).occupied then (kVideoOutErrorInvalidIndex, s)
  else
    (0, { s with
      service :=
        { s.service with
          groups := Function.update s.service.groups groupIndex.toNat {}
          buffers := fun i =>
            if (s.service.buffers i).groupIndex = groupIndex then {} else s.service.buffers i } })

def addFlipEvent (queue : ℕ) (handle : ℤ) (userData : ℕ) (meets : CallMeets) : ℤ × VideoOutSystem :=
  let s := (s.pollPending clock meets.polled).2
  if !s.service.isOpenLocked handle then (kVideoOutErrorInvalidHandle, s)
  else if s.service.eventQueues.length = kVideoOutMaximumBuffers ∧
      queue ∉ s.service.eventQueues then (kVideoOutErrorResourceBusy, s)
  else
    let (status, queues) :=
      s.queues.addVideoOutEvent queue kVideoOutFlipEventIdent userData meets.stored
    let s := { s with queues }
    if status ≠ .kOk then (kVideoOutErrorInvalidEventQueue, s)
    else if queue ∈ s.service.eventQueues then (0, s)
    else
      (0, { s with
        service := { s.service with eventQueues := s.service.eventQueues ++ [queue] } })

def deleteFlipEvent (queue : ℕ) (handle : ℤ) (meets : CallMeets) : ℤ × VideoOutSystem :=
  let s := (s.pollPending clock meets.polled).2
  if !s.service.isOpenLocked handle then (kVideoOutErrorInvalidHandle, s)
  else
    let (status, queues) := s.queues.deleteVideoOutEvent queue kVideoOutFlipEventIdent
    let s := { s with queues }
    if status ≠ .kOk then
      (if status = .kNotFound then kVideoOutErrorInvalidEventQueue
        else kVideoOutErrorInvalidEvent, s)
    else
      (0, { s with
        service := { s.service with eventQueues := s.service.eventQueues.erase queue } })

/-- `ResizeVulkanPresentation` of the runtime. -/
def resize (width height : ℕ) : VulkanPresentationResult × VideoOutSystem :=
  match s.presenter with
  | none => ({ status := .kContextUnavailable }, s)
  | some p =>
    ((p.requestResize width height).1,
      { s with presenter := some (p.requestResize width height).2 })

end Calls

end VideoOutSystem

end KajPS5.Gpu
