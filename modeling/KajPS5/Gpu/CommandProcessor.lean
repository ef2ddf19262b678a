/-
# The command processor

One submission is a cursor: a stack of frames, each a copy of the words of one
command buffer with the offset of its next packet, and possibly a memory wait that
has not been satisfied. `resumeCommandBuffer` goes on from the cursor until the
buffers are used up, an error stops it, or something blocks.

Guest memory, the shader runtime and the sink are a `CommandHost`: functions on a
state that nothing is assumed about. A packet is planned first, from the state that
holds when it is reached, then its actions are handed to the sink one by one, then it
ends. `accepted` records the actions the sink has answered `kComplete` for.

Counters are natural numbers. The subtractions of the source never wrap: what is
subtracted is bounded by what it is subtracted from in every cursor that is reached.
-/

import KajPS5.Gpu.PacketDecoder
import KajPS5.Gpu.RenderState

namespace KajPS5.Gpu

inductive ShaderRuntimeStatus
  | kOk | kInvalidArgument | kMemoryFault | kResourceLimit | kNotRegistered | kUnsupportedShaderType
  | kStageMismatch | kCompilationFailed
  deriving DecidableEq, Repr

/-- What surrounds the decoder. -/
structure CommandHost (σ : Type) where
  /-- `Read` of guest memory, by address and length. -/
  read : σ → ℕ → ℕ → Option (List UInt8)
  resolveProgramBindings : σ → List GpuShaderBinding → ShaderRuntimeStatus × List GpuShaderBinding
  submit : GpuAction → σ → GpuCommandStatus × σ
  /-- The allocations for the packet at hand succeed. -/
  allocates : σ → Bool

/-- The registers, which all submissions share, and the state of the host. -/
structure CommandWorld (σ : Type) where
  registers : GpuRegisters
  state : σ

structure GpuCommandLimits where
  maxActions : ℕ := 4096
  maxIndirectDepth : ℕ := 8
  (maxProcessedDwords maxBufferDwords : ℕ := 1000000)

/-- Why processing stops, and where. -/
structure CommandStop where
  status : GpuCommandStatus
  packetAddress : BitVec 64
  opcode : BitVec 32 := 0
  deriving DecidableEq, Repr

structure GpuCommandResult where
  status : GpuCommandStatus := .kComplete
  packetAddress : BitVec 64 := 0
  (processedDwords submittedActions : ℕ := 0)
  opcode : BitVec 32 := 0
  deriving DecidableEq, Repr

structure GpuCommandFrame where
  address : BitVec 64
  (dwordCount offset : ℕ)
  words : List (BitVec 32)
  deriving DecidableEq, Repr

/-- What has not been processed of a frame. -/
def GpuCommandFrame.remaining (frame : GpuCommandFrame) : List (BitVec 32) :=
  frame.words.drop frame.offset

structure GpuCommandPendingWait where
  (packetAddress address mask reference : BitVec 64)
  packetDwords : ℕ
  (opcode function : BitVec 32)
  is64Bit : Bool
  deriving DecidableEq, Repr

/-- The frames are listed from the innermost out. -/
structure GpuCommandCursor where
  limits : GpuCommandLimits
  frames : List GpuCommandFrame := []
  pendingWait : Option GpuCommandPendingWait := none
  result : GpuCommandResult := {}
  terminal : Bool := false

/-- A submission in its surroundings. -/
structure CommandDecoder (σ : Type) where
  world : CommandWorld σ
  cursor : GpuCommandCursor
  accepted : List GpuAction

variable {σ : Type}

/-! ## Reading -/

variable (host : CommandHost σ)

/-- `ReadDwords`. -/
def readDwords (limits : GpuCommandLimits) (state : σ) (address : BitVec 64) (dwordCount : ℕ) :
    Except CommandStop (List (BitVec 32)) :=
  if address = 0 ∨ address &&& 3 ≠ 0 ∨ dwordCount = 0 ∨ limits.maxBufferDwords < dwordCount then
    .error ⟨.kInvalidArgument, address, 0⟩
  else if !host.allocates state then .error ⟨.kResourceLimit, address, 0⟩
  else match host.read state address.toNat (dwordCount * 4) with
    | none => .error ⟨.kMemoryFault, address, 0⟩
    | some bytes => .ok ((List.range dwordCount).map fun index => read32 bytes (index * 4))

/-- `ReadGuestValue`. -/
def readGuestValue (state : σ) (address : BitVec 64) (is64Bit : Bool) : Option (BitVec 64) :=
  if is64Bit then (host.read state address.toNat 8).map read64
  else (host.read state address.toNat 4).map fun bytes => (read32 bytes 0).setWidth 64

/-- `CompareWait`. -/
def compareWait (value reference mask : BitVec 64) (function : BitVec 32) : Bool :=
  let masked := value &&& mask
  if function = 1 then masked < reference
  else if function = 2 then masked ≤ reference
  else if function = 3 then masked = reference
  else if function = 4 then masked ≠ reference
  else if function = 5 then reference ≤ masked
  else if function = 6 then reference < masked
  else true

/-! ## Planning a packet -/

/-- A write to one register of the runtime. -/
structure RegisterWrite where
  space : GpuRegisterSpace
  (offset value : BitVec 32)

/-- An action for the sink and the register write that follows once it is accepted. -/
structure Emission where
  action : GpuAction
  write : Option RegisterWrite := none

/-- How a packet ends when all its actions are accepted. -/
inductive PacketEnd
  | next
  | wait (pending : GpuCommandPendingWait)
  | call (target : BitVec 64) (dwords : ℕ)

/-- What a packet does: register writes at once, then its actions, then its end. -/
structure PacketPlan where
  before : Option RegisterWrite := none
  emissions : List Emission
  finish : PacketEnd := .next

def CommandWorld.apply (world : CommandWorld σ) (write : Option RegisterWrite) : CommandWorld σ :=
  match write with
  | none => world
  | some write =>
    { world with registers := world.registers.write write.space write.offset write.value }

/-- `NormalizeRegisterOffset`. -/
def normalizeRegisterOffset (rawOffset : BitVec 32) : BitVec 32 := rawOffset &&& ~~~0x70000000

/-- The number of a register space in an action. -/
def registerSpaceValue : GpuRegisterSpace → BitVec 64
  | .kContext => 0
  | .kShader => 1
  | .kUserConfig => 2

variable (site : PacketSite)

/-- `ApplyRegisterWrite`. -/
def applyRegisterWrite (space : GpuRegisterSpace) (rawOffset value : BitVec 32)
    (tableAddress tableIndex : BitVec 64) : Emission :=
  let offset := normalizeRegisterOffset rawOffset
  { action := site.makeAction .kRegisterWrite
      [registerSpaceValue space, offset.setWidth 64, value.setWidth 64, tableAddress, tableIndex]
    write := some ⟨space, offset, value⟩ }

/-- `ApplyDirectRegisters`. -/
def applyDirectRegisters (space : GpuRegisterSpace) (start : BitVec 32)
    (values : List (BitVec 32)) : PacketPlan where
  emissions := values.mapIdx fun index value =>
    applyRegisterWrite site space (start + .ofNat 32 index) value 0 0

/-- `ApplyIndirectRegisters`. -/
def applyIndirectRegisters (limits : GpuCommandLimits) (state : σ) (site : PacketSite)
    (space : GpuRegisterSpace) (tableAddress : BitVec 64) (registerCount : BitVec 32) : Except
    CommandStop PacketPlan :=
  if registerCount = 0 then .ok ⟨none, [], .next⟩
  else if limits.maxBufferDwords / 2 < registerCount.toNat ∨
      limits.maxActions < registerCount.toNat then
    .error ⟨.kResourceLimit, site.packetAddress, site.opcode⟩
  else match readDwords host limits state tableAddress (registerCount.toNat * 2 % 2 ^ 32) with
    | .error stop => .error ⟨stop.status, site.packetAddress, site.opcode⟩
    | .ok table =>
      .ok {
        emissions := (List.range registerCount.toNat).map fun index =>
          applyRegisterWrite site space (table.getD (index * 2) 0) (table.getD (index * 2 + 1) 0)
            tableAddress (.ofNat 64 index) }

/-- `ProcessWait`. The function bits 0 and 7 always hold, and nothing is read for them. -/
def processWait (state : σ) (site : PacketSite) (wait : WaitOperands) : Except CommandStop
    PacketPlan :=
  let function := wait.control &&& 7
  let malformed : CommandStop := ⟨.kMalformedPacket, site.packetAddress, site.opcode⟩
  let alignment : BitVec 64 := if wait.is64Bit then 8 else 4
  let action (current : BitVec 64) : GpuAction := site.makeAction .kWaitMemory
    [wait.address, wait.mask, wait.reference, current, function.setWidth 64,
      if wait.is64Bit then 64 else 32, wait.control.setWidth 64, wait.poll.setWidth 64]
  let pending : GpuCommandPendingWait :=
    ⟨site.packetAddress, wait.address, wait.mask, wait.reference, site.packetDwords.toNat,
      site.opcode, function, wait.is64Bit⟩
  if function = 0 ∨ function = 7 then .ok { emissions := [{ action := action 0 }] }
  else if wait.address = 0 ∨ wait.address &&& (alignment - 1) ≠ 0 ∨ wait.mask = 0 then
    .error malformed
  else match readGuestValue host state wait.address wait.is64Bit with
    | none => .error ⟨.kMemoryFault, site.packetAddress, site.opcode⟩
    | some current =>
      .ok {
        emissions := [{ action := action current }]
        finish :=
          if compareWait current wait.reference wait.mask function then .next
          else .wait pending }

/-- `ProcessIndirectBuffer`, where `depth` frames enclose the packet's own. -/
def processIndirectBuffer (target : BitVec 64) (targetDwords : BitVec 32) (control : BitVec 32)
    (depth : ℕ) (branchValue : BitVec 64) : PacketPlan where
  emissions := [⟨site.makeAction .kIndirectBuffer
    [target, targetDwords.setWidth 64, control.setWidth 64, .ofNat 64 depth, branchValue], none⟩]
  finish := if targetDwords = 0 then .next else .call target targetDwords.toNat

/-- The indirect buffer that a comparison chooses. -/
def processBranchBuffer (state : σ) (site : PacketSite) (branch : BranchOperands) (depth : ℕ) :
    Except CommandStop PacketPlan := match readGuestValue host state branch.compareAddress true with
  | none => .error ⟨.kMemoryFault, site.packetAddress, site.opcode⟩
  | some value =>
    let takeThen := compareWait value branch.reference branch.mask branch.function
    let target := if takeThen then branch.thenTarget else branch.elseTarget
    let targetDwords := if takeThen then branch.thenDwords else branch.elseDwords
    .ok (processIndirectBuffer site target
      (if branch.mode = 2 ∨ takeThen then targetDwords else 0) branch.control depth
      (if takeThen then 1 else 0))

/-- What a decoded packet does in the state that holds when it is reached. -/
def planPacket (limits : GpuCommandLimits) (depth : ℕ) (state : σ) (site : PacketSite)
    (packet : Packet) : Except CommandStop PacketPlan := match packet with
  | .emit action =>
    -- The payload is copied, which allocates.
    if action.payload ≠ [] ∧ !host.allocates state then
      .error ⟨.kResourceLimit, site.packetAddress, site.opcode⟩
    else .ok { emissions := [{ action }] }
  | .numInstances count =>
    .ok {
      before := some ⟨.kUserConfig, syntheticDrawInstanceCount, count⟩
      emissions := [{ action := site.makeAction .kSetNumInstances [count.setWidth 64] }] }
  | .directRegisters space start values => .ok (applyDirectRegisters site space start values)
  | .indirectRegisters space tableAddress registerCount =>
    applyIndirectRegisters host limits state site space tableAddress registerCount
  | .wait operands => processWait host state site operands
  | .indirectBuffer target targetDwords control =>
    .ok (processIndirectBuffer site target targetDwords control depth 0)
  | .branchBuffer branch => processBranchBuffer host state site branch depth

/-! ## Emitting -/

/-- The action that the sink sees: draws and dispatches get their bindings and render
state here. -/
def enrich (world : CommandWorld σ) (action : GpuAction) : Except GpuCommandStatus GpuAction :=
  if action.isWork then
    let bindings := snapshotProgramBindings world.registers action.type
    match host.resolveProgramBindings world.state bindings with
    | (.kOk, resolved) =>
      .ok { action with
        shaderBindings := Vector.ofFn fun index : Fin maximumGpuActionShaderBindings =>
          resolved.getD index {}
        shaderBindingCount := bindings.length
        render := snapshotRenderState world.registers action }
    | (.kResourceLimit, _) => .error .kResourceLimit
    | _ => .error .kInvalidArgument
  else .ok action

namespace CommandDecoder

variable (host : CommandHost σ)

/-- `Emit`, followed by the register write that depends on it. -/
def emit (emission : Emission) (d : CommandDecoder σ) : Option CommandStop × CommandDecoder σ :=
  let stop (status : GpuCommandStatus) : CommandStop :=
    ⟨status, emission.action.packetAddress, emission.action.opcode⟩
  if d.cursor.limits.maxActions ≤ d.cursor.result.submittedActions then
    (some (stop .kResourceLimit), d)
  else match enrich host d.world emission.action with
    | .error status => (some (stop status), d)
    | .ok action =>
      let reply := host.submit action d.world.state
      let world := { d.world with state := reply.2 }
      if reply.1 ≠ .kComplete then (some (stop reply.1), { d with world })
      else
        (none, {
          world := world.apply emission.write
          cursor := { d.cursor with result :=
            { d.cursor.result with submittedActions := d.cursor.result.submittedActions + 1 } }
          accepted := d.accepted ++ [action] })

/-- The actions of a packet, up to the first that is not accepted. -/
def emitAll (host : CommandHost σ) :
    List Emission → CommandDecoder σ → Option CommandStop × CommandDecoder σ
  | [], d => (none, d)
  | emission :: emissions, d => match d.emit host emission with
    | (none, d) => d.emitAll host emissions
    | stopped => stopped

/-- `SnapshotFrame`. -/
def snapshotFrame (address : BitVec 64) (dwordCount : ℕ) (d : CommandDecoder σ) : Option CommandStop
    × CommandDecoder σ :=
  if d.cursor.limits.maxIndirectDepth < d.cursor.frames.length then
    (some ⟨.kResourceLimit, address, pm4IndirectBuffer⟩, d)
  else if d.cursor.frames.any fun frame => frame.address = address && frame.dwordCount = dwordCount
    then (some ⟨.kResourceLimit, address, pm4IndirectBuffer⟩, d)
  else match readDwords host d.cursor.limits d.world.state address dwordCount with
    | .error stop => (some stop, d)
    | .ok words =>
      if !host.allocates d.world.state then (some ⟨.kResourceLimit, address, 0⟩, d)
      else (none, { d with cursor := { d.cursor with
        frames := ⟨address, dwordCount, 0, words⟩ :: d.cursor.frames } })

/-- Move the frame at a depth past a packet. -/
def advance (index dwords : ℕ) (d : CommandDecoder σ) : CommandDecoder σ :=
  { d with cursor := { d.cursor with
    frames := d.cursor.frames.modify index fun frame =>
      { frame with offset := frame.offset + dwords } } }

/-- The end of a packet of the innermost frame. The frame of the packet itself moves on in
the end, also under a new frame; a wait leaves it where it is. -/
def finishPacket (dwords : ℕ) (finish : PacketEnd) (d : CommandDecoder σ) : Option CommandStop ×
    CommandDecoder σ := match finish with
  | .next => (none, d.advance 0 dwords)
  | .wait pending =>
    (some ⟨.kBlocked, pending.packetAddress, pending.opcode⟩,
      { d with cursor := { d.cursor with pendingWait := some pending } })
  | .call target targetDwords => match d.snapshotFrame host target targetDwords with
    | (none, d) => (none, d.advance 1 dwords)
    | stopped => stopped

/-- Run a plan. -/
def runPlan (dwords : ℕ) (plan : PacketPlan) (d : CommandDecoder σ) : Option CommandStop ×
    CommandDecoder σ :=
  match { d with world := d.world.apply plan.before }.emitAll host plan.emissions with
  | (none, d) => d.finishPacket host dwords plan.finish
  | stopped => stopped

/-- Charge some words to the submission's budget. -/
def charge (dwords : ℕ) (d : CommandDecoder σ) : CommandDecoder σ :=
  { d with cursor := { d.cursor with result :=
    { d.cursor.result with processedDwords := d.cursor.result.processedDwords + dwords } } }

/-- One type 3 packet at the head of the innermost frame, `depth` frames deep. -/
def processPacket (address : BitVec 64) (header : BitVec 32) (words : List (BitVec 32)) (depth : ℕ)
    (d : CommandDecoder σ) : Option CommandStop × CommandDecoder σ :=
  let opcode := headerOpcode header
  match splitPacket address header words with
  | .error status => (some ⟨status, address, opcode⟩, d)
  | .ok split =>
    let dwords := split.site.packetDwords.toNat
    if d.cursor.limits.maxProcessedDwords - d.cursor.result.processedDwords < dwords then
      (some ⟨.kResourceLimit, address, opcode⟩, d)
    else
      let d := d.charge dwords
      match decodePacket split.site split.words with
      | .error status => (some ⟨status, address, opcode⟩, d)
      | .ok packet =>
        match planPacket host d.cursor.limits depth d.world.state split.site packet with
        | .error stop => (some stop, d)
        | .ok plan => d.runPlan host dwords plan

/-- A type 2 packet, a filler of one word. -/
def processFiller (address : BitVec 64) (d : CommandDecoder σ) : Option CommandStop × CommandDecoder
    σ :=
  if d.cursor.limits.maxProcessedDwords ≤ d.cursor.result.processedDwords then
    (some ⟨.kResourceLimit, address, 0⟩, d)
  else
    (d.charge 1).runPlan host 1
      { emissions := [{ action := PacketSite.makeAction ⟨address, 1, 0, 0⟩ .kNop [] }] }

/-- One round of the loop of `ProcessFrames`. -/
def step (d : CommandDecoder σ) : Option CommandStop × CommandDecoder σ :=
  match d.cursor.frames with
  | [] => (some ⟨.kComplete, 0, 0⟩, d)
  | frame :: frames => match frame.remaining with
    | [] => (none, { d with cursor := { d.cursor with frames } })
    | header :: rest =>
      if 2 ^ 64 ≤ frame.address.toNat + frame.offset * 4 then
        (some ⟨.kMemoryFault, frame.address, 0⟩, d)
      else
        let address := frame.address + .ofNat 64 (frame.offset * 4)
        if pm4Type header = pm4Type2 then d.processFiller host address
        else if pm4Type header = pm4Type3 then
          d.processPacket host address header (header :: rest) frames.length
        else (some ⟨.kMalformedPacket, address, 0⟩, d)

/-- `ResumePendingWait`. -/
def resumePendingWait (d : CommandDecoder σ) : Option CommandStop × CommandDecoder σ :=
  match d.cursor.pendingWait with
  | none => (none, d)
  | some wait => match readGuestValue host d.world.state wait.address wait.is64Bit with
    | none => (some ⟨.kMemoryFault, wait.packetAddress, wait.opcode⟩, d)
    | some value =>
      if !compareWait value wait.reference wait.mask wait.function then
        (some ⟨.kBlocked, wait.packetAddress, wait.opcode⟩, d)
      else match d.cursor.frames with
        | [] => (some ⟨.kMalformedPacket, wait.packetAddress, wait.opcode⟩, d)
        | frame :: _ =>
          if frame.dwordCount - wait.packetDwords < frame.offset then
            (some ⟨.kMalformedPacket, wait.packetAddress, wait.opcode⟩, d)
          else
            (none, { d with cursor := { d.cursor with pendingWait := none } }.advance 0
              wait.packetDwords)

/-- Rounds of the loop until one stops. -/
def loop (host : CommandHost σ) : ℕ → CommandDecoder σ → CommandStop × CommandDecoder σ
  | 0, d => (⟨.kResourceLimit, 0, 0⟩, d)
  | fuel + 1, d => match d.step host with
    | (some stop, d) => (stop, d)
    | (none, d) => d.loop host fuel

/-- More rounds than the loop can take: every packet costs a word of the budget and may add
a frame, every other round removes one. -/
def rounds (d : CommandDecoder σ) : ℕ :=
  2 * (d.cursor.limits.maxProcessedDwords - d.cursor.result.processedDwords) +
    d.cursor.frames.length + 1

/-- `ProcessFrames`. -/
def processFrames (d : CommandDecoder σ) : CommandStop × CommandDecoder σ :=
  match d.resumePendingWait host with
  | (some stop, d) => (stop, d)
  | (none, d) => d.loop host d.rounds

/-- Keep why processing stopped. Only a block leaves the submission to be taken up again. -/
def keepStop (stop : CommandStop) (d : CommandDecoder σ) : CommandDecoder σ :=
  { d with cursor := { d.cursor with
    result := { d.cursor.result with
      status := stop.status, packetAddress := stop.packetAddress, opcode := stop.opcode }
    terminal := stop.status ≠ .kBlocked } }

/-- `ResumeCommandBuffer`, in the world that holds when the submission is taken up again. -/
def resumeCommandBuffer (world : CommandWorld σ) (d : CommandDecoder σ) : CommandDecoder σ :=
  if d.cursor.terminal then { d with world }
  else
    let outcome := { d with world }.processFrames host
    outcome.2.keepStop outcome.1

/-- `BeginCommandBuffer`. -/
def beginCommandBuffer (limits : GpuCommandLimits) (address : BitVec 64) (dwordCount : ℕ)
    (world : CommandWorld σ) : CommandDecoder σ :=
  let d : CommandDecoder σ := ⟨world, { limits }, []⟩
  if address = 0 ∨ address &&& 3 ≠ 0 ∨ dwordCount = 0 ∨ limits.maxActions = 0 ∨
      limits.maxBufferDwords = 0 ∨ limits.maxProcessedDwords = 0 then
    { d with cursor := { d.cursor with
      result := { status := .kInvalidArgument, packetAddress := address }, terminal := true } }
  else match d.snapshotFrame host address dwordCount with
    | (none, d) => d
    | (some stop, d) =>
      { d with cursor := { d.cursor with
        result := { d.cursor.result with
          status := stop.status, packetAddress := stop.packetAddress, opcode := stop.opcode }
        terminal := true } }

/-- A submission is taken up once in each of the given worlds. -/
def resumeAll (d : CommandDecoder σ) (worlds : List (CommandWorld σ)) : CommandDecoder σ :=
  worlds.foldl (fun d world => d.resumeCommandBuffer host world) d

end CommandDecoder

end KajPS5.Gpu
