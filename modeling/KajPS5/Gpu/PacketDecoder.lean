/-
# Decoding one packet

The branches of `ProcessFrames` as a function of the packet's words: which branch a
packet takes and what the branch reads from the words. Everything that depends on
guest memory, on registers or on the sink comes after it.
-/

import KajPS5.Gpu.Action
import KajPS5.Gpu.Pm4

namespace KajPS5.Gpu

/-- Where a packet stands and what its header says. -/
structure PacketSite where
  packetAddress : BitVec 64
  (packetDwords opcode packetRegister : BitVec 32)
  deriving DecidableEq, Repr

variable (site : PacketSite)

/-- `MakeAction`. -/
def PacketSite.makeAction (type : GpuActionType) (values : List (BitVec 64)) : GpuAction where
  type
  packetAddress := site.packetAddress
  packetDwords := site.packetDwords
  opcode := site.opcode
  packetRegister := site.packetRegister
  values := Vector.ofFn fun index : Fin 8 => values.getD index 0
  valueCount := min values.length 8

/-- The operands of a memory wait. -/
structure WaitOperands where
  (address mask reference : BitVec 64)
  (control poll : BitVec 32)
  is64Bit : Bool
  deriving DecidableEq, Repr

/-- The operands of an indirect buffer that is chosen by a comparison. -/
structure BranchOperands where
  (compareAddress mask reference : BitVec 64)
  control : BitVec 32
  thenTarget : BitVec 64
  thenDwords : BitVec 32
  elseTarget : BitVec 64
  elseDwords : BitVec 32
  deriving DecidableEq, Repr

def BranchOperands.mode (branch : BranchOperands) : BitVec 32 := branch.control &&& 3
def BranchOperands.function (branch : BranchOperands) : BitVec 32 := branch.control >>> 8 &&& 7

inductive Packet
  /-- One action and nothing else. -/
  | emit (action : GpuAction)
  /-- The instance count that later draws use. -/
  | numInstances (count : BitVec 32)
  /-- Values for consecutive registers. -/
  | directRegisters (space : GpuRegisterSpace) (start : BitVec 32) (values : List (BitVec 32))
  /-- A table of registers and values in guest memory. -/
  | indirectRegisters (space : GpuRegisterSpace) (tableAddress : BitVec 64)
      (registerCount : BitVec 32)
  | wait (operands : WaitOperands)
  | indirectBuffer (target : BitVec 64) (targetDwords control : BitVec 32)
  | branchBuffer (operands : BranchOperands)
  deriving DecidableEq, Repr

/-- `ProcessWriteData` up to its `Emit`. -/
def processWriteData (packet : List (BitVec 32)) : Except GpuCommandStatus Packet :=
  let word (index : ℕ) : BitVec 32 := packet.getD index 0
  if site.packetDwords < 4 then .error .kMalformedPacket
  else
    let destination := join64 (word 2) (word 3)
    let dataCount := site.packetDwords - 4
    .ok (.emit { site.makeAction .kWriteData [destination, (word 1).setWidth 64,
        dataCount.setWidth 64, if 0 < dataCount then (word 4).setWidth 64 else 0,
        if 1 < dataCount then (word 5).setWidth 64 else 0] with
      payload := packet.drop 4 })

/-- `ProcessReleaseMemory` up to its `Emit`. -/
def processReleaseMemory (packet : List (BitVec 32)) : Except GpuCommandStatus Packet :=
  let word (index : ℕ) : BitVec 32 := packet.getD index 0
  if site.packetDwords ≠ 8 then .error .kMalformedPacket
  else .ok (.emit (site.makeAction .kReleaseMemory [join64 (word 3) (word 4),
    join64 (word 5) (word 6), (word 1).setWidth 64, (word 2).setWidth 64, (word 7).setWidth 64]))

/-- `ProcessEventWrite` up to its `Emit`. -/
def processEventWrite (packet : List (BitVec 32)) : Except GpuCommandStatus Packet :=
  let word (index : ℕ) : BitVec 32 := packet.getD index 0
  if site.packetDwords ≠ 2 ∧ site.packetDwords ≠ 4 then .error .kMalformedPacket
  else
    let eventType := word 1 &&& 0x3f
    let address := if site.packetDwords = 4 then join64 (word 2 &&& ~~~7) (word 3) else 0
    .ok (.emit (site.makeAction .kEventWrite
      [eventType.setWidth 64, address, (word 1).setWidth 64]))

def drawOpcodes : List (BitVec 32) :=
  [pm4DrawIndex, pm4DrawIndexMultiInstanced, pm4DrawIndexAuto, pm4DrawIndexOffset,
    pm4DrawIndirect, pm4DrawIndexIndirect, pm4DrawIndirectMulti, pm4DrawIndexIndirectMulti]

/-- The wait packets that are coded as NOPs. -/
def decodeNopWait (packet : List (BitVec 32)) : Except GpuCommandStatus Packet :=
  let word (index : ℕ) : BitVec 32 := packet.getD index 0
  let address := join64 (word 1) (word 2)
  if site.packetRegister = pm4WaitMemory64Register then
    if site.packetDwords ≠ 9 then .error .kMalformedPacket
    else .ok (.wait ⟨address, join64 (word 3) (word 4), join64 (word 5) (word 6), word 7, word 8,
      true⟩)
  else
    if site.packetDwords ≠ 7 then .error .kMalformedPacket
    else .ok (.wait ⟨address, (word 3).setWidth 64, (word 4).setWidth 64, word 5, word 6, false⟩)

/-- The two forms of the indirect buffer packet. -/
def decodeIndirectBuffer (packet : List (BitVec 32)) : Except GpuCommandStatus Packet :=
  let word (index : ℕ) : BitVec 32 := packet.getD index 0
  if site.packetDwords = 4 then
    .ok (.indirectBuffer (join64 (word 1 &&& ~~~3) (word 2)) (word 3 &&& 0xfffff) (word 3))
  else if site.packetDwords = 14 then
    let branch : BranchOperands :=
      { compareAddress := join64 (word 2 &&& ~~~7) (word 3)
        mask := join64 (word 4) (word 5)
        reference := join64 (word 6) (word 7)
        control := word 1
        thenTarget := join64 (word 8 &&& ~~~3) (word 9)
        thenDwords := word 10 &&& 0xfffff
        elseTarget := join64 (word 11 &&& ~~~3) (word 12)
        elseDwords := word 13 &&& 0xfffff }
    if branch.compareAddress = 0 ∨ branch.compareAddress &&& 7 ≠ 0 ∨ branch.mask = 0 ∨
        6 < branch.function ∨ (branch.mode ≠ 1 ∧ branch.mode ≠ 2) then
      .error .kMalformedPacket
    else .ok (.branchBuffer branch)
  else .error .kMalformedPacket

/-- The register space of a direct or an indirect register packet. -/
def registerSpace (isContext isShader : Bool) : GpuRegisterSpace :=
  if isContext then .kContext else if isShader then .kShader else .kUserConfig

/-- The branches of `ProcessFrames` on a type 3 packet. -/
def decodePacket (packet : List (BitVec 32)) : Except GpuCommandStatus Packet :=
  let word (index : ℕ) : BitVec 32 := packet.getD index 0
  let value (index : ℕ) : BitVec 64 := (word index).setWidth 64
  let opcode := site.opcode
  let register := site.packetRegister
  let dwords := site.packetDwords
  let emit (type : GpuActionType) (values : List (BitVec 64)) : Except GpuCommandStatus Packet :=
    .ok (.emit (site.makeAction type values))
  let atLeast (minimum : BitVec 32) (result : Except GpuCommandStatus Packet) :
      Except GpuCommandStatus Packet :=
    if dwords < minimum then .error .kMalformedPacket else result
  if opcode = pm4Nop ∧ register = 0 then emit .kNop []
  else if opcode = pm4Nop ∧
      (register = pm4WaitMemory32Register ∨ register = pm4WaitMemory64Register) then
    decodeNopWait site packet
  else if opcode = pm4WaitRegMem then
    atLeast 7 (.ok (.wait ⟨join64 (word 2) (word 3), value 5, value 4, word 1, word 6, false⟩))
  else if opcode = pm4Nop ∧ (register = pm4ContextRegistersIndirect ∨
      register = pm4ShaderRegistersIndirect ∨ register = pm4UserConfigRegistersIndirect) then
    if dwords ≠ 4 then .error .kMalformedPacket
    else .ok (.indirectRegisters
      (registerSpace (register = pm4ContextRegistersIndirect)
        (register = pm4ShaderRegistersIndirect))
      (join64 (word 2) (word 3)) (word 1))
  else if opcode = pm4Nop ∧ register = pm4WriteDataRegister then processWriteData site packet
  else if opcode = pm4Nop ∧ register = pm4ReleaseMemoryRegister then
    processReleaseMemory site packet
  else if opcode = pm4SetContextRegister ∨ opcode = pm4SetShRegister ∨
      opcode = pm4SetUcRegister ∨ opcode = pm4SetUcRegisterIndex then
    atLeast 3 (.ok (.directRegisters
      (registerSpace (opcode = pm4SetContextRegister) (opcode = pm4SetShRegister))
      (word 1) (packet.drop 2)))
  else if opcode = pm4SetContextRegisterIndirect ∨ opcode = pm4SetShRegisterIndirect ∨
      opcode = pm4SetUcRegisterIndirect then
    if dwords ≠ 5 then .error .kMalformedPacket
    else .ok (.indirectRegisters
      (registerSpace (opcode = pm4SetContextRegisterIndirect) (opcode = pm4SetShRegisterIndirect))
      (join64 (word 1 &&& ~~~3) (word 2)) (word 4 &&& 0x3fff))
  else if opcode = pm4SetBase then
    atLeast 4 (emit .kSetBase
      [value 1, join64 (word 2) (word 3), (word 0 >>> 1 &&& 1).setWidth 64])
  else if opcode = pm4IndexBase then atLeast 3 (emit .kSetIndexBuffer [join64 (word 1) (word 2)])
  else if opcode = pm4IndexBufferSize ∨ opcode = pm4IndexType then
    atLeast 2 (emit (if opcode = pm4IndexType then .kSetIndexSize else .kSetIndexCount) [value 1])
  else if opcode = pm4NumInstances then
    atLeast 2 (.ok (.numInstances (if word 1 = 0 then 1 else word 1)))
  else if opcode = pm4DispatchDirect then
    if dwords ≠ 5 then .error .kMalformedPacket
    else emit .kDispatch [value 1, value 2, value 3, value 4, 0]
  else if opcode = pm4DispatchIndirect then
    if dwords ≠ 3 ∧ dwords ≠ 4 then .error .kMalformedPacket
    else if dwords = 4 then emit .kDispatch [join64 (word 1) (word 2), value 3, 1]
    else emit .kDispatch [value 1, value 2, 0]
  else if opcode ∈ drawOpcodes then atLeast 2 (emit .kDraw (packet.tail.map (BitVec.setWidth 64)))
  else if opcode = pm4SetPredication then
    atLeast 4 (emit .kPredication [join64 (word 2 &&& ~~~0xf) (word 3), value 1])
  else if opcode = pm4WriteData then processWriteData site packet
  else if opcode = pm4ReleaseMemory then processReleaseMemory site packet
  else if opcode = pm4EventWrite then processEventWrite site packet
  else if opcode = pm4IndirectBuffer then decodeIndirectBuffer site packet
  else if opcode = pm4Rewind then atLeast 2 (emit .kRewind [value 1])
  else if opcode = pm4GetLodStats then
    if dwords ≠ 5 then .error .kMalformedPacket
    else emit .kLodStats [join64 (word 2) (word 3), value 1, value 4]
  else .error .kUnsupportedPacket

/-- The packet at the head of some words: its site, its own words and what follows. -/
structure PacketSplit where
  site : PacketSite
  (words rest : List (BitVec 32))
  deriving DecidableEq, Repr

/-- Split off a type 3 packet. The header alone decides its length; a packet that runs past
the end of the words is malformed. -/
def splitPacket (address : BitVec 64) (header : BitVec 32) (words : List (BitVec 32)) :
    Except GpuCommandStatus PacketSplit :=
  let dwords := packetSize header
  let site : PacketSite := ⟨address, dwords, headerOpcode header, headerRegister header⟩
  if words.length < dwords.toNat then .error .kMalformedPacket
  else .ok ⟨site, words.take dwords.toNat, words.drop dwords.toNat⟩

end KajPS5.Gpu
