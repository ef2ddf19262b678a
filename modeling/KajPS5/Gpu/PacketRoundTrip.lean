/-
# Packets read back

What the decoder finds in a packet of `WriteAgcPacket`. For each packet type, `shape`
is its opcode, register selector and length, `kept` lists what the packet keeps of the
arguments, and `recovered` reads the same list from the decoded packet. Most arguments
are kept up to the width of a field. The others the builder or the decoder normalises:
an instance count of zero becomes one, the modifier of a draw is reduced to one bit, and
the arguments of a release depend on each other.
-/

import KajPS5.Gpu.PacketBuilder
import KajPS5.Gpu.PacketDecoder

namespace KajPS5.Gpu

open Math.BitFields AgcPacketType

/-- What the header of a packet says. -/
structure PacketShape where
  (dwords opcode : BitVec 32)
  packetRegister : BitVec 32 := 0
  deriving DecidableEq, Repr

def PacketShape.site (shape : PacketShape) (address : BitVec 64) : PacketSite :=
  ⟨address, shape.dwords, shape.opcode, shape.packetRegister⟩

/-- The header that goes with a packet type. An event with an address is longer than one
without, and the two sizes of a wait are two packets. -/
def AgcPacketType.shape (type : AgcPacketType) (argument : ℕ → BitVec 64) : PacketShape :=
  match type with
  | .kSetShRegisterDirect => ⟨3, pm4SetShRegister, 0⟩
  | .kSetCxRegisterDirect => ⟨3, pm4SetContextRegister, 0⟩
  | .kSetUcRegisterDirect => ⟨3, pm4SetUcRegister, 0⟩
  | .kSetIndexSize => ⟨3, pm4SetUcRegisterIndex, 0⟩
  | .kSetIndexBuffer => ⟨3, pm4IndexBase, 0⟩
  | .kSetIndexCount => ⟨2, pm4IndexBufferSize, 0⟩
  | .kSetNumInstances => ⟨2, pm4NumInstances, 0⟩
  | .kDrawIndex => ⟨6, pm4DrawIndex, 0⟩
  | .kDrawIndexMultiInstanced => ⟨9, pm4DrawIndexMultiInstanced, 0⟩
  | .kDrawIndexAuto => ⟨3, pm4DrawIndexAuto, 0⟩
  | .kDrawIndexOffset => ⟨5, pm4DrawIndexOffset, 0⟩
  | .kSetBaseIndirectArgs => ⟨4, pm4SetBase, 0⟩
  | .kDispatchIndirect => ⟨3, pm4DispatchIndirect, 0⟩
  | .kJump => ⟨4, pm4IndirectBuffer, 0⟩
  | .kRewind => ⟨2, pm4Rewind, 0⟩
  | .kSetPredication => ⟨4, pm4SetPredication, 0⟩
  | .kWriteData => ⟨4 + low32 (argument 5), pm4Nop, pm4WriteDataRegister⟩
  | .kReleaseMemory => ⟨8, pm4Nop, pm4ReleaseMemoryRegister⟩
  | .kEventWrite => ⟨if low32 (argument 1) &&& 0xfe = 0x38 then 4 else 2, pm4EventWrite, 0⟩
  | .kGetLodStats => ⟨5, pm4GetLodStats, 0⟩
  | .kWaitRegMem =>
    if low32 (argument 1) = 0 then ⟨7, pm4Nop, pm4WaitMemory32Register⟩
    else ⟨9, pm4Nop, pm4WaitMemory64Register⟩

/-- A 32-bit value among the arguments. -/
def wide (x : BitVec 32) : BitVec 64 := x.setWidth 64

/-- The bit of a draw modifier that reaches the packet: none if bit 32 is set. -/
def modifierBit (modifier : BitVec 64) : BitVec 32 :=
  if modifier.getLsbD 32 then 0 else low32 modifier >>> 8 &&& 1

/-- The data of a release, from its selection, the data and the GDS range. -/
def releaseData (argument : ℕ → BitVec 64) : BitVec 64 :=
  if low32 (argument 10) = 4 then 0
  else if low32 (argument 6) = 5 then
    wide (low32 (argument 8) &&& 0xffff) ||| wide (low32 (argument 9) &&& 0xffff) <<< 16
  else argument 7

/-- What a packet keeps of its arguments, in their order. -/
def AgcPacketType.kept (type : AgcPacketType) (argument : ℕ → BitVec 64) : List (BitVec 64) :=
  let low (index : ℕ) : BitVec 32 := low32 (argument index)
  match type with
  | .kSetShRegisterDirect | .kSetCxRegisterDirect | .kSetUcRegisterDirect =>
    [wide (low 1 &&& 0xffff), wide (high32 (argument 1))]
  | .kSetIndexSize => [wide (low 1 &&& 3), wide (low 2 &&& 3)]
  | .kSetIndexBuffer => [argument 1]
  | .kSetIndexCount => [wide (low 1)]
  | .kSetNumInstances => [wide (if low 1 = 0 then 1 else low 1)]
  | .kDrawIndex => [wide (low 1), argument 2, wide (modifierBit (argument 3))]
  | .kDrawIndexMultiInstanced =>
    [wide (low 1), argument 2, argument 3, wide (low 4), wide (modifierBit (argument 5))]
  | .kDrawIndexAuto => [wide (low 1), wide (modifierBit (argument 2))]
  | .kDrawIndexOffset => [wide (low 1), wide (low 2), wide (modifierBit (argument 3))]
  | .kSetBaseIndirectArgs => [wide (low 1), argument 2 &&& ~~~7]
  | .kDispatchIndirect =>
    [wide (low 1), wide (low 2 &&& directDispatchModifierMask ||| directDispatchRequiredBits)]
  | .kJump => [wide (low 1 &&& 1), wide (low 2 &&& 3), argument 3 &&& ~~~3,
    wide (low 4 &&& 0xfffff)]
  | .kRewind => [wide (low 1 &&& 1)]
  | .kSetPredication =>
    [wide (low 1 &&& 1), wide (low 2 &&& 7), wide (low 3 &&& 1), argument 4 &&& ~~~0xf]
  | .kWriteData => []
  | .kReleaseMemory =>
    [wide (low 1 &&& 0x3f),
      wide ((if low 2 &&& 0x300 = 0x100 then low 2 ||| 0x200 else low 2) &&& 0xfff),
      wide (low 3), wide (low 4 &&& 3), (if low 10 = 4 then 0 else argument 5) &&& ~~~3,
      wide (low 6), releaseData argument, wide (low 10), wide (low 11 &&& 0x07ffffff)]
  | .kEventWrite => [wide (low 1), if low 1 &&& 0xfe = 0x38 then argument 2 &&& ~~~7 else 0]
  | .kGetLodStats =>
    [wide (low 1 &&& 3), argument 2 &&& ~~~0x3f, wide (low 3), wide (low 4 &&& 0xff),
      wide (low 5 &&& 1), wide (low 6 &&& 1), wide (low 7 &&& 0xff)]
  | .kWaitRegMem =>
    [wide (low 1), wide (low 2), wide (low 3), wide (low 4),
      argument 5 &&& (if low 1 = 0 then 0x0003fffffffffffc else 0x0003fffffffffff8),
      if low 1 = 0 then wide (low 6) else argument 6,
      if low 1 = 0 then wide (low 7) else argument 7, wide (waitPoll (low 8))]

/-- The operation of a wait lies in two parts of its control word. -/
def WaitOperands.operation (wait : WaitOperands) : BitVec 32 :=
  if wait.is64Bit then field 8 1 wait.control ||| field 6 2 wait.control <<< 1
  else field 8 2 wait.control ||| field 6 2 wait.control <<< 2

/-- The action of the packet types that emit one and do nothing else. -/
def AgcPacketType.actionType : AgcPacketType → Option GpuActionType
  | .kSetIndexBuffer => some .kSetIndexBuffer
  | .kSetIndexCount => some .kSetIndexCount
  | .kDrawIndex | .kDrawIndexMultiInstanced | .kDrawIndexAuto | .kDrawIndexOffset => some .kDraw
  | .kSetBaseIndirectArgs => some .kSetBase
  | .kDispatchIndirect => some .kDispatch
  | .kRewind => some .kRewind
  | .kSetPredication => some .kPredication
  | .kReleaseMemory => some .kReleaseMemory
  | .kEventWrite => some .kEventWrite
  | .kGetLodStats => some .kLodStats
  | _ => none

/-- The arguments in the values of such an action. -/
def AgcPacketType.fromValues (type : AgcPacketType) (value : ℕ → BitVec 64) : List (BitVec 64) :=
  let word (index : ℕ) : BitVec 32 := low32 (value index)
  match type with
  | .kSetIndexBuffer | .kSetIndexCount => [value 0]
  | .kDrawIndex => [value 3, join64 (word 1) (word 2), wide (field 5 1 (word 4))]
  | .kDrawIndexMultiInstanced =>
    [value 0, join64 (word 1) (word 2), join64 (word 4) (word 5), value 6,
      wide (field 5 1 (word 7))]
  | .kDrawIndexAuto => [value 0, wide (field 5 1 (word 1))]
  | .kDrawIndexOffset => [value 1, value 2, wide (field 5 1 (word 3))]
  | .kSetBaseIndirectArgs => [value 2, value 1]
  | .kDispatchIndirect => [value 0, value 1]
  | .kRewind => [wide (field 31 1 (word 0))]
  | .kSetPredication =>
    [wide (field 8 1 (word 1)), wide (field 16 3 (word 1)), wide (field 12 1 (word 1)), value 0]
  | .kReleaseMemory =>
    [wide (field 0 6 (word 2)), wide (field 12 12 (word 2)), wide (field 16 2 (word 3)),
      wide (field 25 2 (word 2)), value 0, wide (field 29 3 (word 3)), value 1,
      wide (field 24 3 (word 3)), value 4]
  | .kEventWrite => [value 0, value 1]
  | .kGetLodStats =>
    [wide (field 28 2 (word 2)), value 0, value 1, wide (field 10 8 (word 2)),
      wide (field 18 1 (word 2)), wide (field 19 1 (word 2)), wide (field 2 8 (word 2))]
  | _ => []

/-- The arguments in a decoded packet, if it took the branch of its type. -/
def AgcPacketType.recovered (type : AgcPacketType) (packet : Packet) : Option (List (BitVec 64)) :=
  match type, packet with
  | .kSetShRegisterDirect, .directRegisters .kShader start [value] => some [wide start, wide value]
  | .kSetCxRegisterDirect, .directRegisters .kContext start [value] => some [wide start, wide value]
  | .kSetUcRegisterDirect, .directRegisters .kUserConfig start [value] =>
    some [wide start, wide value]
  | .kSetIndexSize, .directRegisters .kUserConfig start [value] =>
    if start = 0x20000000 ||| vgtIndexTypeRegister then
      some [wide (field 0 2 value), wide (field 6 2 value)]
    else none
  | .kSetNumInstances, .numInstances count => some [wide count]
  | .kJump, .indirectBuffer target targetDwords control =>
    some [wide (field 20 1 control), wide (field 28 2 control), target, wide targetDwords]
  | .kWaitRegMem, .wait wait =>
    some [wide (if wait.is64Bit then 1 else 0), wide (field 0 3 wait.control), wide wait.operation,
      wide (field 25 2 wait.control), wait.address, wait.reference, wait.mask, wide wait.poll]
  | type, .emit action =>
    if type.actionType = some action.type then
      some (type.fromValues fun index => action.values.toList.getD index 0)
    else none
  | _, _ => none

/-! ## Words with several fields

Every packed word is a sum of disjoint fields. -/

theorem releaseMemory_event (action gcrControl cachePolicy : BitVec 32) :
    action &&& 0x3f#32 ||| (if 0x2f ≤ action then 6 else 5 : BitVec 32) <<< 8 |||
        (gcrControl &&& 0xfff) <<< 12 ||| (cachePolicy &&& 3) <<< 25 =
      place 0 6 action ||| place 8 4 (if 0x2f ≤ action then 6 else 5 : BitVec 32) |||
        place 12 12 gcrControl ||| place 25 2 cachePolicy := by
  rw [place_zero]
  split_ifs <;> rfl

theorem wait32Control_eq (compareFunction operation cachePolicy : BitVec 32) :
    wait32Control compareFunction operation cachePolicy =
      place 4 1 1 ||| place 0 3 compareFunction ||| place 8 2 operation |||
        place 6 2 (operation >>> 2) ||| place 25 2 cachePolicy := by
  have hhigh : (operation &&& 0xc) <<< 4 = place 6 2 (operation >>> 2) := by
    rw [show (0xc : BitVec 32) = mask 32 2 <<< 2 from rfl, and_shiftLeft_mask, place, place,
      ← BitVec.shiftLeft_add]
  rw [wait32Control, hhigh, place_zero]
  rfl

theorem wait64Control_eq (compareFunction operation cachePolicy : BitVec 32) :
    wait64Control compareFunction operation cachePolicy =
      place 4 1 1 ||| place 0 3 compareFunction ||| place 8 1 operation |||
        place 6 2 (operation >>> 1) ||| place 25 2 cachePolicy := by
  have hhigh : (operation &&& 0x6) <<< 5 = place 6 2 (operation >>> 1) := by
    rw [show (0x6 : BitVec 32) = mask 32 2 <<< 1 from rfl, and_shiftLeft_mask, place, place,
      ← BitVec.shiftLeft_add]
  rw [wait64Control, hhigh, place_zero]
  rfl

/-- The bit of the modifier is bit 5 of the initiator. -/
theorem drawIndexInitiator_eq (modifier : BitVec 64) :
    drawIndexInitiator modifier = place 5 1 (modifierBit modifier) := by
  unfold drawIndexInitiator modifierBit
  split_ifs
  · rfl
  · rw [show (0x20 : BitVec 32) = mask 32 1 <<< 5 from rfl, and_shiftLeft_mask, place, place,
      ← BitVec.shiftRight_add, show (1 : BitVec 32) = mask 32 1 from rfl, BitVec.and_assoc,
      BitVec.and_self]

@[simp] theorem modifierBit_and_mask (modifier : BitVec 64) :
    modifierBit modifier &&& mask 32 1 = modifierBit modifier := by
  unfold modifierBit
  split_ifs
  · rfl
  · rw [BitVec.and_assoc]
    rfl

@[simp] theorem low32_wide (x : BitVec 32) : low32 (wide x) = x := by simp [low32, wide]

/-- Masking the low half masks the value. -/
theorem join64_and_low (x : BitVec 64) {maskValue : BitVec 64}
    (hhigh : high32 maskValue = BitVec.allOnes 32) :
    join64 (low32 x &&& low32 maskValue) (high32 x) = x &&& maskValue := by
  rw [← join64_and, hhigh, BitVec.and_allOnes]

/-! ## Reading back -/

/-- The packet has the header of its type, the decoder takes just its words, and it finds in
them what the packet keeps of the arguments. -/
def ReadsBack (type : AgcPacketType) (argument : ℕ → BitVec 64) (packet : List (BitVec 32)) :
    Prop :=
  ∀ (address : BitVec 64) (rest : List (BitVec 32)), pm4Type (packet.headD 0) = pm4Type3 ∧
    splitPacket address (packet.headD 0) (packet ++ rest) =
      .ok ⟨(type.shape argument).site address, packet, rest⟩ ∧
    ∃ decoded, decodePacket ((type.shape argument).site address) packet = .ok decoded ∧
      type.recovered decoded = some (type.kept argument)

theorem recovered_emit {type : AgcPacketType} {actionType : GpuActionType} (site : PacketSite)
    {values : List (BitVec 64)} (hlen : values.length ≤ 8)
    (htype : type.actionType = some actionType) :
    type.recovered (.emit (site.makeAction actionType values)) =
      some (type.fromValues fun index => values.getD index 0) := by
  have hvalues (index : ℕ) :
      (site.makeAction actionType values).values.toList.getD index 0 = values.getD index 0 := by
    by_cases h : index < 8
    · simp [PacketSite.makeAction, h]
    · simp [h, List.getElem?_eq_none (show values.length ≤ index by omega)]
  have hrecovered : type.recovered (.emit (site.makeAction actionType values)) =
      if type.actionType = some actionType then
        some (type.fromValues fun index =>
          (site.makeAction actionType values).values.toList.getD index 0)
      else none := by
    cases type <;> rfl
  rw [hrecovered, if_pos htype, funext hvalues]

section

variable {type : AgcPacketType} {argument : ℕ → BitVec 64} {header : BitVec 32}
  {words packet : List (BitVec 32)} {commandBuffer : BitVec 64}
  (h : appendPacket commandBuffer (header :: words) = .ok packet)
  (htype : pm4Type header = pm4Type3)
  (hshape : (⟨packetSize header, headerOpcode header, headerRegister header⟩ : PacketShape) =
    type.shape argument)
  (hlen : words.length + 1 = (packetSize header).toNat)
include h htype hshape hlen

theorem readsBack_of_header
    (hdecode : ∀ address, ∃ decoded,
      decodePacket ((type.shape argument).site address) (header :: words) = .ok decoded ∧
        type.recovered decoded = some (type.kept argument)) :
    ReadsBack type argument packet := by
  obtain ⟨rfl, -⟩ := appendPacket_eq_ok h
  intro address rest
  refine ⟨htype, ?_, hdecode address⟩
  rw [← hshape, splitPacket]
  simp [← hlen, PacketShape.site]

/-- A packet that is decoded into one action. -/
theorem readsBack_of_action {actionType : GpuActionType} (values : List (BitVec 64))
    (hdecode : ∀ address, decodePacket ((type.shape argument).site address) (header :: words) =
      .ok (.emit (((type.shape argument).site address).makeAction actionType values)))
    (hvalues : values.length ≤ 8) (hactionType : type.actionType = some actionType)
    (hkept : type.fromValues (fun index => values.getD index 0) = type.kept argument) :
    ReadsBack type argument packet :=
  readsBack_of_header h htype hshape hlen fun address =>
    ⟨_, hdecode address, (recovered_emit _ hvalues hactionType).trans (congrArg _ hkept)⟩

end

/-! ### One case per type -/

section Types

variable (argument : ℕ → BitVec 64) {packet : List (BitVec 32)}

theorem readsBack_setIndexSize (h : setIndexSize argument = .ok packet) :
    ReadsBack .kSetIndexSize argument packet := by
  change appendPacket _ [_, _, place 10 1 1 ||| _ &&& mask 32 2 ||| place 6 2 _] = _ at h
  rw [← place_zero] at h
  refine readsBack_of_header h rfl rfl rfl fun address =>
    ⟨.directRegisters .kUserConfig (0x20000000 ||| vgtIndexTypeRegister) [_], rfl, ?_⟩
  simp [recovered, kept, mask]

theorem readsBack_setIndexBuffer (h : setIndexBuffer argument = .ok packet) :
    ReadsBack .kSetIndexBuffer argument packet := by
  unfold setIndexBuffer at h
  dsimp only at h
  split_ifs at h
  refine readsBack_of_action h rfl rfl rfl
    [join64 (low32 (argument 1)) (high32 (argument 1))] (fun _ => rfl) (by simp) rfl ?_
  simp [fromValues, kept]

theorem readsBack_drawIndex (h : drawIndex argument = .ok packet) :
    ReadsBack .kDrawIndex argument packet := by
  unfold drawIndex at h
  dsimp only at h
  split at h
  · cases h
  rw [drawIndexInitiator_eq] at h
  refine readsBack_of_action h rfl rfl rfl
    [wide (if low32 (argument 1) = 0 then 1 else low32 (argument 1)), wide (low32 (argument 2)),
      wide (high32 (argument 2)), wide (low32 (argument 1)),
      wide (place 5 1 (modifierBit (argument 3)))] (fun _ => rfl) (by simp) rfl ?_
  simp [fromValues, kept]

theorem readsBack_drawIndexMultiInstanced (h : drawIndexMultiInstanced argument = .ok packet) :
    ReadsBack .kDrawIndexMultiInstanced argument packet := by
  unfold drawIndexMultiInstanced at h
  dsimp only at h
  split at h
  · cases h
  rw [drawIndexInitiator_eq] at h
  refine readsBack_of_action h rfl rfl rfl
    [wide (low32 (argument 1)), wide (low32 (argument 2)), wide (high32 (argument 2)),
      wide (if low32 (argument 4) = 0 then 1 else low32 (argument 4)),
      wide (low32 (argument 3)), wide (high32 (argument 3)), wide (low32 (argument 4)),
      wide (place 5 1 (modifierBit (argument 5)) ||| place 7 1 1)] (fun _ => rfl) (by simp) rfl ?_
  simp [fromValues, kept]

theorem readsBack_drawIndexAuto (h : drawIndexAuto argument = .ok packet) :
    ReadsBack .kDrawIndexAuto argument packet := by
  unfold drawIndexAuto at h
  rw [drawIndexInitiator_eq] at h
  refine readsBack_of_action h rfl rfl rfl
    [wide (low32 (argument 1)), wide (place 5 1 (modifierBit (argument 2)) ||| place 1 1 1)]
    (fun _ => rfl) (by simp) rfl ?_
  simp [fromValues, kept]

theorem readsBack_drawIndexOffset (h : drawIndexOffset argument = .ok packet) :
    ReadsBack .kDrawIndexOffset argument packet := by
  unfold drawIndexOffset at h
  rw [drawIndexInitiator_eq] at h
  refine readsBack_of_action h rfl rfl rfl
    [wide (if low32 (argument 2) = 0 then 1 else low32 (argument 2)), wide (low32 (argument 1)),
      wide (low32 (argument 2)), wide (place 5 1 (modifierBit (argument 3)))] (fun _ => rfl)
        (by simp) rfl ?_
  simp [fromValues, kept]

/-- Only the two shader types that fit their bit of the header. -/
theorem readsBack_setBaseIndirectArgs (hshader : low32 (argument 1) ≤ 1)
    (h : setBaseIndirectArgs argument = .ok packet) :
    ReadsBack .kSetBaseIndirectArgs argument packet := by
  have hcases : low32 (argument 1) = 0 ∨ low32 (argument 1) = 1 := by bv_omega
  have haddr : join64 (low32 (argument 2) &&& ~~~7) (high32 (argument 2)) =
      argument 2 &&& ~~~7 := @join64_and_low _ (~~~7) rfl
  have hbit : setBaseHeader (low32 (argument 1)) >>> 1 &&& 1 = low32 (argument 1) := by
    rcases hcases with hvalue | hvalue <;> rw [hvalue] <;> rfl
  refine readsBack_of_action h (pm4Type_setBaseHeader _) ?_ ?_
    [wide 1, argument 2 &&& ~~~7, wide (setBaseHeader (low32 (argument 1)) >>> 1 &&& 1)]
    (fun _ => ?_) (by simp) rfl ?_
  · rcases hcases with hvalue | hvalue <;> rw [hvalue] <;> rfl
  · rcases hcases with hvalue | hvalue <;> rw [hvalue] <;> rfl
  · rw [← haddr]
    rfl
  · rw [hbit]
    rfl

theorem readsBack_jump (h : jump argument = .ok packet) : ReadsBack .kJump argument packet := by
  have htarget : join64 (low32 (argument 3) &&& ~~~3 &&& ~~~3) (high32 (argument 3)) =
      argument 3 &&& ~~~3 := by
    rw [BitVec.and_assoc]
    exact @join64_and_low _ (~~~3) rfl
  change appendPacket _ [_, _, _,
    place 21 7 0x79 ||| place 28 2 _ ||| place 20 1 _ ||| _ &&& mask 32 20] = _ at h
  rw [← place_zero] at h
  generalize hcontrol : _ ||| place 0 20 _ = control at h
  refine readsBack_of_header h rfl rfl rfl fun address =>
    ⟨.indirectBuffer (argument 3 &&& ~~~3) (field 0 20 control) control, ?_, ?_⟩
  · rw [← htarget]
    rfl
  · simp [recovered, kept, ← hcontrol, mask]

theorem readsBack_rewind (h : rewind argument = .ok packet) :
    ReadsBack .kRewind argument packet := by
  refine readsBack_of_action h rfl rfl rfl
    [wide (place 31 1 (low32 (argument 1)))] (fun _ => rfl) (by simp) rfl ?_
  simp [fromValues, kept, mask]

theorem readsBack_setPredication (h : setPredication argument = .ok packet) :
    ReadsBack .kSetPredication argument packet := by
  have haddr : join64 (low32 (argument 4) &&& ~~~0xf &&& ~~~0xf) (high32 (argument 4)) =
      argument 4 &&& ~~~0xf := by
    rw [BitVec.and_assoc]
    exact @join64_and_low _ (~~~0xf) rfl
  change appendPacket _ (_ :: (place 8 1 _ ||| place 12 1 _ ||| place 16 3 _) :: _) = _ at h
  generalize hcontrol : _ ||| place 16 3 _ = control at h
  refine readsBack_of_action h rfl rfl rfl
    [argument 4 &&& ~~~0xf, wide control] (fun _ => ?_) (by simp) rfl ?_
  · rw [← haddr]
    rfl
  · simp [fromValues, kept, ← hcontrol, mask]

theorem readsBack_getLodStats (h : getLodStats argument = .ok packet) :
    ReadsBack .kGetLodStats argument packet := by
  have haddr : join64 (low32 (argument 2) &&& 0xffffffc0) (high32 (argument 2)) =
      argument 2 &&& ~~~0x3f := @join64_and_low _ (~~~0x3f) rfl
  change appendPacket _ [_, _, _, _, place 28 2 _ ||| place 19 1 _ ||| place 18 1 _ |||
    place 10 8 _ ||| place 2 8 _] = _ at h
  generalize hcontrol : _ ||| place 2 8 _ = control at h
  refine readsBack_of_action h rfl rfl rfl
    [argument 2 &&& ~~~0x3f, wide (low32 (argument 3)), wide control] (fun _ => ?_) (by simp) rfl ?_
  · rw [← haddr]
    rfl
  · simp [fromValues, kept, ← hcontrol, mask]

theorem readsBack_releaseMemory (h : releaseMemory argument = .ok packet) :
    ReadsBack .kReleaseMemory argument packet := by
  obtain ⟨gcrControl, hgcr⟩ : ∃ gcrControl, gcrControl =
      if low32 (argument 2) &&& 0x300 = 0x100 then low32 (argument 2) ||| 0x200
      else low32 (argument 2) := ⟨_, rfl⟩
  obtain ⟨destination, hdestination⟩ : ∃ d, d = if low32 (argument 10) = 4 then 0 else argument 5 :=
    ⟨_, rfl⟩
  unfold releaseMemory at h
  dsimp only at h
  split at h
  · cases h
  -- The three arguments that are checked fit their fields.
  have h3 : low32 (argument 3) &&& 3#32 = low32 (argument 3) :=
    @and_mask_of_lt _ 2 _ (by decide) (by bv_omega)
  have h6 : low32 (argument 6) &&& 7#32 = low32 (argument 6) :=
    @and_mask_of_lt _ 3 _ (by decide) (by bv_omega)
  have h10 : low32 (argument 10) &&& 7#32 = low32 (argument 10) :=
    @and_mask_of_lt _ 3 _ (by decide) (by bv_omega)
  have haddr : join64 (low32 destination &&& ~~~3) (high32 destination) =
      destination &&& ~~~3 := @join64_and_low _ (~~~3) rfl
  rw [← hgcr, ← hdestination, releaseMemory_event] at h
  change appendPacket _ (_ :: _ :: (place 16 2 _ ||| place 24 3 _ ||| place 29 3 _) :: _) = _ at h
  generalize hevent : _ ||| place 25 2 _ = event at h
  generalize hselection : _ ||| place 29 3 _ = selection at h
  refine readsBack_of_action h rfl rfl rfl
    [destination &&& ~~~3,
      join64 (low32 (releaseData argument)) (high32 (releaseData argument)), wide event,
      wide selection, wide (low32 (argument 11) &&& 0x07ffffff)] (fun _ => ?_) (by simp) rfl ?_
  · rw [← haddr]
    rfl
  · simp only [fromValues, kept, ← hgcr, ← hdestination]
    simp [← hevent, ← hselection, h3, h6, h10, mask]

theorem readsBack_eventWrite (h : eventWrite argument = .ok packet) :
    ReadsBack .kEventWrite argument packet := by
  have haddr : join64 (low32 (argument 2) &&& ~~~7 &&& ~~~7) (high32 (argument 2)) =
      argument 2 &&& ~~~7 := by
    rw [BitVec.and_assoc]
    exact @join64_and_low _ (~~~7) rfl
  unfold eventWrite at h
  dsimp only at h
  split at h
  · cases h
  have htype : low32 (argument 1) &&& mask 32 6 = low32 (argument 1) :=
    and_mask_of_lt (by decide) (by bv_omega)
  split at h
  · rename_i haddressed
    have hshape : kEventWrite.shape argument = ⟨4, pm4EventWrite, 0⟩ := by
      simp only [shape, if_pos haddressed]
    refine readsBack_of_action h rfl hshape.symm rfl
      [wide (field 0 6 (place 8 1 1 ||| low32 (argument 1))), argument 2 &&& ~~~7,
        wide (place 8 1 1 ||| low32 (argument 1))] (fun _ => ?_) (by simp) rfl ?_
    · rw [hshape, ← haddr]
      rfl
    · simp only [fromValues, kept, if_pos haddressed]
      simp [field_zero, htype]
  · rename_i haddressed
    have hshape : kEventWrite.shape argument = ⟨2, pm4EventWrite, 0⟩ := by
      simp only [shape, if_neg haddressed]
    generalize hcontrol : (if low32 (argument 1) = 7 ∨ low32 (argument 1) = 15 ∨
        low32 (argument 1) = 16 then 0x400 ||| low32 (argument 1) else low32 (argument 1)) =
      control at h
    refine readsBack_of_action h rfl hshape.symm rfl
      [wide (field 0 6 control), 0, wide control] (fun _ => ?_) (by simp) rfl ?_
    · rw [hshape]
      rfl
    have hread : field 0 6 control = low32 (argument 1) := by
      rw [← hcontrol, show (0x400 : BitVec 32) = place 10 1 1 from rfl]
      split_ifs <;> simp [field_zero, htype]
    simp only [kept, if_neg haddressed, hread]
    rfl

/-- The low bits of the operation and the bits above them, put together again. -/
theorem operation_parts {operation : BitVec 32} (h : operation ≤ 4) :
    (operation &&& 3#32 ||| (operation >>> 2 &&& 3#32) <<< 2 = operation) ∧
      (operation &&& 1#32 ||| (operation >>> 1 &&& 3#32) <<< 1 = operation) := by
  have hcases : operation = 0 ∨ operation = 1 ∨ operation = 2 ∨ operation = 3 ∨ operation = 4 := by
    bv_omega
  rcases hcases with rfl | rfl | rfl | rfl | rfl <;> decide

theorem readsBack_waitRegMem (h : waitRegMem argument = .ok packet) :
    ReadsBack .kWaitRegMem argument packet := by
  unfold waitRegMem at h
  dsimp only at h
  split at h
  · cases h
  have h2 : low32 (argument 2) &&& 7#32 = low32 (argument 2) :=
    @and_mask_of_lt _ 3 _ (by decide) (by bv_omega)
  have h4 : low32 (argument 4) &&& 3#32 = low32 (argument 4) :=
    @and_mask_of_lt _ 2 _ (by decide) (by bv_omega)
  have hoperation := operation_parts (show low32 (argument 3) ≤ 4 by bv_omega)
  split at h
  · rename_i hsize
    have hshape : kWaitRegMem.shape argument = ⟨7, pm4Nop, pm4WaitMemory32Register⟩ := by
      simp only [shape, if_pos hsize]
    have haddr : join64 (low32 (argument 5) &&& ~~~3) (high32 (argument 5) &&& 0x3ffff) =
        argument 5 &&& 0x0003fffffffffffc := join64_and _ 0x0003fffffffffffc
    refine readsBack_of_header h rfl hshape.symm rfl fun address =>
      ⟨.wait ⟨argument 5 &&& 0x0003fffffffffffc, wide (low32 (argument 7)),
        wide (low32 (argument 6)), wait32Control (low32 (argument 2)) (low32 (argument 3))
          (low32 (argument 4)), waitPoll (low32 (argument 8)), false⟩, ?_, ?_⟩
    · rw [hshape, ← haddr]
      rfl
    · simp only [recovered, kept, WaitOperands.operation, hsize, wait32Control_eq]
      simp [mask, h2, h4, hoperation.1]
  · rename_i hsize
    have hone : low32 (argument 1) = 1 := by bv_omega
    have hshape : kWaitRegMem.shape argument = ⟨9, pm4Nop, pm4WaitMemory64Register⟩ := by
      simp only [shape, if_neg hsize]
    have haddr : join64 (low32 (argument 5) &&& ~~~7) (high32 (argument 5) &&& 0x3ffff) =
        argument 5 &&& 0x0003fffffffffff8 := join64_and _ 0x0003fffffffffff8
    refine readsBack_of_header h rfl hshape.symm rfl fun address =>
      ⟨.wait ⟨argument 5 &&& 0x0003fffffffffff8, join64 (low32 (argument 7)) (high32 (argument 7)),
        join64 (low32 (argument 6)) (high32 (argument 6)), wait64Control (low32 (argument 2))
          (low32 (argument 3)) (low32 (argument 4)), waitPoll (low32 (argument 8)), true⟩, ?_, ?_⟩
    · rw [hshape, ← haddr]
      rfl
    · simp only [recovered, kept, WaitOperands.operation, hone, wait64Control_eq]
      simp [mask, h2, h4, hoperation.2]

end Types

/-- Every accepted packet of one size is read back, as long as a base packet has one of the
two shader types. -/
theorem readsBack_writeAgcPacket {host : BuilderHost} {type : AgcPacketType}
    {arguments : List (BitVec 64)} {packet : List (BitVec 32)}
    (haccepted : writeAgcPacket host type arguments = .ok packet) (hfixed : type ≠ .kWriteData)
    (hshader : type = .kSetBaseIndirectArgs → low32 (arguments.getD 1 0) ≤ 1) :
    ReadsBack type (fun index => arguments.getD index 0) packet := by
  unfold writeAgcPacket at haccepted
  split_ifs at haccepted
  cases type with
  | kSetShRegisterDirect | kSetCxRegisterDirect | kSetUcRegisterDirect | kSetNumInstances =>
    exact readsBack_of_header haccepted rfl rfl rfl fun address => ⟨_, rfl, rfl⟩
  | kSetIndexCount =>
    exact readsBack_of_action haccepted rfl rfl rfl [wide (low32 (arguments.getD 1 0))]
      (fun _ => rfl) (by simp) rfl rfl
  | kDispatchIndirect =>
    exact readsBack_of_action haccepted rfl rfl rfl
      [wide (low32 (arguments.getD 1 0)), wide (low32 (arguments.getD 2 0)
      &&& directDispatchModifierMask ||| directDispatchRequiredBits), 0]
      (fun _ => rfl) (by simp) rfl rfl
  | kSetIndexSize => exact readsBack_setIndexSize _ haccepted
  | kSetIndexBuffer => exact readsBack_setIndexBuffer _ haccepted
  | kDrawIndex => exact readsBack_drawIndex _ haccepted
  | kDrawIndexMultiInstanced => exact readsBack_drawIndexMultiInstanced _ haccepted
  | kDrawIndexAuto => exact readsBack_drawIndexAuto _ haccepted
  | kDrawIndexOffset => exact readsBack_drawIndexOffset _ haccepted
  | kSetBaseIndirectArgs => exact readsBack_setBaseIndirectArgs _ (hshader rfl) haccepted
  | kJump => exact readsBack_jump _ haccepted
  | kRewind => exact readsBack_rewind _ haccepted
  | kSetPredication => exact readsBack_setPredication _ haccepted
  | kWriteData => exact absurd rfl hfixed
  | kReleaseMemory => exact readsBack_releaseMemory _ haccepted
  | kEventWrite => exact readsBack_eventWrite _ haccepted
  | kGetLodStats => exact readsBack_getLodStats _ haccepted
  | kWaitRegMem => exact readsBack_waitRegMem _ haccepted

/-- A jump to 5 words at 0x2000, with mode 1 and cache policy 2. -/
theorem readsBack_short_jump : writeAgcPacket emptyHost .kJump [0x1000, 1, 2, 0x2000, 5] =
      .ok [0xc0023f00, 0x2000, 0, 0x2f300005] ∧
    ReadsBack .kJump (fun index => [0x1000, 1, 2, 0x2000, 5].getD index 0)
      [0xc0023f00, 0x2000, 0, 0x2f300005] :=
  ⟨rfl, @readsBack_writeAgcPacket emptyHost _ _ _ rfl nofun nofun⟩

/-- The decoder cannot tell an instance count of zero from one, and the size argument of a
wait chooses between two register selectors and lengths. -/
theorem arguments_not_recovered :
    (∃ zero one, writeAgcPacket emptyHost .kSetNumInstances [0x1000, 0] = .ok zero ∧
      writeAgcPacket emptyHost .kSetNumInstances [0x1000, 1] = .ok one ∧
      ∀ address, decodePacket ⟨address, 2, pm4NumInstances, 0⟩ zero = .ok (.numInstances 1) ∧
        decodePacket ⟨address, 2, pm4NumInstances, 0⟩ one = .ok (.numInstances 1)) ∧
    ∃ narrow broad, writeAgcPacket emptyHost .kWaitRegMem [0x1000, 0] = .ok narrow ∧
      writeAgcPacket emptyHost .kWaitRegMem [0x1000, 1] = .ok broad ∧
      headerRegister (narrow.headD 0) ≠ headerRegister (broad.headD 0) ∧
      packetSize (narrow.headD 0) = 7 ∧ packetSize (broad.headD 0) = 9 :=
  ⟨⟨_, _, rfl, rfl, fun _ => ⟨rfl, rfl⟩⟩, _, _, rfl, rfl, by decide, rfl, rfl⟩

end KajPS5.Gpu
