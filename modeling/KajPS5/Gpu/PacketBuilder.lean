/-
# The packet builder

`WriteNop`, `WriteDispatch` and `WriteAgcPacket` lay out one packet each and hand it
to `AppendPacket`. Every layout is given here as the words it consists of, in the
order and with the shifts and masks of the source. Of `AppendPacket` only the checks
on the packet are kept; finding room in the command buffer does not depend on what
the words say.
-/

import KajPS5.Gpu.Pm4

namespace KajPS5.Gpu

open Math.BitFields

inductive GpuRuntimeStatus
  | kOk | kInvalidArgument | kMemoryFault | kBufferTooSmall | kCallbackRequired | kResourceLimit
  deriving DecidableEq, Repr

inductive AgcPacketType
  | kSetShRegisterDirect | kSetCxRegisterDirect | kSetUcRegisterDirect | kSetIndexSize
  | kSetIndexBuffer | kSetIndexCount | kSetNumInstances | kDrawIndex | kDrawIndexMultiInstanced
  | kDrawIndexAuto | kDrawIndexOffset | kSetBaseIndirectArgs | kDispatchIndirect | kJump | kRewind
  | kSetPredication | kWriteData | kReleaseMemory | kEventWrite | kGetLodStats | kWaitRegMem
  deriving DecidableEq, Repr

/-- What a builder call learns from outside: `Read` of guest memory, and whether the
allocation of a packet of varying size succeeds. -/
structure BuilderHost where
  read : ℕ → ℕ → Option (List UInt8)
  allocates : Bool

abbrev PacketResult := Except GpuRuntimeStatus (List (BitVec 32))

def maximumPm4PacketDwords : ℕ := 0x4001
def vgtIndexTypeRegister : BitVec 32 := 0x243
def directDispatchModifierMask : BitVec 32 := 0xa038
def directDispatchRequiredBits : BitVec 32 := 0x41

/-- The checks of `AppendPacket` on its arguments. -/
def appendPacket (commandBuffer : BitVec 64) (packet : List (BitVec 32)) : PacketResult :=
  if commandBuffer = 0 ∨ packet.length < 2 ∨ maximumPm4PacketDwords < packet.length then
    .error .kInvalidArgument
  else .ok packet

/-- `WriteNop`. -/
def writeNop (host : BuilderHost) (commandBuffer : BitVec 64) (dwordCount : BitVec 32) :
    PacketResult :=
  if dwordCount.toNat < 2 ∨ maximumPm4PacketDwords < dwordCount.toNat then .error .kInvalidArgument
  else if !host.allocates then .error .kResourceLimit
  else appendPacket commandBuffer
    (makePm4Header dwordCount pm4Nop 0 :: List.replicate (dwordCount.toNat - 1) 0)

/-- `WriteDispatch`. -/
def writeDispatch (commandBuffer : BitVec 64)
    (groupCountX groupCountY groupCountZ modifier : BitVec 32) : PacketResult :=
  appendPacket commandBuffer
    [makePm4Header 5 pm4DispatchDirect 0, groupCountX, groupCountY, groupCountZ,
      modifier &&& directDispatchModifierMask ||| directDispatchRequiredBits]

/-- `DrawIndexInitiator`. -/
def drawIndexInitiator (modifier : BitVec 64) : BitVec 32 :=
  if modifier.getLsbD 32 then 0 else low32 modifier >>> 3 &&& 0x20

/-- `WaitPoll`. -/
def waitPoll (pollCycles : BitVec 32) : BitVec 32 :=
  if pollCycles >>> 4 ≤ 0xffff then pollCycles >>> 4 else 0xffff

/-- `Wait32Control`. -/
def wait32Control (compareFunction operation cachePolicy : BitVec 32) : BitVec 32 :=
  0x10#32 ||| compareFunction &&& 0x7#32 ||| (operation &&& 0x3) <<< 8 |||
    (operation &&& 0xc) <<< 4 |||
    (cachePolicy &&& 0x3) <<< 25

/-- `Wait64Control`. -/
def wait64Control (compareFunction operation cachePolicy : BitVec 32) : BitVec 32 :=
  0x10#32 ||| compareFunction &&& 0x7#32 ||| (operation &&& 0x1) <<< 8 |||
    (operation &&& 0x6) <<< 5 |||
    (cachePolicy &&& 0x3) <<< 25

/-! ## One layout per packet type

Arguments the caller did not give are zero. Argument 0 is the command buffer. -/

section Layouts

variable (argument : ℕ → BitVec 64)

/-- The layout of the three direct register packets. -/
def setRegisterDirect (opcode : BitVec 32) : PacketResult :=
  let packedRegister := argument 1
  appendPacket (argument 0)
    [makePm4Header 3 opcode 0, low32 packedRegister &&& 0xffff, high32 packedRegister]

def setShRegisterDirect : PacketResult := setRegisterDirect argument pm4SetShRegister
def setCxRegisterDirect : PacketResult := setRegisterDirect argument pm4SetContextRegister
def setUcRegisterDirect : PacketResult := setRegisterDirect argument pm4SetUcRegister

def setIndexSize : PacketResult :=
  let indexSize := low32 (argument 1)
  let cachePolicy := low32 (argument 2)
  appendPacket (argument 0)
    [makePm4Header 3 pm4SetUcRegisterIndex 0, 0x20000000 ||| vgtIndexTypeRegister,
      0x400#32 ||| indexSize &&& 0x3#32 ||| (cachePolicy &&& 0x3) <<< 6]

def setIndexBuffer : PacketResult :=
  let address := argument 1
  if address &&& 1 ≠ 0 then .error .kInvalidArgument
  else appendPacket (argument 0)
    [makePm4Header 3 pm4IndexBase 0, low32 address, high32 address]

def setIndexCount : PacketResult :=
  appendPacket (argument 0) [makePm4Header 2 pm4IndexBufferSize 0, low32 (argument 1)]

def setNumInstances : PacketResult :=
  appendPacket (argument 0) [makePm4Header 2 pm4NumInstances 0, low32 (argument 1)]

def drawIndex : PacketResult :=
  let count := low32 (argument 1)
  let address := argument 2
  let modifier := argument 3
  if address = 0 ∨ address &&& 1 ≠ 0 then .error .kInvalidArgument
  else appendPacket (argument 0)
    [makePm4Header 6 pm4DrawIndex 0, if count = 0 then 1 else count, low32 address,
      high32 address, count, drawIndexInitiator modifier]

def drawIndexMultiInstanced : PacketResult :=
  let count := low32 (argument 1)
  let indexAddress := argument 2
  let objectAddress := argument 3
  let instanceCount := low32 (argument 4)
  if indexAddress = 0 ∨ objectAddress = 0 ∨ indexAddress &&& 1 ≠ 0 then .error .kInvalidArgument
  else appendPacket (argument 0)
    [makePm4Header 9 pm4DrawIndexMultiInstanced 0, count, low32 indexAddress,
      high32 indexAddress, if instanceCount = 0 then 1 else instanceCount, low32 objectAddress,
      high32 objectAddress, instanceCount, drawIndexInitiator (argument 5) ||| 0x80]

def drawIndexAuto : PacketResult :=
  appendPacket (argument 0)
    [makePm4Header 3 pm4DrawIndexAuto 0, low32 (argument 1),
      drawIndexInitiator (argument 2) ||| 0x2]

def drawIndexOffset : PacketResult :=
  let count := low32 (argument 2)
  appendPacket (argument 0)
    [makePm4Header 5 pm4DrawIndexOffset 0, if count = 0 then 1 else count, low32 (argument 1),
      count, drawIndexInitiator (argument 3)]

/-- The shader type is not masked before it is put into the header. -/
def setBaseIndirectArgs : PacketResult :=
  let shaderType := low32 (argument 1)
  let address := argument 2
  appendPacket (argument 0)
    [makePm4Header 4 pm4SetBase 0 ||| shaderType <<< 1, 1, low32 address &&& ~~~0x7, high32 address]

def dispatchIndirect : PacketResult :=
  let flags := low32 (argument 2)
  appendPacket (argument 0)
    [makePm4Header 3 pm4DispatchIndirect 0, low32 (argument 1),
      flags &&& directDispatchModifierMask ||| directDispatchRequiredBits]

def jump : PacketResult :=
  let mode := low32 (argument 1)
  let cachePolicy := low32 (argument 2)
  let target := argument 3
  let size := low32 (argument 4)
  appendPacket (argument 0)
    [makePm4Header 4 pm4IndirectBuffer 0, low32 target &&& ~~~0x3, high32 target,
      0x0f200000#32 ||| (cachePolicy &&& 0x3) <<< 28 ||| (mode &&& 0x1) <<< 20 |||
        size &&& 0xfffff#32]

def rewind : PacketResult :=
  appendPacket (argument 0) [makePm4Header 2 pm4Rewind 0, (low32 (argument 1) &&& 1) <<< 31]

def setPredication : PacketResult :=
  let condition := low32 (argument 1)
  let operation := low32 (argument 2)
  let waitOperation := low32 (argument 3)
  let address := argument 4
  appendPacket (argument 0)
    [makePm4Header 4 pm4SetPredication 0,
      (condition &&& 1) <<< 8 ||| (waitOperation &&& 1) <<< 12 ||| (operation &&& 7) <<< 16,
      low32 address &&& ~~~0xf, high32 address]

/-- The one layout of varying size. -/
def writeData (host : BuilderHost) : PacketResult :=
  let dataAddress := argument 4
  let dwordCount := low32 (argument 5)
  if dataAddress = 0 ∨ 0x3ffd < dwordCount then .error .kInvalidArgument
  else if !host.allocates then .error .kResourceLimit
  else
    match if dwordCount = 0 then some []
      else host.read dataAddress.toNat (dwordCount.toNat * 4) with
    | none => .error .kMemoryFault
    | some data =>
      let destination := low32 (argument 1)
      let cachePolicy := low32 (argument 2)
      let increment := low32 (argument 6)
      let writeConfirm := if destination = 0 then 0 else low32 (argument 7) &&& 1
      appendPacket (argument 0)
        (makePm4Header (4 + dwordCount) pm4Nop pm4WriteDataRegister ::
          (destination &&& 0xff#32 ||| (cachePolicy &&& 0xff) <<< 8 |||
          (increment &&& 0xff) <<< 16 |||
            (writeConfirm &&& 0xff) <<< 24) ::
          (low32 (argument 3) &&& ~~~0x3) :: high32 (argument 3) ::
          (List.range dwordCount.toNat).map fun index => read32 data (index * 4))

def releaseMemory : PacketResult :=
  let action := low32 (argument 1)
  let gcrControl := low32 (argument 2)
  let destination := low32 (argument 3)
  let cachePolicy := low32 (argument 4)
  let dataSelection := low32 (argument 6)
  let gdsOffset := low32 (argument 8)
  let gdsSize := low32 (argument 9)
  let interrupt := low32 (argument 10)
  let interruptContext := low32 (argument 11)
  if 1 < destination ∨ (3 < dataSelection ∧ dataSelection ≠ 5) ∨ 4 < interrupt then
    .error .kInvalidArgument
  else
    let gcrControl := if gcrControl &&& 0x300 = 0x100 then gcrControl ||| 0x200 else gcrControl
    let destinationAddress : BitVec 64 := if interrupt = 4 then 0 else argument 5
    let data : BitVec 64 :=
      if interrupt = 4 then 0
      else if dataSelection = 5 then
        (gdsOffset &&& 0xffff).setWidth 64 ||| (gdsSize &&& 0xffff).setWidth 64 <<< 16
      else argument 7
    let eventIndex : BitVec 32 := if 0x2f ≤ action then 6 else 5
    appendPacket (argument 0)
      [makePm4Header 8 pm4Nop pm4ReleaseMemoryRegister,
        action &&& 0x3f#32 ||| eventIndex <<< 8 ||| (gcrControl &&& 0xfff) <<< 12 |||
          (cachePolicy &&& 3) <<< 25,
        (destination &&& 3) <<< 16 ||| (interrupt &&& 7) <<< 24 ||| (dataSelection &&& 7) <<< 29,
        low32 destinationAddress &&& ~~~3, high32 destinationAddress, low32 data, high32 data,
        interruptContext &&& 0x07ffffff]

def eventWrite : PacketResult :=
  let eventType := low32 (argument 1)
  let address := argument 2
  if 0x3f < eventType then .error .kInvalidArgument
  else if eventType &&& 0xfe = 0x38 then
    appendPacket (argument 0)
      [makePm4Header 4 pm4EventWrite 0, 0x100 ||| eventType, low32 address &&& ~~~7, high32 address]
  else
    appendPacket (argument 0)
      [makePm4Header 2 pm4EventWrite 0,
        if eventType = 7 ∨ eventType = 15 ∨ eventType = 16 then 0x400 ||| eventType
        else eventType]

def getLodStats : PacketResult :=
  let address := argument 2
  let cachePolicy := low32 (argument 1)
  let resetCount := low32 (argument 4)
  let forceReset := low32 (argument 5)
  let reportAndReset := low32 (argument 6)
  let interval := low32 (argument 7)
  appendPacket (argument 0)
    [makePm4Header 5 pm4GetLodStats 0, low32 (argument 3), low32 address &&& 0xffffffc0,
      high32 address,
      (cachePolicy &&& 3) <<< 28 ||| (reportAndReset &&& 1) <<< 19 ||| (forceReset &&& 1) <<< 18 |||
        (resetCount &&& 0xff) <<< 10 ||| (interval &&& 0xff) <<< 2]

def waitRegMem : PacketResult :=
  let size := low32 (argument 1)
  let compare := low32 (argument 2)
  let operation := low32 (argument 3)
  let cachePolicy := low32 (argument 4)
  let address := argument 5
  let reference := argument 6
  let maskValue := argument 7
  let poll := waitPoll (low32 (argument 8))
  if 1 < size ∨ 7 < compare ∨ 4 < operation ∨ 3 < cachePolicy then .error .kInvalidArgument
  else if size = 0 then
    appendPacket (argument 0)
      [makePm4Header 7 pm4Nop pm4WaitMemory32Register, low32 address &&& ~~~0x3,
        high32 address &&& 0x3ffff, low32 maskValue, low32 reference,
        wait32Control compare operation cachePolicy, poll]
  else
    appendPacket (argument 0)
      [makePm4Header 9 pm4Nop pm4WaitMemory64Register, low32 address &&& ~~~0x7,
        high32 address &&& 0x3ffff, low32 maskValue, high32 maskValue, low32 reference,
        high32 reference, wait64Control compare operation cachePolicy, poll]

end Layouts

/-- `WriteAgcPacket`. -/
def writeAgcPacket (host : BuilderHost) (type : AgcPacketType) (arguments : List (BitVec 64)) :
    PacketResult :=
  if arguments.isEmpty then .error .kInvalidArgument
  else
    let argument (index : ℕ) : BitVec 64 := arguments.getD index 0
    match type with
    | .kSetShRegisterDirect => setShRegisterDirect argument
    | .kSetCxRegisterDirect => setCxRegisterDirect argument
    | .kSetUcRegisterDirect => setUcRegisterDirect argument
    | .kSetIndexSize => setIndexSize argument
    | .kSetIndexBuffer => setIndexBuffer argument
    | .kSetIndexCount => setIndexCount argument
    | .kSetNumInstances => setNumInstances argument
    | .kDrawIndex => drawIndex argument
    | .kDrawIndexMultiInstanced => drawIndexMultiInstanced argument
    | .kDrawIndexAuto => drawIndexAuto argument
    | .kDrawIndexOffset => drawIndexOffset argument
    | .kSetBaseIndirectArgs => setBaseIndirectArgs argument
    | .kDispatchIndirect => dispatchIndirect argument
    | .kJump => jump argument
    | .kRewind => rewind argument
    | .kSetPredication => setPredication argument
    | .kWriteData => writeData argument host
    | .kReleaseMemory => releaseMemory argument
    | .kEventWrite => eventWrite argument
    | .kGetLodStats => getLodStats argument
    | .kWaitRegMem => waitRegMem argument

/-! ## The length of a packet -/

/-- A call to one of the three builders. -/
inductive BuilderCall
  | nop (commandBuffer : BitVec 64) (dwordCount : BitVec 32)
  | dispatch (commandBuffer : BitVec 64)
      (groupCountX groupCountY groupCountZ modifier : BitVec 32)
  | agc (type : AgcPacketType) (arguments : List (BitVec 64))

namespace BuilderCall

/-- The packet of a call that is accepted. -/
def packet (host : BuilderHost) : BuilderCall → PacketResult
  | nop commandBuffer dwordCount => writeNop host commandBuffer dwordCount
  | dispatch commandBuffer x y z modifier => writeDispatch commandBuffer x y z modifier
  | agc type arguments => writeAgcPacket host type arguments

/-- The calls whose packet has its length in its header: not the longest NOP packets,
which carry the single-word mark, and no shader type that reaches the length field. -/
def KeepsLength : BuilderCall → Prop
  | nop _ dwordCount => dwordCount ≠ 0x4001
  | dispatch .. => True
  | agc type arguments => match type with
    | .kWriteData => low32 (arguments.getD 5 0) ≠ 0x3ffd
    | .kSetBaseIndirectArgs => low32 (arguments.getD 1 0) >>> 15 &&& 0x3ffd = 0
    | _ => True

end BuilderCall

/-- Builder, `GetPacketSize` and decoder give a packet the same length. -/
def LengthsAgree (packet : List (BitVec 32)) : Prop :=
  (packetSize (packet.headD 0)).toNat = packet.length ∧
    (packetDwords (packet.headD 0)).map BitVec.toNat = some packet.length

variable {packet : List (BitVec 32)} {commandBuffer : BitVec 64} {dwordCount : BitVec 32}
  {host : BuilderHost}

theorem appendPacket_eq_ok {words : List (BitVec 32)}
    (h : appendPacket commandBuffer words = .ok packet) :
    words = packet ∧ packet.length ≤ maximumPm4PacketDwords := by
  unfold appendPacket at h
  split_ifs at h with hbounds
  cases h
  exact ⟨rfl, by omega⟩

theorem lengthsAgree_iff {header : BitVec 32} (rest : List (BitVec 32))
    (htype : pm4Type header = pm4Type3) :
    LengthsAgree (header :: rest) ↔ (packetSize header).toNat = rest.length + 1 := by
  simp [LengthsAgree, packetDwords_eq_packetSize htype]

variable {opcode packetRegister : BitVec 32} {rest : List (BitVec 32)}

/-- A header made by `MakePm4Header` for the packet's own length. -/
theorem lengthsAgree_makePm4Header (hmin : 2 ≤ dwordCount.toNat) (hmax : dwordCount.toNat ≤ 0x4001)
    (hrest : rest.length + 1 = dwordCount.toNat) :
    LengthsAgree (makePm4Header dwordCount opcode packetRegister :: rest) ↔
      ¬ (dwordCount = 0x4001 ∧ opcode &&& 0xff = pm4Nop) := by
  rw [lengthsAgree_iff _ (pm4Type_makePm4Header ..), toNat_packetSize_makePm4Header _ _ hmin hmax,
    hrest]
  split_ifs with h
  · exact ⟨fun hone => by omega, fun hnot => absurd h hnot⟩
  · exact ⟨fun _ => h, fun _ => rfl⟩

/-- A fixed layout under any opcode. -/
theorem lengthsAgree_of_fixed
    (h : appendPacket commandBuffer (makePm4Header dwordCount opcode packetRegister :: rest) =
      .ok packet) (hrest : rest.length + 1 = dwordCount.toNat)
        (hshort : dwordCount.toNat < 0x4001) :
    LengthsAgree packet := by
  unfold appendPacket at h
  split_ifs at h with hbounds
  cases h
  simp only [List.length_cons] at hbounds
  refine (lengthsAgree_makePm4Header (by omega) (by omega) hrest).mpr fun hlong => ?_
  rw [hlong.1] at hshort
  exact absurd hshort (by decide)

/-- The header of a base packet, where the shader type is or-ed in unmasked. -/
def setBaseHeader (shaderType : BitVec 32) : BitVec 32 :=
  makePm4Header 4 pm4SetBase 0 ||| shaderType <<< 1

theorem field_setBaseHeader (offset width : ℕ) (shaderType : BitVec 32) (hoff : 1 ≤ offset)
    (hfits : offset + width ≤ 32) :
    field offset width (setBaseHeader shaderType) =
      field offset width (makePm4Header 4 pm4SetBase 0) |||
        field (offset - 1) width shaderType := by
  rw [setBaseHeader, field_or, field_shiftLeft _ _ _ _ hoff hfits]

theorem pm4Type_setBaseHeader (shaderType : BitVec 32) :
    pm4Type (setBaseHeader shaderType) = pm4Type3 := by
  rw [pm4Type_eq_type3_iff, field_setBaseHeader _ _ _ (by decide) (by decide)]
  refine (or_eq_left_iff _ _).mpr ?_
  rw [field, BitVec.and_assoc]
  exact BitVec.and_zero

/-- The lowest opcode bit is set, so the header never carries the single-word mark. -/
theorem singleDwordCustom_setBaseHeader (shaderType : BitVec 32) :
    singleDwordCustom (setBaseHeader shaderType) = false := by
  rw [← Bool.not_eq_true, singleDwordCustom_iff]
  rintro ⟨-, hopcode⟩
  have hfield := field_setBaseHeader 8 8 shaderType (by decide) (by decide)
  have hbit := congrArg (fun x => x.getLsbD 0) (hfield.symm.trans hopcode)
  exact absurd hbit (by simp [makePm4Header, pm4SetBase, pm4Nop, field, mask])

/-- The length read from a base packet is right for the shader types that leave the length
field alone. -/
theorem toNat_packetSize_setBaseHeader (shaderType : BitVec 32) :
    (packetSize (setBaseHeader shaderType)).toNat = 4 ↔ shaderType >>> 15 &&& 0x3ffd = 0 := by
  have hlen : headerLength (setBaseHeader shaderType) = 2#32 ||| field 15 14 shaderType :=
    field_setBaseHeader 16 14 shaderType (by decide) (by decide)
  have hmask : field 15 14 shaderType &&& ~~~2#32 = shaderType >>> 15 &&& 0x3ffd := by
    rw [field, BitVec.and_assoc]
    rfl
  rw [toNat_packetSize, singleDwordCustom_setBaseHeader, hlen]
  calc (2#32 ||| field 15 14 shaderType).toNat + 2 = 4
      ↔ (2#32 ||| field 15 14 shaderType).toNat = (2#32).toNat := by simp
    _ ↔ 2#32 ||| field 15 14 shaderType = 2#32 := BitVec.toNat_inj
    _ ↔ shaderType >>> 15 &&& 0x3ffd = 0 := by rw [or_eq_left_iff, hmask]; rfl

/-! ### One case per builder -/

theorem lengthsAgree_nop (h : writeNop host commandBuffer dwordCount = .ok packet) :
    LengthsAgree packet ↔ dwordCount ≠ 0x4001 := by
  unfold writeNop at h
  split_ifs at h with hbounds hallocates
  obtain ⟨rfl, -⟩ := appendPacket_eq_ok h
  unfold maximumPm4PacketDwords at hbounds
  rw [lengthsAgree_makePm4Header (by omega) (by omega) (by simp; omega)]
  simp [pm4Nop]

theorem writeNop_eq_ok (hallocates : host.allocates = true) (hbuffer : commandBuffer ≠ 0)
    (hmin : 2 ≤ dwordCount.toNat) (hmax : dwordCount.toNat ≤ maximumPm4PacketDwords) :
    writeNop host commandBuffer dwordCount = .ok
      (makePm4Header dwordCount pm4Nop 0 :: List.replicate (dwordCount.toNat - 1) 0) := by
  rw [writeNop, if_neg (by omega), hallocates, if_neg (by simp), appendPacket, if_neg]
  rw [List.length_cons, List.length_replicate]
  exact not_or.mpr ⟨hbuffer, by omega⟩

theorem lengthsAgree_writeData (argument : ℕ → BitVec 64)
    (h : writeData argument host = .ok packet) :
    LengthsAgree packet ↔ low32 (argument 5) ≠ 0x3ffd := by
  unfold writeData at h
  by_cases hbounds : argument 4 = 0 ∨ 0x3ffd < low32 (argument 5)
  · cases (if_pos hbounds).symm.trans h
  rw [if_neg hbounds] at h
  split at h
  · cases h
  split at h
  · cases h
  obtain ⟨rfl, -⟩ := appendPacket_eq_ok h
  have hcount : (low32 (argument 5)).toNat ≤ 0x3ffd :=
    Nat.le_of_not_lt fun hlt => hbounds (.inr hlt)
  have htotal : (4 + low32 (argument 5)).toNat = 4 + (low32 (argument 5)).toNat := by
    exact Nat.mod_eq_of_lt (by simp; omega)
  rw [lengthsAgree_makePm4Header (by omega) (by omega) (by simp; omega)]
  have hlongest : 4 + low32 (argument 5) = 0x4001 ↔ low32 (argument 5) = 0x3ffd := by
    rw [← BitVec.toNat_inj, ← BitVec.toNat_inj]
    simp
    omega
  rw [hlongest]
  simp [pm4Nop]

theorem lengthsAgree_setBaseIndirectArgs (argument : ℕ → BitVec 64)
    (h : setBaseIndirectArgs argument = .ok packet) :
    LengthsAgree packet ↔ low32 (argument 1) >>> 15 &&& 0x3ffd = 0 := by
  obtain ⟨rfl, -⟩ := appendPacket_eq_ok h
  exact (lengthsAgree_iff _ (pm4Type_setBaseHeader _)).trans (toNat_packetSize_setBaseHeader _)

/-- The types whose packet has one size and a header of its own. -/
theorem lengthsAgree_agc {type : AgcPacketType} {arguments : List (BitVec 64)}
    (h : writeAgcPacket host type arguments = .ok packet) (hdata : type ≠ .kWriteData)
    (hbase : type ≠ .kSetBaseIndirectArgs) : LengthsAgree packet := by
  unfold writeAgcPacket at h
  split_ifs at h
  cases type with
  | kWriteData => exact absurd rfl hdata
  | kSetBaseIndirectArgs => exact absurd rfl hbase
  | kSetShRegisterDirect | kSetCxRegisterDirect | kSetUcRegisterDirect | kSetIndexSize
  | kSetIndexCount | kSetNumInstances | kDrawIndexAuto | kDrawIndexOffset | kDispatchIndirect
  | kJump | kRewind | kSetPredication | kGetLodStats =>
    exact lengthsAgree_of_fixed h rfl (by decide)
  | kSetIndexBuffer =>
    simp only [setIndexBuffer] at h
    split_ifs at h
    exact lengthsAgree_of_fixed h rfl (by decide)
  | kDrawIndex =>
    simp only [drawIndex] at h
    split_ifs at h <;> exact lengthsAgree_of_fixed h rfl (by decide)
  | kDrawIndexMultiInstanced =>
    simp only [drawIndexMultiInstanced] at h
    split_ifs at h <;> exact lengthsAgree_of_fixed h rfl (by decide)
  | kReleaseMemory =>
    simp only [releaseMemory] at h
    split at h
    · cases h
    · exact lengthsAgree_of_fixed h rfl (by decide)
  | kEventWrite =>
    simp only [eventWrite] at h
    split_ifs at h <;> exact lengthsAgree_of_fixed h rfl (by decide)
  | kWaitRegMem =>
    simp only [waitRegMem] at h
    split_ifs at h <;> exact lengthsAgree_of_fixed h rfl (by decide)

/-- The three lengths of an accepted packet agree exactly when the call is not one of the
two that spoil the length field. -/
theorem lengthsAgree_packet_iff (host : BuilderHost) (call : BuilderCall)
    {packet : List (BitVec 32)} (haccepted : call.packet host = .ok packet) :
    LengthsAgree packet ↔ call.KeepsLength := by
  cases call with
  | nop commandBuffer dwordCount => exact lengthsAgree_nop haccepted
  | dispatch commandBuffer x y z modifier =>
    exact iff_of_true (lengthsAgree_of_fixed haccepted rfl (by decide)) trivial
  | agc type arguments =>
    have hagc : writeAgcPacket host type arguments = .ok packet := haccepted
    by_cases hdata : type = .kWriteData
    · subst hdata
      unfold writeAgcPacket at hagc
      split_ifs at hagc
      exact lengthsAgree_writeData (fun index => arguments.getD index 0) hagc
    by_cases hbase : type = .kSetBaseIndirectArgs
    · subst hbase
      unfold writeAgcPacket at hagc
      split_ifs at hagc
      exact lengthsAgree_setBaseIndirectArgs (fun index => arguments.getD index 0) hagc
    refine iff_of_true (lengthsAgree_agc hagc hdata hbase) ?_
    cases type <;> trivial

/-- Guest memory that holds nothing. -/
def emptyHost : BuilderHost := ⟨fun _ _ => none, true⟩

/-- A write of two words from guest memory keeps its length. -/
theorem lengthsAgree_two_words :
    let host : BuilderHost := ⟨fun _ length => some (List.replicate length 7), true⟩
    let call := BuilderCall.agc .kWriteData [0x1000, 1, 2, 0x12345678abc, 0x2000, 2, 0, 1]
    ∃ packet, call.packet host = .ok packet ∧ packet.length = 6 ∧
      packet.drop 4 = [0x7070707, 0x7070707] ∧ (LengthsAgree packet ↔ call.KeepsLength) := by
  intro host call
  exact ⟨_, rfl, rfl, rfl, lengthsAgree_packet_iff host call rfl⟩

/-- The longest NOP packet is accepted, and both readers take it for a single word. A base
packet whose shader type has bit 15 set is taken for five words instead of four. -/
theorem length_of_marked_packets :
    (∃ packet, (BuilderCall.nop 0x1000 0x4001).packet emptyHost = .ok packet ∧
      packet.length = 0x4001 ∧ packetSize (packet.headD 0) = 1 ∧
        packetDwords (packet.headD 0) = some 1) ∧
    ∃ packet, (BuilderCall.agc .kSetBaseIndirectArgs [0x1000, 0x8000, 0]).packet emptyHost =
      .ok packet ∧ packet.length = 4 ∧ packetSize (packet.headD 0) = 5 ∧
        packetDwords (packet.headD 0) = some 5 := by
  refine ⟨⟨_, writeNop_eq_ok rfl (by decide) (by decide) (by decide), ?_, rfl, rfl⟩, _, rfl, rfl,
    rfl, rfl⟩
  rw [List.length_cons, List.length_replicate]
  rfl

end KajPS5.Gpu
