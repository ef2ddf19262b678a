/-
# PM4 packet headers

A type 3 packet starts with a header word: the packet type in the top two bits, a
14-bit length field that holds the number of words less two, the opcode, and a
register selector in bits 2 to 7. The builder writes headers with `makePm4Header`;
`packetSize` and `packetDwords` are the two places that read the length back, one in
`GetPacketSize` and one in the command decoder.

The length field has one value that does not denote a length. With the NOP opcode
the all-ones field marks a packet of a single word.
-/

import KajPS5.Math.BitFields

namespace KajPS5.Gpu

open Math.BitFields BitVec

/-! ## Opcodes and register selectors -/

def pm4Nop : BitVec 32 := 0x10
def pm4SetBase : BitVec 32 := 0x11
def pm4IndexBufferSize : BitVec 32 := 0x13
def pm4DispatchDirect : BitVec 32 := 0x15
def pm4DispatchIndirect : BitVec 32 := 0x16
def pm4SetPredication : BitVec 32 := 0x20
def pm4DrawIndirect : BitVec 32 := 0x24
def pm4DrawIndexIndirect : BitVec 32 := 0x25
def pm4IndexBase : BitVec 32 := 0x26
def pm4DrawIndex : BitVec 32 := 0x27
def pm4IndexType : BitVec 32 := 0x2a
def pm4DrawIndirectMulti : BitVec 32 := 0x2c
def pm4DrawIndexAuto : BitVec 32 := 0x2d
def pm4NumInstances : BitVec 32 := 0x2f
def pm4DrawIndexOffset : BitVec 32 := 0x35
def pm4WriteData : BitVec 32 := 0x37
def pm4DrawIndexIndirectMulti : BitVec 32 := 0x38
def pm4DrawIndexMultiInstanced : BitVec 32 := 0x3a
def pm4WaitRegMem : BitVec 32 := 0x3c
def pm4IndirectBuffer : BitVec 32 := 0x3f
def pm4EventWrite : BitVec 32 := 0x46
def pm4ReleaseMemory : BitVec 32 := 0x49
def pm4Rewind : BitVec 32 := 0x59
def pm4SetShRegisterIndirect : BitVec 32 := 0x63
def pm4SetUcRegisterIndirect : BitVec 32 := 0x64
def pm4SetContextRegister : BitVec 32 := 0x69
def pm4SetShRegister : BitVec 32 := 0x76
def pm4SetUcRegister : BitVec 32 := 0x79
def pm4SetUcRegisterIndex : BitVec 32 := 0x7a
def pm4GetLodStats : BitVec 32 := 0x8e
def pm4SetContextRegisterIndirect : BitVec 32 := 0x9f

def pm4WaitMemory32Register : BitVec 32 := 0x0a
def pm4ShaderRegistersIndirect : BitVec 32 := 0x11
def pm4ContextRegistersIndirect : BitVec 32 := 0x12
def pm4UserConfigRegistersIndirect : BitVec 32 := 0x13
def pm4WriteDataRegister : BitVec 32 := 0x15
def pm4WaitMemory64Register : BitVec 32 := 0x16
def pm4ReleaseMemoryRegister : BitVec 32 := 0x18

/-! ## Words -/

/-- The halves of an argument. -/
def low32 (x : BitVec 64) : BitVec 32 := x.setWidth 32
def high32 (x : BitVec 64) : BitVec 32 := (x >>> 32).setWidth 32

/-- Two words as one 64-bit value. -/
def join64 (low high : BitVec 32) : BitVec 64 := low.setWidth 64 ||| high.setWidth 64 <<< 32

theorem getLsbD_join64 (low high : BitVec 32) {i : ℕ} (hi : i < 64) :
    (join64 low high).getLsbD i = if i < 32 then low.getLsbD i else high.getLsbD (i - 32) := by
  by_cases h : i < 32
  · simp [join64, h, hi]
  · simp [join64, hi, getLsbD_of_ge _ i (Nat.le_of_not_lt h)]

/-- Masking the halves masks the value. -/
theorem join64_and (x maskValue : BitVec 64) :
    join64 (low32 x &&& low32 maskValue) (high32 x &&& high32 maskValue) = x &&& maskValue := by
  apply eq_of_getLsbD_eq
  intro i hi
  rw [getLsbD_join64 _ _ hi]
  by_cases h : i < 32
  · simp [low32, h]
  · simp [high32, h, show i - 32 < 32 by omega, show 32 + (i - 32) = i by omega]

@[simp] theorem join64_halves (x : BitVec 64) : join64 (low32 x) (high32 x) = x := by
  have h := join64_and x (BitVec.allOnes 64)
  rwa [show low32 (BitVec.allOnes 64) = BitVec.allOnes 32 from rfl,
    show high32 (BitVec.allOnes 64) = BitVec.allOnes 32 from rfl, and_allOnes,
    and_allOnes, and_allOnes] at h

/-- `Read32` at an offset of a buffer of bytes. -/
def read32 (bytes : List UInt8) (offset : ℕ) : BitVec 32 :=
  let byte (index : ℕ) : BitVec 32 := (bytes.getD (offset + index) 0).toBitVec.setWidth 32
  byte 0 ||| byte 1 <<< 8 ||| byte 2 <<< 16 ||| byte 3 <<< 24

/-- `Read64`. -/
def read64 (bytes : List UInt8) : BitVec 64 := join64 (read32 bytes 0) (read32 bytes 4)

/-! ## Headers -/

/-- `MakePm4Header`. -/
def makePm4Header (dwordCount opcode packetRegister : BitVec 32) : BitVec 32 :=
  0xc0000000#32 ||| (dwordCount - 2 &&& 0x3fff) <<< 16 ||| (opcode &&& 0xff) <<< 8 |||
    (packetRegister &&& 0x3f) <<< 2

/-- The mark of a packet of one word. -/
def singleDwordCustom (header : BitVec 32) : Bool := header &&& 0x3fffff00 = 0x3fff1000

def headerLength (header : BitVec 32) : BitVec 32 := header >>> 16 &&& 0x3fff
def headerOpcode (header : BitVec 32) : BitVec 32 := header >>> 8 &&& 0xff
def headerRegister (header : BitVec 32) : BitVec 32 := header >>> 2 &&& 0x3f

/-- What `GetPacketSize` reports for a header. -/
def packetSize (header : BitVec 32) : BitVec 32 :=
  if singleDwordCustom header then 1 else headerLength header + 2

def pm4Type (header : BitVec 32) : BitVec 32 := header &&& 0xc0000000
def pm4Type2 : BitVec 32 := 0x80000000
def pm4Type3 : BitVec 32 := 0xc0000000

/-- The words the command decoder takes for a header; a header of another type has none. -/
def packetDwords (header : BitVec 32) : Option (BitVec 32) :=
  if pm4Type header = pm4Type2 then some 1
  else if pm4Type header = pm4Type3 then
    some (if singleDwordCustom header then 1 else headerLength header + 2)
  else none

section

variable (dwordCount opcode packetRegister : BitVec 32)

/-- A header as its four fields. -/
theorem makePm4Header_eq : makePm4Header dwordCount opcode packetRegister =
      place 30 2 3 ||| place 16 14 (dwordCount - 2) ||| place 8 8 opcode |||
        place 2 6 packetRegister := rfl

theorem headerOpcode_makePm4Header :
    headerOpcode (makePm4Header dwordCount opcode packetRegister) = opcode &&& 0xff := by
  change field 8 8 _ = opcode &&& mask 32 8
  rw [makePm4Header_eq]
  simp (disch := decide) only [field_or, field_place, field_place_of_disjoint, or_zero,
    zero_or]

theorem headerLength_makePm4Header :
    headerLength (makePm4Header dwordCount opcode packetRegister) = dwordCount - 2 &&& 0x3fff := by
  change field 16 14 _ = dwordCount - 2 &&& mask 32 14
  rw [makePm4Header_eq]
  simp (disch := decide) only [field_or, field_place, field_place_of_disjoint, or_zero,
    zero_or]

end

theorem pm4Type_eq_type3_iff (header : BitVec 32) :
    pm4Type header = pm4Type3 ↔ field 30 2 header = 3 := by
  have hmask : pm4Type header = place 30 2 (header >>> 30) := and_shiftLeft_mask 30 2 header
  have hfield : field 30 2 (pm4Type header) = field 30 2 header := by
    rw [hmask, field_place 30 2 _ (by decide)]
    rfl
  constructor
  · intro h
    rw [← hfield, h]
    rfl
  · intro h
    rw [hmask, show place 30 2 (header >>> 30) = field 30 2 header <<< 30 from rfl, h]
    rfl

theorem pm4Type_makePm4Header (dwordCount opcode packetRegister : BitVec 32) :
    pm4Type (makePm4Header dwordCount opcode packetRegister) = pm4Type3 := by
  rw [pm4Type_eq_type3_iff, makePm4Header_eq]
  simp (disch := decide) only [field_or, field_place, field_place_of_disjoint, or_zero]
  rfl

/-- The single-word mark is an all-ones length field under the NOP opcode. -/
theorem singleDwordCustom_iff (header : BitVec 32) : singleDwordCustom header = true ↔
      headerLength header = 0x3fff ∧ headerOpcode header = pm4Nop := by
  have hsplit : header &&& (0x3fffff00 : BitVec 32) =
      place 16 14 (header >>> 16) ||| place 8 8 (header >>> 8) := by
    rw [← and_shiftLeft_mask, ← and_shiftLeft_mask, ← and_or_distrib_left]
    rfl
  rw [singleDwordCustom, decide_eq_true_iff, hsplit]
  constructor
  · intro h
    have hlen := congrArg (field 16 14) h
    have hopcode := congrArg (field 8 8) h
    simp (disch := decide) only [field_or, field_place, field_place_of_disjoint, or_zero,
      zero_or] at hlen hopcode
    exact ⟨hlen, hopcode⟩
  · rintro ⟨hlen, hopcode⟩
    rw [show place 16 14 (header >>> 16) = headerLength header <<< 16 from rfl,
      show place 8 8 (header >>> 8) = headerOpcode header <<< 8 from rfl, hlen, hopcode]
    rfl

/-- The two readers of the length agree on every type 3 header. -/
theorem packetDwords_eq_packetSize {header : BitVec 32} (htype : pm4Type header = pm4Type3) :
    packetDwords header = some (packetSize header) := by
  simp [packetDwords, packetSize, htype, pm4Type2, pm4Type3]

theorem toNat_packetSize (header : BitVec 32) : (packetSize header).toNat =
      if singleDwordCustom header then 1 else (headerLength header).toNat + 2 := by
  have hlen : (headerLength header).toNat < 2 ^ 14 := by
    rw [show headerLength header = header >>> 16 &&& mask 32 14 from rfl,
      toNat_and_mask 14 _ (by decide)]
    exact Nat.mod_lt _ (by decide)
  unfold packetSize
  split_ifs
  · rfl
  · exact Nat.mod_eq_of_lt (by simp; omega)

/-- Every length the field can hold is read back, but for the one that is the mark. -/
theorem toNat_packetSize_makePm4Header {dwordCount : BitVec 32} (opcode packetRegister : BitVec 32)
    (hmin : 2 ≤ dwordCount.toNat) (hmax : dwordCount.toNat ≤ 0x4001) :
    (packetSize (makePm4Header dwordCount opcode packetRegister)).toNat =
      if dwordCount = 0x4001 ∧ opcode &&& 0xff = pm4Nop then 1 else dwordCount.toNat := by
  have hfield : (dwordCount - 2 &&& (0x3fff : BitVec 32)).toNat = dwordCount.toNat - 2 := by
    rw [show (0x3fff : BitVec 32) = mask 32 14 from rfl, toNat_and_mask 14 _ (by decide)]
    simp
    omega
  have hmark : dwordCount - 2 &&& (0x3fff : BitVec 32) = 0x3fff ↔ dwordCount = 0x4001 := by
    rw [← toNat_inj, hfield, ← toNat_inj]
    simp
    omega
  have hcustom : singleDwordCustom (makePm4Header dwordCount opcode packetRegister) = true ↔
      dwordCount = 0x4001 ∧ opcode &&& 0xff = pm4Nop := by
    rw [singleDwordCustom_iff, headerLength_makePm4Header, headerOpcode_makePm4Header, hmark]
  rw [toNat_packetSize, headerLength_makePm4Header]
  by_cases h : dwordCount = 0x4001 ∧ opcode &&& 0xff = pm4Nop
  · rw [if_pos (hcustom.mpr h), if_pos h]
  · rw [if_neg (fun hc => h (hcustom.mp hc)), if_neg h]
    omega

end KajPS5.Gpu
