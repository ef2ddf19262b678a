/-
# Decoding shader code

The words of a shader are decoded one instruction after the other. The scalar families, branches
and jumps among them, are followed word by word; the decoders of the other families are parameters
that place an instruction at its address and take at least one word, whatever its opcode.
An opcode that no modelled function tells from its neighbours is kept as a number.
-/

import KajPS5.Math.Postconditions
import Mathlib.Algebra.Order.Ring.Nat

namespace KajPS5.Shader

open Math.Postconditions

/-- A word of shader code, and an address in it in bytes. -/
abbrev Word := BitVec 32

inductive OperandKind
  | unknown | literalConstant | integerInlineConstant | floatInlineConstant | sgpr | vccLo | vccHi
  | vccZ | execLo | execHi | execZ | scc | m0 | popsExitingWaveId | null | vgpr
  deriving DecidableEq, Repr

structure Operand where
  kind : OperandKind := .unknown
  (value signedVal : Word := 0)
  reg : ℕ := 0
  deriving DecidableEq, Repr

inductive Opcode
  | unsupported
  | sAddU32 | sSubU32 | sAddI32 | sSubI32 | sAddcU32 | sMinI32 | sMinU32 | sMaxI32 | sMaxU32
  | sLshlB32 | sGetpcB64 | sSetpcB64 | sEndpgm | sBranch | sCbranchScc0 | sCbranchScc1
  | sCbranchVccz | sCbranchVccnz | sCbranchExecz | sCbranchExecnz | sLoadDwordx2
  | other (id : ℕ)
  deriving DecidableEq, Repr

structure Instruction where
  pc : Word
  wordCount : ℕ := 1
  opcode : Opcode
  (dst src0 src1 src2 src3 : Operand := {})
  offset : Word := 0
  dataDwords : ℕ := 1
  branchTarget : Word := 0
  deriving DecidableEq, Repr

/-- The bits of a word from one position on, as many as the width says. -/
def bits (word : Word) (start width : ℕ) : ℕ := word.toNat / 2 ^ start % 2 ^ width

/-! ## Scalar operands -/

/-- The bits of the floats that have a source code of their own, from code 240 on. -/
def inlineFloats : List Word :=
  [0x3f000000, 0xbf000000, 0x3f800000, 0xbf800000, 0x40000000, 0xc0000000, 0x40800000, 0xc0800000,
    0x3e22f983]

def decodeScalarSource (code : ℕ) (pc : Word) : Except String Operand :=
  if code ≤ 105 then .ok { kind := .sgpr, reg := code }
  else if 128 ≤ code ∧ code ≤ 208 then
    let value : Word := if code ≤ 192 then .ofNat 32 (code - 128) else -.ofNat 32 (code - 192)
    .ok { kind := .integerInlineConstant, value, signedVal := value }
  else if 240 ≤ code ∧ code ≤ 248 then
    .ok { kind := .floatInlineConstant, value := inlineFloats.getD (code - 240) 0 }
  else if 256 ≤ code ∧ code ≤ 511 then .ok { kind := .vgpr, reg := code - 256 }
  else match code with
    | 106 => .ok { kind := .vccLo }
    | 107 => .ok { kind := .vccHi }
    | 124 => .ok { kind := .m0 }
    | 125 => .ok { kind := .null }
    | 126 => .ok { kind := .execLo }
    | 127 => .ok { kind := .execHi }
    | 239 => .ok { kind := .popsExitingWaveId }
    | 251 => .ok { kind := .vccZ }
    | 252 => .ok { kind := .execZ }
    | 253 => .ok { kind := .scc }
    | 255 => .ok { kind := .literalConstant }
    | _ => .error ("unsupported scalar source operand 0x" ++ (BitVec.ofNat 32 code).toHex ++
        " at pc 0x" ++ pc.toHex)

def decodeScalarDestination (code : ℕ) (pc : Word) : Except String Operand :=
  if code ≤ 105 then .ok { kind := .sgpr, reg := code }
  else match code with
    | 106 => .ok { kind := .vccLo }
    | 107 => .ok { kind := .vccHi }
    | 124 => .ok { kind := .m0 }
    | 125 => .ok { kind := .null }
    | 126 => .ok { kind := .execLo }
    | 127 => .ok { kind := .execHi }
    | _ => .error ("unsupported scalar destination operand 0x" ++ (BitVec.ofNat 32 code).toHex ++
        " at pc 0x" ++ pc.toHex)

def applyLiteral (literal : Word) (operand : Operand) : Operand :=
  if operand.kind = .literalConstant then { operand with value := literal, signedVal := literal }
  else operand

/-- A literal constant follows the instruction in the code. -/
def readLiteralOperands (code : List Word) (wordIndex : ℕ) (inst : Instruction) :
    Except String Instruction :=
  if [inst.src0, inst.src1, inst.src2, inst.src3].any (·.kind = .literalConstant) then
    match code[wordIndex + inst.wordCount]? with
    | none => .error ("missing literal constant at pc 0x" ++ inst.pc.toHex)
    | some literal => .ok { inst with
        src0 := applyLiteral literal inst.src0
        src1 := applyLiteral literal inst.src1
        src2 := applyLiteral literal inst.src2
        src3 := applyLiteral literal inst.src3
        wordCount := inst.wordCount + 1 }
  else .ok inst

/-! ## Scalar families -/

def sop1Op : ℕ → Opcode
  | 0x1f => .sGetpcB64
  | 0x20 => .sSetpcB64
  | opcode =>
    if opcode ∈ [0x03, 0x04, 0x07, 0x08, 0x0a, 0x0b, 0x0f, 0x10, 0x13, 0x16, 0x1b, 0x1d, 0x24, 0x28,
        0x34, 0x37, 0x3b, 0x3c, 0x44] then .other opcode else .unsupported

def sop2Op : ℕ → Opcode
  | 0x00 => .sAddU32
  | 0x01 => .sSubU32
  | 0x02 => .sAddI32
  | 0x03 => .sSubI32
  | 0x04 => .sAddcU32
  | 0x06 => .sMinI32
  | 0x07 => .sMinU32
  | 0x08 => .sMaxI32
  | 0x09 => .sMaxU32
  | 0x1e => .sLshlB32
  | opcode =>
    if opcode = 0x05 ∨ opcode = 0x0a ∨ opcode = 0x0b ∨ 0x0e ≤ opcode ∧ opcode ≤ 0x22 ∨
        0x24 ≤ opcode ∧ opcode ≤ 0x27 ∨ opcode = 0x29 ∨ 0x2e ≤ opcode ∧ opcode ≤ 0x35
    then .other opcode else .unsupported

def sopkOp : ℕ → Opcode
  | 0x0f => .sAddI32
  | opcode =>
    if opcode = 0x00 ∨ 0x03 ≤ opcode ∧ opcode ≤ 0x10 ∨ opcode = 0x13 ∨ 0x17 ≤ opcode ∧ opcode ≤ 0x1a
    then .other opcode else .unsupported

def sopcOp (opcode : ℕ) : Opcode :=
  if opcode ≤ 0x0d ∨ opcode = 0x13 then .other opcode else .unsupported

def soppOp : ℕ → Opcode
  | 0x01 => .sEndpgm
  | 0x02 => .sBranch
  | 0x04 => .sCbranchScc0
  | 0x05 => .sCbranchScc1
  | 0x06 => .sCbranchVccz
  | 0x07 => .sCbranchVccnz
  | 0x08 => .sCbranchExecz
  | 0x09 => .sCbranchExecnz
  | opcode =>
    if opcode ∈ [0x00, 0x0a, 0x0c, 0x0e, 0x10, 0x16, 0x20] then .other opcode else .unsupported

def decodeSop1 (pc : Word) (code : List Word) (wordIndex : ℕ) (word : Word) :
    Except String Instruction := do
  let inst : Instruction := { pc, opcode := sop1Op (bits word 8 8) }
  match inst.opcode with
  | .unsupported => return inst
  | .sGetpcB64 => return { inst with dst := ← decodeScalarDestination (bits word 16 7) pc }
  | .sSetpcB64 =>
    readLiteralOperands code wordIndex
      { inst with dst := { kind := .null }, src0 := ← decodeScalarSource (bits word 0 8) pc }
  | _ =>
    let src0 ← decodeScalarSource (bits word 0 8) pc
    let dst ← decodeScalarDestination (bits word 16 7) pc
    readLiteralOperands code wordIndex { inst with src0, dst }

def decodeBinarySources (pc : Word) (code : List Word) (wordIndex : ℕ) (inst : Instruction)
    (ssrc0 ssrc1 : ℕ) : Except String Instruction := do
  let src0 ← decodeScalarSource ssrc0 pc
  let src1 ← decodeScalarSource ssrc1 pc
  readLiteralOperands code wordIndex { inst with src0, src1 }

def decodeSop2 (pc : Word) (code : List Word) (wordIndex : ℕ) (word : Word) :
    Except String Instruction := do
  let inst : Instruction := { pc, opcode := sop2Op (bits word 23 7) }
  if inst.opcode = .unsupported then return inst
  let dst ← decodeScalarDestination (bits word 16 7) pc
  decodeBinarySources pc code wordIndex { inst with dst } (bits word 0 8) (bits word 8 8)

/-- The field of the destination also names the first source, and the immediate is the other. -/
def decodeSopk (pc word : Word) : Except String Instruction := do
  let sdst := bits word 16 7
  let waitcnt : Word := word &&& 0xffff
  let imm : Word := (word.setWidth 16).signExtend 32
  let src : Operand := { kind := .integerInlineConstant, value := imm, signedVal := imm }
  let inst : Instruction := { pc, opcode := sopkOp (bits word 23 5), src0 := src }
  if inst.opcode = .unsupported then return inst
  match bits word 23 5 with
  -- `SMovkI32`
  | 0x00 => return { inst with dst := ← decodeScalarDestination sdst pc }
  -- `SWaitcnt`
  | 0x17 | 0x18 | 0x19 | 0x1a =>
    return { inst with
      dst := { kind := .null }, src0 := { src with value := waitcnt, signedVal := waitcnt } }
  -- `SSetregB32`
  | 0x13 =>
    return { inst with
      dst := { kind := .null }
      src0 := ← decodeScalarSource sdst pc
      src1 := { kind := .literalConstant, value := waitcnt, signedVal := imm } }
  -- `SAddI32` and `SMulkI32`
  | 0x0f | 0x10 =>
    let src0 ← decodeScalarSource sdst pc
    return { inst with src0, src1 := src, dst := ← decodeScalarDestination sdst pc }
  | _ =>
    return { inst with src0 := ← decodeScalarSource sdst pc, src1 := src, dst := { kind := .scc } }

def decodeSopc (pc : Word) (code : List Word) (wordIndex : ℕ) (word : Word) :
    Except String Instruction :=
  let inst : Instruction := { pc, opcode := sopcOp (bits word 16 7), dst := { kind := .scc } }
  if inst.opcode = .unsupported then .ok inst
  else decodeBinarySources pc code wordIndex inst (bits word 0 8) (bits word 8 8)

/-- The branch offset counts words from the end of the instruction. -/
def decodeSopp (pc word : Word) : Instruction :=
  let simm : Word := (word.setWidth 16).signExtend 32
  { pc
    opcode := soppOp (bits word 16 7)
    src0 := { kind := .literalConstant, value := word &&& 0xffff, signedVal := simm }
    branchTarget := pc + 4 + simm * 4 }

def smemOp : ℕ → Opcode
  | 0x01 => .sLoadDwordx2
  | opcode => if opcode ≤ 0x04 ∨ 0x08 ≤ opcode ∧ opcode ≤ 0x0c then .other opcode else .unsupported

/-- Operands that cannot be decoded are left empty. -/
def decodeSmem (pc : Word) (code : List Word) (wordIndex : ℕ) (word : Word) :
    Except String Instruction := match code[wordIndex + 1]? with
  | none => .error ("truncated SMEM instruction at pc 0x" ++ pc.toHex)
  | some word1 =>
    let opcode := smemOp (bits word 18 8)
    .ok { pc
          wordCount := 2
          opcode
          dst := (decodeScalarDestination (bits word 6 7) pc).toOption.getD {}
          src0 := (decodeScalarSource (bits word 0 6 * 2) pc).toOption.getD {}
          src1 := (decodeScalarSource (bits word1 25 7) pc).toOption.getD {}
          offset := (word1.setWidth 21).signExtend 32
          dataDwords := if opcode = .unsupported then 1 else 2 ^ (bits word 18 8 % 8) }

/-! ## The program -/

inductive Family
  | vop2 | sop1 | sopc | sopp | sopk | sop2 | vintrp | vop3p | vop3 | ds | flat | mubuf | mtbuf
  | mimg | smem | exp
  deriving DecidableEq, Repr

def familyOf (word : Word) : Option Family :=
  if bits word 31 1 = 0 then some .vop2
  else if bits word 30 2 = 2 then match bits word 23 7 with
    | 0x7d => some .sop1
    | 0x7e => some .sopc
    | 0x7f => some .sopp
    | opcode => some (if 0x60 ≤ opcode then .sopk else .sop2)
  else match bits word 26 6 with
    | 0x32 => some .vintrp
    | 0x33 => some .vop3p
    | 0x35 => some .vop3
    | 0x36 => some .ds
    | 0x37 => some .flat
    | 0x38 => some .mubuf
    | 0x3a => some .mtbuf
    | 0x3c => some .mimg
    | 0x3d => some .smem
    | 0x3e => some .exp
    | _ => none

/-- The decoders of the families that are not followed here. -/
structure FamilyDecoders where
  decode : Family → Word → List Word → ℕ → Except String Instruction
  placed : ∀ family pc code wordIndex inst, decode family pc code wordIndex = .ok inst →
    inst.pc = pc ∧ 0 < inst.wordCount

/-- The address of a word of the code. -/
def pcOf (wordIndex : ℕ) : Word := .ofNat 32 (wordIndex * 4)

def decodeInstruction (families : FamilyDecoders) (code : List Word) (wordIndex : ℕ)
    (word : Word) : Except String Instruction :=
  let pc := pcOf wordIndex
  match familyOf word with
  | some .sop1 => decodeSop1 pc code wordIndex word
  | some .sop2 => decodeSop2 pc code wordIndex word
  | some .sopk => decodeSopk pc word
  | some .sopc => decodeSopc pc code wordIndex word
  | some .sopp => .ok (decodeSopp pc word)
  | some .smem => decodeSmem pc code wordIndex word
  | some family => families.decode family pc code wordIndex
  | none => .error ("unknown RDNA2 instruction family at pc 0x" ++ pc.toHex ++ ", raw=0x" ++
      word.toHex)

def isControlFlowBranch : Opcode → Bool
  | .sBranch | .sCbranchScc0 | .sCbranchScc1 | .sCbranchVccz | .sCbranchVccnz | .sCbranchExecz
  | .sCbranchExecnz => true
  | _ => false

/-- The branch targets after one more instruction. -/
def addBranchTarget (inst : Instruction) (branchTargets : List Word) : List Word :=
  if isControlFlowBranch inst.opcode then inst.branchTarget :: branchTargets else branchTargets

/-- The loop of `decodeProgram`. Every round takes a word, so that there is fuel for each. -/
def decodeFrom (families : FamilyDecoders) (code : List Word) :
    ℕ → ℕ → List Word → Except String (List Instruction)
  | 0, _, _ => .error "shader decode reached the code boundary before S_ENDPGM"
  | fuel + 1, wordIndex, branchTargets => match code[wordIndex]? with
    | none => .error "shader decode reached the code boundary before S_ENDPGM"
    | some word => do
      let inst ← decodeInstruction families code wordIndex word
      let next := wordIndex + inst.wordCount
      let branchTargets := addBranchTarget inst branchTargets
      if inst.opcode = .sEndpgm ∧ (code.length ≤ next ∨ pcOf next ∉ branchTargets) then
        return [inst]
      return inst :: (← decodeFrom families code fuel next branchTargets)

def decodeProgram (families : FamilyDecoders) (code : List Word) :
    Except String (List Instruction) :=
  if code = [] ∨ 0xffffffff / 4 < code.length then .error "invalid shader decoder input"
  else decodeFrom families code code.length 0 []

/-- What is decoded stands at its address and takes at least one word. -/
def Placed (pc : Word) : Except String Instruction → Prop :=
  Ensures (fun _ => True) fun inst => inst.pc = pc ∧ 0 < inst.wordCount

section Placed

variable {pc word : Word} {code : List Word} {wordIndex : ℕ}

theorem placed_ok {inst : Instruction} (hpc : inst.pc = pc) (hpos : 0 < inst.wordCount) :
    Placed pc (.ok inst) :=
  .ok ⟨hpc, hpos⟩

theorem placed_bind {α : Type} {x : Except String α} {f : α → Except String Instruction}
    (h : ∀ a, Placed pc (f a)) : Placed pc (x >>= f) :=
  .bind (fun _ _ => trivial) fun a _ => h a

theorem placed_readLiteralOperands {inst : Instruction} (hpc : inst.pc = pc)
    (hpos : 0 < inst.wordCount) : Placed pc (readLiteralOperands code wordIndex inst) := by
  refine .ite ?_ (placed_ok hpc hpos)
  split
  · exact .error trivial
  · exact placed_ok hpc (Nat.succ_pos _)

theorem placed_decodeBinarySources {inst : Instruction} (hpc : inst.pc = pc)
    (hpos : 0 < inst.wordCount) {ssrc0 ssrc1 : ℕ} :
    Placed pc (decodeBinarySources pc code wordIndex inst ssrc0 ssrc1) :=
  placed_bind fun _ => placed_bind fun _ => placed_readLiteralOperands hpc hpos

theorem placed_decodeSop1 : Placed pc (decodeSop1 pc code wordIndex word) := by
  simp only [decodeSop1]
  split
  · exact placed_ok rfl Nat.one_pos
  · exact placed_bind fun dst => placed_ok rfl Nat.one_pos
  · exact placed_bind fun src0 => placed_readLiteralOperands rfl Nat.one_pos
  · exact placed_bind fun src0 => placed_bind fun dst =>
      placed_readLiteralOperands rfl Nat.one_pos

theorem placed_decodeSop2 : Placed pc (decodeSop2 pc code wordIndex word) := by
  refine .ite (placed_ok rfl Nat.one_pos) (placed_bind fun dst => ?_)
  apply placed_decodeBinarySources
  · rfl
  · exact Nat.one_pos

theorem placed_decodeSopc : Placed pc (decodeSopc pc code wordIndex word) := by
  refine .ite (placed_ok rfl Nat.one_pos) ?_
  apply placed_decodeBinarySources
  · rfl
  · exact Nat.one_pos

theorem placed_decodeSopk : Placed pc (decodeSopk pc word) := by
  refine .ite (placed_ok rfl Nat.one_pos) ?_
  dsimp only
  split
  case h_7 | h_8 => exact placed_bind fun src0 => placed_bind fun dst => placed_ok rfl Nat.one_pos
  case h_1 | h_6 | h_9 => exact placed_bind fun operand => placed_ok rfl Nat.one_pos
  all_goals exact placed_ok rfl Nat.one_pos

theorem placed_decodeInstruction (families : FamilyDecoders) :
    Placed (pcOf wordIndex) (decodeInstruction families code wordIndex word) := by
  simp only [decodeInstruction]
  split
  · exact placed_decodeSop1
  · exact placed_decodeSop2
  · exact placed_decodeSopk
  · exact placed_decodeSopc
  · exact placed_ok rfl Nat.one_pos
  · unfold decodeSmem
    split
    · exact .error trivial
    · exact placed_ok rfl Nat.two_pos
  · cases hfamily : families.decode _ _ code wordIndex with
    | error e => exact .error trivial
    | ok inst => exact .ok (families.placed _ _ _ _ _ hfamily)
  · exact .error trivial

end Placed

end KajPS5.Shader
