/-
# Scalar minimum and maximum

A scalar minimum or maximum also sets SCC to the comparison of its sources. It is lowered to two
instructions: the first writes the destination, the second compares the sources and reads them
again. When the destination is the second source, the comparison sees the result in its place.
-/

import KajPS5.Shader.Decoder

namespace KajPS5.Shader

open Math.Postconditions

inductive RegisterFile
  | scalar | vector | vcc | exec | scc | m0
  deriving DecidableEq, Repr

structure Register where
  file : RegisterFile
  index : ℕ
  deriving DecidableEq, Repr

/-- An operand of the intermediate representation. Scalar operands have no modifiers. -/
inductive IrOperand
  | register (reg : Register)
  | immediateU32 (imm : Word)
  | null
  deriving DecidableEq, Repr

def lowerRegisterOperand (decoded : Operand) : Except String IrOperand :=
  match decoded.kind with
  | .sgpr => .ok (.register ⟨.scalar, decoded.reg⟩)
  | .vgpr => .ok (.register ⟨.vector, decoded.reg⟩)
  | .vccLo => .ok (.register ⟨.vcc, 0⟩)
  | .vccHi => .ok (.register ⟨.vcc, 1⟩)
  | .execLo => .ok (.register ⟨.exec, 0⟩)
  | .execHi => .ok (.register ⟨.exec, 1⟩)
  | .scc | .vccZ | .execZ => .ok (.register ⟨.scc, decoded.kind.ctorIdx⟩)
  | .m0 => .ok (.register ⟨.m0, 0⟩)
  | .null => .ok .null
  | _ => .error "decoded operand cannot be used as an IR register"

def lowerSourceOperand (decoded : Operand) : Except String IrOperand :=
  match decoded.kind with
  | .literalConstant | .integerInlineConstant | .floatInlineConstant =>
    .ok (.immediateU32 decoded.value)
  | .null | .popsExitingWaveId => .ok (.immediateU32 0)
  | _ => lowerRegisterOperand decoded

/-- The instructions that a scalar minimum or maximum is lowered to. -/
inductive IrInstruction
  | minMax (isSigned isMax : Bool) (dst src0 src1 : IrOperand)
  | compareScc (isSigned isMax : Bool) (src0 src1 : IrOperand)
  deriving DecidableEq, Repr

/-- Whether the values are signed and whether the larger one is taken. -/
def minMaxOf : Opcode → Option (Bool × Bool)
  | .sMinI32 => some (true, false)
  | .sMaxI32 => some (true, true)
  | .sMinU32 => some (false, false)
  | .sMaxU32 => some (false, true)
  | _ => none

def lowerScalarMinMaxWithScc (decoded : Instruction) (isSigned isMax : Bool) :
    Except String (List IrInstruction) := do
  let dst ← lowerRegisterOperand decoded.dst
  let src0 ← lowerSourceOperand decoded.src0
  let src1 ← lowerSourceOperand decoded.src1
  return [.minMax isSigned isMax dst src0 src1, .compareScc isSigned isMax src0 src1]

/-! ## Execution -/

/-- What the emitted code knows of the invocation that runs it. -/
structure Invocation where
  waveSize : ℕ
  active : Bool

abbrev Registers := Register → Word

def sccRegister : Register := ⟨.scc, OperandKind.scc.ctorIdx⟩

/-- A wave of 32 has no high half of EXEC: it reads as zero. -/
def isInactiveWave32ExecHigh (invocation : Invocation) (reg : Register) : Bool :=
  invocation.waveSize = 32 ∧ reg = ⟨.exec, 1⟩

/-- The emitted load has no such test. It needs none: in a wave of 32 the variable of the high half
starts with zero, and every store to it stores zero. -/
def valueLoad (invocation : Invocation) (registers : Registers) : IrOperand → Word
  | .register reg => if isInactiveWave32ExecHigh invocation reg then 0 else registers reg
  | .immediateU32 imm => imm
  | .null => 0

/-- Vector registers keep their values in inactive invocations. -/
def storeU32 (invocation : Invocation) (dst : IrOperand) (value : Word) (registers : Registers) :
    Registers := match dst with
  | .register reg =>
    if reg.file = .vector ∧ !invocation.active then registers
    else Function.update registers reg
      (if isInactiveWave32ExecHigh invocation reg then 0 else value)
  | _ => registers

/-- The value of a word, signed or not. -/
def reading (isSigned : Bool) (word : Word) : ℤ := if isSigned then word.toInt else word.toNat

/-- The first value is strictly smaller, or strictly greater for a maximum. -/
def precedes (isSigned isMax : Bool) (lhs rhs : Word) : Bool :=
  if isMax then reading isSigned rhs < reading isSigned lhs
  else reading isSigned lhs < reading isSigned rhs

def extremum (isSigned isMax : Bool) (lhs rhs : Word) : Word :=
  if precedes isSigned isMax lhs rhs then lhs else rhs

def execute (invocation : Invocation) (registers : Registers) : IrInstruction → Registers
  | .minMax isSigned isMax dst src0 src1 =>
    storeU32 invocation dst (extremum isSigned isMax (valueLoad invocation registers src0)
      (valueLoad invocation registers src1)) registers
  | .compareScc isSigned isMax src0 src1 =>
    storeU32 invocation (.register sccRegister)
      (if precedes isSigned isMax (valueLoad invocation registers src0)
        (valueLoad invocation registers src1) then 1 else 0) registers

def run (invocation : Invocation) (registers : Registers) (instructions : List IrInstruction) :
    Registers :=
  instructions.foldl (execute invocation) registers

/-- The destination holds the minimum or maximum of the values that the sources had, and SCC tells
whether the first of them was strictly smaller or greater. -/
def HoldsExtremum (invocation : Invocation) (registers : Registers) (isSigned isMax : Bool)
    (dst src0 src1 : IrOperand) (after : Registers) : Prop :=
  let lhs := valueLoad invocation registers src0
  let rhs := valueLoad invocation registers src1
  (dst ≠ .null → reading isSigned (valueLoad invocation after dst) =
    if isMax then max (reading isSigned lhs) (reading isSigned rhs)
    else min (reading isSigned lhs) (reading isSigned rhs)) ∧
  valueLoad invocation after (.register sccRegister) =
    if precedes isSigned isMax lhs rhs then 1 else 0

/-- A destination that is also the second source does not change the comparison, and what goes to
a register that the wave does not have is zero. -/
def KeepsComparison (invocation : Invocation) (registers : Registers) (isSigned isMax : Bool)
    (dst src0 src1 : IrOperand) : Prop :=
  let lhs := valueLoad invocation registers src0
  let rhs := valueLoad invocation registers src1
  if dst = .register ⟨.exec, 1⟩ ∧ invocation.waveSize = 32 then extremum isSigned isMax lhs rhs = 0
  else dst = src1 → precedes isSigned isMax lhs rhs = false

/-! ## The result -/

theorem flag_inj {p q : Bool} : (if p then 1 else 0 : Word) = (if q then 1 else 0) ↔ p = q := by
  cases p <;> cases q <;> simp

section Extremum

variable (isSigned isMax : Bool) (lhs rhs : Word)

theorem reading_injective (h : reading isSigned lhs = reading isSigned rhs) : lhs = rhs := by
  cases isSigned with
  | true => exact BitVec.eq_of_toInt_eq h
  | false => exact BitVec.eq_of_toNat_eq (Int.ofNat.inj h)

theorem reading_extremum : reading isSigned (extremum isSigned isMax lhs rhs) =
      if isMax then max (reading isSigned lhs) (reading isSigned rhs)
      else min (reading isSigned lhs) (reading isSigned rhs) := by
  cases isMax <;> by_cases h : reading isSigned lhs < reading isSigned rhs <;>
    by_cases h' : reading isSigned rhs < reading isSigned lhs <;>
      simp [extremum, precedes, h, h'] <;> omega

theorem precedes_self : precedes isSigned isMax lhs lhs = false := by
  cases isMax <;> simp [precedes]

/-- The result compares with the second source as the first source does. -/
theorem precedes_extremum : precedes isSigned isMax (extremum isSigned isMax lhs rhs) rhs =
      precedes isSigned isMax lhs rhs := by
  cases h : precedes isSigned isMax lhs rhs with
  | true => simp [extremum, h]
  | false => simp [extremum, h, precedes_self]

theorem not_precedes_extremum :
    precedes isSigned isMax lhs (extremum isSigned isMax lhs rhs) = false := by
  cases h : precedes isSigned isMax lhs rhs with
  | true => simp [extremum, h, precedes_self]
  | false => simp [extremum, h]

variable {p0 p1 : Prop} [Decidable p0] [Decidable p1]

/-- What the comparison sees once the result stands in the place of some of the sources. -/
theorem precedes_rewritten_iff :
    precedes isSigned isMax (if p0 then extremum isSigned isMax lhs rhs else lhs)
        (if p1 then extremum isSigned isMax lhs rhs else rhs) = precedes isSigned isMax lhs rhs ↔
      (p1 → precedes isSigned isMax lhs rhs = false) := by
  by_cases h1 : p1 <;> by_cases h0 : p0
  · simp [h0, h1, precedes_self]
  · simp only [h0, h1, if_true, if_false, not_precedes_extremum, forall_const]
    exact eq_comm
  · simp [h0, h1, precedes_extremum]
  · simp [h0, h1]

end Extremum

section Run

variable {invocation : Invocation} {registers : Registers} {isSigned isMax : Bool} {reg : Register}
  {src0 src1 : IrOperand}

theorem valueLoad_storeU32 (hvector : reg.file ≠ .vector) (value : Word) (src : IrOperand) :
    valueLoad invocation (storeU32 invocation (.register reg) value registers) src =
      if .register reg = src then if isInactiveWave32ExecHigh invocation reg then 0 else value
      else valueLoad invocation registers src := by
  cases src with
  | register other =>
    by_cases h : other = reg
    · subst h
      cases hwave : isInactiveWave32ExecHigh invocation other <;>
        simp [valueLoad, storeU32, hvector, hwave]
    · simp [valueLoad, storeU32, hvector, Function.update_of_ne h, Ne.symm h]
  | immediateU32 imm => rfl
  | null => rfl

theorem valueLoad_storeScc (value : Word) (src : IrOperand) :
    valueLoad invocation (storeU32 invocation (.register sccRegister) value registers) src =
      if .register sccRegister = src then value else valueLoad invocation registers src := by
  have hwave : isInactiveWave32ExecHigh invocation sccRegister = false := by
    simp [isInactiveWave32ExecHigh, sccRegister]
  simp [valueLoad_storeU32 (show sccRegister.file ≠ .vector by decide), hwave]

theorem holdsExtremum_iff (hvector : reg.file ≠ .vector) (hscc : reg.file ≠ .scc) :
    HoldsExtremum invocation registers isSigned isMax (.register reg) src0 src1
        (run invocation registers [.minMax isSigned isMax (.register reg) src0 src1,
          .compareScc isSigned isMax src0 src1]) ↔
      KeepsComparison invocation registers isSigned isMax (.register reg) src0 src1 := by
  have hne : sccRegister ≠ reg := fun h => hscc (h ▸ rfl)
  have hlacks : (reg = ⟨.exec, 1⟩ ∧ invocation.waveSize = 32) ↔
      isInactiveWave32ExecHigh invocation reg = true := by
    simp [isInactiveWave32ExecHigh, and_comm]
  simp only [HoldsExtremum, KeepsComparison, run, List.foldl_cons, List.foldl_nil, execute,
    valueLoad_storeScc, valueLoad_storeU32 hvector, IrOperand.register.injEq, hne, hlacks, if_true,
    if_false, flag_inj, ← reading_extremum, ne_eq, reduceCtorEq, not_false_eq_true, forall_const]
  cases hreg : isInactiveWave32ExecHigh invocation reg with
  | true =>
    -- the register read as zero before, and it still does
    have hload : ∀ src, (if .register reg = src then 0 else valueLoad invocation registers src) =
        valueLoad invocation registers src := by
      intro src
      split_ifs with h
      · rw [← h, valueLoad, if_pos hreg]
      · rfl
    simp only [if_true, hload, and_true]
    exact ⟨fun h => (reading_injective _ _ _ h).symm, fun h => by rw [h]⟩
  | false =>
    simp only [Bool.false_eq_true, if_false, true_and]
    exact precedes_rewritten_iff _ _ _ _

/-- Without a destination only SCC is written. -/
theorem holdsExtremum_null_iff (hnull : src1 ≠ .null) :
    HoldsExtremum invocation registers isSigned isMax .null src0 src1
        (run invocation registers [.minMax isSigned isMax .null src0 src1,
          .compareScc isSigned isMax src0 src1]) ↔
      KeepsComparison invocation registers isSigned isMax .null src0 src1 := by
  have hstore : ∀ value, storeU32 invocation .null value registers = registers := fun _ => rfl
  simp [HoldsExtremum, KeepsComparison, run, execute, hstore, valueLoad_storeScc, hnull.symm]

end Run

/-! ## Decoded instructions -/

variable {pc : Word} {code wordIndex : ℕ} {src : Operand} {inst : Instruction}

theorem lowered_destination {dst : Operand} (h : decodeScalarDestination code pc = .ok dst) :
    lowerRegisterOperand dst = .ok .null ∨ ∃ reg, lowerRegisterOperand dst = .ok (.register reg) ∧
      reg.file ≠ .vector ∧ reg.file ≠ .scc := by
  unfold decodeScalarDestination at h
  split at h
  · cases h
    exact .inr ⟨_, rfl, by simp⟩
  split at h <;> cases h
  case h_4 => exact .inl rfl
  all_goals exact .inr ⟨_, rfl, by simp⟩

theorem kind_ne_unknown (h : decodeScalarSource code pc = .ok src) : src.kind ≠ .unknown := by
  unfold decodeScalarSource at h
  split_ifs at h <;> try (cases h; simp)
  split at h <;> cases h <;> simp

theorem exists_lowerSourceOperand (h : src.kind ≠ .unknown) :
    ∃ lowered, lowerSourceOperand src = .ok lowered ∧ lowered ≠ .null := by
  cases hkind : src.kind <;> simp [lowerSourceOperand, lowerRegisterOperand, hkind] at h ⊢

theorem applyLiteral_kind (literal : Word) (operand : Operand) :
    (applyLiteral literal operand).kind = operand.kind := by
  unfold applyLiteral
  split_ifs <;> rfl

theorem readLiteralOperands_kinds {code : List Word} {inst' : Instruction}
    (h : readLiteralOperands code wordIndex inst = .ok inst') :
    inst'.dst = inst.dst ∧ inst'.src0.kind = inst.src0.kind ∧ inst'.src1.kind = inst.src1.kind := by
  unfold readLiteralOperands at h
  split at h
  · split at h <;> cases h
    exact ⟨rfl, applyLiteral_kind _ _, applyLiteral_kind _ _⟩
  cases h
  exact ⟨rfl, rfl, rfl⟩

theorem operands_of_decodeSop2 {code : List Word} {word : Word}
    (h : decodeSop2 pc code wordIndex word = .ok inst) (hop : inst.opcode ≠ .unsupported) :
    decodeScalarDestination (bits word 16 7) pc = .ok inst.dst ∧ inst.src0.kind ≠ .unknown ∧
      inst.src1.kind ≠ .unknown := by
  simp only [decodeSop2] at h
  split at h
  next hunsupported =>
    cases h
    exact absurd hunsupported hop
  obtain ⟨dst, hdst, h⟩ := exists_of_bind_eq_ok h
  obtain ⟨src0, hsrc0, h⟩ := exists_of_bind_eq_ok h
  obtain ⟨src1, hsrc1, h⟩ := exists_of_bind_eq_ok h
  obtain ⟨rfl, hkind0, hkind1⟩ := readLiteralOperands_kinds h
  exact ⟨hdst, hkind0.trans_ne (kind_ne_unknown hsrc0), hkind1.trans_ne (kind_ne_unknown hsrc1)⟩

/-- A scalar minimum or maximum gives the result and the comparison of its original sources
exactly when its destination is not a second source that the first one precedes. -/
theorem lowered_holdsExtremum_iff {pc : Word} {code : List Word} {wordIndex : ℕ} {word : Word}
    {inst : Instruction} {isSigned isMax : Bool}
    (hdecode : decodeSop2 pc code wordIndex word = .ok inst)
    (hop : minMaxOf inst.opcode = some (isSigned, isMax)) (invocation : Invocation)
    (registers : Registers) :
    ∃ dst src0 src1 lowered, lowerRegisterOperand inst.dst = .ok dst ∧
      lowerSourceOperand inst.src0 = .ok src0 ∧ lowerSourceOperand inst.src1 = .ok src1 ∧
      lowerScalarMinMaxWithScc inst isSigned isMax = .ok lowered ∧
      (HoldsExtremum invocation registers isSigned isMax dst src0 src1
          (run invocation registers lowered) ↔
        KeepsComparison invocation registers isSigned isMax dst src0 src1) := by
  have hsupported : inst.opcode ≠ .unsupported := by
    intro h
    rw [h] at hop
    cases hop
  obtain ⟨hdst, hkind0, hkind1⟩ := operands_of_decodeSop2 hdecode hsupported
  obtain ⟨src0, h0, -⟩ := exists_lowerSourceOperand hkind0
  obtain ⟨src1, h1, hnull⟩ := exists_lowerSourceOperand hkind1
  have hlower : ∀ dst, lowerRegisterOperand inst.dst = .ok dst →
      lowerScalarMinMaxWithScc inst isSigned isMax =
        .ok [.minMax isSigned isMax dst src0 src1, .compareScc isSigned isMax src0 src1] := by
    intro dst h
    rw [lowerScalarMinMaxWithScc, h, h0, h1]
    rfl
  rcases lowered_destination hdst with h | ⟨reg, h, hvector, hscc⟩
  · exact ⟨_, _, _, _, h, h0, h1, hlower _ h, holdsExtremum_null_iff hnull⟩
  · exact ⟨_, _, _, _, h, h0, h1, hlower _ h, holdsExtremum_iff hvector hscc⟩

/-- The instruction `s_min_u32 s2, s0, s1`. -/
def minOfDistinct : Instruction where
  pc := 0
  opcode := .sMinU32
  dst := ⟨.sgpr, 0, 0, 2⟩
  src0 := ⟨.sgpr, 0, 0, 0⟩
  src1 := ⟨.sgpr, 0, 0, 1⟩

theorem lowered_holdsExtremum_iff_distinct :
    ∃ dst src0 src1 lowered, lowerRegisterOperand minOfDistinct.dst = .ok dst ∧
      lowerSourceOperand minOfDistinct.src0 = .ok src0 ∧
      lowerSourceOperand minOfDistinct.src1 = .ok src1 ∧
      lowerScalarMinMaxWithScc minOfDistinct false false = .ok lowered ∧
      (HoldsExtremum ⟨64, true⟩ (fun _ => 0) false false dst src0 src1
          (run ⟨64, true⟩ (fun _ => 0) lowered) ↔
        KeepsComparison ⟨64, true⟩ (fun _ => 0) false false dst src0 src1) :=
  have h : decodeSop2 0 [] 0 0x83820100 = .ok minOfDistinct := rfl
  lowered_holdsExtremum_iff h rfl _ _

/-- The registers `s0 = 7` and `s1 = 3`. -/
def sevenAndThree : Registers := fun reg =>
  if reg = ⟨.scalar, 0⟩ then 7 else if reg = ⟨.scalar, 1⟩ then 3 else 0

/-- The instruction `s_min_u32 s0, s1, s0` leaves 3 in `s0` and does not set SCC, although `s1`
was smaller. -/
theorem min_into_second_source_clears_scc :
    ∃ inst lowered, decodeSop2 0 [0x83800001] 0 0x83800001 = .ok inst ∧
      lowerScalarMinMaxWithScc inst false false = .ok lowered ∧
      ¬ HoldsExtremum ⟨64, true⟩ sevenAndThree false false (.register ⟨.scalar, 0⟩)
        (.register ⟨.scalar, 1⟩) (.register ⟨.scalar, 0⟩)
        (run ⟨64, true⟩ sevenAndThree lowered) := by
  refine ⟨_, _, rfl, rfl, ?_⟩
  rintro ⟨-, h⟩
  revert h
  decide

end KajPS5.Shader
