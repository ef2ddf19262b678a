/-
# Jump tables

An `S_SETPC_B64` may jump through a table in the code. The resolver recognises the instructions
that compute the jump, finds the address of the table and the bound of its index by searching
backwards, and reads two words of the code for each entry. The sizes are added up in 32 bits, so
a table that is large enough seems to fit.
-/

import KajPS5.Shader.DecodedTargets

namespace KajPS5.Shader

/-- A decoded program together with its code. -/
structure Program where
  code : List Word
  instructions : List Instruction
  fits : code.length ≤ 0xffffffff / 4

variable (operand : Operand)

def scalarOperandCode : Option ℕ :=
  match operand.kind with
  | .sgpr => some operand.reg
  | .vccLo => some 106
  | .vccHi => some 107
  | .m0 => some 124
  | .execLo => some 126
  | .execHi => some 127
  | _ => none

def isScalarCode (code : ℕ) : Bool := scalarOperandCode operand = some code

def immediate : Option Word :=
  match operand.kind with
  | .integerInlineConstant | .literalConstant | .floatInlineConstant => some operand.value
  | _ => none

def immediateSigned : Option Word :=
  match operand.kind with
  | .integerInlineConstant | .literalConstant => some operand.signedVal
  | .floatInlineConstant => some operand.value
  | _ => none

def otherScalarSource (inst : Instruction) (knownCode : ℕ) : Option Operand :=
  if isScalarCode inst.src0 knownCode then some inst.src1
  else if isScalarCode inst.src1 knownCode then some inst.src0
  else none

def instructionWritesScalarCode (inst : Instruction) (code : ℕ) : Bool :=
  match scalarOperandCode inst.dst with
  | none => false
  | some dst => dst ≤ code ∧ code < dst + max 1 inst.dataDwords

namespace Program

variable (program : Program)

/-- The last instruction in front of an index with a property, and its index. -/
def lastBefore (p : Instruction → Bool) : ℕ → Option (ℕ × Instruction)
  | 0 => none
  | index + 1 => match program.instructions[index]? with
    | none => lastBefore p index
    | some inst => if p inst then some (index, inst) else lastBefore p index

def lastWriter (code before : ℕ) : Option (ℕ × Instruction) :=
  program.lastBefore (instructionWritesScalarCode · code) before

def isGetpc (inst : Instruction) (dst : ℕ) : Bool :=
  inst.opcode = .sGetpcB64 ∧ isScalarCode inst.dst dst

def findPreviousGetpc (before dst : ℕ) : Option Instruction := do
  let (_, candidate) ← program.lastBefore
    (fun inst => isGetpc inst dst || instructionWritesScalarCode inst dst) before
  if isGetpc candidate dst then some candidate else none

def resolvePcRelativeBase (before base : ℕ) : Option {pc : Word // pc &&& 3 = 0} := do
  let (index, candidate) ← program.lastWriter base before
  let adds := candidate.opcode = .sAddU32 ∨ candidate.opcode = .sAddI32
  let subs := candidate.opcode = .sSubU32 ∨ candidate.opcode = .sSubI32
  if ¬adds ∧ ¬subs then none else
  let imm ← immediateSigned (← otherScalarSource candidate base)
  let getpc ← program.findPreviousGetpc index base
  let pc := instructionEndPc getpc
  return ⟨(if adds then pc + imm else pc - imm) &&& ~~~3, by
    rw [BitVec.and_assoc]
    exact BitVec.and_zero⟩

def findPreviousScalarLoadPair (before dst : ℕ) : Option (ℕ × Instruction) := do
  let (index, candidate) ← program.lastWriter dst before
  if candidate.opcode = .sLoadDwordx2 ∧ isScalarCode candidate.dst dst then some (index, candidate)
  else none

/-- The bound of the clamp that the index goes through before it is scaled to a byte offset. The
count of the entries is one more, in 32 bits, and a count of zero is refused. -/
def jumpTableBound (before : ℕ) (byteOffset : Operand) :
    Option {maxIndex : Word // maxIndex + 1 ≠ 0} := do
  let code ← scalarOperandCode byteOffset
  let (index, shift) ← program.lastWriter code before
  if shift.opcode ≠ .sLshlB32 ∨ ¬isScalarCode shift.dst code then none else
  if (← immediate (← otherScalarSource shift code)) ≠ 3 then none else
  let (_, clamp) ← program.lastWriter code index
  if clamp.opcode ≠ .sMinU32 ∨ ¬isScalarCode clamp.dst code then none else
  let maxIndex ← immediate (← otherScalarSource clamp code)
  if h : maxIndex + 1 = 0 then none else some ⟨maxIndex, h⟩

def scalarCodeWrittenInRange (first last code : ℕ) : Bool :=
  ((program.instructions.take last).drop first).any (instructionWritesScalarCode · code)

end Program

/-- What resolving can end with. It may read behind the code. -/
inductive Resolution (α : Type)
  | refused
  | outOfBounds
  | resolved (result : α)

def Resolution.map {α β : Type} (f : α → β) : Resolution α → Resolution β
  | .refused => .refused
  | .outOfBounds => .outOfBounds
  | .resolved result => .resolved (f result)

/-- A recognised jump, before its table is read. -/
structure JumpTable where
  (pcSgpr selectorCode : ℕ)
  (tableLoadPc targetBase : Word)
  tablePc : {pc : Word // pc &&& 3 = 0}
  maxIndex : {maxIndex : Word // maxIndex + 1 ≠ 0}

namespace JumpTable

def tableWord (table : JumpTable) : Word := table.tablePc.1 / 4

def entryCount (table : JumpTable) : Word := table.maxIndex.1 + 1

/-- The two words of an entry, where the code has them. -/
def entryAt (table : JumpTable) (code : List Word) (i : ℕ) : Option (Word × Word) := do
  let low ← code[(table.tableWord + .ofNat 32 (i * 2)).toNat]?
  let high ← code[(table.tableWord + .ofNat 32 (i * 2) + 1).toNat]?
  return (low, high)

/-- The high word of an entry is a sign extension. -/
def isOffset (entry : Word × Word) : Bool := entry.2 = 0 ∨ entry.2 = 0xffffffff

/-- The loop that reads the entries: the addresses they jump to. -/
def readEntries (table : JumpTable) (code : List Word) : ℕ → ℕ → Resolution (List Word)
  | 0, _ => .resolved []
  | remaining + 1, i => match table.entryAt code i with
    | none => .outOfBounds
    | some entry =>
      if !isOffset entry then .refused
      else (readEntries table code remaining (i + 1)).map
        (((table.targetBase + entry.1) &&& ~~~3) :: ·)

end JumpTable

structure SetpcTargetInfo where
  (pcSgpr selectorCode : ℕ)
  tableLoadPc : Word
  (targetPcs selectorValues selectorTargetPcs : List Word)

def addUniqueTargetPc (targets : List Word) (target : Word) : List Word :=
  if targets.contains target then targets else targets ++ [target]

/-- What is recorded of the jump and of the addresses that its entries go to. -/
def JumpTable.targetInfo (table : JumpTable) (pcs : List Word) : SetpcTargetInfo where
  pcSgpr := table.pcSgpr
  selectorCode := table.selectorCode
  tableLoadPc := table.tableLoadPc
  targetPcs := pcs.foldl addUniqueTargetPc []
  selectorValues := (List.range pcs.length).map fun i => .ofNat 32 (i * 8)
  selectorTargetPcs := pcs

namespace Program

variable (program : Program)

/-- The checks of `resolveSetpcJumpTable` in front of the size of the table. -/
def recognizeJumpTable (setpcIndex : ℕ) : Option JumpTable := do
  if setpcIndex < 4 then none else
  let setpc ← program.instructions[setpcIndex]?
  let pcReg ← scalarOperandCode setpc.src0
  if setpc.opcode ≠ .sSetpcB64 ∨ setpc.src0.kind ≠ .sgpr then none else
  let getpc ← program.instructions[setpcIndex - 3]?
  let add ← program.instructions[setpcIndex - 2]?
  let addc ← program.instructions[setpcIndex - 1]?
  if ¬isGetpc getpc pcReg ∨ add.opcode ≠ .sAddU32 ∨ ¬isScalarCode add.dst pcReg ∨
    addc.opcode ≠ .sAddcU32 ∨ ¬isScalarCode addc.dst (pcReg + 1) then none else
  let offsetLow ← scalarOperandCode (← otherScalarSource add pcReg)
  let offsetHigh ← scalarOperandCode (← otherScalarSource addc (pcReg + 1))
  if offsetHigh ≠ offsetLow + 1 then none else
  let (loadIndex, load) ← program.findPreviousScalarLoadPair (setpcIndex - 3) offsetLow
  let tablePc ← program.resolvePcRelativeBase loadIndex (← scalarOperandCode load.src0)
  let maxIndex ← program.jumpTableBound loadIndex load.src1
  let selectorCode ← scalarOperandCode load.src1
  if program.scalarCodeWrittenInRange (loadIndex + 1) setpcIndex selectorCode then none else
  return { pcSgpr := pcReg, selectorCode, tableLoadPc := load.pc,
           targetBase := instructionEndPc getpc, tablePc, maxIndex }

def resolveSetpcJumpTable (setpcIndex : ℕ) : Resolution SetpcTargetInfo :=
  match program.recognizeJumpTable setpcIndex with
  | none => .refused
  | some table =>
    if table.tablePc.1 &&& 3 ≠ 0 ∨
      program.code.length < (table.tableWord + table.entryCount * 2).toNat then .refused
    -- the source's test for no targets never holds, as the count is not zero
    else (table.readEntries program.code table.entryCount.toNat 0).map table.targetInfo

end Program

/-! ## The reads -/

@[simp]
theorem Resolution.map_eq_outOfBounds_iff {α β : Type} {f : α → β} {r : Resolution α} :
    r.map f = .outOfBounds ↔ r = .outOfBounds := by
  cases r <;> simp [Resolution.map]

namespace JumpTable

variable {table : JumpTable} {code : List Word}

variable {i remaining : ℕ}

/-- Reading leaves the code at the first entry that the code does not have, if the entries in
front of it are offsets. -/
theorem readEntries_eq_outOfBounds_iff : table.readEntries code remaining i = .outOfBounds ↔
      ∃ j, i ≤ j ∧ j < i + remaining ∧ table.entryAt code j = none ∧
        ∀ k, i ≤ k → k < j → (table.entryAt code k).any isOffset = true := by
  induction remaining generalizing i with
  | zero =>
    simp only [readEntries, reduceCtorEq, false_iff]
    omega
  | succ remaining ih =>
    rw [readEntries]
    cases hentry : table.entryAt code i with
    | none => exact iff_of_true rfl ⟨i, by omega, by omega, hentry, fun k _ _ => by omega⟩
    | some entry =>
      have hstep : ∀ j, i ≤ j → table.entryAt code j = none → i < j := by
        intro j hle hnone
        refine Nat.lt_of_le_of_ne hle ?_
        rintro rfl
        exact absurd (hnone.symm.trans hentry) (by simp)
      cases hoff : isOffset entry with
      | false =>
        simp only [hoff, Bool.not_false, if_true, reduceCtorEq, false_iff]
        rintro ⟨j, hle, -, hnone, hall⟩
        have hfirst := hall i (Nat.le_refl i) (hstep j hle hnone)
        rw [hentry, Option.any_some, hoff] at hfirst
        cases hfirst
      | true =>
        simp only [hoff, Bool.not_true, Bool.false_eq_true, if_false,
          Resolution.map_eq_outOfBounds_iff, ih]
        constructor
        · rintro ⟨j, hle, hlt, hnone, hall⟩
          refine ⟨j, by omega, by omega, hnone, fun k hk hkj => ?_⟩
          rcases Nat.eq_or_lt_of_le hk with rfl | hk
          · rw [hentry, Option.any_some, hoff]
          · exact hall k hk hkj
        · rintro ⟨j, hle, hlt, hnone, hall⟩
          exact ⟨j, hstep j hle hnone, by omega, hnone, fun k hk => hall k (by omega)⟩

theorem length_of_readEntries {pcs : List Word}
    (h : table.readEntries code remaining i = .resolved pcs) : pcs.length = remaining := by
  induction remaining generalizing i pcs with
  | zero =>
    cases h
    rfl
  | succ remaining ih =>
    rw [readEntries] at h
    split at h
    · cases h
    next entry hentry =>
      split_ifs at h
      cases hrest : table.readEntries code remaining (i + 1) with
      | refused | outOfBounds =>
        rw [hrest] at h
        cases h
      | resolved rest =>
        rw [hrest] at h
        cases h
        rw [List.length_cons, ih hrest]

variable (table)

/-- Where the table starts, in words. -/
def wordStart : ℕ := table.tablePc.1.toNat / 4

/-- Where the table would end if words had no limit. -/
def wordEnd : ℕ := table.wordStart + (table.maxIndex.1.toNat + 1) * 2

/-- The code has an entry of the table that is no offset. -/
def Broken (code : List Word) : Prop :=
  ∃ i, table.wordStart + i * 2 + 1 < code.length ∧ (table.entryAt code i).any isOffset = false

theorem toNat_entryCount : table.entryCount.toNat = table.maxIndex.1.toNat + 1 := by
  have hne : (table.maxIndex.1 + 1).toNat ≠ 0 := fun h => table.maxIndex.2 (BitVec.eq_of_toNat_eq h)
  have hone : (1 : Word).toNat = 1 := rfl
  rw [BitVec.toNat_add] at hne
  rw [entryCount, BitVec.toNat_add]
  omega

variable {table}

theorem entryAt_eq_none_iff (h : table.wordStart + i * 2 + 1 < 2 ^ 32) :
    table.entryAt code i = none ↔ code.length ≤ table.wordStart + i * 2 + 1 := by
  have hstart : table.tableWord.toNat = table.wordStart := by rfl
  have hlow : (table.tableWord + .ofNat 32 (i * 2)).toNat = table.wordStart + i * 2 := by
    rw [BitVec.toNat_add, BitVec.toNat_ofNat]
    omega
  have hhigh : (table.tableWord + .ofNat 32 (i * 2) + 1).toNat = table.wordStart + i * 2 + 1 := by
    rw [BitVec.toNat_add, show (1 : Word).toNat = 1 from rfl]
    omega
  rw [entryAt, hlow, hhigh]
  constructor
  · intro hnone
    by_contra hlt
    rw [List.getElem?_eq_getElem (by omega), List.getElem?_eq_getElem (by omega)] at hnone
    cases hnone
  · intro hle
    rw [List.getElem?_eq_none hle]
    cases code[table.wordStart + i * 2]? <;> rfl

end JumpTable

/-! ## The resolver -/

namespace Program

variable (program : Program)

/-- Resolving reads no word that the code does not have, and what it resolves has one entry more
than the bound of the clamp. -/
def ReadsInside (setpcIndex : ℕ) : Prop :=
  program.resolveSetpcJumpTable setpcIndex ≠ .outOfBounds ∧
    ∀ info, program.resolveSetpcJumpTable setpcIndex = .resolved info →
      ∃ table, program.recognizeJumpTable setpcIndex = some table ∧
        info.selectorTargetPcs.length = table.maxIndex.1.toNat + 1 ∧
        info.selectorValues.length = table.maxIndex.1.toNat + 1

/-- The end of a recognised table is a word number of 32 bits, or too large even without its
upper bits, or an entry in the code gives the table away. -/
def TableBounded (setpcIndex : ℕ) : Prop :=
  ∀ table, program.recognizeJumpTable setpcIndex = some table →
    table.wordEnd < 2 ^ 32 ∨ program.code.length < table.wordEnd % 2 ^ 32 ∨
      table.Broken program.code

variable {program} {table : JumpTable}

theorem toNat_tableEnd (table : JumpTable) :
    (table.tableWord + table.entryCount * 2).toNat = table.wordEnd % 2 ^ 32 := by
  rw [BitVec.toNat_add, BitVec.toNat_mul, table.toNat_entryCount, Nat.add_mod_mod]
  rfl

/-- A table that seems to fit is left exactly when it does not fit and nothing gives it away. -/
theorem readEntries_leaves_iff (hend : table.wordEnd % 2 ^ 32 ≤ program.code.length) :
    table.readEntries program.code table.entryCount.toNat 0 = .outOfBounds ↔
      2 ^ 32 ≤ table.wordEnd ∧ ¬table.Broken program.code := by
  have hfits := program.fits
  have hstart : table.wordStart < 2 ^ 30 := by
    rw [JumpTable.wordStart]
    omega
  rw [JumpTable.readEntries_eq_outOfBounds_iff, table.toNat_entryCount]
  rw [JumpTable.wordEnd] at hend ⊢
  constructor
  · rintro ⟨j, -, hj, hnone, hall⟩
    constructor
    · by_contra hlt
      rw [JumpTable.entryAt_eq_none_iff (by omega)] at hnone
      omega
    · rintro ⟨i, hi, hbroken⟩
      rcases Nat.lt_or_ge i j with hlt | hge
      · cases (hall i (Nat.zero_le i) hlt).symm.trans hbroken
      · rw [JumpTable.entryAt_eq_none_iff (by omega)] at hnone
        omega
  · rintro ⟨hlarge, hwhole⟩
    -- the first entry that does not lie in the code with both words
    refine ⟨(program.code.length - table.wordStart) / 2, Nat.zero_le _, by omega, ?_,
      fun k _ hk => ?_⟩
    · rw [JumpTable.entryAt_eq_none_iff (by omega)]
      omega
    · by_contra hnot
      exact hwhole ⟨k, by omega, Bool.eq_false_iff.mpr hnot⟩

/-- Resolving stays in the code and counts the entries right exactly when the end of the table
is not cut off. -/
theorem readsInside_iff_tableBounded (program : Program) (setpcIndex : ℕ) :
    program.ReadsInside setpcIndex ↔ program.TableBounded setpcIndex := by
  rw [ReadsInside, TableBounded, resolveSetpcJumpTable]
  cases htable : program.recognizeJumpTable setpcIndex with
  | none => simp
  | some table =>
    simp only [table.tablePc.2, ne_eq, not_true_eq_false, false_or, toNat_tableEnd,
      Option.some.injEq, forall_eq']
    split
    next hcut => exact iff_of_true (by simp) (.inr (.inl hcut))
    next hcut =>
      have hcounts : ∀ info, (table.readEntries program.code table.entryCount.toNat 0).map
          table.targetInfo = .resolved info →
          ∃ other, table = other ∧ info.selectorTargetPcs.length = other.maxIndex.1.toNat + 1 ∧
            info.selectorValues.length = other.maxIndex.1.toNat + 1 := by
        intro info hinfo
        cases hread : table.readEntries program.code table.entryCount.toNat 0 with
        | refused | outOfBounds =>
          rw [hread] at hinfo
          cases hinfo
        | resolved pcs =>
          rw [hread] at hinfo
          cases hinfo
          have hlength := JumpTable.length_of_readEntries hread
          rw [table.toNat_entryCount] at hlength
          exact ⟨table, rfl, hlength, by simp [JumpTable.targetInfo, hlength]⟩
      rw [and_iff_left hcounts, Resolution.map_eq_outOfBounds_iff,
        readEntries_leaves_iff (Nat.not_lt.mp hcut), not_and_or, not_not, Nat.not_le,
        or_iff_right hcut]

/-- `s_min_u32 s0, s0, 0x7fffffff` makes the count 2 ^ 31, and twice that is zero in 32 bits. The
table is said to start right behind the code. -/
def largeTable : List Word :=
  [0x8380ff00, 0x7fffffff, 0x8f008300, 0xbe821f00, 0x8002a002, 0xf4040101, 0, 0xbe861f00,
    0x80060406, 0x82070507, 0xbe802006, 0xbf810000]

theorem largeTable_read_behind :
    ∃ instructions, decodeProgram scalarFamilies largeTable = .ok instructions ∧
      ¬ReadsInside ⟨largeTable, instructions, by decide⟩ 8 :=
  ⟨_, rfl, fun h => h.1 rfl⟩

end Program

end KajPS5.Shader
