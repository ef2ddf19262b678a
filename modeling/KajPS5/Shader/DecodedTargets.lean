/-
# Decoded branch targets

Decoding ends at an `S_ENDPGM` unless a branch in front of it goes to the very next word. The
listing is what decoding in a row gives without that stop: its addresses are the boundaries
between instructions. A branch over an `S_ENDPGM` to a later boundary keeps decoding going only
if some branch in front also goes to the boundary right behind the `S_ENDPGM`.
-/

import KajPS5.Shader.Decoder

namespace KajPS5.Shader

open Math.Postconditions List

/-- The instructions in a row, up to the first that cannot be decoded. -/
def listing (families : FamilyDecoders) (code : List Word) : ℕ → ℕ → List Instruction
  | 0, _ => []
  | fuel + 1, wordIndex => match code[wordIndex]? with
    | none => []
    | some word => match decodeInstruction families code wordIndex word with
      | .error _ => []
      | .ok inst => inst :: listing families code fuel (wordIndex + inst.wordCount)

def instructionEndPc (inst : Instruction) : Word := inst.pc + .ofNat 32 (inst.wordCount * 4)

def programEndPc (instructions : List Instruction) : Word :=
  (instructions.getLast?.map instructionEndPc).getD 0

/-- Where the branches among the instructions go. -/
def branchTargets (instructions : List Instruction) : List Word :=
  (instructions.filter fun inst => isControlFlowBranch inst.opcode).map Instruction.branchTarget

/-- A decoded branch to a boundary of the listing goes to a decoded instruction or to the end of
the decoded program. -/
def TargetsDecoded (listed instructions : List Instruction) : Prop :=
  ∀ target ∈ branchTargets instructions, target ∈ listed.map Instruction.pc →
    target ∈ instructions.map Instruction.pc ∨ target = programEndPc instructions

/-- An `S_ENDPGM` that a branch in front of it jumps over is followed by the target of a branch
in front of it. This is asked as far as the same branches lead past every earlier `S_ENDPGM`. -/
def EndsCovered (listed : List Instruction) : Prop :=
  ∀ front last rest, listed = front ++ last :: rest → last.opcode = .sEndpgm →
    (∀ front' last' rest', front = front' ++ last' :: rest' → last'.opcode = .sEndpgm →
      instructionEndPc last' ∈ branchTargets front') →
    (∃ target ∈ branchTargets front, target ∈ rest.map Instruction.pc) →
    instructionEndPc last ∈ branchTargets front

section Listing

variable {families : FamilyDecoders} {code : List Word}

variable {wordIndex fuel : ℕ} {inst : Instruction} {targets : List Word}

theorem instructionEndPc_of_decodeInstruction {word : Word}
    (h : decodeInstruction families code wordIndex word = .ok inst) :
    instructionEndPc inst = pcOf (wordIndex + inst.wordCount) := by
  rw [instructionEndPc, ((placed_decodeInstruction _).of_ok h).1, pcOf, pcOf, Nat.add_mul,
    BitVec.ofNat_add]

theorem listing_of_length_le (h : code.length ≤ wordIndex) (fuel : ℕ) :
    listing families code fuel wordIndex = [] := by
  cases fuel with
  | zero => rfl
  | succ fuel => rw [listing, getElem?_eq_none h]

theorem exists_index_of_mem_listing (h : inst ∈ listing families code fuel wordIndex) :
    ∃ index, wordIndex ≤ index ∧ index < code.length ∧ inst.pc = pcOf index := by
  induction fuel generalizing wordIndex with
  | zero => cases h
  | succ fuel ih =>
    rw [listing] at h
    split at h
    · cases h
    next word hword =>
      split at h
      · cases h
      next first hfirst =>
        have hplaced := (placed_decodeInstruction families).of_ok hfirst
        rcases mem_cons.mp h with rfl | hrest
        · exact ⟨wordIndex, Nat.le_refl _, (List.getElem?_eq_some_iff.mp hword).1, hplaced.1⟩
        · obtain ⟨index, hle, hlt, hpc⟩ := ih hrest
          exact ⟨index, by omega, hlt, hpc⟩

theorem nodup_listing (hlen : code.length ≤ 0xffffffff / 4) (fuel wordIndex : ℕ) :
    ((listing families code fuel wordIndex).map Instruction.pc).Nodup := by
  induction fuel generalizing wordIndex with
  | zero => exact nodup_nil
  | succ fuel ih =>
    rw [listing]
    split
    · exact nodup_nil
    next word hword =>
      split
      · exact nodup_nil
      next first hfirst =>
        refine nodup_cons.mpr ⟨fun hmem => ?_, ih _⟩
        obtain ⟨later, hlater, hpc⟩ := mem_map.mp hmem
        obtain ⟨index, hle, hlt, hindex⟩ := exists_index_of_mem_listing hlater
        obtain ⟨hfirstPc, hpos⟩ := (placed_decodeInstruction families).of_ok hfirst
        rw [hindex, hfirstPc, pcOf, pcOf, ← BitVec.toNat_inj] at hpc
        simp only [BitVec.toNat_ofNat] at hpc
        omega

theorem mem_branchTargets_cons {front : List Instruction} {target : Word} :
    target ∈ branchTargets (inst :: front) ++ targets ↔
      target ∈ branchTargets front ++ addBranchTarget inst targets := by
  rw [branchTargets, addBranchTarget, filter_cons]
  split <;> simp [branchTargets, or_left_comm]

/-- Decoding takes the listing up to the first `S_ENDPGM` whose next word no branch goes to. -/
theorem exists_split_of_decodeFrom {instructions : List Instruction}
    (h : decodeFrom families code fuel wordIndex targets = .ok instructions) :
    ∃ front last rest, listing families code fuel wordIndex = front ++ last :: rest ∧
      instructions = front ++ [last] ∧ last.opcode = .sEndpgm ∧
      (rest = [] ∨ instructionEndPc last ∉ branchTargets front ++ targets) ∧
      ∀ front' last' rest', front = front' ++ last' :: rest' → last'.opcode = .sEndpgm →
        instructionEndPc last' ∈ branchTargets front' ++ targets := by
  induction fuel generalizing wordIndex targets instructions with
  | zero => cases h
  | succ fuel ih =>
    rw [decodeFrom] at h
    split at h
    · cases h
    next word hword =>
      obtain ⟨inst, hinst, h⟩ := exists_of_bind_eq_ok h
      have hend := instructionEndPc_of_decodeInstruction hinst
      rw [listing, hword]
      simp only [hinst]
      dsimp only at h
      split at h
      next hstop =>
        cases h
        refine ⟨[], inst, _, rfl, rfl, hstop.1, ?_, fun front' last' rest' heq => ?_⟩
        · rcases hstop.2 with hlen | htarget
          · exact .inl (listing_of_length_le hlen _)
          · rw [← hend] at htarget
            refine .inr fun hmem => htarget ?_
            rwa [addBranchTarget, hstop.1]
        · exact absurd heq.symm (by simp)
      next hgoes =>
        obtain ⟨later, hlater, h⟩ := exists_of_bind_eq_ok h
        cases h
        obtain ⟨front, last, rest, hlisting, rfl, hlast, hstop, hearlier⟩ := ih hlater
        refine ⟨inst :: front, last, rest, by rw [hlisting]; rfl, rfl, hlast, ?_, ?_⟩
        · rwa [mem_branchTargets_cons]
        intro front' last' rest' heq hend'
        cases front' with
        | nil =>
          obtain ⟨rfl, -⟩ := cons_eq_cons.mp heq
          simp only [hend', true_and, not_or, not_not] at hgoes
          rw [addBranchTarget, hend'] at hgoes
          rw [hend]
          exact hgoes.2
        | cons first front' =>
          obtain ⟨rfl, hfront⟩ := cons_eq_cons.mp heq
          rw [mem_branchTargets_cons]
          exact hearlier _ _ _ hfront hend'

end Listing

/-- Two places in one list. -/
theorem before_or_same_or_behind {α : Type} {front rest front₁ rest₁ : List α} {last last₁ : α}
    (h : front ++ last :: rest = front₁ ++ last₁ :: rest₁) :
    (∃ more, front = front₁ ++ last₁ :: more) ∨ (front = front₁ ∧ last = last₁ ∧ rest = rest₁) ∨
      ∃ more, front₁ = front ++ last :: more ∧ rest = more ++ last₁ :: rest₁ := by
  rcases append_eq_append_iff.mp h with ⟨_ | ⟨_, more⟩, rfl, hrest⟩ | ⟨_ | ⟨_, more⟩, rfl, hrest⟩
  · exact .inr (.inl ⟨(append_nil _).symm, cons_eq_cons.mp hrest⟩)
  · obtain ⟨rfl, hmore⟩ := cons_eq_cons.mp hrest
    exact .inr (.inr ⟨more, rfl, hmore⟩)
  · exact .inr (.inl ⟨append_nil _, cons_eq_cons.mp hrest.symm⟩)
  · obtain ⟨rfl, -⟩ := cons_eq_cons.mp hrest
    exact .inl ⟨more, rfl⟩

/-- When the program is decoded, its branches go to decoded instructions or to its end exactly
when no `S_ENDPGM` is jumped over without a branch to the word behind it. -/
theorem targetsDecoded_iff_endsCovered (families : FamilyDecoders) (code : List Word)
    (instructions : List Instruction) (h : decodeProgram families code = .ok instructions) :
    TargetsDecoded (listing families code code.length 0) instructions ↔
      EndsCovered (listing families code code.length 0) := by
  rw [decodeProgram] at h
  split at h
  · cases h
  next hinput =>
    obtain ⟨front, last, rest, hlisting, rfl, hlast, hstop, hearlier⟩ :=
      exists_split_of_decodeFrom h
    simp only [append_nil] at hstop hearlier
    have hnodup : ((listing families code code.length 0).map Instruction.pc).Nodup :=
      nodup_listing (by omega) code.length 0
    have hbranches : branchTargets (front ++ [last]) = branchTargets front := by
      simp [branchTargets, hlast, isControlFlowBranch]
    have hend : programEndPc (front ++ [last]) = instructionEndPc last := by simp [programEndPc]
    rw [TargetsDecoded, hbranches, hend]
    rw [hlisting] at hnodup ⊢
    constructor
    · rintro hdecoded front₁ last₁ rest₁ heq hlast₁ hearlier₁ ⟨target, htarget, hmem⟩
      rcases before_or_same_or_behind heq with ⟨more, hmore⟩ | ⟨rfl, rfl, rfl⟩ |
        ⟨more, hmore, hrest⟩
      · exact hearlier _ _ _ hmore hlast₁
      · rw [append_cons, map_append] at hnodup hdecoded
        rcases hdecoded _ htarget (mem_append_right _ hmem) with hfront | rfl
        · exact absurd rfl ((nodup_append.mp hnodup).2.2 target hfront _ hmem)
        · exact htarget
      · rcases hstop with hnil | hnot
        · rw [hnil] at hrest
          exact absurd hrest.symm (by simp)
        · exact absurd (hearlier₁ _ _ _ hmore hlast) hnot
    · intro hcovered target htarget hlisted
      rw [append_cons, map_append, mem_append] at hlisted
      rcases hlisted with hmem | hmem
      · exact .inl hmem
      · have hnext := hcovered _ _ _ rfl hlast hearlier ⟨target, htarget, hmem⟩
        rcases hstop with rfl | hnot
        · cases hmem
        · exact absurd hnext hnot

/-- Decoders for code of the scalar families alone. -/
def scalarFamilies : FamilyDecoders := ⟨fun _ _ _ _ => .error "", by simp⟩

/-- A branch over an `S_ENDPGM` to the word behind it. -/
theorem targetsDecoded_iff_endsCovered_next :
    ∃ instructions, decodeProgram scalarFamilies [0xbf840001, 0xbf810000, 0xbf810000] =
      .ok instructions ∧
      (TargetsDecoded (listing scalarFamilies [0xbf840001, 0xbf810000, 0xbf810000] 3 0)
          instructions ↔
        EndsCovered (listing scalarFamilies [0xbf840001, 0xbf810000, 0xbf810000] 3 0)) :=
  ⟨_, rfl, targetsDecoded_iff_endsCovered scalarFamilies [0xbf840001, 0xbf810000, 0xbf810000] _ rfl⟩

/-- `s_cbranch_scc0` over `s_endpgm` and `s_nop` to the last `s_endpgm`: decoding stops at the
first `s_endpgm`, and the target is not decoded. -/
theorem jumped_over_target_not_decoded :
    ∃ instructions, decodeProgram scalarFamilies [0xbf840002, 0xbf810000, 0xbf800000, 0xbf810000] =
      .ok instructions ∧ ¬TargetsDecoded (listing scalarFamilies
        [0xbf840002, 0xbf810000, 0xbf800000, 0xbf810000] 4 0) instructions :=
  ⟨_, rfl, fun h => absurd (h 12 (by decide) (by decide)) (by decide)⟩

end KajPS5.Shader
