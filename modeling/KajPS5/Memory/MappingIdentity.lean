/-
# Mapping tokens detect remapping

A mapping token over a range is the newest mapping generation along it. A
resource keeps the token it was created with and compares it later; the range
is still the same memory exactly when the tokens agree. The argument follows
one address along a run: as long as no successful unmapping covers it, its
generation stays, and once one has, the address can only come back with a
generation later than every one that existed before.
-/

import KajPS5.Memory.Regions

namespace KajPS5.Memory

open Math GuestMemoryProtection

namespace GuestMemory

variable {m : GuestMemory}

/-- A successful unmapping along the run covered the address. -/
def UnmappedBy (answered : List (MappingCall × Bool)) (a : ℕ) : Prop :=
  ∃ address length, (MappingCall.unmap address length, true) ∈ answered ∧ InRange address length a

/-- A successful unmapping along the run overlapped the range. -/
def UnmapOverlaps (answered : List (MappingCall × Bool)) (address length : ℕ) : Prop :=
  ∃ a, InRange address length a ∧ UnmappedBy answered a

variable {address length a : ℕ} {g : GuestMemoryGeneration}

variable {call : MappingCall}

theorem unmappedBy_cons {answer : Bool} {answered : List (MappingCall × Bool)} :
    UnmappedBy ((call, answer) :: answered) a ↔
      (call.isUnmap = true ∧ answer = true ∧ InRange call.address call.length a) ∨
        UnmappedBy answered a := by
  simp only [UnmappedBy, List.mem_cons, Prod.mk.injEq]
  constructor
  · rintro ⟨address, length, ⟨rfl, rfl⟩ | hmem, ha⟩
    · exact .inl ⟨rfl, rfl, ha⟩
    · exact .inr ⟨address, length, hmem, ha⟩
  · rintro (⟨hunmap, rfl, ha⟩ | ⟨address, length, hmem, ha⟩)
    · cases call with
      | unmap address length => exact ⟨address, length, .inl ⟨rfl, rfl⟩, ha⟩
      | map | mapShared | protect => simp [MappingCall.isUnmap] at hunmap
    · exact ⟨address, length, .inr hmem, ha⟩

/-! ## One address through one call -/

/-- The generation of an address after a successful call. -/
theorem Performed.identities {m' : GuestMemory} (h : m.Performed call m') (a : ℕ) :
    m'.identities a = if InRange call.address call.length a then
        if call.isUnmap then none
        else if call.isMap then some m'.nextMappingGeneration
        else m.identities a
      else m.identities a := by
  have hspace := congrFun (congrArg AddressSpace.identities h.space) a
  cases call with
  | map | mapShared | unmap => exact hspace
  | protect =>
    refine hspace.trans ?_
    simp only [MappingCall.isUnmap, MappingCall.isMap, Bool.false_eq_true, if_false, ite_self]
    rfl

theorem generation_le_perform (backings : Backings) (h : m.WellFormed) (call : MappingCall) :
    m.nextMappingGeneration ≤ (m.perform backings call).2.nextMappingGeneration ∧
      ((m.perform backings call).2.mappingGenerationExhausted = false →
        m.mappingGenerationExhausted = false) := by
  rcases (perform_outcome _ h call).cases with ⟨-, hsame⟩ | ⟨-, hdone⟩
  · exact ⟨hsame.generation_le, fun hleft => by simpa [hleft] using hsame.exhausted⟩
  refine ⟨?_, fun hleft => hdone.exhausted.symm.trans hleft⟩
  have hgen := hdone.generation
  split_ifs at hgen
  · exact le_of_lt hgen
  · exact le_of_eq hgen.symm

/-- An address that stays mapped through a call keeps its generation, and one
that the call maps gets a new one. -/
theorem identities_perform (backings : Backings) (h : m.WellFormed) (call : MappingCall) (a : ℕ) :
    if call.isUnmap = true ∧ (m.perform backings call).1 = true ∧
      InRange call.address call.length a then (m.perform backings call).2.identities a = none
    else (m.perform backings call).2.identities a = m.identities a ∨
      (m.identities a = none ∧ ∃ g, m.nextMappingGeneration < g ∧
        (m.perform backings call).2.identities a = some g) := by
  rcases (perform_outcome backings h call).cases with ⟨hfalse, hsame⟩ | ⟨htrue, hdone⟩
  · rw [if_neg (by simp [hfalse]), identities, hsame.mappingIdentityRegions]
    exact .inl rfl
  rw [hdone.identities a]
  by_cases ha : InRange call.address call.length a
  · simp only [htrue, ha, and_true, if_true]
    split_ifs with hunmap hmap
    · rfl
    · refine .inr ⟨?_, _, by simpa [hmap] using hdone.generation, rfl⟩
      have hfree := (hdone.range a ha).2
      rw [← h.identities_isSome, hmap] at hfree
      simpa using hfree
    · exact .inl rfl
  · simp [ha]

/-! ## One address through a run -/

section

variable (backings : Backings) (h : m.WellFormed) (calls : List MappingCall)
include h

/-- An address no unmapping has covered keeps its generation. -/
theorem identities_run_of_not_unmapped (ha : m.identities a = some g)
    (hkept : ¬ UnmappedBy (m.answers backings calls) a) :
    (m.run backings calls).identities a = some g := by
  induction calls generalizing m with
  | nil => exact ha
  | cons call calls ih =>
    rw [answers, unmappedBy_cons, not_or] at hkept
    refine ih (perform_outcome _ h call).wellFormed ?_ hkept.2
    have hstep := identities_perform backings h call a
    rw [if_neg hkept.1, ha] at hstep
    exact hstep.resolve_right fun hnew => Option.some_ne_none g hnew.1

/-- A generation found at the end of a run was there at its beginning, untouched
by any unmapping, or is later than all that were. -/
theorem identities_run_cases (ha : (m.run backings calls).identities a = some g) :
    (m.identities a = some g ∧ ¬ UnmappedBy (m.answers backings calls) a) ∨
      m.nextMappingGeneration < g := by
  induction calls generalizing m with
  | nil =>
    refine .inl ⟨ha, ?_⟩
    rintro ⟨address, length, hmem, -⟩
    simp [answers] at hmem
  | cons call calls ih =>
    have hle := (generation_le_perform backings h call).1
    rcases ih (perform_outcome _ h call).wellFormed ha with ⟨hmid, hkept⟩ | hlt
    · have hstep := identities_perform backings h call a
      rw [hmid] at hstep
      split_ifs at hstep with hunmaps
      rcases hstep with hsame | ⟨-, g', hlt, hnew⟩
      · refine .inl ⟨hsame.symm, ?_⟩
        rw [answers, unmappedBy_cons, not_or]
        exact ⟨hunmaps, hkept⟩
      · rw [← Option.some.inj hnew] at hlt
        exact .inr hlt
    · exact .inr (hle.trans_lt hlt)

theorem exhausted_run (hrun : (m.run backings calls).mappingGenerationExhausted = false) :
    m.mappingGenerationExhausted = false := by
  induction calls generalizing m with
  | nil => exact hrun
  | cons call calls ih =>
    exact (generation_le_perform _ h call).2 (ih (perform_outcome _ h call).wellFormed hrun)

end

/-! ## Tokens along a run -/

theorem mem_generationsOn_le (h : m.WellFormed) (hg : g ∈ m.generationsOn address length) :
    g ≤ m.nextMappingGeneration := by
  obtain ⟨a, -, hga⟩ := hg
  exact h.identities_le a g hga

/-- Only a nonempty mapped range has a token. -/
theorem mapped_of_captureMappingTokenLocked (h : m.WellFormed) {token : GuestMemoryMappingToken}
    (hcap : m.captureMappingTokenLocked address length = some token) :
    length ≠ 0 ∧ m.Mapped address length := by
  rw [captureMappingTokenLocked] at hcap
  split_ifs at hcap with hnone
  simp only [Bool.or_eq_true, decide_eq_true_eq, Bool.not_eq_true', not_or,
    Bool.not_eq_false] at hnone
  exact ⟨hnone.1, (isMappedLocked_iff h hnone.1).mp hnone.2⟩

section

variable (backings : Backings) (h : m.WellFormed)
include h

/-- A token that existed before a call and is captured after it was captured
before it, and the call neither mapped nor unmapped anything in the range. -/
theorem captureMappingTokenLocked_perform (call : MappingCall) {token : GuestMemoryMappingToken}
    (hle : token.generation ≤ m.nextMappingGeneration) (hspent : token.generationExhausted = false)
    (hafter : (m.perform backings call).2.captureMappingTokenLocked address length = some token) :
    m.captureMappingTokenLocked address length = some token ∧ ∀ a, InRange address length a →
        (m.perform backings call).2.identities a = m.identities a ∧
          (m.identities a).isSome = true := by
  have hwf := (perform_outcome backings h call).wellFormed
  obtain ⟨hlen, hmap⟩ := mapped_of_captureMappingTokenLocked hwf hafter
  obtain ⟨generation, hbest, hcap⟩ := captureMappingTokenLocked_spec hwf hlen hmap
  rw [hcap] at hafter
  cases hafter
  -- Whatever the call maps is newer than the token.
  have hsame : ∀ a, InRange address length a →
      (m.perform backings call).2.identities a = m.identities a ∧
        (m.identities a).isSome = true := by
    intro a ha
    have hsome := hwf.identities_isSome a
    rw [hmap a ha] at hsome
    have hstep := identities_perform backings h call a
    split_ifs at hstep
    · rw [hstep] at hsome
      cases hsome
    rcases hstep with heq | ⟨-, g, hlt, hnew⟩
    · exact ⟨heq, by rw [← heq]; exact hsome⟩
    · exact absurd (hlt.trans_le ((hbest.2 ⟨a, ha, hnew⟩).trans hle)) (lt_irrefl _)
  refine ⟨?_, hsame⟩
  have hpre : m.Mapped address length := by
    intro a ha
    rw [← h.identities_isSome]
    exact (hsame a ha).2
  rw [generationsOn_congr fun a ha => (hsame a ha).1] at hbest
  obtain ⟨before, hbest', hcap'⟩ := captureMappingTokenLocked_spec h hlen hpre
  simp only at hspent
  rw [hcap', hbest'.unique hbest, (generation_le_perform backings h call).2 hspent, hspent]

/-- The tokens at both ends of a run agree exactly when no unmapping along it
touched the range. -/
theorem captureMappingTokenLocked_run_eq_iff (calls : List MappingCall)
    (hspent : (m.run backings calls).mappingGenerationExhausted = false)
    (hpre : m.Mapped address length) (hafter : (m.run backings calls).Mapped address length) :
    m.captureMappingTokenLocked address length =
        (m.run backings calls).captureMappingTokenLocked address length ↔
      ¬ UnmapOverlaps (m.answers backings calls) address length := by
  by_cases hlen : length = 0
  · subst hlen
    refine ⟨fun _ => ?_, fun _ => rfl⟩
    rintro ⟨a, ha, -⟩
    simp only [InRange] at ha
    omega
  · have hrun := run_wellFormed backings h calls
    obtain ⟨before, hbest, hcap⟩ := captureMappingTokenLocked_spec h hlen hpre
    obtain ⟨after, hbest', hcap'⟩ := captureMappingTokenLocked_spec hrun hlen hafter
    rw [hcap, hcap', hspent, exhausted_run _ h _ hspent, Option.some.injEq,
      GuestMemoryMappingToken.mk.injEq, and_iff_left rfl]
    constructor
    · -- A remapped byte is newer than everything the first token could see.
      rintro rfl ⟨a, ha, hfree⟩
      obtain ⟨g, hg⟩ := hrun.exists_identity hafter ha
      rcases identities_run_cases _ h _ hg with ⟨-, hkept⟩ | hlt
      · exact hkept hfree
      · have hle := hbest'.2 ⟨a, ha, hg⟩
        exact absurd (hlt.trans_le hle) (not_lt.mpr (mem_generationsOn_le h hbest.1))
    · intro hkept
      have hsame : ∀ a, InRange address length a →
          (m.run backings calls).identities a = m.identities a := by
        intro a ha
        obtain ⟨g, hg⟩ := h.exists_identity hpre ha
        rw [hg]
        exact identities_run_of_not_unmapped _ h _ hg fun hfree => hkept ⟨a, ha, hfree⟩
      rw [generationsOn_congr hsame] at hbest'
      exact hbest.unique hbest'

/-- A range that no successful unmapping touches stays mapped. -/
theorem mapped_run_of_not_unmapped (calls : List MappingCall) (hpre : m.Mapped address length)
    (hkept : ¬ UnmapOverlaps (m.answers backings calls) address length) :
    (m.run backings calls).Mapped address length := by
  intro a ha
  obtain ⟨g, hg⟩ := h.exists_identity hpre ha
  have hend := identities_run_of_not_unmapped _ h _ hg fun hfree => hkept ⟨a, ha, hfree⟩
  rw [← (run_wellFormed _ h calls).identities_isSome, hend]
  rfl

end

/-- A call that cannot have unmapped the range: it is no unmapping, or its range
is elsewhere. -/
def MissesRange (call : MappingCall) (address length : ℕ) : Prop :=
  call.isUnmap = false ∨ ∀ a, InRange address length a → ¬ InRange call.address call.length a

/-- Before the generations are exhausted, at any two moments of any sequence of
mapping calls: the identity table covers the mapped bytes; a range mapped at both
moments has tokens, and they agree exactly when no successful unmapping in
between overlapped it; and a call that does not unmap in the range leaves its
token alone. -/
theorem mappingToken_eq_iff_not_unmapped (backings : Backings) {baseAddress size : ℕ}
    {initialProtection : GuestMemoryProtection}
    (hcreate : create baseAddress size initialProtection = some m) (first second : List MappingCall)
    (hexhausted : (m.run backings (first ++ second)).mappingGenerationExhausted = false) :
    (∀ a, ((m.run backings first).identities a).isSome =
        ((m.run backings first).protections a).isSome) ∧
      (∀ address length, (m.run backings first).Mapped address length →
        (m.run backings (first ++ second)).Mapped address length →
        (length ≠ 0 →
          ((m.run backings first).captureMappingTokenLocked address length).isSome = true ∧
          ((m.run backings (first ++ second)).captureMappingTokenLocked
            address length).isSome = true) ∧
        ((m.run backings first).captureMappingTokenLocked address length =
            (m.run backings (first ++ second)).captureMappingTokenLocked address length ↔
          ¬ UnmapOverlaps ((m.run backings first).answers backings second) address length)) ∧
      ∀ call rest, second = call :: rest → ∀ address length,
        (m.run backings first).Mapped address length → MissesRange call address length →
        (m.run backings (first ++ [call])).captureMappingTokenLocked address length =
          (m.run backings first).captureMappingTokenLocked address length := by
  have hfirst := run_wellFormed backings (create_spec hcreate).1 first
  have hsplit (calls : List MappingCall) : m.run backings (first ++ calls) =
      (m.run backings first).run backings calls := StepRuns.run_append _ _ _ _
  rw [hsplit] at hexhausted ⊢
  have hlast := run_wellFormed backings hfirst second
  refine ⟨hfirst.identities_isSome, fun address length hbefore hafter => ⟨fun hlength => ?_, ?_⟩,
    ?_⟩
  · obtain ⟨_, -, hcapture⟩ := captureMappingTokenLocked_spec hfirst hlength hbefore
    obtain ⟨_, -, hcapture'⟩ := captureMappingTokenLocked_spec hlast hlength hafter
    exact ⟨by rw [hcapture]; rfl, by rw [hcapture']; rfl⟩
  · exact captureMappingTokenLocked_run_eq_iff _ hfirst _ hexhausted hbefore hafter
  · rintro call rest rfl address length hbefore hmisses
    rw [hsplit]
    -- The one call is a run of its own, and nothing it does can unmap in the range.
    have hkept : ¬ UnmapOverlaps ((m.run backings first).answers backings [call])
        address length := by
      rintro ⟨a, ha, hunmapped⟩
      rw [answers, unmappedBy_cons] at hunmapped
      rcases hunmapped with ⟨hunmap, -, hin⟩ | ⟨_, _, hmem, -⟩
      · rcases hmisses with hnot | helsewhere
        · rw [hnot] at hunmap
          cases hunmap
        · exact helsewhere a ha hin
      · simp [answers] at hmem
    have hmid : ((m.run backings first).run backings [call]).mappingGenerationExhausted = false :=
      exhausted_run _ (run_wellFormed _ hfirst [call]) _ hexhausted
    exact ((captureMappingTokenLocked_run_eq_iff _ hfirst [call] hmid hbefore
      (mapped_run_of_not_unmapped _ hfirst [call] hbefore hkept)).mpr hkept).symm

/-- A range that is unmapped and mapped again between the two moments gets a
different token. -/
theorem mappingToken_ne_after_remap : ∃ m, create 0x1000 0x8000 kNone = some m ∧
      (m.run (fun _ => .create 0) [.map {} 0x1000 0x2000 kRead]).captureMappingTokenLocked
          0x1000 0x1000 ≠
        (m.run (fun _ => .create 0) ([.map {} 0x1000 0x2000 kRead] ++
          [.unmap 0x1800 0x100, .map {} 0x1800 0x100 kRead])).captureMappingTokenLocked
            0x1000 0x1000 := by
  have hcreate : create 0x1000 0x8000 kNone = some _ := rfl
  refine ⟨_, hcreate, fun heq => ?_⟩
  have hrun := run_wellFormed (fun _ => .create 0) (create_spec hcreate).1
  have hbefore := (isMappedLocked_iff (hrun [.map {} 0x1000 0x2000 kRead])
    (show 0x1000 ≠ 0 by decide)).mp (show isMappedLocked _ 0x1000 0x1000 = true from rfl)
  have hafter := (isMappedLocked_iff (hrun ([.map {} 0x1000 0x2000 kRead] ++
    [.unmap 0x1800 0x100, .map {} 0x1800 0x100 kRead]))
    (show 0x1000 ≠ 0 by decide)).mp (show isMappedLocked _ 0x1000 0x1000 = true from rfl)
  have hiff := ((mappingToken_eq_iff_not_unmapped (fun _ => .create 0) hcreate
    [.map {} 0x1000 0x2000 kRead] [.unmap 0x1800 0x100, .map {} 0x1800 0x100 kRead] rfl).2.1
      0x1000 0x1000 hbefore hafter).2
  exact hiff.mp heq ⟨0x1800, by decide, 0x1800, 0x100, List.mem_cons_self, by decide⟩

end GuestMemory

end KajPS5.Memory
