/-
# The text of guest paths

`IsValidUtf8` walks over the bytes of a path component and looks up in its lead byte how
long a sequence is and where its second byte may lie. The sequences it lets pass are the
encodings of single scalar values, so a text is accepted exactly when it is a
concatenation of encodings. Each byte is read through `getElem?`: an answer means that no
read was outside the text.
-/

import Mathlib.Data.List.Basic
import Mathlib.Order.Nat

namespace KajPS5.Kernel

open List

/-- What the first byte of a longer sequence decides. -/
structure LeadByte where
  continuationCount : ℕ
  secondMinimum : UInt8
  secondMaximum : UInt8

def leadByte (first : UInt8) : Option LeadByte :=
  if 0xc2 ≤ first ∧ first ≤ 0xdf then some ⟨1, 0x80, 0xbf⟩
  else if 0xe0 ≤ first ∧ first ≤ 0xef then
    some ⟨2, if first = 0xe0 then 0xa0 else 0x80, if first = 0xed then 0x9f else 0xbf⟩
  else if 0xf0 ≤ first ∧ first ≤ 0xf4 then
    some ⟨3, if first = 0xf0 then 0x90 else 0x80, if first = 0xf4 then 0x8f else 0xbf⟩
  else none

/-- The loop over the bytes after the second one. -/
def continuations (text : List UInt8) (index : ℕ) : List ℕ → Option Bool
  | [] => some true
  | offset :: offsets => do
    let value ← text[index + offset]?
    if value < 0x80 ∨ 0xbf < value then some false else continuations text index offsets

def isValidUtf8From (text : List UInt8) (index : ℕ) : Option Bool :=
  if index < text.length then do
    let first ← text[index]?
    if first ≤ 0x7f then isValidUtf8From text (index + 1)
    else match leadByte first with
      | none => some false
      | some lead =>
        if text.length - index - 1 < lead.continuationCount then some false
        else do
          let second ← text[index + 1]?
          if second < lead.secondMinimum ∨ lead.secondMaximum < second then some false
          else if ← continuations text index (List.range' 2 (lead.continuationCount - 1)) then
            isValidUtf8From text (index + (lead.continuationCount + 1))
          else some false
  else some true
termination_by text.length - index

def isValidUtf8 (text : List UInt8) : Option Bool := isValidUtf8From text 0

/-! ## Sequences and scalar values -/

/-- The walk lets the first two bytes pass as the start of a sequence of `count` more bytes. -/
def Leads (first second : UInt8) (count : ℕ) : Prop :=
  ∃ lead, leadByte first = some lead ∧ lead.continuationCount = count ∧
    lead.secondMinimum ≤ second ∧ second ≤ lead.secondMaximum

/-- A byte that may stand after the second one. -/
def isContinuation (value : UInt8) : Bool := decide (0x80 ≤ value ∧ value ≤ 0xbf)

/-- The sequences of bytes that the walk steps over at once. -/
inductive IsSequence : List UInt8 → Prop
  | single {byte : UInt8} : byte ≤ 0x7f → IsSequence [byte]
  | long {first second : UInt8} {more : List UInt8} : Leads first second (more.length + 1) →
    more.all isContinuation → IsSequence (first :: second :: more)

theorem leads_iff {first second : UInt8} {count : ℕ} :
    Leads first second count ↔ 0x80 ≤ second.toNat ∧ second.toNat ≤ 0xbf ∧
      (count = 1 ∧ 0xc2 ≤ first.toNat ∧ first.toNat ≤ 0xdf ∨
        count = 2 ∧ 0xe0 ≤ first.toNat ∧ first.toNat ≤ 0xef ∧
          (first.toNat = 0xe0 → 0xa0 ≤ second.toNat) ∧
          (first.toNat = 0xed → second.toNat ≤ 0x9f) ∨
        count = 3 ∧ 0xf0 ≤ first.toNat ∧ first.toNat ≤ 0xf4 ∧
          (first.toNat = 0xf0 → 0x90 ≤ second.toNat) ∧
          (first.toNat = 0xf4 → second.toNat ≤ 0x8f)) := by
  simp only [Leads, leadByte, UInt8.le_iff_toNat_le, ← UInt8.toNat_inj]
  split_ifs <;> simp_all <;> omega

theorem isSequence_utf8EncodeChar (c : Char) : IsSequence (String.utf8EncodeChar c) := by
  have hvalid : c.val.toNat < 0xd800 ∨ 0xdfff < c.val.toNat ∧ c.val.toNat < 0x110000 := c.valid
  rw [String.utf8EncodeChar]
  generalize c.val.toNat = v at hvalid
  split_ifs with hone htwo hthree
  · refine .single ?_
    simp [UInt8.le_iff_toNat_le]
    omega
  all_goals
    refine .long (leads_iff.mpr ?_) ?_ <;> simp [isContinuation, UInt8.le_iff_toNat_le] <;> omega

theorem exists_char_toNat {v : ℕ} (h : v.isValidChar) : ∃ c : Char, c.val.toNat = v :=
  ⟨Char.ofNatAux v h, rfl⟩

theorem IsSequence.exists_char {sequence : List UInt8} (h : IsSequence sequence) :
    ∃ c : Char, String.utf8EncodeChar c = sequence := by
  cases h with
  | @single byte hbyte =>
    have hone : byte.toNat ≤ 0x7f := UInt8.le_iff_toNat_le.mp hbyte
    obtain ⟨c, hc⟩ := exists_char_toNat (v := byte.toNat) (.inl (by omega))
    exact ⟨c, by simp [String.utf8EncodeChar, hc, hone]⟩
  | @long first second more hleads hmore =>
    simp only [all_eq_true, isContinuation, decide_eq_true_eq, UInt8.le_iff_toNat_le] at hmore
    obtain ⟨hlow, hhigh, ⟨hcount, hfirst⟩ | ⟨hcount, hfirst⟩ | ⟨hcount, hfirst⟩⟩ :=
      leads_iff.mp hleads
    · obtain rfl : more = [] := eq_nil_of_length_eq_zero (by omega)
      obtain ⟨c, hc⟩ := exists_char_toNat (v := first.toNat % 32 * 64 + second.toNat % 64)
        (.inl (by omega))
      refine ⟨c, ?_⟩
      rw [String.utf8EncodeChar, hc, if_neg (by omega), if_pos (by omega)]
      simp [← UInt8.toNat_inj]
      omega
    · obtain ⟨third, rfl⟩ := length_eq_one_iff.mp (Nat.succ_injective hcount)
      simp at hmore
      obtain ⟨c, hc⟩ := exists_char_toNat
        (v := first.toNat % 16 * 4096 + second.toNat % 64 * 64 + third.toNat % 64)
        (by rw [Nat.isValidChar]; omega)
      refine ⟨c, ?_⟩
      rw [String.utf8EncodeChar, hc, if_neg (by omega), if_neg (by omega), if_pos (by omega)]
      simp [← UInt8.toNat_inj]
      omega
    · obtain ⟨third, fourth, rfl⟩ := length_eq_two.mp (Nat.succ_injective hcount)
      simp at hmore
      obtain ⟨c, hc⟩ := exists_char_toNat (v := first.toNat % 8 * 262144 +
        second.toNat % 64 * 4096 + third.toNat % 64 * 64 + fourth.toNat % 64)
        (by rw [Nat.isValidChar]; omega)
      refine ⟨c, ?_⟩
      rw [String.utf8EncodeChar, hc, if_neg (by omega), if_neg (by omega), if_neg (by omega)]
      simp [← UInt8.toNat_inj]
      omega

/-! ## The walk -/

/-- The bytes are the encodings of some scalar values in a row. -/
def IsUtf8 (text : List UInt8) : Prop :=
  ∃ scalars : List Char, scalars.flatMap String.utf8EncodeChar = text

theorem isUtf8_cons {first : UInt8} {tail : List UInt8} :
    IsUtf8 (first :: tail) ↔ first ≤ 0x7f ∧ IsUtf8 tail ∨
      ∃ second more rest, tail = second :: (more ++ rest) ∧
        Leads first second (more.length + 1) ∧
        more.all isContinuation ∧ IsUtf8 rest := by
  constructor
  · rintro ⟨_ | ⟨c, scalars⟩, h⟩
    · simp at h
    have hsequence := isSequence_utf8EncodeChar c
    rw [flatMap_cons] at h
    generalize String.utf8EncodeChar c = sequence at h hsequence
    cases hsequence with
    | single hbyte =>
      cases h
      exact .inl ⟨hbyte, scalars, rfl⟩
    | long hleads hmore =>
      cases h
      exact .inr ⟨_, _, _, rfl, hleads, hmore, scalars, rfl⟩
  · rintro (⟨hbyte, scalars, rfl⟩ | ⟨_, _, _, rfl, hleads, hmore, scalars, rfl⟩)
    · obtain ⟨c, hc⟩ := (IsSequence.single hbyte).exists_char
      exact ⟨c :: scalars, by simp [hc]⟩
    · obtain ⟨c, hc⟩ := (IsSequence.long hleads hmore).exists_char
      exact ⟨c :: scalars, by simp [hc]⟩

/-- After a lead byte the sequence is as long as the lead byte says. -/
theorem isUtf8_lead {first second : UInt8} {tail : List UInt8} {lead : LeadByte}
    (hfirst : ¬ first ≤ 0x7f) (hlead : leadByte first = some lead)
    (hlength : lead.continuationCount - 1 ≤ tail.length) (hpos : 0 < lead.continuationCount) :
    IsUtf8 (first :: second :: tail) ↔
      (lead.secondMinimum ≤ second ∧ second ≤ lead.secondMaximum) ∧
      (tail.take (lead.continuationCount - 1)).all isContinuation ∧
      IsUtf8 (tail.drop (lead.continuationCount - 1)) := by
  rw [isUtf8_cons]
  constructor
  · rintro (h | ⟨_, more, rest, h, ⟨_, hlead', hcount, hsecond⟩, hmore, hrest⟩)
    · exact absurd h.1 hfirst
    · cases hlead.symm.trans hlead'
      cases h
      rw [hcount, Nat.add_sub_cancel, take_left, drop_left]
      exact ⟨hsecond, hmore, hrest⟩
  · rintro ⟨hsecond, hmore, hrest⟩
    refine .inr ⟨second, _, _, by rw [take_append_drop], ⟨lead, hlead, ?_, hsecond⟩, hmore,
      hrest⟩
    rw [length_take, Nat.min_eq_left hlength, Nat.sub_add_cancel hpos]

theorem continuations_eq (text : List UInt8) (index count : ℕ) {start : ℕ}
    (h : index + start + count ≤ text.length) :
    continuations text index (List.range' start count) =
      some (((text.drop (index + start)).take count).all isContinuation) := by
  induction count generalizing start with
  | zero => simp [continuations]
  | succ count ih =>
    have hstart : index + start < text.length := by omega
    rw [range'_succ, continuations, getElem?_eq_getElem hstart,
      drop_eq_getElem_cons hstart, ih (by omega), take_succ_cons, all_cons,
      isContinuation]
    simp only [Option.bind_eq_bind, Option.bind_some, ← UInt8.not_le, ← not_and_or]
    by_cases hvalue : 0x80 ≤ text[index + start] ∧ text[index + start] ≤ 0xbf
    · rw [if_neg (not_not.mpr hvalue), decide_eq_true hvalue, Bool.true_and, Nat.add_assoc]
    · rw [if_pos hvalue, decide_eq_false hvalue, Bool.false_and]

theorem isValidUtf8From_spec (text : List UInt8) (index : ℕ) :
    ∃ accepted, isValidUtf8From text index = some accepted ∧
      (accepted = true ↔ IsUtf8 (text.drop index)) := by
  induction hleft : text.length - index using Nat.strong_induction_on generalizing index with
  | _ left ih =>
  subst hleft
  rw [isValidUtf8From]
  by_cases hindex : index < text.length
  swap
  · rw [if_neg hindex, drop_eq_nil_of_le (by omega)]
    exact ⟨true, rfl, by simpa using ⟨[], rfl⟩⟩
  rw [if_pos hindex, getElem?_eq_getElem hindex, drop_eq_getElem_cons hindex]
  generalize text[index] = first
  simp only [Option.bind_eq_bind, Option.bind_some]
  by_cases hfirst : first ≤ 0x7f
  · have hno : ∀ second count, ¬ Leads first second count := by
      intro second count hleads
      have := leads_iff.mp hleads
      rw [UInt8.le_iff_toNat_le] at hfirst
      simp at hfirst
      omega
    simpa [isUtf8_cons, hfirst, hno] using ih _ (by omega) (index + 1) rfl
  rw [if_neg hfirst]
  cases hlead : leadByte first with
  | none => exact ⟨false, rfl, by simp [isUtf8_cons, hfirst, Leads, hlead]⟩
  | some lead =>
    have hpos : 0 < lead.continuationCount := by
      rw [leadByte] at hlead
      split_ifs at hlead <;> cases hlead <;> simp
    dsimp only
    by_cases hshort : text.length - index - 1 < lead.continuationCount
    · rw [if_pos hshort]
      refine ⟨false, rfl, iff_of_false Bool.false_ne_true fun h => ?_⟩
      obtain h | ⟨_, more, rest, htail, ⟨_, hlead', hcount, -⟩, -⟩ := isUtf8_cons.mp h
      · exact hfirst h.1
      · cases hlead.symm.trans hlead'
        have := congrArg List.length htail
        simp at this
        omega
    have hsecond : index + 1 < text.length := by omega
    have hlength : lead.continuationCount - 1 ≤ (text.drop (index + 1 + 1)).length := by
      rw [length_drop]
      omega
    rw [if_neg hshort, getElem?_eq_getElem hsecond, drop_eq_getElem_cons hsecond,
      isUtf8_lead hfirst hlead hlength hpos, continuations_eq text index _ (by omega)]
    generalize text[index + 1] = second
    simp only [Option.bind_some, ← UInt8.not_le, ← not_and_or]
    by_cases hbounds : lead.secondMinimum ≤ second ∧ second ≤ lead.secondMaximum
    swap
    · exact ⟨false, if_pos hbounds, by simp [hbounds]⟩
    rw [if_neg (not_not.mpr hbounds)]
    obtain ⟨accepted, hrun, haccepted⟩ :=
      ih _ (by omega) (index + (lead.continuationCount + 1)) rfl
    have hrest : index + 1 + 1 + (lead.continuationCount - 1) =
        index + (lead.continuationCount + 1) := by omega
    rw [hrun, drop_drop, hrest, ← haccepted]
    generalize List.all _ isContinuation = more
    exact ⟨more && accepted, by cases more <;> rfl, by simp [hbounds]⟩

/-- For every text the check answers without a read outside it, and it accepts exactly the
encodings of sequences of scalar values. -/
theorem isValidUtf8_iff_scalars (text : List UInt8) :
    ∃ accepted, isValidUtf8 text = some accepted ∧
      (accepted = true ↔ ∃ scalars : List Char, scalars.flatMap String.utf8EncodeChar = text) :=
  isValidUtf8From_spec text 0

end KajPS5.Kernel
