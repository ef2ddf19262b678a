/-
# The sources of variadic arguments

A formatting call takes its arguments from the registers and the stack of the call, or
from a `va_list` in guest memory. The first source counts registers and stack slots, the
second keeps two offsets into a save area and a pointer into the overflow area. Both walk
the slots in which the System V ABI places the arguments, so a call and a `va_list` whose
slots hold the same words hand out the same arguments.
-/

import KajPS5.Hle.StringReads
import KajPS5.Math.Postconditions

namespace KajPS5.Hle

open Memory GuestMemoryProtection Math.Postconditions

inductive HleRegister
  | kRax | kRcx | kRdx | kRbx | kRsp | kRbp | kRsi | kRdi | kR8 | kR9 | kR10 | kR11 | kR12 | kR13
  | kR14 | kR15
  deriving DecidableEq

def kArgumentRegisters : List HleRegister := [.kRdi, .kRsi, .kRdx, .kRcx, .kR8, .kR9]

def kHleVectorArgumentRegisterCount : ℕ := 8

def kGpSaveAreaBytes : ℕ := 48

def kFpSaveAreaEnd : ℕ := 176

abbrev HleVectorValue := Vector UInt8 16

structure HleCallContext where
  world : MemoryWorld
  registers : HleRegister → ℕ
  capturedStackArguments : List ℕ
  capturedVectorArguments : List HleVectorValue

/-- The number with these bytes, the lowest first. -/
def littleEndian (bytes : List UInt8) : ℕ := bytes.foldr (fun b rest => b.toNat ||| rest <<< 8) 0

/-- The bits of the number that a vector register holds in its first eight bytes. -/
def doubleBits (vector : HleVectorValue) : ℕ := littleEndian (vector.toList.take 8)

namespace HleCallContext

variable (c : HleCallContext)

def readUInt32 (address : ℕ) : Option ℕ := (c.world.read address 4).map littleEndian

def readUInt64 (address : ℕ) : Option ℕ := (c.world.read address 8).map littleEndian

def argument (index : ℕ) : Option ℕ :=
  match kArgumentRegisters[index]? with
  | some reg => some (c.registers reg)
  | none =>
    let stackPointer := c.registers .kRsp
    let stackIndex := index - kArgumentRegisters.length
    if c.capturedStackArguments ≠ [] then c.capturedStackArguments[stackIndex]?
    else if (uint64Max - 8) / 8 < stackIndex then none
    else
      let offset := 8 + stackIndex * 8
      if stackPointer = 0 ∨ uint64Max - stackPointer < offset then none
      else c.readUInt64 (stackPointer + offset)

def vectorArgument (index : ℕ) : Option HleVectorValue := c.capturedVectorArguments[index]?

end HleCallContext

/-- An argument, a floating number by its bits, and the source behind it. `Render` looks at
the status after each fetch and ends at a failure, so there is no source behind one. -/
abbrev Fetch (σ : Type) := Except HleContextStatus (ℕ × σ)

def fetched {σ : Type} (failure : HleContextStatus) (moved : σ) : Option ℕ → Fetch σ
  | some value => .ok (value, moved)
  | none => .error failure

class PrintfArgumentSource (σ : Type) where
  nextInteger : HleCallContext → σ → Fetch σ
  nextFloat : HleCallContext → σ → Fetch σ

structure RegisterArgumentSource where
  gpIndex : ℕ
  fpIndex : ℕ := 0
  stackIndex : ℕ := 0

namespace RegisterArgumentSource

variable (c : HleCallContext) (s : RegisterArgumentSource)

def nextInteger : Fetch RegisterArgumentSource :=
  if s.gpIndex < 6 then
    fetched .kInvalidArgument { s with gpIndex := s.gpIndex + 1 } (c.argument s.gpIndex)
  else
    fetched .kInvalidArgument { s with stackIndex := s.stackIndex + 1 }
      (c.argument (6 + s.stackIndex))

def nextFloat : Fetch RegisterArgumentSource :=
  if s.fpIndex < kHleVectorArgumentRegisterCount then
    fetched .kInvalidArgument { s with fpIndex := s.fpIndex + 1 }
      ((c.vectorArgument s.fpIndex).map doubleBits)
  else
    fetched .kInvalidArgument { s with stackIndex := s.stackIndex + 1 }
      (c.argument (6 + s.stackIndex))

instance : PrintfArgumentSource RegisterArgumentSource := ⟨nextInteger, nextFloat⟩

end RegisterArgumentSource

structure VaListArgumentSource where
  gpOffset : ℕ
  fpOffset : ℕ
  overflowArea : ℕ
  registerSaveArea : ℕ

namespace VaListArgumentSource

variable (c : HleCallContext) (s : VaListArgumentSource)

/-- A fetch from the save area up to `limit`, which leaves the source as `moved`, or from the
overflow area. -/
def nextWord (offset limit : ℕ) (moved : VaListArgumentSource) : Fetch VaListArgumentSource :=
  if s.registerSaveArea ≠ 0 ∧ offset ≤ limit then
    fetched .kMemoryFault moved ((addAddressOffset s.registerSaveArea offset).bind c.readUInt64)
  else
    fetched .kMemoryFault { s with overflowArea := s.overflowArea + 8 }
      ((addAddressOffset s.overflowArea 8).bind fun _ => c.readUInt64 s.overflowArea)

def nextInteger : Fetch VaListArgumentSource :=
  s.nextWord c s.gpOffset (kGpSaveAreaBytes - 8) { s with gpOffset := s.gpOffset + 8 }

def nextFloat : Fetch VaListArgumentSource :=
  s.nextWord c s.fpOffset (kFpSaveAreaEnd - 16) { s with fpOffset := s.fpOffset + 16 }

instance : PrintfArgumentSource VaListArgumentSource := ⟨nextInteger, nextFloat⟩

end VaListArgumentSource

def makeVaListSource (c : HleCallContext) (address : ℕ) : Option VaListArgumentSource := do
  guard (address ≠ 0)
  let gpOffset ← c.readUInt32 address
  guard (address ≤ uint64Max - 16)
  let fpOffset ← c.readUInt32 (address + 4)
  let overflowArea ← c.readUInt64 (address + 8)
  let registerSaveArea ← c.readUInt64 (address + 16)
  guard (gpOffset ≤ kGpSaveAreaBytes ∧ fpOffset ≤ kFpSaveAreaEnd ∧ gpOffset % 8 = 0 ∧
    fpOffset % 16 = 0)
  return { gpOffset, fpOffset, overflowArea, registerSaveArea }

/-! ## The slots of the arguments -/

/-- The two ways in which a conversion takes an argument. -/
inductive Conversion
  | integer | floating
  deriving DecidableEq

/-- Where the ABI places an argument. -/
inductive Slot
  | general (index : ℕ) | vector (index : ℕ) | stack (index : ℕ)

/-- The slots of the stack, shared by the two kinds, that the arguments `before` take in a
call with so many fixed ones. -/
def stackSlots (fixed : ℕ) (before : List Conversion) : ℕ :=
  fixed + before.count .integer - 6 + (before.count .floating - 8)

/-- The slot of an argument behind those of `before`: a register of its kind while there is
one, and then the next slot of the stack. -/
def abiSlot (fixed : ℕ) (before : List Conversion) : Conversion → Slot
  | .integer =>
    if fixed + before.count .integer < 6 then .general (fixed + before.count .integer)
    else .stack (stackSlots fixed before)
  | .floating =>
    if before.count .floating < 8 then .vector (before.count .floating)
    else .stack (stackSlots fixed before)

theorem forall_abiSlot {P : Slot → Prop} (hgeneral : ∀ i < 6, P (.general i))
    (hvector : ∀ i < 8, P (.vector i)) (hstack : ∀ i, P (.stack i)) (fixed : ℕ)
    (before : List Conversion) (k : Conversion) : P (abiSlot fixed before k) := by
  cases k <;> rw [abiSlot] <;> split
  exacts [hgeneral _ ‹_›, hstack _, hvector _ ‹_›, hstack _]

/-- The word a call has in a slot. -/
def HleCallContext.word (c : HleCallContext) : Slot → Option ℕ
  | .general index => c.argument index
  | .vector index => (c.vectorArgument index).map doubleBits
  | .stack index => c.argument (6 + index)

/-- The word a `va_list` has in a slot. -/
def VaListArgumentSource.word (v : VaListArgumentSource) (c : HleCallContext) : Slot → Option ℕ
  | .general index => c.readUInt64 (v.registerSaveArea + 8 * index)
  | .vector index => c.readUInt64 (v.registerSaveArea + (kGpSaveAreaBytes + 16 * index))
  | .stack index => c.readUInt64 (v.overflowArea + 8 * index)

/-- A slot that has a word in the call and in the `va_list` has the same one. -/
abbrev Agree (c : HleCallContext) (v : VaListArgumentSource) (slot : Slot) : Prop :=
  ∀ a ∈ c.word slot, ∀ b ∈ v.word c slot, a = b

/-- The `va_list` is that of the call before its first variadic argument: it starts behind the
fixed arguments and agrees with the call about the slots of the others. -/
structure SameCall (c : HleCallContext) (fixed : ℕ) (v : VaListArgumentSource) : Prop where
  save : v.registerSaveArea ≠ 0
  gpOffset : v.gpOffset = 8 * fixed
  fpOffset : v.fpOffset = kGpSaveAreaBytes
  agree : ∀ before k, Agree c v (abiSlot fixed before k)

/-! ## The two cursors -/

variable {c : HleCallContext} {fixed : ℕ} {before : List Conversion} {k : Conversion}

theorem fetched_eq_ok {σ : Type} {failure : HleContextStatus} {word : Option ℕ} {s : σ} {p : ℕ × σ}
    (h : fetched failure s word = .ok p) : word = some p.1 ∧ p.2 = s := by
  cases word with
  | none => cases h
  | some value =>
    cases h
    exact ⟨rfl, rfl⟩

namespace PrintfArgumentSource

variable {σ : Type} [PrintfArgumentSource σ]

def next (c : HleCallContext) (s : σ) : Conversion → Fetch σ
  | .integer => nextInteger c s
  | .floating => nextFloat c s

/-- The argument fetched when those of `before` were. -/
def fetchAfter (c : HleCallContext) (s : σ) :
    List Conversion → Conversion → Except HleContextStatus ℕ
  | [], k => do return (← next c s k).1
  | first :: before, k => do fetchAfter c (← next c s first).2 before k

/-- A source whose fetches take the words of the slots, one after the other, does so after
any number of them. -/
theorem fetchAfter_eq_ok (place : List Conversion → σ) {word : Slot → Option ℕ}
    (hstep : ∀ {before k p}, next c (place before) k = .ok p →
      word (abiSlot fixed before k) = some p.1 ∧ p.2 = place (before ++ [k]))
    (done : List Conversion) {a : ℕ} (h : fetchAfter c (place done) before k = .ok a) :
    word (abiSlot fixed (done ++ before) k) = some a := by
  induction before generalizing done with
  | nil =>
    obtain ⟨p, hp, ha⟩ := exists_of_bind_eq_ok h
    cases ha
    simpa using (hstep hp).1
  | cons first before ih =>
    obtain ⟨p, hp, h⟩ := exists_of_bind_eq_ok h
    rw [(hstep hp).2] at h
    simpa using ih _ h

end PrintfArgumentSource

open PrintfArgumentSource

namespace RegisterArgumentSource

variable {s : RegisterArgumentSource}

/-- The slot a fetch takes, and where it leaves the source. -/
def take (s : RegisterArgumentSource) : Conversion → Slot × RegisterArgumentSource
  | .integer =>
    if s.gpIndex < 6 then (.general s.gpIndex, { s with gpIndex := s.gpIndex + 1 })
    else (.stack s.stackIndex, { s with stackIndex := s.stackIndex + 1 })
  | .floating =>
    if s.fpIndex < kHleVectorArgumentRegisterCount then
      (.vector s.fpIndex, { s with fpIndex := s.fpIndex + 1 })
    else (.stack s.stackIndex, { s with stackIndex := s.stackIndex + 1 })

theorem next_eq : next c s k = fetched .kInvalidArgument (s.take k).2 (c.word (s.take k).1) := by
  cases k with
  | integer =>
    change s.nextInteger c = _
    rw [nextInteger, take]
    split <;> rfl
  | floating =>
    change s.nextFloat c = _
    rw [nextFloat, take]
    split <;> rfl

/-- The source behind the arguments `before`. -/
def behind (fixed : ℕ) (before : List Conversion) : RegisterArgumentSource where
  gpIndex := min 6 (fixed + before.count .integer)
  fpIndex := min 8 (before.count .floating)
  stackIndex := stackSlots fixed before

theorem take_behind : (behind fixed before).take k =
    (abiSlot fixed before k, behind fixed (before ++ [k])) := by
  cases k <;> simp only [take, abiSlot, behind, kHleVectorArgumentRegisterCount, min_lt_iff,
    lt_self_iff_false, false_or] <;> split_ifs <;> simp [stackSlots] <;> omega

end RegisterArgumentSource

namespace VaListArgumentSource

variable {v : VaListArgumentSource} {p : ℕ × VaListArgumentSource}

theorem bind_addAddressOffset {address offset a : ℕ} {f : ℕ → Option ℕ}
    (h : (addAddressOffset address offset).bind f = some a) : f (address + offset) = some a := by
  rw [addAddressOffset] at h
  split at h
  · cases h
  · exact h

theorem nextWord_eq_ok {s moved : VaListArgumentSource} {offset limit : ℕ}
    (h : s.nextWord c offset limit moved = .ok p) :
    if s.registerSaveArea ≠ 0 ∧ offset ≤ limit then
      c.readUInt64 (s.registerSaveArea + offset) = some p.1 ∧ p.2 = moved
    else c.readUInt64 s.overflowArea = some p.1 ∧
      p.2 = { s with overflowArea := s.overflowArea + 8 } := by
  rw [nextWord] at h
  split_ifs at h ⊢ <;> exact (fetched_eq_ok h).imp_left bind_addAddressOffset

/-- The source of the `va_list` where the source of the call stands at `s`. -/
def matching (v : VaListArgumentSource) (s : RegisterArgumentSource) : VaListArgumentSource where
  gpOffset := 8 * s.gpIndex
  fpOffset := kGpSaveAreaBytes + 16 * s.fpIndex
  overflowArea := v.overflowArea + 8 * s.stackIndex
  registerSaveArea := v.registerSaveArea

theorem next_matching (hsave : v.registerSaveArea ≠ 0) {s : RegisterArgumentSource}
    (h : next c (v.matching s) k = .ok p) :
    v.word c (s.take k).1 = some p.1 ∧ p.2 = v.matching (s.take k).2 := by
  have hgp : 8 * s.gpIndex ≤ kGpSaveAreaBytes - 8 ↔ s.gpIndex < 6 := by
    rw [kGpSaveAreaBytes]
    omega
  have hfp : kGpSaveAreaBytes + 16 * s.fpIndex ≤ kFpSaveAreaEnd - 16 ↔
      s.fpIndex < kHleVectorArgumentRegisterCount := by
    rw [kGpSaveAreaBytes, kFpSaveAreaEnd, kHleVectorArgumentRegisterCount]
    omega
  cases k <;>
  · have hok := nextWord_eq_ok h
    simp only [matching, hgp, hfp, hsave, ne_eq, not_false_eq_true, true_and] at hok
    rw [RegisterArgumentSource.take]
    split_ifs at hok ⊢ <;> exact hok

end VaListArgumentSource

variable {v : VaListArgumentSource} {address : ℕ}

open RegisterArgumentSource

theorem SameCall.fixed_le (h : SameCall c fixed v) (hmake : makeVaListSource c address = some v) :
    fixed ≤ 6 := by
  simp only [makeVaListSource, Option.bind_eq_bind, Option.bind_eq_some_iff] at hmake
  obtain ⟨_, -, gp, -, _, -, fp, -, area, -, save, -, _, hbound, hv⟩ := hmake
  have hgp := ((Option.guard_eq_some' _).mp hbound).1
  cases hv
  have hfixed : gp = 8 * fixed := h.gpOffset
  rw [kGpSaveAreaBytes] at hgp
  omega

/-- After the same fetches the source of a call and that of its `va_list` hand out the same
argument, each from the slot of the ABI. -/
theorem sources_agree (hmake : makeVaListSource c address = some v) (hsame : SameCall c fixed v)
    (before : List Conversion) (k : Conversion) {a b : ℕ}
    (ha : fetchAfter c ({ gpIndex := fixed } : RegisterArgumentSource) before k = .ok a)
    (hb : fetchAfter c v before k = .ok b) :
    a = b ∧ c.word (abiSlot fixed before k) = some a ∧
      v.word c (abiSlot fixed before k) = some b := by
  have hreg : { gpIndex := fixed } = behind fixed [] := by
    simp [behind, stackSlots, hsame.fixed_le hmake]
  have hva : v = v.matching { gpIndex := fixed } := by
    simp [VaListArgumentSource.matching, ← hsame.gpOffset, ← hsame.fpOffset]
  rw [hva, hreg] at hb
  rw [hreg] at ha
  have hword := fetchAfter_eq_ok (behind fixed) (fun h => by
    rw [next_eq, take_behind] at h
    exact fetched_eq_ok h) [] ha
  have hread := fetchAfter_eq_ok (fun before => v.matching (.behind fixed before)) (fun h => by
    have hnext := VaListArgumentSource.next_matching hsame.save h
    rwa [take_behind] at hnext) [] hb
  exact ⟨hsame.agree before k a hword b hread, hword, hread⟩

/-- A call with words in the six registers, on the stack and in a vector register, and with a
`va_list` behind its first argument. -/
def variadicCall (m : GuestMemory) : HleCallContext where
  world := ⟨{ m with bytes := fun offset =>
    ([(0, 8), (4, 48), (8, 44), (16, 52), (24, 77), (32, 1), (40, 2), (48, 3), (56, 4), (64, 5),
      (72, 6), (80, 9)].lookup offset).getD 0 }, fun _ => .create 0⟩
  registers reg := kArgumentRegisters.idxOf reg + 1
  capturedStackArguments := [77]
  capturedVectorArguments := [(Vector.replicate 16 0).set 0 9]

/-- The sixth integer behind the first argument is on the stack, the first floating number in a
vector register. -/
theorem variadic_call_agrees : ∃ m, GuestMemory.create 20 256 kRead = some m ∧
    makeVaListSource (variadicCall m) 20 = some ⟨8, 48, 44, 52⟩ ∧
      (variadicCall m).word (abiSlot 1 [.integer, .floating, .integer, .integer, .integer, .integer]
        .integer) = some 77 ∧ (variadicCall m).word (abiSlot 1 [.integer] .floating) = some 9 := by
  refine ⟨_, rfl, rfl, (@sources_agree _ 1 ⟨8, 48, 44, 52⟩ 20 rfl ?same _ .integer 77 77 rfl
    rfl).2.1, (@sources_agree _ 1 _ 20 rfl ?same _ .floating 9 9 rfl rfl).2.1⟩
  refine ⟨by decide, rfl, rfl, forall_abiSlot ?_ ?_ (fun i => ?_) 1⟩
  · decide
  · decide
  cases i with
  | zero => decide
  | succ i =>
    intro a ha
    rw [HleCallContext.word, Nat.add_comm 6] at ha
    cases ha

end KajPS5.Hle
