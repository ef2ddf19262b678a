/-
# Guest memory generations

A generation is a 128-bit logical clock kept as two 64-bit words. Advancing it
rolls the sequence over into the epoch and reports exhaustion instead of
wrapping, so a newly advanced generation is always later than every earlier one.
-/

import Mathlib.Algebra.Order.Ring.Nat
import Mathlib.Data.Prod.Lex

namespace KajPS5.Memory

/-- The largest `std::uint64_t`. -/
def uint64Max : ℕ := 2 ^ 64 - 1

@[ext]
structure GuestMemoryGeneration where
  (epoch sequence : ℕ := 0)
  deriving DecidableEq, Repr

namespace GuestMemoryGeneration

/-- The two words as one lexicographically ordered key. -/
def key (g : GuestMemoryGeneration) : ℕ ×ₗ ℕ := toLex (g.epoch, g.sequence)

theorem key_injective : Function.Injective key := by
  intro first second heq
  have hpair : (first.epoch, first.sequence) = (second.epoch, second.sequence) := heq
  exact GuestMemoryGeneration.ext (congrArg Prod.fst hpair) (congrArg Prod.snd hpair)

/-- The defaulted `operator<=>` compares the epoch first. -/
instance : LinearOrder GuestMemoryGeneration := LinearOrder.lift' key key_injective

theorem lt_iff (first second : GuestMemoryGeneration) :
    first < second ↔ first.epoch < second.epoch ∨
      first.epoch = second.epoch ∧ first.sequence < second.sequence :=
  Prod.Lex.toLex_lt_toLex

end GuestMemoryGeneration

/-- `AdvanceGuestMemoryGeneration`: the next generation, or `none` when both
words are exhausted and the argument stays as it was. -/
def advanceGuestMemoryGeneration (generation : GuestMemoryGeneration) :
    Option GuestMemoryGeneration :=
  if generation.sequence ≠ uint64Max then
    some { generation with sequence := generation.sequence + 1 }
  else if generation.epoch = uint64Max then none
  else some { epoch := generation.epoch + 1, sequence := 1 }

/-- An advanced generation is later than the one it came from. -/
theorem lt_of_advance {g next : GuestMemoryGeneration}
    (h : advanceGuestMemoryGeneration g = some next) : g < next := by
  rw [advanceGuestMemoryGeneration] at h
  rw [GuestMemoryGeneration.lt_iff]
  split_ifs at h with hsequence hepoch
  · cases h
    exact .inr ⟨rfl, Nat.lt_succ_self _⟩
  · cases h
    exact .inl (Nat.lt_succ_self _)

end KajPS5.Memory
