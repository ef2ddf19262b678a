/-
# Splitting a range into chunks

Loops over a byte range that advance by a chunk whose length depends only on the
current position and on what remains all visit the same list of chunks. This
module makes that list a value. When every step makes progress without
overshooting, the chunks laid end to end are exactly the addresses of the range,
in order, so a fact about each chunk becomes a fact about each address.
-/

import Mathlib.Algebra.Order.Ring.Nat
import Mathlib.Data.List.Basic

namespace KajPS5.Math

open List

/-- The chunks visited from `current` with `remaining` addresses to go. The
first argument bounds the number of iterations. -/
def chunks (step : ℕ → ℕ → ℕ) : ℕ → ℕ → ℕ → List (ℕ × ℕ)
  | 0, _, _ => []
  | fuel + 1, current, remaining =>
    if remaining = 0 then []
    else
      (current, step current remaining) :: chunks step fuel (current + step current remaining)
          (remaining - step current remaining)

/-- The chunks of a whole range. One iteration per address is always enough
for a loop that makes progress. -/
def chunksOf (step : ℕ → ℕ → ℕ) (address length : ℕ) : List (ℕ × ℕ) :=
  chunks step length address length

/-- Each step consumes at least one address and no more than remain. -/
def Advances (step : ℕ → ℕ → ℕ) : Prop :=
  ∀ current remaining, 0 < remaining →
    0 < step current remaining ∧ step current remaining ≤ remaining

/-- The addresses of a chunk. -/
def chunkAddresses (chunk : ℕ × ℕ) : List ℕ := List.range' chunk.1 chunk.2

variable {step : ℕ → ℕ → ℕ} {chunk : ℕ × ℕ} {fuel remaining : ℕ}

theorem mem_chunkAddresses {a : ℕ} :
    a ∈ chunkAddresses chunk ↔ chunk.1 ≤ a ∧ a < chunk.1 + chunk.2 := by
  simp [chunkAddresses]

/-- The loop is an induction on the addresses left: a chunk of the range is the
first one or a chunk of the rest. -/
theorem chunks_cons (hstep : Advances step) (current : ℕ) (hpos : 0 < remaining)
    (hfuel : remaining ≤ fuel) :
    ∃ fuel', remaining - step current remaining ≤ fuel' ∧
      chunks step fuel current remaining = (current, step current remaining) ::
        chunks step fuel' (current + step current remaining)
          (remaining - step current remaining) := by
  cases fuel with
  | zero => omega
  | succ fuel =>
    have hprogress := hstep current _ hpos
    exact ⟨fuel, by omega, by rw [chunks, if_neg (by omega)]⟩

theorem chunks_zero (step : ℕ → ℕ → ℕ) (fuel current : ℕ) : chunks step fuel current 0 = [] := by
  cases fuel <;> simp [chunks]

variable {current address length : ℕ}

section

variable (hstep : Advances step)
include hstep

/-- End to end, the chunks are the addresses of the range in order. -/
theorem flatMap_chunks (hfuel : remaining ≤ fuel) :
    (chunks step fuel current remaining).flatMap chunkAddresses =
      List.range' current remaining := by
  induction hn : remaining using Nat.strong_induction_on generalizing fuel current remaining with
  | _ n ih =>
    subst hn
    rcases Nat.eq_zero_or_pos remaining with rfl | hpos
    · simp [chunks_zero]
    obtain ⟨fuel', hfuel', hcons⟩ := chunks_cons hstep _ hpos hfuel
    have hprogress := hstep current _ hpos
    rw [hcons, flatMap_cons, ih _ (by omega) hfuel' rfl, chunkAddresses, range'_append_1]
    congr 1
    omega

theorem flatMap_chunksOf (address length : ℕ) :
    (chunksOf step address length).flatMap chunkAddresses = List.range' address length :=
  flatMap_chunks hstep le_rfl

/-- What every chunk does to its own addresses, the loop does to the range. -/
theorem flatMap_chunksOf_map {β : Type*} {body : ℕ × ℕ → List β} {f : ℕ → β}
    (hbody : ∀ chunk ∈ chunksOf step address length, body chunk = (chunkAddresses chunk).map f) :
    (chunksOf step address length).flatMap body = (List.range' address length).map f := by
  rw [← flatMap_chunksOf hstep, map_flatMap]
  exact flatMap_congr hbody

/-- A chunk that the loop visits is one the step function proposed, inside the
range. -/
theorem mem_chunks (hmem : chunk ∈ chunks step fuel current remaining) :
    current ≤ chunk.1 ∧ 0 < chunk.2 ∧ chunk.1 + chunk.2 ≤ current + remaining ∧
      chunk.2 = step chunk.1 (current + remaining - chunk.1) := by
  induction fuel generalizing current remaining with
  | zero => simp [chunks] at hmem
  | succ fuel ih =>
    rw [chunks] at hmem
    split_ifs at hmem with hzero
    · simp at hmem
    have hprogress := hstep current remaining (by omega)
    rcases mem_cons.mp hmem with rfl | hmem
    · refine ⟨le_rfl, hprogress.1, by simp only; omega, ?_⟩
      simp only
      congr 1
      omega
    · obtain ⟨hlo, hpos, hhi, hlen⟩ := ih hmem
      refine ⟨by omega, hpos, by omega, ?_⟩
      rw [hlen]
      congr 1
      omega

theorem mem_chunksOf (hmem : chunk ∈ chunksOf step address length) :
    address ≤ chunk.1 ∧ 0 < chunk.2 ∧ chunk.1 + chunk.2 ≤ address + length ∧
      chunk.2 = step chunk.1 (address + length - chunk.1) :=
  mem_chunks hstep hmem

end

/-- If each chunk overwrites its own addresses with `f` and leaves the others
alone, running over a list of chunks overwrites all their addresses. `P` is
whatever the body needs to know about the state. -/
theorem foldl_overwrite {σ β : Type*} (observe : σ → ℕ → β) (body : σ → ℕ × ℕ → σ) (f : ℕ → β)
    (P : σ → Prop) {l : List (ℕ × ℕ)}
    (hbody : ∀ s, ∀ chunk ∈ l, P s → P (body s chunk) ∧ ∀ a, observe (body s chunk) a =
        if a ∈ chunkAddresses chunk then f a else observe s a)
    (s : σ) (hs : P s) :
    P (l.foldl body s) ∧ ∀ a, observe (l.foldl body s) a =
      if a ∈ l.flatMap chunkAddresses then f a else observe s a := by
  induction l generalizing s with
  | nil => exact ⟨hs, fun a => by simp⟩
  | cons chunk l ih =>
    obtain ⟨hP, hobs⟩ := hbody s _ mem_cons_self hs
    obtain ⟨hP', hobs'⟩ := ih (fun s' c hc => hbody _ c (mem_cons_of_mem _ hc))
      (body s chunk) hP
    refine ⟨hP', fun a => ?_⟩
    rw [foldl_cons, hobs' a, hobs a, flatMap_cons]
    by_cases hfirst : a ∈ chunkAddresses chunk <;>
      by_cases hrest : a ∈ l.flatMap chunkAddresses <;>
        simp [hrest]

end KajPS5.Math
