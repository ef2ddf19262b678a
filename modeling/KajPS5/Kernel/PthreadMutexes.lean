/-
# Mutexes

A mutex fits if it is free and unused or held by a thread that does not wait for it, and if its
waiters stand in the order in which they started to wait. The mutexes fit the scheduler if the
threads that are blocked under mutex keys are exactly the waiters. Every call keeps both; a
mutex that is left is handed to its first waiter, so nobody waits for a free mutex.
-/

import KajPS5.Kernel.PthreadCalls

namespace KajPS5.Kernel

open Math GuestScheduler List

/-! ## One mutex -/

namespace MutexState

/-- The mutex is consistent. -/
structure Fits (arrived : ℕ → ℕ) (m : MutexState) : Prop where
  free : m.owner = invalidKernelHandle →
    m.waiters = [] ∧ m.grantedWaiters = ∅ ∧ m.recursionCount = 0
  held : m.owner ≠ invalidKernelHandle → 1 ≤ m.recursionCount
  granted : ∀ thread ∈ m.grantedWaiters, thread = m.owner
  ordered : m.waiters.Pairwise (arrived · < arrived ·)
  owner : m.owner ∉ m.waiters
  positive : invalidKernelHandle ∉ m.waiters

variable {arrived : ℕ → ℕ} {m m' : MutexState} {current : ℕ}

theorem Fresh.fits (h : m.Fresh) : m.Fits arrived where
  free _ := ⟨h.waiters, h.grantedWaiters, h.recursionCount⟩
  held hheld := absurd h.owner hheld
  granted _ hmem := by simp [h.grantedWaiters] at hmem
  ordered := h.waiters ▸ List.Pairwise.nil
  owner := by simp [h.waiters]
  positive := by simp [h.waiters]

section

variable (h : m.Fits arrived)
include h

/-- The count of condition waits does not matter. -/
theorem Fits.recount (conditionWaiterCount : ℕ) : { m with conditionWaiterCount }.Fits arrived :=
  { h with }

/-- The arrival of a thread that does not wait for the mutex does not matter. -/
theorem Fits.stamp (hout : current ∉ m.waiters) (time : ℕ) :
    m.Fits (Function.update arrived current time) where
  __ := h
  ordered := by
    refine h.ordered.imp_of_mem fun {a b} ha hb hlt => ?_
    rwa [Function.update_of_ne (ne_of_mem_of_not_mem ha hout),
      Function.update_of_ne (ne_of_mem_of_not_mem hb hout)]

variable {tryOnly : Bool}

/-- A thread that gets an answer leaves the waiters as they are. -/
theorem Fits.answer {status : KernelStatus} (hlocks : Locks current tryOnly m (some status, m'))
    (hcur : 0 < current) : m'.Fits arrived ∧ m'.waiters = m.waiters := by
  cases hlocks with
  | acquire howner =>
    obtain ⟨hwaiters, hgrant, -⟩ := h.free howner
    refine ⟨⟨?_, fun _ => le_rfl, ?_, ?_, ?_, ?_⟩, rfl⟩
    · intro hzero
      exact absurd hzero hcur.ne'
    all_goals simp [hwaiters, hgrant]
  | granted howner hheld hgrant =>
    refine ⟨⟨fun hfree => absurd hfree hheld, h.held, ?_, h.ordered, h.owner, h.positive⟩, rfl⟩
    exact fun thread hmem => h.granted _ (Finset.mem_of_mem_erase hmem)
  | again howner hheld _ _ _ recursionCount hle =>
    exact ⟨⟨fun hfree => absurd hfree hheld, fun hne => (h.held hne).trans hle, h.granted,
      h.ordered, h.owner, h.positive⟩, rfl⟩
  | refuse => exact ⟨h, rfl⟩

/-- A thread that has to wait is the last waiter. -/
theorem Fits.wait {time : ℕ} (hlocks : Locks current tryOnly m (none, m')) (hcur : 0 < current)
    (hout : current ∉ m.waiters) (hrecent : ∀ thread, arrived thread < time) :
    m'.Fits (Function.update arrived current time) ∧ m'.waiters = m.waiters ++ [current] := by
  generalize hres : ((none : Option KernelStatus), m') = result at hlocks
  cases hlocks with
  | wait howner hheld htry =>
    rw [if_neg hout] at hres
    obtain ⟨-, rfl⟩ := hres
    have hstamped := h.stamp hout time
    refine ⟨⟨fun hfree => absurd hfree hheld, h.held, h.granted, ?_, ?_, ?_⟩, rfl⟩
    · refine pairwise_append.mpr ⟨hstamped.ordered, pairwise_singleton _ _, ?_⟩
      intro a ha b hb
      rw [mem_singleton.mp hb, Function.update_self,
        Function.update_of_ne (ne_of_mem_of_not_mem ha hout)]
      exact hrecent a
    · simp [h.owner, howner]
    · rw [mem_append, mem_singleton, not_or]
      exact ⟨h.positive, hcur.ne⟩
  | _ => cases hres

/-- The owner leaves: the first waiter is the new owner, and only it stops waiting. -/
theorem Fits.leave (handle : ℕ) (howner : m.owner = current) :
    (m.leave handle current).2.Fits arrived ∧
      ∀ thread, thread ∈ (m.leave handle current).2.waiters ↔
        thread ∈ m.waiters ∧ (m.leave handle current).1 ≠ some (mutexWaitKey handle thread) := by
  have hgrant : m.grantedWaiters.erase current = ∅ := by
    ext thread
    simp only [Finset.mem_erase, Finset.notMem_empty, iff_false, not_and]
    intro hne hmem
    exact hne ((h.granted _ hmem).trans howner)
  rcases m.leave_cases handle current with
    ⟨hwaiters, hleave⟩ | ⟨next, waiters, hwaiters, hleave⟩
  · rw [hleave]
    refine ⟨⟨fun _ => ⟨hwaiters, hgrant, rfl⟩, fun hne => absurd rfl hne, ?_, h.ordered,
      h.positive, h.positive⟩, ?_⟩
    · simp [hgrant]
    · simp
  · rw [hleave]
    have hord := h.ordered
    have hpositive := h.positive
    rw [hwaiters] at hord hpositive
    rw [pairwise_cons] at hord
    rw [mem_cons, not_or] at hpositive
    have hnext : next ∉ waiters := fun hmem => lt_irrefl _ (hord.1 next hmem)
    refine ⟨⟨fun hzero => absurd hzero.symm hpositive.1, fun _ => le_rfl, ?_, hord.2, hnext,
      hpositive.2⟩, ?_⟩
    · simp [hgrant]
    intro thread
    simp only [hwaiters, mem_cons, ne_eq, Option.some.injEq, mutexWaitKey_inj, true_and]
    constructor
    · intro hmem
      exact ⟨.inr hmem, (ne_of_mem_of_not_mem hmem hnext).symm⟩
    · rintro ⟨rfl | hmem, hne⟩
      · exact absurd rfl hne
      · exact hmem

end

end MutexState

/-! ## All mutexes -/

/-- The thread waits for the mutex. -/
def mutexQueue (mutexes : Std.ExtTreeMap ℕ MutexState) (handle thread : ℕ) : Prop :=
  ∃ m, mutexes[handle]? = some m ∧ thread ∈ m.waiters

/-- Every mutex is consistent, and the scheduler blocks exactly the waiters. -/
structure MutexesFit (arrived : ℕ → ℕ) (mutexes : Std.ExtTreeMap ℕ MutexState)
    (s : GuestScheduler) : Prop where
  fits : ∀ (handle : ℕ) m, mutexes[handle]? = some m → m.Fits arrived
  listed : Listed mutexWaitKey (mutexQueue mutexes) s

namespace MutexesFit

variable {arrived : ℕ → ℕ} {mutexes : Std.ExtTreeMap ℕ MutexState} {s s' : GuestScheduler}

theorem initial : MutexesFit arrived ∅ {} where
  fits _ m h := by simp at h
  listed handle object thread deadline := by simp [waitOf, mutexQueue]

section

variable (h : MutexesFit arrived mutexes s)
include h

/-- The waits under mutex keys are the same. -/
theorem withListed
    (hlisted : Listed mutexWaitKey (mutexQueue mutexes) s') : MutexesFit arrived mutexes s' :=
  ⟨h.fits, hlisted⟩

/-- A thread that waits for no mutex starts to wait for something else. -/
theorem stamp {current : ℕ} (hout : ∀ handle, ¬ mutexQueue mutexes handle current) (time : ℕ) :
    MutexesFit (Function.update arrived current time) mutexes s where
  fits _ m hfound := (h.fits _ m hfound).stamp (fun hmem => hout _ ⟨m, hfound, hmem⟩) time
  listed := h.listed

theorem not_waiting {current handle : ℕ} {m : MutexState} (hnone : s.waitOf current = none)
    (hfound : mutexes[handle]? = some m) : current ∉ m.waiters :=
  fun hmem => h.listed.not_queue hnone _ ⟨m, hfound, hmem⟩

end

theorem mutexQueue_insert {handle other thread : ℕ} {m' : MutexState} :
    mutexQueue (mutexes.insert handle m') other thread ↔
      if handle = other then thread ∈ m'.waiters else mutexQueue mutexes other thread := by
  simp only [mutexQueue, OrderedMaps.getElem?_insert]
  split
  · simp
  · rfl

section

variable (h : MutexesFit arrived mutexes s)
include h

variable {handle : ℕ} {mutexes' : Std.ExtTreeMap ℕ MutexState}

/-- A mutex is changed and keeps its waiters. -/
theorem put {m m' : MutexState} (hfound : mutexes[handle]? = some m) (hfits : m'.Fits arrived)
    (hwaiters : m'.waiters = m.waiters) : MutexesFit arrived (mutexes.insert handle m') s where
  fits := OrderedMaps.forall_insert hfits fun other found _ => h.fits _ _
  listed := by
    apply h.listed.congr
    intro other thread
    rw [mutexQueue_insert]
    split
    next heq => simp [← heq, mutexQueue, hfound, hwaiters]
    · rfl

/-- The current thread is put on the waiting list of a mutex. -/
theorem enqueue {current : ℕ} {m m' : MutexState} {time : ℕ} (hfound : mutexes[handle]? = some m)
    {tryOnly : Bool} (hlocks : MutexState.Locks current tryOnly m (none, m')) (hcur : 0 < current)
    (hnone : s.waitOf current = none) (hrecent : ∀ thread, arrived thread < time)
    (hblocks : Blocks current (mutexWaitKey handle current, none) s s') :
    MutexesFit (Function.update arrived current time) (mutexes.insert handle m') s' := by
  have hout := h.not_waiting hnone hfound
  obtain ⟨hfits, hwaiters⟩ := (h.fits _ m hfound).wait hlocks hcur hout hrecent
  refine ⟨OrderedMaps.forall_insert hfits fun other found _ => ?_, ?_⟩
  · exact (h.stamp (h.listed.not_queue hnone) _).fits _ _
  · apply (h.listed.enqueue mutexWaitKey_inj hblocks hnone).congr
    intro other thread
    rw [mutexQueue_insert, hwaiters]
    by_cases heq : handle = other
    · subst heq
      simp [mutexQueue, hfound]
    · simp [heq, Ne.symm heq]

/-- Some mutexes are left by their owner, and the threads that got them are woken. -/
theorem handOver {may : String → Prop} {now current : ℕ} (left : ℕ → MutexState → Bool)
    (hleft : ∀ (handle : ℕ) m, mutexes[handle]? = some m → left handle m = true →
      m.owner = current) (hmutexes : ∀ handle : ℕ, mutexes'[handle]? = mutexes[handle]?.map fun m =>
      if left handle m then (m.leave handle current).2 else m)
    (hmay : ∀ handle thread, may (mutexWaitKey handle thread) ↔
      ∃ m, mutexes[handle]? = some m ∧ left handle m = true ∧
        (m.leave handle current).1 = some (mutexWaitKey handle thread))
    (hawakes : Awakes may now s s') (hnone : ∀ key, may key → s'.NoneWaits key) :
    MutexesFit arrived mutexes' s' := by
  refine ⟨fun handle found hfound => ?_, ?_⟩
  · rw [hmutexes] at hfound
    obtain ⟨m, hm, rfl⟩ := Option.map_eq_some_iff.mp hfound
    have hfits := h.fits _ m hm
    split
    next hl => exact (hfits.leave _ (hleft _ m hm hl)).1
    · exact hfits
  · apply (h.listed.dequeue hawakes fun object thread => hnone _).congr
    intro handle thread
    rw [hmay]
    simp only [mutexQueue, hmutexes]
    cases hm : mutexes[handle]? with
    | none => simp
    | some m =>
      have hfits := h.fits _ m hm
      simp only [Option.some.injEq, exists_eq_left', Option.map_some]
      split
      next hl =>
        rw [(hfits.leave _ (hleft _ m hm hl)).2]
        simp [hl]
      next hl => simp [hl]

/-- An unused mutex is created, or an idle one goes. -/
theorem exchanged (hexchanged : Exchanged MutexState.Fresh (·.busy = false) mutexes mutexes') :
    MutexesFit arrived mutexes' s where
  fits handle m hfound := by
    rcases hexchanged.of_after hfound with hpre | ⟨-, hfresh⟩
    · exact h.fits _ m hpre
    · exact hfresh.fits
  listed := by
    apply h.listed.congr
    intro handle thread
    constructor
    · rintro ⟨m, hfound, hmem⟩
      rcases hexchanged.of_before hfound with hafter | hidle
      · exact ⟨m, hafter, hmem⟩
      · simp only [MutexState.busy, decide_eq_false_iff_not, not_or, not_not] at hidle
        simp [hidle.2.1] at hmem
    · rintro ⟨m, hfound, hmem⟩
      rcases hexchanged.of_after hfound with hpre | ⟨-, hfresh⟩
      · exact ⟨m, hpre, hmem⟩
      · simp [hfresh.waiters] at hmem

end

end MutexesFit

end KajPS5.Kernel
