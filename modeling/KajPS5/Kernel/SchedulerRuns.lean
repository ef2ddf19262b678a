/-
# Runs of the guest scheduler

A call is made of acts, of which it may do those it has the permissions for. `Moves` is
the state machine of one thread. Every act moves every thread along it, so an exited
thread stays as it is and a thread has a wait key exactly while it is blocked.
`Scheduled` says how the ready queue and the current thread reflect the states of the
threads; all acts keep it. A selection leaves no thread blocked whose deadline its
reading of the clock has reached. A thread that stays ready is passed over no more often
than there were threads ahead of it.
-/

import KajPS5.Kernel.GuestScheduler
import KajPS5.Math.StepRuns
import Mathlib.Data.List.Nodup

namespace KajPS5.Kernel

open Math OrderedMaps StepRuns GuestThread HandleTable Option

/-! ## The state machine of a thread -/

/-- One move of a thread, which may not exist before or after it. -/
inductive Moves : Option GuestThread → Option GuestThread → Prop
  | create (thread : GuestThread) (hready : thread.state = .kReady) (hkey : thread.waitKey = "") :
      Moves none (some thread)
  | discard (thread : GuestThread) (hready : thread.state = .kReady) : Moves (some thread) none
  | select (thread : GuestThread) (hready : thread.state = .kReady) :
      Moves (some thread) (some { thread with state := .kRunning })
  | yield (thread : GuestThread) (hrunning : thread.state = .kRunning) :
      Moves (some thread) (some { thread with state := .kReady })
  | block (thread : GuestThread) (hrunning : thread.state = .kRunning) (waitKey : String)
      (hkey : waitKey ≠ "") (deadline : Option ℕ) :
      Moves (some thread) (some (thread.block waitKey deadline))
  | exit (thread : GuestThread) (hrunning : thread.state = .kRunning) (exitValue : ℕ) :
      Moves (some thread) (some (thread.exit exitValue))
  | wake (thread : GuestThread) (hblocked : thread.state = .kBlocked) :
      Moves (some thread) (some thread.wake)
  | expire (thread : GuestThread) (hblocked : thread.state = .kBlocked) :
      Moves (some thread) (some thread.expire)
  | forget (thread : GuestThread) (hrunning : thread.state = .kRunning) :
      Moves (some thread) (some { thread with timedOutWaitKey := "" })

/-- The thread has a wait key exactly while it is blocked. -/
def GuestThread.KeyFits (thread : GuestThread) : Prop :=
  thread.state = .kBlocked ↔ thread.waitKey ≠ ""

/-- An exited thread moves no more. -/
theorem Moves.not_of_exited {thread : GuestThread} (h : thread.state = .kExited)
    (after : Option GuestThread) : ¬ Moves (some thread) after := by
  intro hmove
  cases hmove <;> simp_all

/-- Some moves of a thread, one after the other. -/
abbrev Moved : Option GuestThread → Option GuestThread → Prop := Relation.ReflTransGen Moves

theorem Moved.eq_of_exited {thread : GuestThread} {after : Option GuestThread}
    (h : Moved (some thread) after) (hexited : thread.state = .kExited) : after = some thread := by
  rcases Relation.ReflTransGen.cases_head h with rfl | ⟨_, hmove, -⟩
  · rfl
  · exact absurd hmove (Moves.not_of_exited hexited _)

namespace GuestScheduler

/-! ## Looking threads up -/

variable {handle : ℕ}

variable {s : GuestScheduler} {thread : GuestThread} {woken : List ℕ}

theorem mem_handlesWhere {p : GuestThread → Bool} :
    handle ∈ s.handlesWhere p ↔ ∃ thread, s.threads[handle]? = some thread ∧ p thread = true := by
  simp [handlesWhere]

theorem nodup_handlesWhere (s : GuestScheduler) (p : GuestThread → Bool) :
    (s.handlesWhere p).Nodup := by
  rw [handlesWhere, List.Nodup, List.pairwise_map]
  apply List.Pairwise.filter
  apply List.Pairwise.imp _ Std.ExtTreeMap.distinct_keys_toList
  intro a b h heq
  exact h (heq ▸ Std.ReflCmp.compare_self)

theorem getElem?_makeReady (wake : GuestThread → GuestThread) (woken : List ℕ)
    (s : GuestScheduler) (handle : ℕ) :
    (s.makeReady wake woken).threads[handle]? =
      s.threads[handle]?.map fun thread => if handle ∈ woken then wake thread else thread := by
  simp [makeReady]

theorem running_eq_some_iff : s.running = some (handle, thread) ↔ s.currentThread = some handle ∧
      s.threads[handle]? = some thread ∧ thread.state = .kRunning := by
  simp only [running, bind_eq_some_iff, map_eq_some_iff, filter_eq_some_iff,
    decide_eq_true_eq, Prod.mk.injEq]
  constructor
  · rintro ⟨_, hcur, _, hthread, rfl, rfl⟩
    exact ⟨hcur, hthread⟩
  · rintro ⟨hcur, hthread⟩
    exact ⟨_, hcur, _, hthread, rfl, rfl⟩

/-- The state of a thread, if there is one. -/
def stateOf (s : GuestScheduler) (handle : ℕ) : Option GuestThreadState :=
  s.threads[handle]?.map state

theorem stateOf_of_getElem?
    (h : s.threads[handle]? = some thread) : s.stateOf handle = some thread.state := by
  rw [stateOf, h, map_some]

theorem stateOf_insert (s : GuestScheduler) (handle : ℕ) (thread : GuestThread) (other : ℕ) :
    (s.threads.insert handle thread)[other]?.map state =
      if handle = other then some thread.state else s.stateOf other := by
  rw [getElem?_insert]
  split <;> rfl

theorem stateOf_release (s : GuestScheduler) (handle other : ℕ) (thread : GuestThread) :
    (s.release handle thread).stateOf other =
      if handle = other then some thread.state else s.stateOf other :=
  s.stateOf_insert handle thread other

theorem stateOf_makeReady {wake : GuestThread → GuestThread}
    (s : GuestScheduler) (handle : ℕ) (hwake : ∀ thread, (wake thread).state = .kReady)
    (hwoken : ∀ handle ∈ woken, s.stateOf handle = some .kBlocked) :
    (s.makeReady wake woken).stateOf handle =
      if handle ∈ woken then some .kReady else s.stateOf handle := by
  rw [stateOf, getElem?_makeReady]
  split
  next hmem =>
    obtain ⟨thread, hthread, -⟩ := map_eq_some_iff.mp (hwoken _ hmem)
    simp [hthread, hwake]
  · simp [stateOf]

section Blocked

theorem stateOf_waitsOn {waitKey : String} (h : handle ∈ s.handlesWhere (waitsOn waitKey)) :
    s.stateOf handle = some .kBlocked := by
  obtain ⟨thread, hthread, hwaits⟩ := mem_handlesWhere.mp h
  simp only [waitsOn, decide_eq_true_eq] at hwaits
  rw [stateOf_of_getElem? hthread, hwaits.1]

theorem stateOf_expired {now : ℕ} (h : handle ∈ s.handlesWhere (expired now)) :
    s.stateOf handle = some .kBlocked := by
  obtain ⟨thread, hthread, hexp⟩ := mem_handlesWhere.mp h
  simp only [expired, decide_eq_true_eq] at hexp
  rw [stateOf_of_getElem? hthread, hexp.1]

end Blocked

/-! ## The ready queue and the current thread -/

/-- The ready queue and the current thread reflect the states of the threads. -/
structure Scheduled (s : GuestScheduler) : Prop where
  current : ∀ handle, s.currentThread = some handle ↔ s.stateOf handle = some .kRunning
  ready : ∀ handle, handle ∈ s.readyThreads ↔ s.stateOf handle = some .kReady
  nodup : s.readyThreads.Nodup
  keyFits : ∀ (handle : ℕ) thread, s.threads[handle]? = some thread → thread.KeyFits
  issued : ∀ handle : ℕ, (s.threads[handle]?).isSome = true → 0 < handle ∧ s.handles.Issued handle
  positive : 0 < s.handles.nextHandle

namespace Scheduled

theorem initial : Scheduled {} where
  current handle := by simp [stateOf]
  ready handle := by simp [stateOf]
  nodup := List.nodup_nil
  keyFits _ _ h := by simp at h
  issued _ h := by simp at h
  positive := Nat.one_pos

theorem makeReady (hs : Scheduled s) {wake : GuestThread → GuestThread} {woken : List ℕ}
    (hwake : ∀ thread, (wake thread).state = .kReady) (hkey : ∀ thread, (wake thread).waitKey = "")
    (hwoken : ∀ handle ∈ woken, s.stateOf handle = some .kBlocked) (hnodup : woken.Nodup) :
    Scheduled (s.makeReady wake woken) where
  current handle := by
    rw [stateOf_makeReady s _ hwake hwoken]
    split
    next hmem =>
      have := (hs.current handle).mp
      simp_all [GuestScheduler.makeReady]
    · exact hs.current _
  ready handle := by
    rw [stateOf_makeReady s _ hwake hwoken, GuestScheduler.makeReady]
    split
    next hmem => simp [hmem]
    next hmem => simp [hmem, hs.ready handle]
  nodup := by
    apply List.Nodup.append hs.nodup hnodup
    intro handle hready hmem
    have := (hs.ready handle).mp hready
    simp [hwoken _ hmem] at this
  keyFits handle _ hthread := by
    rw [getElem?_makeReady] at hthread
    obtain ⟨old, hold, rfl⟩ := map_eq_some_iff.mp hthread
    split
    · simp [GuestThread.KeyFits, hwake, hkey]
    · exact hs.keyFits _ _ hold
  issued handle hsome := by
    rw [getElem?_makeReady, isSome_map] at hsome
    exact hs.issued _ hsome
  positive := hs.positive

section

variable (hs : Scheduled s)
include hs

variable {old : GuestThread} {handles : HandleTable}

theorem issued_insert (hold : s.threads[handle]? = some old)
    (other : ℕ) (hsome : (s.threads.insert handle thread)[other]?.isSome = true) :
    0 < other ∧ s.handles.Issued other := by
  rw [getElem?_insert] at hsome
  split at hsome
  next heq => exact heq ▸ hs.issued _ (by rw [hold]; rfl)
  · exact hs.issued _ hsome

/-- The current thread blocks or exits. -/
theorem release (hrun : s.running = some (handle, old))
    (hready : thread.state ≠ .kReady) (hstate : thread.state ≠ .kRunning) (hfits : thread.KeyFits) :
    Scheduled (s.release handle thread) where
  __ := hs
  current other := by
    obtain ⟨hcur, -⟩ := running_eq_some_iff.mp hrun
    rw [stateOf_release]
    split
    · simp [GuestScheduler.release, hstate]
    next hne =>
      rw [← hs.current other, hcur]
      simp [GuestScheduler.release, hne]
  ready other := by
    obtain ⟨-, hold, hrun⟩ := running_eq_some_iff.mp hrun
    rw [stateOf_release, GuestScheduler.release, hs.ready]
    split
    next heq =>
      subst heq
      simp [stateOf_of_getElem? hold, hrun, hready]
    · rfl
  keyFits := forall_insert hfits fun other found _ => hs.keyFits other found
  issued := hs.issued_insert (running_eq_some_iff.mp hrun).2.1

/-- The current thread stays current with a change that its state does not show. -/
theorem insertRunning (hrun : s.running = some (handle, old)) (hstate : thread.state = .kRunning)
    (hfits : thread.KeyFits) : Scheduled { s with threads := s.threads.insert handle thread } := by
  obtain ⟨hcur, hold, hrun⟩ := running_eq_some_iff.mp hrun
  have hstates : ∀ other, stateOf { s with threads := s.threads.insert handle thread } other =
      s.stateOf other := by
    intro other
    simp only [stateOf, getElem?_insert]
    split
    next heq =>
      subst heq
      simp [hold, hstate, hrun]
    · rfl
  refine ⟨fun other => ?_, fun other => ?_, hs.nodup,
    forall_insert hfits fun other found _ => hs.keyFits other found,
    hs.issued_insert hold, hs.positive⟩
  · rw [hstates]
    exact hs.current _
  · rw [hstates]
    exact hs.ready _

theorem wakeExpired (now : ℕ) : Scheduled (s.wakeExpiredThreadsLocked now) :=
  hs.makeReady (fun _ => rfl) (fun _ => rfl) (fun _ => stateOf_expired) (nodup_handlesWhere _ _)

/-- A ready thread is added under the next handle. -/
theorem addThread (hleft : s.handles.exhausted = false)
    (hready : thread.state = .kReady) (hkey : thread.waitKey = "")
    (hle : s.handles.nextHandle ≤ handles.nextHandle) (hissued : ∀ other, handles.Issued other ↔
      s.handles.Issued other ∨ other = s.handles.nextHandle) :
    Scheduled { s with
      handles := handles
      threads := s.threads.insertIfNew s.handles.nextHandle thread
      readyThreads := s.readyThreads ++ [s.handles.nextHandle] } := by
  have hfree : s.threads[s.handles.nextHandle]? = none := by
    by_contra hthread
    exact not_issued_nextHandle hleft (hs.issued _ (isSome_iff_ne_none.mpr hthread)).2
  rw [insertIfNew_of_none hfree]
  have hstates : ∀ other : ℕ, ((s.threads.insert s.handles.nextHandle thread)[other]?).map state =
      if s.handles.nextHandle = other then some .kReady else s.stateOf other := by
    intro other
    rw [getElem?_insert]
    split
    · rw [map_some, hready]
    · rfl
  have hnone : s.stateOf s.handles.nextHandle = none := by simp [stateOf, hfree]
  refine ⟨fun other => ?_, fun other => ?_, ?_, forall_insert ?_ fun other found _ => ?_,
    fun other hsome => ?_, hs.positive.trans_le hle⟩
  · rw [stateOf, hstates]
    split
    next heq =>
      rw [hs.current, ← heq, hnone]
      simp
    · exact hs.current _
  · rw [stateOf, hstates, List.mem_append, hs.ready]
    split
    next heq => simp [heq]
    next hne => simp [Ne.symm hne]
  · apply List.Nodup.append hs.nodup (List.nodup_singleton _)
    intro other hmem hother
    rw [List.mem_singleton.mp hother, hs.ready, hnone] at hmem
    cases hmem
  · simp [GuestThread.KeyFits, hready, hkey]
  · exact hs.keyFits _ _
  · simp only [getElem?_insert] at hsome
    split at hsome
    next heq => exact ⟨heq ▸ hs.positive, (hissued _).mpr (.inr heq.symm)⟩
    obtain ⟨hpos, hold⟩ := hs.issued _ hsome
    exact ⟨hpos, (hissued _).mpr (.inl hold)⟩

/-- A thread that is not current goes. -/
theorem dropThread (hready : s.stateOf handle = some .kReady)
    (hissued : ∀ other, handles.Issued other ↔ s.handles.Issued other)
    (hnext : handles.nextHandle = s.handles.nextHandle) :
    Scheduled { s with
      handles := handles
      readyThreads := s.readyThreads.filter (· ≠ handle)
      threads := s.threads.erase handle } := by
  have hstates : ∀ other : ℕ, ((s.threads.erase handle)[other]?).map state =
      if handle = other then none else s.stateOf other := by
    intro other
    rw [getElem?_erase]
    split <;> rfl
  refine ⟨fun other => ?_, fun other => ?_, hs.nodup.filter _, fun other found hfound => ?_,
    fun other hsome => ?_, hnext ▸ hs.positive⟩
  · rw [stateOf, hstates]
    split
    next heq =>
      rw [hs.current, ← heq, hready]
      simp
    · exact hs.current _
  · rw [stateOf, hstates, List.mem_filter, hs.ready]
    split
    next heq => simp [heq]
    next hne => simp [Ne.symm hne]
  · exact hs.keyFits _ _ (getElem?_of_erase hfound).2
  · obtain ⟨found, hfound⟩ := isSome_iff_exists.mp hsome
    refine (hs.issued other ?_).imp_right (hissued other).mpr
    rw [(getElem?_of_erase hfound).2]
    rfl

/-- The loop of `SelectNext` finds nothing, or its first entry is ready. -/
theorem selectFrom_cases : selectFrom s.readyThreads s = (none, s) ∨
      ∃ handle rest thread, s.readyThreads = handle :: rest ∧
        s.threads[handle]? = some thread ∧ thread.state = .kReady ∧
        selectFrom s.readyThreads s = (some handle, { s with
          threads := s.threads.insert handle { thread with state := .kRunning }
          readyThreads := rest
          currentThread := some handle }) := by
  cases hqueue : s.readyThreads with
  | nil =>
    left
    rw [selectFrom, ← hqueue]
  | cons handle rest =>
    right
    have hready : s.stateOf handle = some .kReady := by
      rw [← hs.ready, hqueue]
      exact List.mem_cons_self
    obtain ⟨thread, hthread, hstate⟩ := map_eq_some_iff.mp hready
    refine ⟨handle, rest, thread, rfl, hthread, hstate, ?_⟩
    rw [selectFrom, hthread]
    exact if_pos hstate

/-- The first ready thread becomes current. -/
theorem select {rest : List ℕ} (hnone : s.currentThread = none)
    (hqueue : s.readyThreads = handle :: rest) (hthread : s.threads[handle]? = some thread)
    (hstate : thread.state = .kReady) :
    Scheduled { s with
      threads := s.threads.insert handle { thread with state := .kRunning }
      readyThreads := rest
      currentThread := some handle } := by
  have hnodup := hs.nodup
  rw [hqueue, List.nodup_cons] at hnodup
  have hstates := stateOf_insert s handle { thread with state := .kRunning }
  refine ⟨fun other => ?_, fun other => ?_, hnodup.2, forall_insert ?_
    fun other found _ => hs.keyFits other found, hs.issued_insert hthread, hs.positive⟩
  · rw [stateOf, hstates]
    split
    next heq => simp [heq]
    next hne => simp [hne, ← hs.current, hnone]
  · rw [stateOf, hstates]
    split
    next heq => simp [← heq, hnodup.1]
    next hne => simp [← hs.ready, hqueue, Ne.symm hne]
  · have := hs.keyFits _ _ hthread
    simp_all [GuestThread.KeyFits]

/-- The current thread becomes the last ready one. -/
theorem requeue (hrun : s.running = some (handle, thread)) :
    Scheduled { s.release handle { thread with state := .kReady } with
      readyThreads := s.readyThreads ++ [handle] } := by
  obtain ⟨hcur, hthread, hstate⟩ := running_eq_some_iff.mp hrun
  have hstates := stateOf_insert s handle { thread with state := .kReady }
  have hold : s.stateOf handle = some .kRunning := (hs.current handle).mp hcur
  refine ⟨fun other => ?_, fun other => ?_, ?_, forall_insert ?_
    fun other found _ => hs.keyFits other found, hs.issued_insert hthread, hs.positive⟩
  · rw [stateOf, GuestScheduler.release, hstates]
    split
    · simp
    next hne => simp [← hs.current, hcur, hne]
  · rw [stateOf, GuestScheduler.release, hstates, List.mem_append, hs.ready]
    split
    next heq => simp [heq]
    next hne => simp [Ne.symm hne]
  · apply List.Nodup.append hs.nodup (List.nodup_singleton _)
    intro other hmem hother
    rw [List.mem_singleton.mp hother, hs.ready, hold] at hmem
    cases hmem
  · have := hs.keyFits _ _ hthread
    simp_all [GuestThread.KeyFits]

end

end Scheduled

/-! ## Every call moves every thread -/

/-- Every thread makes some moves, possibly none. -/
def AllMoved (s t : GuestScheduler) : Prop :=
  ∀ handle : ℕ, Moved s.threads[handle]? t.threads[handle]?

theorem AllMoved.refl (s : GuestScheduler) : s.AllMoved s := fun _ => .refl

theorem AllMoved.trans {t u : GuestScheduler} (h : s.AllMoved t) (h' : t.AllMoved u) :
    s.AllMoved u :=
  fun handle => (h handle).trans (h' handle)

theorem allMoved_makeReady {wake : GuestThread → GuestThread}
    (hmoves : ∀ thread : GuestThread, thread.state = .kBlocked →
      Moves (some thread) (some (wake thread)))
    (hwoken : ∀ handle ∈ woken, s.stateOf handle = some .kBlocked) :
    s.AllMoved (s.makeReady wake woken) := by
  intro handle
  rw [getElem?_makeReady]
  by_cases hmem : handle ∈ woken
  · obtain ⟨thread, hthread, hblock⟩ := map_eq_some_iff.mp (hwoken _ hmem)
    simpa [hthread, hmem] using Relation.ReflTransGen.single (hmoves _ hblock)
  · simpa [hmem] using Relation.ReflTransGen.refl

theorem allMoved_insert {s' : GuestScheduler} {old : GuestThread}
    (hold : s.threads[handle]? = some old) (hmove : Moves (some old) (some thread))
    (hthreads : s'.threads = s.threads.insert handle thread) : s.AllMoved s' := by
  intro other
  rw [hthreads, getElem?_insert]
  split
  next heq =>
    rw [← heq, hold]
    exact .single hmove
  · exact .refl

/-! ## Acts -/

/-- What calls may do: the keys under which they wake threads, the readings of the clock, the
threads they block with the keys, those that they let go and those that forget a timeout. -/
structure Permissions where
  wake : String → Prop
  expire : ℕ → Prop
  block : ℕ → String → Prop
  leave : ℕ → Prop
  forget : ℕ → Prop

def Permissions.all : Permissions :=
  ⟨fun _ => True, fun _ => True, fun _ _ => True, fun _ => True, fun _ => True⟩

/-- What a call does is made of these acts. -/
inductive Act (may : Permissions) (s : GuestScheduler) : GuestScheduler → Prop
  | handles (handles : HandleTable)
      (hle : s.handles.nextHandle ≤ handles.nextHandle)
      (hissued : ∀ handle, s.handles.Issued handle → handles.Issued handle) :
      Act may s { s with handles }
  | expire (now : ℕ) (hmay : may.expire now) : Act may s (s.wakeExpiredThreadsLocked now)
  | wake (waitKey : String) (hmay : may.wake waitKey) (woken : List ℕ)
      (hwoken : ∀ handle ∈ woken, handle ∈ s.handlesWhere (waitsOn waitKey))
      (hnodup : woken.Nodup) : Act may s (s.makeReady wake woken)
  | add (handles : HandleTable) (name : String) (priority : ℤ)
      (entryAddress argument : ℕ) (hleft : s.handles.exhausted = false)
      (hle : s.handles.nextHandle ≤ handles.nextHandle)
      (hissued : ∀ other, handles.Issued other ↔
        s.handles.Issued other ∨ other = s.handles.nextHandle) :
      Act may s { s with
        handles
        threads := s.threads.insertIfNew s.handles.nextHandle
          { name, priority, entryAddress, argument }
        readyThreads := s.readyThreads ++ [s.handles.nextHandle] }
  | drop (handles : HandleTable) (handle : ℕ)
      (hready : s.stateOf handle = some .kReady)
      (hissued : ∀ other, handles.Issued other ↔ s.handles.Issued other)
      (hnext : handles.nextHandle = s.handles.nextHandle) (hmay : may.leave handle) :
      Act may s { s with
        handles
        readyThreads := s.readyThreads.filter (· ≠ handle)
        threads := s.threads.erase handle }
  | select (handle : ℕ) (rest : List ℕ) (thread : GuestThread)
      (hnone : s.currentThread = none) (hqueue : s.readyThreads = handle :: rest)
      (hthread : s.threads[handle]? = some thread) (hstate : thread.state = .kReady) :
      Act may s { s with
        threads := s.threads.insert handle { thread with state := .kRunning }
        readyThreads := rest
        currentThread := some handle }
  | requeue (handle : ℕ) (thread : GuestThread)
      (hrunning : s.running = some (handle, thread)) :
      Act may s { s.release handle { thread with state := .kReady } with
        readyThreads := s.readyThreads ++ [handle] }
  | block (handle : ℕ) (thread : GuestThread)
      (hrunning : s.running = some (handle, thread)) (waitKey : String) (hkey : waitKey ≠ "")
      (deadline : Option ℕ) (hmay : may.block handle waitKey) :
      Act may s (s.release handle (thread.block waitKey deadline))
  | exit (handle : ℕ) (thread : GuestThread)
      (hrunning : s.running = some (handle, thread)) (exitValue : ℕ) (hmay : may.leave handle) :
      Act may s (s.release handle (thread.exit exitValue))
  | forget (handle : ℕ) (thread : GuestThread)
      (hrunning : s.running = some (handle, thread)) (hmay : may.forget handle) : Act may s
        { s with threads := s.threads.insert handle { thread with timedOutWaitKey := "" } }

/-- Some acts, one after the other. -/
abbrev Acts (may : Permissions) : GuestScheduler → GuestScheduler → Prop :=
  Relation.ReflTransGen (Act may)

section Acts

variable {may : Permissions} {s' : GuestScheduler}

theorem Act.scheduled (h : Act may s s') (hs : Scheduled s) : Scheduled s' := by
  cases h with
  | handles handles hle hissued =>
    exact { hs with
      issued := fun handle hsome => (hs.issued _ hsome).imp_right (hissued handle)
      positive := hs.positive.trans_le hle }
  | expire now => exact hs.wakeExpired _
  | wake waitKey _ woken hwoken hnodup =>
    exact hs.makeReady (fun _ => rfl) (fun _ => rfl)
      (fun handle hmem => stateOf_waitsOn (hwoken _ hmem)) hnodup
  | add handles name priority entryAddress argument hleft hle hissued =>
    exact hs.addThread hleft rfl rfl hle hissued
  | drop handles handle hready hissued hnext => exact hs.dropThread hready hissued hnext
  | select handle rest thread hnone hqueue hthread hstate =>
    exact hs.select hnone hqueue hthread hstate
  | requeue handle thread hrun => exact hs.requeue hrun
  | block handle thread hrun waitKey hkey =>
    exact hs.release hrun nofun nofun (iff_of_true rfl hkey)
  | exit handle thread hrun =>
    exact hs.release hrun nofun nofun (iff_of_false nofun (fun h => h rfl))
  | forget handle thread hrun =>
    obtain ⟨-, hthread, hstate⟩ := running_eq_some_iff.mp hrun
    exact hs.insertRunning hrun hstate (hs.keyFits _ thread hthread)

theorem Act.allMoved (h : Act may s s') : s.AllMoved s' := by
  cases h with
  | handles => exact .refl s
  | expire now => exact allMoved_makeReady Moves.expire fun handle => stateOf_expired
  | wake waitKey _ woken hwoken =>
    exact allMoved_makeReady Moves.wake fun handle hmem => stateOf_waitsOn (hwoken _ hmem)
  | add =>
    intro other
    simp only [getElem?_insertIfNew]
    split
    next h =>
      rw [h.2]
      exact .single (.create _ rfl rfl)
    · exact .refl
  | drop handles handle hready =>
    intro other
    simp only [getElem?_erase]
    split
    next heq =>
      obtain ⟨thread, hthread, hstate⟩ := map_eq_some_iff.mp hready
      rw [← heq, hthread]
      exact .single (.discard _ hstate)
    · exact .refl
  | select handle rest thread hnone hqueue hthread hstate =>
    exact allMoved_insert hthread (.select _ hstate) rfl
  | requeue handle thread hrun =>
    obtain ⟨-, hthread, hstate⟩ := running_eq_some_iff.mp hrun
    exact allMoved_insert hthread (.yield _ hstate) rfl
  | block handle thread hrun waitKey hkey deadline =>
    obtain ⟨-, hthread, hstate⟩ := running_eq_some_iff.mp hrun
    exact allMoved_insert hthread (.block _ hstate _ hkey _) rfl
  | exit handle thread hrun exitValue =>
    obtain ⟨-, hthread, hstate⟩ := running_eq_some_iff.mp hrun
    exact allMoved_insert hthread (.exit _ hstate _) rfl
  | forget handle thread hrun =>
    obtain ⟨-, hthread, hstate⟩ := running_eq_some_iff.mp hrun
    exact allMoved_insert hthread (.forget _ hstate) rfl

theorem Acts.scheduled (h : Acts may s s') (hs : Scheduled s) : Scheduled s' := by
  induction h with
  | refl => exact hs
  | tail _ hact ih => exact hact.scheduled ih

theorem Acts.allMoved (h : Acts may s s') : s.AllMoved s' := by
  induction h with
  | refl => exact .refl s
  | tail _ hact ih => exact ih.trans hact.allMoved

variable (s)

theorem acts_wakeBlockedThreads {waitKey : String} (maximumCount : ℕ) {now : ℕ}
    (hmay : may.wake waitKey ∧ may.expire now) :
    Acts may s (s.wakeBlockedThreads waitKey maximumCount now).2 := by
  unfold wakeBlockedThreads
  split
  · exact .refl
  exact .tail (.single (.expire _ hmay.2)) (.wake _ hmay.1 _
    (fun handle hmem => List.mem_of_mem_take hmem)
    ((nodup_handlesWhere _ _).sublist (List.take_sublist _ _)))

theorem acts_wakeBlockedThread (handle : ℕ) {waitKey : String} {now : ℕ}
    (hmay : may.wake waitKey ∧ may.expire now) :
    Acts may s (s.wakeBlockedThread handle waitKey now).2 := by
  unfold wakeBlockedThread
  split
  · exact .refl
  dsimp only
  split
  next hany =>
    refine .tail (.single (.expire now hmay.2)) (.wake waitKey hmay.1 _ ?_ (List.nodup_singleton _))
    intro other hmem
    rw [List.mem_singleton.mp hmem]
    exact mem_handlesWhere.mpr ((any_eq_true _ _).mp hany)
  · exact .single (.expire _ hmay.2)

theorem acts_createThread (name : String) (priority : ℤ) (entryAddress argument : ℕ) :
    Acts may s (s.createThread name priority entryAddress argument).2 := by
  unfold createThread
  split
  · exact .refl
  rcases insert_cases .kThread s.handles with
    hnone | ⟨handles, hsome, hleft, hle, hissued⟩
  · rw [hnone]
  · rw [hsome]
    exact .single (.add handles _ _ _ _ hleft hle hissued)

theorem acts_discardReadyThread (hmay : may.leave handle) :
    Acts may s (s.discardReadyThread handle).2 := by
  unfold discardReadyThread
  split
  next hany =>
    obtain ⟨thread, hthread, hready⟩ := (any_eq_true _ _).mp hany
    have hissued := fun other => issued_remove handle other .kThread s.handles
    have hnext := nextHandle_remove handle .kThread s.handles
    cases hres : s.handles.remove handle .kThread with
    | mk removed handles =>
      rw [hres] at hissued hnext
      cases removed with
      | false => exact .single (.handles _ hnext.ge fun other => (hissued _).mpr)
      | true =>
        refine .single (.drop handles handle ?_ hissued hnext hmay)
        rw [stateOf_of_getElem? hthread, of_decide_eq_true hready]
  · exact .refl

theorem acts_selectNext (hs : Scheduled s) {now : ℕ} (hmay : may.expire now) :
    Acts may s (s.selectNext now).2 := by
  unfold selectNext
  split
  · exact .refl
  next hsome =>
    rcases (hs.wakeExpired now).selectFrom_cases with
      hempty | ⟨handle, rest, thread, hqueue, hthread, hstate, hselect⟩
    · rw [hempty]
      exact .single (.expire now hmay)
    · rw [hselect]
      exact .tail (.single (.expire now hmay)) (.select handle rest thread
        (not_isSome_iff_eq_none.mp hsome) hqueue hthread hstate)

theorem acts_yieldCurrent : Acts may s s.yieldCurrent.2 := by
  unfold yieldCurrent
  cases hrun : s.running with
  | none => exact .refl
  | some entry => exact .single (.requeue _ _ hrun)

theorem acts_blockCurrentLocked (waitKey : String) (deadline : Option ℕ)
    (hmay : ∀ handle, s.currentThread = some handle → may.block handle waitKey) :
    Acts may s (s.blockCurrentLocked waitKey deadline).2 := by
  unfold blockCurrentLocked
  split
  · exact .refl
  next hkey =>
    cases hrun : s.running with
    | none => exact .refl
    | some entry =>
      exact .single (.block _ _ hrun _ hkey _ (hmay _ (running_eq_some_iff.mp hrun).1))

theorem threadExitWaitKey_ne_empty (handle : ℕ) : threadExitWaitKey handle ≠ "" := by
  simp [threadExitWaitKey]

theorem acts_joinThread (hmay : ∀ caller, s.currentThread = some caller →
      may.block caller (threadExitWaitKey handle)) :
    Acts may s (s.joinThread handle).2 := by
  unfold joinThread
  split
  · exact .refl
  split_ifs
  · exact .refl
  · exact .refl
  · exact .refl
  cases hrun : s.running with
  | none => exact .refl
  | some entry =>
    exact .single (.block _ _ hrun _ (threadExitWaitKey_ne_empty _) _
      (hmay _ (running_eq_some_iff.mp hrun).1))

theorem acts_exitCurrent (exitValue : ℕ)
    (hmay : ∀ handle, s.currentThread = some handle →
      may.leave handle ∧ may.wake (threadExitWaitKey handle)) :
    Acts may s (s.exitCurrent exitValue).2 := by
  unfold exitCurrent
  cases hrun : s.running with
  | none => exact .refl
  | some entry =>
    obtain ⟨hleave, hwake⟩ := hmay _ (running_eq_some_iff.mp hrun).1
    exact .tail (.single (.exit _ _ hrun _ hleave))
      (.wake _ hwake _ (fun _ hmem => hmem) (nodup_handlesWhere _ _))

theorem acts_consumeCurrentThreadTimeout (waitKey : String)
    (hmay : ∀ handle, s.currentThread = some handle → may.forget handle) :
    Acts may s (s.consumeCurrentThreadTimeout waitKey).2 := by
  unfold consumeCurrentThreadTimeout
  split
  · exact .refl
  cases hrun : s.running with
  | none => exact .refl
  | some entry =>
    dsimp only
    split
    · exact .refl
    · exact .single (.forget _ _ hrun (hmay _ (running_eq_some_iff.mp hrun).1))

end Acts

end GuestScheduler

/-! ## Runs -/

/-- The calls of the scheduler, with the readings of the clock, and what the other services do
to the handle table in between. -/
inductive SchedulerCall
  | createThread (name : String) (priority : ℤ) (entryAddress argument : ℕ)
  | discardReadyThread (handle : ℕ)
  | selectNext (now : ℕ)
  | yieldCurrent
  | blockCurrent (waitKey : String)
  | blockCurrentUntil (waitKey : String) (deadline : ℕ)
  | wakeBlockedThreads (waitKey : String) (maximumCount now : ℕ)
  | wakeBlockedThread (handle : ℕ) (waitKey : String) (now : ℕ)
  | joinThread (handle : ℕ)
  | exitCurrent (exitValue : ℕ)
  | consumeCurrentThreadTimeout (waitKey : String)
  | insertObject (type : KernelObjectType)
  | removeObject (handle : ℕ) (type : KernelObjectType)

namespace GuestScheduler

def step (s : GuestScheduler) : SchedulerCall → GuestScheduler
  | .createThread name priority entryAddress argument =>
    (s.createThread name priority entryAddress argument).2
  | .discardReadyThread handle => (s.discardReadyThread handle).2
  | .selectNext now => (s.selectNext now).2
  | .yieldCurrent => s.yieldCurrent.2
  | .blockCurrent waitKey => (s.blockCurrent waitKey).2
  | .blockCurrentUntil waitKey deadline => (s.blockCurrentUntil waitKey deadline).2
  | .wakeBlockedThreads waitKey maximumCount now =>
    (s.wakeBlockedThreads waitKey maximumCount now).2
  | .wakeBlockedThread handle waitKey now => (s.wakeBlockedThread handle waitKey now).2
  | .joinThread handle => (s.joinThread handle).2
  | .exitCurrent exitValue => (s.exitCurrent exitValue).2
  | .consumeCurrentThreadTimeout waitKey => (s.consumeCurrentThreadTimeout waitKey).2
  | .insertObject type => { s with handles := (s.handles.insert type).2 }
  | .removeObject handle type => { s with handles := (s.handles.remove handle type).2 }

def run (s : GuestScheduler) (calls : List SchedulerCall) : GuestScheduler :=
  StepRuns.run step s calls

/-- The permissions that a call takes. -/
def Permitted (may : Permissions) (s : GuestScheduler) : SchedulerCall → Prop
  | .discardReadyThread handle => may.leave handle
  | .selectNext now => may.expire now
  | .blockCurrent waitKey | .blockCurrentUntil waitKey _ =>
    ∀ handle, s.currentThread = some handle → may.block handle waitKey
  | .wakeBlockedThreads waitKey _ now | .wakeBlockedThread _ waitKey now =>
    may.wake waitKey ∧ may.expire now
  | .joinThread handle =>
    ∀ caller, s.currentThread = some caller → may.block caller (threadExitWaitKey handle)
  | .exitCurrent _ => ∀ handle, s.currentThread = some handle →
    may.leave handle ∧ may.wake (threadExitWaitKey handle)
  | .consumeCurrentThreadTimeout _ => ∀ handle, s.currentThread = some handle → may.forget handle
  | .createThread .. | .yieldCurrent | .insertObject _ | .removeObject .. => True

variable {s : GuestScheduler} {handle : ℕ}

theorem acts_step {may : Permissions} (hs : Scheduled s) {call : SchedulerCall}
    (h : s.Permitted may call) : Acts may s (s.step call) := by
  cases call with
  | createThread => exact s.acts_createThread _ _ _ _
  | discardReadyThread => exact s.acts_discardReadyThread h
  | selectNext => exact s.acts_selectNext hs h
  | yieldCurrent => exact s.acts_yieldCurrent
  | blockCurrent | blockCurrentUntil => exact s.acts_blockCurrentLocked _ _ h
  | wakeBlockedThreads => exact s.acts_wakeBlockedThreads _ h
  | wakeBlockedThread => exact s.acts_wakeBlockedThread _ h
  | joinThread => exact s.acts_joinThread h
  | exitCurrent => exact s.acts_exitCurrent _ h
  | consumeCurrentThreadTimeout => exact s.acts_consumeCurrentThreadTimeout _ h
  | insertObject type =>
    rcases insert_cases type s.handles with hnone | ⟨handles, hsome, -, hle, hissued⟩
    · rw [step, hnone]
    · rw [step, hsome]
      exact .single (.handles _ hle fun handle h => (hissued _).mpr (.inl h))
  | removeObject handle type =>
    exact .single (.handles _ (nextHandle_remove _ _ _).ge
      fun other h => (issued_remove _ _ _ _).mpr h)

section

variable (hs : Scheduled s)
include hs

variable (call : SchedulerCall)

theorem acts_step_free : Acts .all s (s.step call) := by
  apply acts_step hs
  cases call <;> simp [Permitted, Permissions.all]

theorem Scheduled.step : Scheduled (s.step call) := (acts_step_free hs call).scheduled hs

theorem allMoved_step : s.AllMoved (s.step call) := (acts_step_free hs call).allMoved

theorem scheduled_allMoved_run (calls : List SchedulerCall) :
    Scheduled (s.run calls) ∧ s.AllMoved (s.run calls) :=
  run_induction (P := fun t => Scheduled t ∧ s.AllMoved t) GuestScheduler.step
    (fun _ call h => ⟨h.1.step call, h.2.trans (allMoved_step h.1 call)⟩) ⟨hs, .refl s⟩ calls

theorem Scheduled.run (calls : List SchedulerCall) : Scheduled (s.run calls) :=
  (scheduled_allMoved_run hs calls).1

end

/-- A thread whose deadline is reached is ready when the expired threads have been woken. -/
theorem stateOf_wakeExpired {thread : GuestThread} {deadline now : ℕ}
    (hthread : s.threads[handle]? = some thread) (hblock : thread.state = .kBlocked)
    (hdue : thread.waitDeadlineNanoseconds = some deadline) (hreached : deadline ≤ now) :
    (s.wakeExpiredThreadsLocked now).stateOf handle = some .kReady := by
  have hmem : handle ∈ s.handlesWhere (expired now) := by
    refine mem_handlesWhere.mpr ⟨thread, hthread, ?_⟩
    simp [expired, hblock, hdue, hreached]
  rw [stateOf, wakeExpiredThreadsLocked, getElem?_makeReady, hthread]
  simp [hmem, expire]

/-- A ready thread is still ready after the choice of the next thread, or it is the one. -/
theorem stateOf_selectFrom (hs : Scheduled s) (hready : s.stateOf handle = some .kReady) :
    (selectFrom s.readyThreads s).2.stateOf handle = some .kReady ∨
      (selectFrom s.readyThreads s).1 = some handle ∧
        (selectFrom s.readyThreads s).2.stateOf handle = some .kRunning := by
  rcases hs.selectFrom_cases with hempty | ⟨chosen, rest, thread, -, hthread, -, hselect⟩
  · rw [hempty]
    exact .inl hready
  rw [hselect]
  simp only [stateOf, getElem?_insert]
  split
  next heq => exact .inr ⟨congrArg _ heq, rfl⟩
  · exact .inl hready

/-! ## Bounded waiting -/

/-- The number of threads a call makes current. -/
def chosen (s : GuestScheduler) : SchedulerCall → ℕ
  | .selectNext now => (s.selectNext now).1.toList.length
  | _ => 0

theorem idxOf_filter_le {l : List ℕ} {p : ℕ → Bool} (h : p handle = true) :
    (l.filter p).idxOf handle ≤ l.idxOf handle := by
  induction l with
  | nil => rfl
  | cons a l ih => grind

/-- While a thread stays in the ready queue no other gets ahead of it, and each choice brings it
forward. -/
theorem idxOf_step (hs : Scheduled s) (call : SchedulerCall) (hready : handle ∈ s.readyThreads)
    (hstill : handle ∈ (s.step call).readyThreads) :
    s.chosen call + (s.step call).readyThreads.idxOf handle ≤ s.readyThreads.idxOf handle := by
  have happend : ∀ new, (s.readyThreads ++ new).idxOf handle = s.readyThreads.idxOf handle :=
    fun _ => List.idxOf_append_of_mem hready
  cases call with
  | selectNext now =>
    simp only [step, chosen, selectNext] at hstill ⊢
    split_ifs at hstill ⊢
    · exact (Nat.zero_add _).le
    have hexpired := hs.wakeExpired now
    rw [← happend (s.handlesWhere (expired now))]
    change _ ≤ (s.wakeExpiredThreadsLocked now).readyThreads.idxOf handle
    rcases hexpired.selectFrom_cases with hnone | ⟨first, rest, thread, hqueue, -, -, hsome⟩
    · rw [hnone]
      exact (Nat.zero_add _).le
    · rw [hsome] at hstill ⊢
      have hnodup := hexpired.nodup
      rw [hqueue, List.nodup_cons] at hnodup
      rw [hqueue, List.idxOf_cons_ne _ (ne_of_mem_of_not_mem hstill hnodup.1).symm]
      exact (Nat.add_comm _ _).le
  | discardReadyThread other =>
    have hfilter : (s.step (.discardReadyThread other)).readyThreads = s.readyThreads ∨
        (s.step (.discardReadyThread other)).readyThreads = s.readyThreads.filter (· ≠ other) := by
      simp only [step, discardReadyThread]
      repeat' split
      all_goals simp
    change 0 + _ ≤ _
    rw [Nat.zero_add]
    rcases hfilter with hsame | hfilter
    · rw [hsame]
    · rw [hfilter] at hstill ⊢
      exact idxOf_filter_le (List.mem_filter.mp hstill).2
  | _ =>
    change 0 + _ ≤ _
    simp only [step, createThread, yieldCurrent, blockCurrent, blockCurrentUntil,
      blockCurrentLocked, wakeBlockedThreads, wakeBlockedThread, joinThread, exitCurrent,
      consumeCurrentThreadTimeout]
    repeat' split
    all_goals simp [wakeExpiredThreadsLocked, makeReady, release, happend]

/-- A thread that stays ready is passed over at most as often as there are threads ahead of it. -/
theorem chosen_add_ahead_le (hs : Scheduled s) {calls : List SchedulerCall}
    (hready : ∀ n ≤ calls.length, handle ∈ (s.run (calls.take n)).readyThreads) :
    tally step chosen s calls + (s.run calls).readyThreads.idxOf handle ≤
      s.readyThreads.idxOf handle := by
  induction calls generalizing s with
  | nil => exact (Nat.zero_add _).le
  | cons call calls ih =>
    have hstep := idxOf_step hs call (hready 0 (Nat.zero_le _)) (hready 1 (Nat.le_add_left _ _))
    have hrest : _ + (s.run (call :: calls)).readyThreads.idxOf handle ≤ _ :=
      ih (hs.step call) fun n hn => hready (n + 1) (Nat.succ_le_succ hn)
    rw [tally]
    omega

/-- Two threads are ahead of the third, and both are chosen before it. -/
theorem chosen_add_ahead_le_third :
    let s := run {} [.createThread "a" 0 0 0, .createThread "b" 0 0 0, .createThread "c" 0 0 0]
    let calls : List SchedulerCall := [.selectNext 0, .yieldCurrent, .selectNext 0]
    let total := tally step chosen s calls
    total = 2 ∧ total + (s.run calls).readyThreads.idxOf 3 ≤ s.readyThreads.idxOf 3 :=
  ⟨by decide +kernel, chosen_add_ahead_le (Scheduled.initial.run _) (by decide +kernel)⟩

end GuestScheduler

end KajPS5.Kernel
