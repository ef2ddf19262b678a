/-
# Clients of the scheduler

A service keeps notes about threads that wait for it, and other services call the scheduler
too. `SchedulerCall.spares` says which calls leave the service alone: no thread with a note
blocks elsewhere, exits or is discarded, and no other service blocks under a key of this
one. Such calls may wake the threads with a note but make none of them wait, and the threads stay
alive. A thread that blocks with a deadline therefore keeps the deadline it asked for.
-/

import KajPS5.Kernel.SchedulerWaits

namespace KajPS5.Kernel

open Math OrderedMaps GuestThread

namespace HandleTable

/-- Only handles that were given out have objects. -/
def Kept (t : HandleTable) : Prop :=
  ∀ handle : ℕ, t.objects[handle]?.isSome = true → t.Issued handle

theorem Kept.initial : Kept {} := by
  intro handle h
  simp at h

variable {t : HandleTable}

theorem Kept.nextHandle (ht : t.Kept) (h : t.exhausted = false) :
    t.objects[t.nextHandle]? = none := by
  by_contra hsome
  exact not_issued_nextHandle h (ht _ (Option.isSome_iff_ne_none.mpr hsome))

/-- Inserting an object adds it under the next handle. -/
theorem Kept.insert_cases (ht : t.Kept) (type : KernelObjectType) : t.insert type = (none, t) ∨
      ∃ t', t.insert type = (some t.nextHandle, t') ∧ t'.Kept ∧ t.objects[t.nextHandle]? = none ∧
        ∀ handle : ℕ, t'.objects[handle]? =
          if t.nextHandle = handle then some type else t.objects[handle]? := by
  rcases HandleTable.insert_cases type t with hnone | ⟨t', hsome, hleft, -, hissued⟩
  · exact .inl hnone
  have hfree := ht.nextHandle hleft
  have hobjects : t'.objects = t.objects.insertIfNew t.nextHandle type := by
    rw [HandleTable.insert, hleft] at hsome
    exact (congrArg (·.2.objects) hsome).symm
  have hlook : ∀ handle : ℕ, t'.objects[handle]? =
      if t.nextHandle = handle then some type else t.objects[handle]? := by
    intro handle
    rw [hobjects, insertIfNew_of_none hfree, getElem?_insert]
  refine .inr ⟨t', hsome, fun handle h => ?_, hfree, hlook⟩
  rw [hlook] at h
  rw [hissued]
  split at h
  next heq => exact .inr heq.symm
  · exact .inl (ht _ h)

theorem getElem?_remove (t : HandleTable) (handle other : ℕ) (type : KernelObjectType) :
    (t.remove handle type).2.objects[other]? =
      if t.find handle type = true ∧ handle = other then none else t.objects[other]? := by
  unfold remove find
  split
  next h => simp [h]
  next h =>
    split
    next hfound =>
      rw [getElem?_erase]
      simp [h, hfound]
    next hfound => simp [hfound]

theorem remove_fst (t : HandleTable) (handle : ℕ) (type : KernelObjectType) :
    (t.remove handle type).1 = t.find handle type := by
  unfold remove find
  split
  next h => simp [h]
  next h => split <;> simp_all

theorem Kept.remove (ht : t.Kept) (handle : ℕ) (type : KernelObjectType) :
    (t.remove handle type).2.Kept := by
  intro other h
  rw [getElem?_remove] at h
  rw [issued_remove]
  split at h
  · cases h
  · exact ht _ h

theorem find_congr {t' : HandleTable} {handle : ℕ} {type : KernelObjectType}
    (h : t'.objects[handle]? = some type ↔ t.objects[handle]? = some type) :
    t'.find handle type = t.find handle type := by
  simp [find, h]

/-- Inserting an object of another type changes no answer. -/
theorem Kept.find_insert (ht : t.Kept) {type other : KernelObjectType} (hne : other ≠ type)
    (handle : ℕ) : (t.insert other).2.find handle type = t.find handle type := by
  rcases ht.insert_cases other with hnone | ⟨t', hsome, -, hfree, hlook⟩
  · rw [hnone]
  rw [hsome]
  simp only [find, hlook]
  by_cases heq : t.nextHandle = handle
  · simp [← heq, hfree, hne]
  · simp [heq]

theorem Kept.insert (ht : t.Kept) (type : KernelObjectType) : (t.insert type).2.Kept := by
  rcases ht.insert_cases type with hnone | ⟨t', hsome, hkept, -⟩
  · rw [hnone]
    exact ht
  · rw [hsome]
    exact hkept

/-- Removing an object of another type changes no answer. -/
theorem find_remove_of_ne (t : HandleTable) {type other : KernelObjectType} (hne : other ≠ type)
    (removed handle : ℕ) : (t.remove removed other).2.find handle type = t.find handle type := by
  apply find_congr
  rw [getElem?_remove]
  split
  next h =>
    simp only [find, decide_eq_true_eq] at h
    simp [← h.2, h.1.2, hne]
  · rfl

end HandleTable

namespace GuestScheduler

/-! ## Threads that are alive -/

theorem ready_ne_exited : GuestThreadState.kReady ≠ .kExited := by decide

theorem running_ne_exited : GuestThreadState.kRunning ≠ .kExited := by decide

theorem blocked_ne_exited : GuestThreadState.kBlocked ≠ .kExited := by decide

/-- The thread has not exited. -/
def Alive (s : GuestScheduler) (handle : ℕ) : Prop :=
  ∃ thread, s.threads[handle]? = some thread ∧ thread.state ≠ .kExited

section Alive

variable {s s' : GuestScheduler} {handle : ℕ}

theorem Alive.of_current (hs : Orderly s) (h : s.currentThread = some handle) : s.Alive handle := by
  obtain ⟨thread, hrun⟩ := hs.running_current h
  obtain ⟨-, hthread, hstate⟩ := running_eq_some_iff.mp hrun
  exact ⟨thread, hthread, hstate ▸ running_ne_exited⟩

variable {other : ℕ}

theorem Alive.insert (h : s.Alive handle) {thread : GuestThread}
    (hthreads : s'.threads = s.threads.insert other thread)
    (hstate : other = handle → thread.state ≠ .kExited) : s'.Alive handle := by
  obtain ⟨found, hfound, hfoundState⟩ := h
  rw [Alive, hthreads]
  by_cases heq : other = handle
  · refine ⟨thread, ?_, hstate heq⟩
    rw [getElem?_insert, if_pos heq]
  · refine ⟨found, ?_, hfoundState⟩
    rw [getElem?_insert, if_neg heq, hfound]

theorem Alive.awakes (h : s.Alive handle) {may : String → Prop} {now : ℕ}
    (hawakes : Awakes may now s s') : s'.Alive handle := by
  obtain ⟨found, hfound, hfoundState⟩ := h
  rcases hawakes.threads handle with hsame | ⟨thread, -, -, ⟨-, hwake⟩ | ⟨-, hexpire⟩⟩
  · exact ⟨found, hsame.trans hfound, hfoundState⟩
  · exact ⟨_, hwake, ready_ne_exited⟩
  · exact ⟨_, hexpire, ready_ne_exited⟩

theorem Alive.blockCurrentLocked (h : s.Alive handle) (key : String) (deadline : Option ℕ) :
    (s.blockCurrentLocked key deadline).2.Alive handle := by
  unfold GuestScheduler.blockCurrentLocked
  split
  · exact h
  cases s.running with
  | none => exact h
  | some entry => exact h.insert rfl fun _ => blocked_ne_exited

end Alive

end GuestScheduler

/-! ## Calls of others -/

/-- The call leaves the threads in `owed` and the keys in `own` alone. -/
def SchedulerCall.spares (owed : ℕ → Bool) (own : String → Bool) (s : GuestScheduler) :
    SchedulerCall → Bool
  | .discardReadyThread handle => !owed handle
  | .blockCurrent waitKey | .blockCurrentUntil waitKey _ =>
    s.currentThread.all (!owed ·) && !own waitKey
  | .joinThread handle => s.currentThread.all (!owed ·) && !own (threadExitWaitKey handle)
  | .exitCurrent _ => s.currentThread.all (!owed ·)
  | .createThread .. | .selectNext _ | .yieldCurrent | .wakeBlockedThreads ..
  | .wakeBlockedThread .. | .consumeCurrentThreadTimeout _ | .insertObject _
  | .removeObject .. => true

/-- The call leaves the handle table. -/
def SchedulerCall.keepsHandles : SchedulerCall → Bool
  | .createThread .. | .discardReadyThread _ | .insertObject _ | .removeObject .. => false
  | _ => true

namespace GuestScheduler

/-- No thread of `owed` starts to wait or exits, and no thread starts to wait under a key of
`own`. -/
structure Spares (owed : ℕ → Prop) (own : String → Prop) (s s' : GuestScheduler) : Prop where
  orderly : Orderly s'
  waits : ∀ handle, owed handle → s'.waitOf handle = s.waitOf handle ∨ s'.waitOf handle = none
  keys : ∀ handle key deadline, own key → s'.waitOf handle = some (key, deadline) →
    s.waitOf handle = some (key, deadline)
  alive : ∀ handle, owed handle → s.Alive handle → s'.Alive handle

namespace Spares

variable {owed : ℕ → Prop} {own : String → Prop} {s s' : GuestScheduler}

theorem refl (hs : Orderly s) : Spares owed own s s :=
  ⟨hs, fun _ _ => .inl rfl, fun _ _ _ _ h => h, fun _ _ h => h⟩

theorem trans {s'' : GuestScheduler} (h : Spares owed own s s') (h' : Spares owed own s' s'') :
    Spares owed own s s'' where
  orderly := h'.orderly
  waits handle howed := by
    rcases h'.waits _ howed with hsame | hnone
    · rw [hsame]
      exact h.waits _ howed
    · exact .inr hnone
  keys handle key deadline hkey hwait := h.keys _ _ _ hkey (h'.keys _ _ _ hkey hwait)
  alive handle howed halive := h'.alive _ howed (h.alive _ howed halive)

section

variable (hs' : Orderly s') (halive : ∀ handle, owed handle → s.Alive handle → s'.Alive handle)
include hs' halive

theorem of_keeps {who : ℕ → Prop} (h : Keeps who s s') : Spares owed own s s' where
  orderly := hs'
  waits handle _ := .inl (h.waitOf handle)
  keys _ _ _ _ hwait := by rwa [h.waitOf] at hwait
  alive := halive

theorem of_awakes {may : String → Prop} {now : ℕ} (h : Awakes may now s s') :
    Spares owed own s s' where
  orderly := hs'
  waits handle _ := by
    rcases h.cases handle with ⟨hsame, -⟩ | ⟨_, _, -, hnone, -⟩
    · exact .inl hsame
    · exact .inr hnone
  keys _ _ _ _ hwait := h.waitOf_of_some hwait
  alive := halive

theorem of_blocks {handle : ℕ} {wait : Wait} (h : Blocks handle wait s s') (howed : ¬ owed handle)
    (hown : ¬ own wait.1) : Spares owed own s s' where
  orderly := hs'
  waits other hother := by
    have hne : handle ≠ other := fun heq => howed (heq ▸ hother)
    rw [h.waitOf, if_neg hne]
    exact .inl rfl
  keys _ _ _ hkey hwait := by
    rw [h.waitOf] at hwait
    split at hwait
    · exact absurd (Option.some.inj hwait ▸ hkey) hown
    · exact hwait
  alive := halive

end

end Spares

/-- A thread that is not let go stays alive. -/
theorem Act.alive {may : Permissions} {s s' : GuestScheduler} (h : Act may s s') {handle : ℕ}
    (hstays : ¬ may.leave handle) (halive : s.Alive handle) : s'.Alive handle := by
  cases h with
  | handles => exact halive
  | expire now => exact halive.awakes (s.awakes_wakeExpired _)
  | wake key _ woken hwoken => exact halive.awakes (awakes_waitsOn _ 0 hwoken)
  | add =>
    obtain ⟨found, hfound, hstate⟩ := halive
    exact ⟨found, by simp [getElem?_insertIfNew, hfound], hstate⟩
  | drop handles other _ _ _ hmay =>
    obtain ⟨found, hfound, hstate⟩ := halive
    have hne : other ≠ handle := fun heq => hstays (heq ▸ hmay)
    exact ⟨found, by simp [getElem?_erase, hne, hfound], hstate⟩
  | select => exact halive.insert rfl fun _ => running_ne_exited
  | requeue => exact halive.insert rfl fun _ => ready_ne_exited
  | block => exact halive.insert rfl fun _ => blocked_ne_exited
  | exit other thread _ _ hmay => exact halive.insert rfl fun heq => absurd (heq ▸ hmay) hstays
  | forget other thread hrun =>
    exact halive.insert rfl fun _ => (running_eq_some_iff.mp hrun).2.2 ▸ running_ne_exited

/-- What calls may do that spare a service. -/
def Permissions.sparing (owed : ℕ → Prop) (own : String → Prop) : Permissions :=
  { Permissions.all with
    block := fun handle key => ¬ owed handle ∧ ¬ own key
    leave := fun handle => ¬ owed handle }

theorem Act.spares {owed : ℕ → Prop} {own : String → Prop} {s s' : GuestScheduler}
    (h : Act (.sparing owed own) s s') (hs : Orderly s) : Spares owed own s s' := by
  have hs' := hs.act h
  have halive : ∀ handle, owed handle → s.Alive handle → s'.Alive handle :=
    fun handle howed => h.alive (not_not.mpr howed)
  cases h.view with
  | awakes now _ hawakes => exact .of_awakes hs' halive hawakes
  | keeps hkeeps => exact .of_keeps hs' halive hkeeps
  | blocks handle wait _ hmay hblocks => exact .of_blocks hs' halive hblocks hmay.1 hmay.2

/-- What a call of another service may do. -/
theorem spares_step {owed : ℕ → Bool} {own : String → Bool} {s : GuestScheduler} (hs : Orderly s)
    {call : SchedulerCall} (hspares : call.spares owed own s = true) :
    Spares (owed · = true) (own · = true) s (s.step call) := by
  have hpermitted : s.Permitted (.sparing (owed · = true) (own · = true)) call := by
    cases call <;> simp_all [Permitted, Permissions.sparing, Permissions.all,
      SchedulerCall.spares, Option.all_eq_true]
  have hacts := acts_step hs.toScheduled hpermitted
  generalize s.step call = s' at hacts
  induction hacts with
  | refl => exact .refl hs
  | tail _ hact ih => exact ih.trans (hact.spares ih.orderly)

/-- A thread that is woken under the key it may wait for waits no more. -/
theorem waitOf_wakeBlockedThread {s : GuestScheduler} (hs : Orderly s) {handle : ℕ}
    (halive : s.Alive handle) {key : String} (hkey : key ≠ "") (now : ℕ)
    (hwait : ∀ wait, s.waitOf handle = some wait → wait.1 = key) :
    (s.wakeBlockedThread handle key now).2.waitOf handle = none := by
  obtain ⟨thread, hthread, -⟩ := halive
  have hpos := (hs.issued _ (by rw [hthread]; rfl)).1
  have hvalid : ¬ (handle = invalidKernelHandle ∨ key = "") := by
    rintro (rfl | hempty)
    · exact absurd hpos (lt_irrefl _)
    · exact hkey hempty
  have hexp := s.awakes_wakeExpired now
  rw [wakeBlockedThread, if_neg hvalid]
  dsimp only
  split
  · rw [waitOf, getElem?_makeReady]
    cases (s.wakeExpiredThreadsLocked now).threads[handle]? with
    | none => rfl
    | some thread => simp [wait, wake]
  next hnot =>
    cases hstill : (s.wakeExpiredThreadsLocked now).waitOf handle with
    | none => rfl
    | some wait =>
      obtain ⟨found, hfound, hblock, hfoundKey, -⟩ := waitOf_eq_some_iff.mp hstill
      refine absurd ?_ hnot
      rw [hfound, Option.any_some, waitsOn, decide_eq_true_eq]
      exact ⟨hblock, hfoundKey.trans (hwait _ (hexp.waitOf_of_some hstill))⟩

/-! ## Requested deadlines -/

/-- A call leaves the wait of a blocked thread as it is or ends it. -/
theorem waitOf_step {s : GuestScheduler} (hs : Orderly s) {handle : ℕ} {wait : Wait}
    (hwait : s.waitOf handle = some wait) (call : SchedulerCall) :
    (s.step call).waitOf handle = some wait ∨ (s.step call).waitOf handle = none := by
  obtain ⟨thread, hthread, hblocked, -⟩ := waitOf_eq_some_iff.mp hwait
  have hcur : s.currentThread ≠ some handle := fun h => by
    cases hwait.symm.trans (hs.waitOf_current h)
  by_cases hdiscard : call = .discardReadyThread handle
  · rw [hdiscard, step, discardReadyThread, hthread]
    simp [hblocked, hwait]
  · have hspares : call.spares (· = handle) (fun _ => false) s = true := by
      cases call <;> simp_all [SchedulerCall.spares, Option.all_eq_true]
      all_goals
        rintro other hother rfl
        exact hcur hother
    rw [← hwait]
    exact (spares_step hs hspares).waits handle (decide_eq_true rfl)

/-- A thread that stays blocked waits for what it asked for. -/
theorem waitOf_run {s : GuestScheduler} (hs : Orderly s) {handle : ℕ} {wait : Wait}
    (hwait : s.waitOf handle = some wait) {calls : List SchedulerCall}
    (hblocked : ∀ n ≤ calls.length, (s.run (calls.take n)).stateOf handle = some .kBlocked) :
    Orderly (s.run calls) ∧ (s.run calls).waitOf handle = some wait := by
  induction calls generalizing s with
  | nil => exact ⟨hs, hwait⟩
  | cons call calls ih =>
    refine ih (hs.step call) ((waitOf_step hs hwait call).resolve_right fun hnone => ?_)
      fun n hn => hblocked (n + 1) (Nat.succ_le_succ hn)
    have hstate : (s.step call).stateOf handle = some .kBlocked :=
      hblocked 1 (Nat.le_add_left _ _)
    obtain ⟨thread, hthread, hstill⟩ := Option.map_eq_some_iff.mp hstate
    simp [waitOf_of_getElem? hthread, GuestThread.wait, hstill] at hnone

/-- A selection with this reading makes the thread ready before it chooses one. -/
def ReadiedAt (now handle : ℕ) (s : GuestScheduler) : Prop :=
  (s.wakeExpiredThreadsLocked now).stateOf handle = some .kReady ∧
    ((s.selectNext now).2.stateOf handle = some .kReady ∨ (s.selectNext now).1 = some handle ∧
      (s.selectNext now).2.stateOf handle = some .kRunning)

theorem readiedAt_of_due {s : GuestScheduler} (hs : Scheduled s) {handle : ℕ}
    {thread : GuestThread} {deadline now : ℕ} (hthread : s.threads[handle]? = some thread)
    (hblocked : thread.state = .kBlocked)
    (hdeadline : thread.waitDeadlineNanoseconds = some deadline) (hreached : deadline ≤ now)
    (hcurrent : s.currentThread = none) : s.ReadiedAt now handle := by
  have hready := stateOf_wakeExpired hthread hblocked hdeadline hreached
  rw [ReadiedAt, selectNext, hcurrent]
  exact ⟨hready, stateOf_selectFrom (hs.wakeExpired _) hready⟩

/-- After any calls with any readings of the clock: a running thread is the current one; the
ready queue lists the ready threads, each once; a thread is blocked exactly while it has a wait
key; an exited thread stays as it is; and a selection makes every thread ready whose deadline its
reading reaches, before it chooses one. While a thread stays blocked that deadline is the one it
asked for. -/
theorem run_scheduled (calls : List SchedulerCall) : let s := run {} calls
    (∀ handle, s.stateOf handle = some .kRunning → s.currentThread = some handle) ∧
    (s.readyThreads.Nodup ∧ ∀ handle, handle ∈ s.readyThreads ↔ s.stateOf handle = some .kReady) ∧
    (∀ handle waitKey deadline, s.currentThread = some handle →
      (s.blockCurrentUntil waitKey deadline).1 = true → ∀ later : List SchedulerCall,
      let t := (s.blockCurrentUntil waitKey deadline).2
      (∀ n ≤ later.length, (t.run (later.take n)).stateOf handle = some .kBlocked) →
        (t.run later).waitOf handle = some (waitKey, some deadline) ∧
        ∀ now, deadline ≤ now → (t.run later).currentThread = none →
          (t.run later).ReadiedAt now handle) ∧
    ∀ (handle : ℕ) (thread : GuestThread), s.threads[handle]? = some thread →
      (thread.state = .kBlocked ↔ thread.waitKey ≠ "") ∧
      (thread.state = .kExited → ∀ later, (s.run later).threads[handle]? = some thread) ∧
      ∀ deadline now, thread.state = .kBlocked →
        thread.waitDeadlineNanoseconds = some deadline → deadline ≤ now →
        s.currentThread = none → s.ReadiedAt now handle := by
  intro s
  have hs : Orderly s := StepRuns.run_induction step (fun _ call h => h.step call) .initial calls
  refine ⟨fun handle => (hs.current handle).mpr, ⟨hs.nodup, hs.ready⟩, ?_, ?_⟩
  · intro handle waitKey deadline hcur hblocks later t hblocked
    have hkey : waitKey ≠ "" := by
      rintro rfl
      cases hblocks
    obtain ⟨s', hblock, hs', hwait⟩ := blockCurrentLocked_current hs hcur hkey (some deadline)
    obtain rfl : t = s' := congrArg Prod.snd hblock
    obtain ⟨hord, hlater⟩ := waitOf_run hs' (by rw [hwait.waitOf, if_pos rfl]) hblocked
    obtain ⟨thread, hthread, hstate, -, hdeadline⟩ := waitOf_eq_some_iff.mp hlater
    exact ⟨hlater, fun now hreached hcurrent =>
      readiedAt_of_due hord.toScheduled hthread hstate hdeadline hreached hcurrent⟩
  intro handle thread hthread
  refine ⟨hs.keyFits _ _ hthread, fun hexited later => ?_, fun deadline now hblocked hdeadline =>
    readiedAt_of_due hs.toScheduled hthread hblocked hdeadline⟩
  have hmoved := (scheduled_allMoved_run hs.toScheduled later).2 handle
  rw [hthread] at hmoved
  exact hmoved.eq_of_exited hexited

/-- Thread 1 waits with a deadline, thread 2 exits. Thread 1 keeps its deadline, and the selection
that reaches it chooses thread 1. Thread 2 stays as it is. -/
theorem run_scheduled_deadline :
    let calls : List SchedulerCall := [.createThread "a" 0 0 0, .createThread "b" 0 0 0,
      .selectNext 0]
    let later : List SchedulerCall := [.selectNext 1, .exitCurrent 7]
    let s := (run {} calls).run (.blockCurrentUntil "sleep" 10 :: later)
    s.waitOf 1 = some ("sleep", some 10) ∧ (s.selectNext 9).1 = none ∧
      (s.selectNext 10).1 = some 1 ∧ (s.selectNext 10).2.stateOf 1 = some .kRunning ∧
      ((s.run [.selectNext 10, .joinThread 2]).threads[2]?.map exitValue) = some 7 := by
  intro calls later s
  obtain ⟨hwait, hselected⟩ := (run_scheduled calls).2.2.1 1 "sleep" 10 rfl rfl later
    (by decide +kernel)
  have hgone : ∃ thread, s.threads[2]? = some thread ∧ thread.state = .kExited ∧
      thread.exitValue = 7 := ⟨_, rfl, rfl, rfl⟩
  obtain ⟨gone, hgone, hexited, hvalue⟩ := hgone
  have hsame : (s.run [.selectNext 10, .joinThread 2]).threads[2]? = some gone :=
    ((run_scheduled (calls ++ .blockCurrentUntil "sleep" 10 :: later)).2.2.2 2 gone hgone).2.1
      hexited _
  refine ⟨hwait, by decide +kernel, by decide +kernel, ?_, ?_⟩
  · exact ((hselected 10 le_rfl rfl).2.resolve_left (by decide +kernel)).2
  · rw [hsame, Option.map_some, hvalue]

/-! ## Handles of others -/

theorem handles_selectFrom (ready : List ℕ) (s : GuestScheduler) :
    (selectFrom ready s).2.handles = s.handles := by
  induction ready with
  | nil => rfl
  | cons handle rest ih =>
    rw [selectFrom]
    split
    · split
      · rfl
      · exact ih
    · exact ih

theorem handles_step_of_keeps (s : GuestScheduler) (call : SchedulerCall)
    (h : call.keepsHandles = true) : (s.step call).handles = s.handles := by
  cases call with
  | createThread | discardReadyThread | insertObject | removeObject => cases h
  | selectNext now =>
    rw [step, selectNext]
    split
    · rfl
    · exact handles_selectFrom _ _
  | _ =>
    simp only [step, yieldCurrent, blockCurrent, blockCurrentUntil, blockCurrentLocked,
      wakeBlockedThreads, wakeBlockedThread, joinThread, exitCurrent, consumeCurrentThreadTimeout]
    repeat' split
    all_goals rfl

/-- Most calls leave the handles. -/
theorem handles_step (s : GuestScheduler) (call : SchedulerCall) :
    (s.step call).handles = s.handles ∨ (∃ type, (s.step call).handles = (s.handles.insert type).2 ∧
        (type = .kThread ∨ call = .insertObject type)) ∨
      ∃ handle type, (s.step call).handles = (s.handles.remove handle type).2 ∧
        (type = .kThread ∨ call = .removeObject handle type) := by
  cases call with
  | createThread name priority entryAddress argument =>
    rw [step, createThread]
    split
    · exact .inl rfl
    refine .inr (.inl ⟨.kThread, ?_, .inl rfl⟩)
    split
    next heq => rw [heq]
    next heq => rw [heq]
  | discardReadyThread handle =>
    rw [step, discardReadyThread]
    split
    · refine .inr (.inr ⟨handle, .kThread, ?_, .inl rfl⟩)
      split
      next heq => rw [heq]
      next heq => rw [heq]
    · exact .inl rfl
  | insertObject type => exact .inr (.inl ⟨type, rfl, .inr rfl⟩)
  | removeObject handle type => exact .inr (.inr ⟨handle, type, rfl, .inr rfl⟩)
  | _ => exact .inl (handles_step_of_keeps s _ rfl)

end GuestScheduler

end KajPS5.Kernel
