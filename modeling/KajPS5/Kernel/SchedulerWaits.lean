/-
# Waits

What the services see of the threads: what a thread waits for and until when, and which of
its waits timed out. `Awakes` says what a scheduler may do to the waiting threads on its
own: it wakes them by their keys or when their deadline is reached, and it never makes a
thread wait. The clock of the services is steady.
-/

import KajPS5.Kernel.SchedulerRuns

namespace KajPS5.Kernel

open Math GuestThread OrderedMaps Option

/-- The host's clock: the readings of the monotonic clock never decrease, those of the
realtime clock are arbitrary. -/
structure SteadyClock where
  monotonicNanoseconds : ℕ → ℕ
  steady : Monotone monotonicNanoseconds
  realtimeNanoseconds : ℕ → ℤ

/-- A wait: the key, and the deadline if there is one. -/
abbrev Wait := String × Option ℕ

/-- The wait of a blocked thread. -/
def GuestThread.wait (thread : GuestThread) : Option Wait :=
  if thread.state = .kBlocked then some (thread.waitKey, thread.waitDeadlineNanoseconds) else none

/-- Only a thread that goes on has a wait that timed out. -/
def GuestThread.TimeoutFits (thread : GuestThread) : Prop :=
  thread.timedOutWaitKey ≠ "" → thread.state = .kReady ∨ thread.state = .kRunning

variable {before after : Option GuestThread}

theorem Moves.timeoutFits (h : Moves before after)
    (hfits : ∀ thread, before = some thread → thread.TimeoutFits) :
    ∀ thread, after = some thread → thread.TimeoutFits := by
  rintro thread rfl
  cases h with
  | create _ hready => exact fun _ => .inl hready
  | block | exit | wake | forget => exact fun h => absurd rfl h
  | expire | yield => exact fun _ => .inl rfl
  | select => exact fun _ => .inr rfl

theorem Moved.timeoutFits (h : Moved before after)
    (hfits : ∀ thread, before = some thread → thread.TimeoutFits) :
    ∀ thread, after = some thread → thread.TimeoutFits := by
  induction h with
  | refl => exact hfits
  | tail _ hmove ih => exact hmove.timeoutFits ih

namespace GuestScheduler

/-- What the thread waits for. -/
def waitOf (s : GuestScheduler) (handle : ℕ) : Option Wait := s.threads[handle]?.bind wait

/-- The key of the thread's wait that timed out. -/
def timedOutOf (s : GuestScheduler) (handle : ℕ) : String :=
  s.threads[handle]?.elim "" timedOutWaitKey

/-- The scheduler is consistent, and so is what it remembers of timeouts. -/
structure Orderly (s : GuestScheduler) : Prop extends Scheduled s where
  timeoutFits : ∀ (handle : ℕ) thread, s.threads[handle]? = some thread →
    thread.TimeoutFits

theorem Orderly.initial : Orderly {} where
  toScheduled := .initial
  timeoutFits _ _ h := by simp at h

variable {s s' : GuestScheduler}

theorem Orderly.of_allMoved (hs : Orderly s) (hs' : Scheduled s')
    (hmoved : s.AllMoved s') : Orderly s' where
  toScheduled := hs'
  timeoutFits handle := (hmoved handle).timeoutFits (hs.timeoutFits handle)

theorem Orderly.act {may : Permissions} (hs : Orderly s) (h : Act may s s') : Orderly s' :=
  hs.of_allMoved (h.scheduled hs.toScheduled) h.allMoved

theorem Orderly.step (hs : Orderly s) (call : SchedulerCall) : Orderly (s.step call) :=
  hs.of_allMoved (hs.toScheduled.step call) (allMoved_step hs.toScheduled call)

section Views

variable {handle : ℕ} {thread : GuestThread}

theorem waitOf_of_getElem? (h : s.threads[handle]? = some thread) :
    s.waitOf handle = thread.wait := by
  rw [waitOf, h, bind_some]

theorem timedOutOf_of_getElem? (h : s.threads[handle]? = some thread) :
    s.timedOutOf handle = thread.timedOutWaitKey := by
  rw [timedOutOf, h, elim_some]

theorem waitOf_eq_some_iff {key : String} {deadline : Option ℕ} :
    s.waitOf handle = some (key, deadline) ↔
      ∃ thread, s.threads[handle]? = some thread ∧ thread.state = .kBlocked ∧
        thread.waitKey = key ∧ thread.waitDeadlineNanoseconds = deadline := by
  simp [waitOf, bind_eq_some_iff, wait]

section

variable (hs : Orderly s) (h : s.currentThread = some handle)
include hs h

/-- The current thread waits for nothing. -/
theorem Orderly.waitOf_current : s.waitOf handle = none := by
  obtain ⟨thread, hthread, hrun⟩ := map_eq_some_iff.mp ((hs.current handle).mp h)
  simp [waitOf_of_getElem? hthread, wait, hrun]

theorem Orderly.running_current : ∃ thread, s.running = some (handle, thread) := by
  obtain ⟨thread, hthread, hrun⟩ := map_eq_some_iff.mp ((hs.current handle).mp h)
  exact ⟨thread, running_eq_some_iff.mpr ⟨h, hthread, hrun⟩⟩

theorem Orderly.current_pos : 0 < handle := by
  obtain ⟨thread, hthread, -⟩ := map_eq_some_iff.mp ((hs.current handle).mp h)
  exact (hs.issued _ (by rw [hthread]; rfl)).1

end

/-- A thread with a wait that timed out waits no more and goes on. -/
theorem Orderly.of_timedOut (hs : Orderly s) (h : s.timedOutOf handle ≠ "") :
    s.waitOf handle = none ∧ (s.stateOf handle = some .kReady ∨ s.currentThread = some handle) := by
  cases hthread : s.threads[handle]? with
  | none => simp [timedOutOf, hthread] at h
  | some thread =>
    rw [timedOutOf_of_getElem? hthread] at h
    have hstate := stateOf_of_getElem? hthread
    rw [hs.current handle, hstate, waitOf_of_getElem? hthread, wait]
    rcases hs.timeoutFits _ _ hthread h with hready | hrun
    · simp [hready]
    · simp [hrun]

end Views

/-! ## Waking -/

/-- Between the two states of the scheduler some blocked threads were woken: by a key that may
be used, or by a deadline that is reached. -/
structure Awakes (may : String → Prop) (now : ℕ) (s s' : GuestScheduler) : Prop where
  current : s'.currentThread = s.currentThread
  threads : ∀ handle : ℕ, s'.threads[handle]? = s.threads[handle]? ∨
    ∃ thread, s.threads[handle]? = some thread ∧ thread.state = .kBlocked ∧
      (may thread.waitKey ∧ s'.threads[handle]? = some thread.wake ∨
        thread.expired now = true ∧ s'.threads[handle]? = some thread.expire)

namespace Awakes

variable {may : String → Prop} {now : ℕ}

theorem refl (may : String → Prop) (now : ℕ) (s : GuestScheduler) : Awakes may now s s :=
  ⟨rfl, fun _ => .inl rfl⟩

section

variable (h : Awakes may now s s')
include h

theorem mono {may' : String → Prop} {now' : ℕ}
    (hmay : ∀ key, may key → may' key) (hnow : now ≤ now') : Awakes may' now' s s' where
  current := h.current
  threads handle := by
    rcases h.threads handle with hsame | ⟨thread, hthread, hblock, ⟨hkey, hwake⟩ | ⟨hexp, hexpire⟩⟩
    · exact .inl hsame
    · exact .inr ⟨thread, hthread, hblock, .inl ⟨hmay _ hkey, hwake⟩⟩
    · refine .inr ⟨thread, hthread, hblock, .inr ⟨?_, hexpire⟩⟩
      simp only [expired, decide_eq_true_eq, any_eq_true] at hexp ⊢
      obtain ⟨-, deadline, hdue, hle⟩ := hexp
      exact ⟨hblock, deadline, hdue, hle.trans hnow⟩

theorem trans {s'' : GuestScheduler} (h' : Awakes may now s' s'') : Awakes may now s s'' where
  current := h'.current.trans h.current
  threads handle := by
    rcases h.threads handle with hsame | ⟨thread, hthread, hblock, hwoken⟩
    · rw [← hsame]
      exact h'.threads _
    -- a thread that was woken is not blocked, so it stays as it is
    have hready : ∃ woken, s'.threads[handle]? = some woken ∧ woken.state = .kReady := by
      rcases hwoken with ⟨-, hwake⟩ | ⟨-, hexpire⟩
      · exact ⟨_, hwake, rfl⟩
      · exact ⟨_, hexpire, rfl⟩
    obtain ⟨woken, hwokenThread, hwokenReady⟩ := hready
    have hsame : s''.threads[handle]? = s'.threads[handle]? := by
      rcases h'.threads handle with hsame | ⟨again, hagain, hagainBlocked, -⟩
      · exact hsame
      · cases hwokenThread.symm.trans hagain
        cases hwokenReady.symm.trans hagainBlocked
    rw [hsame]
    exact .inr ⟨thread, hthread, hblock, hwoken⟩

/-- What the services see of it. -/
theorem cases (handle : ℕ) :
    (s'.waitOf handle = s.waitOf handle ∧ s'.timedOutOf handle = s.timedOutOf handle ∧
      s'.stateOf handle = s.stateOf handle) ∨
    ∃ key deadline, s.waitOf handle = some (key, deadline) ∧ s'.waitOf handle = none ∧
      s'.stateOf handle = some .kReady ∧
      (may key ∧ s'.timedOutOf handle = "" ∨
        (∃ d, deadline = some d ∧ d ≤ now) ∧ s'.timedOutOf handle = key) := by
  rcases h.threads handle with hsame | ⟨thread, hthread, hblock, hwoken⟩
  · simp [waitOf, timedOutOf, stateOf, hsame]
  right
  have hwait : s.waitOf handle = some (thread.waitKey, thread.waitDeadlineNanoseconds) := by
    simp [waitOf_of_getElem? hthread, wait, hblock]
  refine ⟨_, _, hwait, ?_⟩
  rcases hwoken with ⟨hkey, hwake⟩ | ⟨hexp, hexpire⟩
  · refine ⟨?_, stateOf_of_getElem? hwake, .inl ⟨hkey, timedOutOf_of_getElem? hwake⟩⟩
    simp [waitOf_of_getElem? hwake, wait, wake]
  · refine ⟨?_, stateOf_of_getElem? hexpire, .inr ⟨?_, timedOutOf_of_getElem? hexpire⟩⟩
    · simp [waitOf_of_getElem? hexpire, wait, expire]
    · simpa [expired, hblock, any_eq_true] using hexp

/-- Nobody starts to wait. -/
theorem waitOf_of_some {handle : ℕ} {wait : Wait}
    (hwait : s'.waitOf handle = some wait) : s.waitOf handle = some wait := by
  rcases h.cases handle with ⟨hsame, -⟩ | ⟨_, _, _, hnone, -⟩
  · rwa [← hsame]
  · cases hnone.symm.trans hwait

/-- A wait without a deadline lasts, unless its key is used. -/
theorem waitOf_of_not_may {handle : ℕ} {key : String} (hwait : s.waitOf handle = some (key, none))
    (hkey : ¬ may key) : s'.waitOf handle = some (key, none) := by
  rcases h.cases handle with ⟨hsame, -⟩ | ⟨_, _, hsome, _, _, ⟨hmay, -⟩ | ⟨⟨_, hdue, -⟩, -⟩⟩
  · rw [hsame, hwait]
  · rw [hwait, Option.some.injEq, Prod.mk.injEq] at hsome
    exact absurd (hsome.1 ▸ hmay) hkey
  · rw [hwait, Option.some.injEq, Prod.mk.injEq] at hsome
    cases hsome.2.trans hdue

end

theorem of_makeReady {wake : GuestThread → GuestThread} {woken : List ℕ}
    (hwoken : ∀ handle ∈ woken, ∃ thread, s.threads[handle]? = some thread ∧
      thread.state = .kBlocked ∧ (may thread.waitKey ∧ wake thread = thread.wake ∨
        thread.expired now = true ∧ wake thread = thread.expire)) :
    Awakes may now s (s.makeReady wake woken) where
  current := rfl
  threads handle := by
    rw [getElem?_makeReady]
    by_cases hmem : handle ∈ woken
    · obtain ⟨thread, hthread, hblock, hcase⟩ := hwoken _ hmem
      refine .inr ⟨thread, hthread, hblock, ?_⟩
      simpa [hthread, hmem] using hcase
    · simp [hmem]

end Awakes

theorem awakes_wakeExpired (now : ℕ) (s : GuestScheduler) :
    Awakes (fun _ => False) now s (s.wakeExpiredThreadsLocked now) := by
  apply Awakes.of_makeReady
  intro handle hmem
  obtain ⟨thread, hthread, hexp⟩ := mem_handlesWhere.mp hmem
  have hblock := hexp
  simp only [expired, decide_eq_true_eq] at hblock
  exact ⟨thread, hthread, hblock.1, .inr ⟨hexp, rfl⟩⟩

theorem awakes_waitsOn (key : String) (now : ℕ) {woken : List ℕ}
    (hwoken : ∀ handle ∈ woken, handle ∈ s.handlesWhere (waitsOn key)) :
    Awakes (· = key) now s (s.makeReady wake woken) := by
  apply Awakes.of_makeReady
  intro handle hmem
  obtain ⟨thread, hthread, hwaits⟩ := mem_handlesWhere.mp (hwoken _ hmem)
  simp only [waitsOn, decide_eq_true_eq] at hwaits
  exact ⟨thread, hthread, hwaits.1, .inl ⟨hwaits.2, rfl⟩⟩

theorem awakes_wakeBlockedThreads (key : String) (count now : ℕ) (s : GuestScheduler) :
    Awakes (· = key) now s (s.wakeBlockedThreads key count now).2 := by
  unfold wakeBlockedThreads
  split
  · exact .refl _ _ _
  apply ((s.awakes_wakeExpired now).mono (fun _ h => h.elim) le_rfl).trans
  exact awakes_waitsOn _ _ fun handle hmem => List.mem_of_mem_take hmem

theorem awakes_wakeBlockedThread (handle : ℕ) (key : String) (now : ℕ) (s : GuestScheduler) :
    Awakes (· = key) now s (s.wakeBlockedThread handle key now).2 := by
  unfold wakeBlockedThread
  split
  · exact .refl _ _ _
  have hexp : Awakes (· = key) now s (s.wakeExpiredThreadsLocked now) :=
    (s.awakes_wakeExpired now).mono (fun _ h => h.elim) le_rfl
  dsimp only
  split
  next hany =>
    apply hexp.trans
    apply awakes_waitsOn key now
    intro other hmem
    rw [List.mem_singleton.mp hmem]
    exact mem_handlesWhere.mpr ((any_eq_true _ _).mp hany)
  · exact hexp

/-- At most one thread waits under the key. -/
def OneWaits (s : GuestScheduler) (key : String) : Prop :=
  ∀ ⦃handle other : ℕ⦄ ⦃deadline deadline' : Option ℕ⦄, s.waitOf handle = some (key, deadline) →
    s.waitOf other = some (key, deadline') → handle = other

/-- No thread waits under the key. -/
def NoneWaits (s : GuestScheduler) (key : String) : Prop :=
  ∀ (handle : ℕ) (deadline : Option ℕ), s.waitOf handle ≠ some (key, deadline)

variable {may : String → Prop} {handle now : ℕ} {key : String}

theorem OneWaits.awakes (h : s.OneWaits key) (hawakes : Awakes may now s s') : s'.OneWaits key :=
  fun _ _ _ _ hwait hwait' => h (hawakes.waitOf_of_some hwait) (hawakes.waitOf_of_some hwait')

theorem NoneWaits.awakes (h : s.NoneWaits key) (hawakes : Awakes may now s s') : s'.NoneWaits key :=
  fun _ _ hwait => h _ _ (hawakes.waitOf_of_some hwait)

/-- The only thread that waits under a key is woken. -/
theorem noneWaits_wakeBlockedThreads (hkey : key ≠ "") (now : ℕ)
    (hone : s.OneWaits key) : (s.wakeBlockedThreads key 1 now).2.NoneWaits key := by
  intro handle deadline hwait
  rw [wakeBlockedThreads, if_neg (by simp [hkey])] at hwait
  obtain ⟨thread, hthread, hblock, hthreadKey, -⟩ := waitOf_eq_some_iff.mp hwait
  rw [getElem?_makeReady] at hthread
  obtain ⟨old, hold, rfl⟩ := map_eq_some_iff.mp hthread
  set expired := s.wakeExpiredThreadsLocked now with hexp
  have honeExpired : expired.OneWaits key := hone.awakes (s.awakes_wakeExpired now)
  split at hblock
  · cases hblock
  next hnot =>
    rw [if_neg hnot] at hthreadKey
    have hwaits : ∀ other ∈ expired.handlesWhere (waitsOn key), other = handle := by
      intro other hmem
      obtain ⟨found, hfound, hfoundWaits⟩ := mem_handlesWhere.mp hmem
      simp only [waitsOn, decide_eq_true_eq] at hfoundWaits
      exact honeExpired (waitOf_eq_some_iff.mpr ⟨found, hfound, hfoundWaits.1, hfoundWaits.2, rfl⟩)
        (waitOf_eq_some_iff.mpr ⟨old, hold, hblock, hthreadKey, rfl⟩)
    have hmem : handle ∈ expired.handlesWhere (waitsOn key) :=
      mem_handlesWhere.mpr ⟨old, hold, by simp [waitsOn, hblock, hthreadKey]⟩
    cases hlist : expired.handlesWhere (waitsOn key) with
    | nil => simp [hlist] at hmem
    | cons first rest =>
      rw [hlist] at hnot hwaits
      simp [hwaits first List.mem_cons_self] at hnot

/-! ## The other calls -/

/-- All waits stay, and only the threads of `who` may forget that a wait timed out. -/
structure Keeps (who : ℕ → Prop) (s s' : GuestScheduler) : Prop where
  waitOf : ∀ handle, s'.waitOf handle = s.waitOf handle
  timedOutOf : ∀ handle, s'.timedOutOf handle = s.timedOutOf handle ∨
    who handle ∧ s'.timedOutOf handle = ""

variable {who : ℕ → Prop}

theorem Keeps.of_threads_eq (h : s'.threads = s.threads) : Keeps who s s' := by
  constructor <;> intro handle
  · rw [GuestScheduler.waitOf, GuestScheduler.waitOf, h]
  · rw [GuestScheduler.timedOutOf, h]
    exact .inl rfl

theorem Keeps.refl (who : ℕ → Prop) (s : GuestScheduler) : Keeps who s s := .of_threads_eq rfl

/-- A thread is exchanged for one with the same wait. -/
theorem Keeps.of_insert {old thread : GuestThread} (hold : s.threads[handle]? = some old)
    (hthreads : s'.threads = s.threads.insert handle thread) (hwait : thread.wait = old.wait)
    (hlate : thread.timedOutWaitKey = old.timedOutWaitKey ∨
      who handle ∧ thread.timedOutWaitKey = "") : Keeps who s s' where
  waitOf other := by
    rw [GuestScheduler.waitOf, hthreads, getElem?_insert]
    split
    next heq => rw [← heq, waitOf_of_getElem? hold, bind_some, hwait]
    · rfl
  timedOutOf other := by
    rw [GuestScheduler.timedOutOf, hthreads, getElem?_insert]
    split
    next heq =>
      rw [← heq, timedOutOf_of_getElem? hold]
      exact hlate
    · exact .inl rfl

/-- A ready thread is added. -/
theorem Keeps.of_insertIfNew {thread : GuestThread}
    (hthreads : s'.threads = s.threads.insertIfNew handle thread) (hwait : thread.wait = none)
    (hlate : thread.timedOutWaitKey = "") : Keeps who s s' := by
  constructor <;> intro other
  · rw [GuestScheduler.waitOf, GuestScheduler.waitOf, hthreads, getElem?_insertIfNew]
    split
    next h => simp [h.2, hwait]
    · rfl
  · rw [GuestScheduler.timedOutOf, GuestScheduler.timedOutOf, hthreads, getElem?_insertIfNew]
    split
    next h => simp [h.2, hlate]
    · exact .inl rfl

/-- A ready thread goes. -/
theorem Keeps.of_erase (hthreads : s'.threads = s.threads.erase handle)
    (hready : s.stateOf handle = some .kReady) (hwho : who handle) : Keeps who s s' := by
  obtain ⟨thread, hthread, hstate⟩ := map_eq_some_iff.mp hready
  constructor <;> intro other
  · rw [GuestScheduler.waitOf, hthreads, getElem?_erase]
    split
    next heq => simp [← heq, waitOf_of_getElem? hthread, wait, hstate]
    · rfl
  · rw [GuestScheduler.timedOutOf, hthreads, getElem?_erase]
    split
    next heq => exact .inr ⟨heq ▸ hwho, rfl⟩
    · exact .inl rfl

theorem currentThread_createThread (name : String) (priority : ℤ) (entryAddress argument : ℕ) :
    (s.createThread name priority entryAddress argument).2.currentThread = s.currentThread := by
  unfold createThread
  split
  · rfl
  · split <;> rfl

/-- The current thread asks whether its wait timed out, and forgets it if so. -/
theorem consume_cases (s : GuestScheduler) (key : String) :
    s.consumeCurrentThreadTimeout key = (false, s) ∧
        (∀ handle, s.currentThread = some handle → key ≠ "" → Orderly s →
          s.timedOutOf handle ≠ key) ∨
      ∃ handle s', s.consumeCurrentThreadTimeout key = (true, s') ∧
        s.currentThread = some handle ∧ s.timedOutOf handle = key ∧
        s'.currentThread = s.currentThread ∧ s'.timedOutOf handle = "" ∧
        Keeps (· = handle) s s' := by
  unfold consumeCurrentThreadTimeout
  split
  next hempty => exact .inl ⟨rfl, fun _ _ hkey => absurd hempty hkey⟩
  · cases hrun : s.running with
    | none =>
      refine .inl ⟨rfl, fun handle hcur _ hs => ?_⟩
      obtain ⟨thread, hsome⟩ := hs.running_current hcur
      cases hrun.symm.trans hsome
    | some entry =>
      obtain ⟨handle, thread⟩ := entry
      obtain ⟨hcur, hthread, hstate⟩ := running_eq_some_iff.mp hrun
      have hlate := timedOutOf_of_getElem? hthread
      dsimp only
      split
      next hne =>
        refine .inl ⟨rfl, fun other hother _ _ => ?_⟩
        rw [hcur, Option.some.injEq] at hother
        rw [← hother, hlate]
        exact hne
      next heq =>
        rw [not_not] at heq
        refine .inr ⟨handle, _, rfl, hcur, hlate.trans heq, rfl, ?_, ?_⟩
        · simp [timedOutOf]
        · exact .of_insert hthread rfl rfl (.inr ⟨rfl, rfl⟩)

/-- The current thread starts to wait. -/
structure Blocks (handle : ℕ) (wait : Wait) (s s' : GuestScheduler) : Prop where
  waitOf : ∀ other, s'.waitOf other = if handle = other then some wait else s.waitOf other
  timedOutOf : ∀ other, s'.timedOutOf other = if handle = other then "" else s.timedOutOf other
  handles : s'.handles = s.handles

theorem blocks_release (handle : ℕ) (thread : GuestThread) (key : String) (deadline : Option ℕ) :
    Blocks handle (key, deadline) s (s.release handle (thread.block key deadline)) where
  waitOf other := by
    simp only [GuestScheduler.waitOf, release, getElem?_insert]
    split <;> rfl
  timedOutOf other := by
    simp only [GuestScheduler.timedOutOf, release, getElem?_insert]
    split <;> rfl
  handles := rfl

/-- The current thread can always block. -/
theorem blockCurrentLocked_current (hs : Orderly s) (hcur : s.currentThread = some handle)
    (hkey : key ≠ "") (deadline : Option ℕ) :
    ∃ s', s.blockCurrentLocked key deadline = (true, s') ∧ Orderly s' ∧
      Blocks handle (key, deadline) s s' := by
  obtain ⟨thread, hrun⟩ := hs.running_current hcur
  have hres : s.blockCurrentLocked key deadline =
      (true, s.release handle (thread.block key deadline)) := by
    rw [blockCurrentLocked, if_neg hkey, hrun]
  refine ⟨_, hres, ?_, blocks_release handle thread key deadline⟩
  have hord : Orderly (s.blockCurrentLocked key deadline).2 := by
    cases deadline with
    | none => exact hs.step (.blockCurrent _)
    | some deadline => exact hs.step (.blockCurrentUntil _ _)
  rwa [hres] at hord

/-- What the services see of an act. -/
inductive View (may : Permissions) (s s' : GuestScheduler) : Prop
  | awakes (now : ℕ) (hnow : now = 0 ∨ may.expire now) (h : Awakes may.wake now s s')
  | keeps (h : Keeps (fun handle => may.leave handle ∨ may.forget handle) s s')
  | blocks (handle : ℕ) (wait : Wait) (hcur : s.currentThread = some handle)
      (hmay : may.block handle wait.1) (h : Blocks handle wait s s')

theorem Act.view {may : Permissions} (h : Act may s s') : View may s s' := by
  cases h with
  | handles => exact .keeps (.of_threads_eq rfl)
  | expire now hmay =>
    exact .awakes now (.inr hmay) ((s.awakes_wakeExpired _).mono (fun _ => False.elim) le_rfl)
  | wake key hmay woken hwoken =>
    exact .awakes 0 (.inl rfl) ((awakes_waitsOn _ 0 hwoken).mono (fun _ h => h ▸ hmay) le_rfl)
  | add => exact .keeps (.of_insertIfNew rfl rfl rfl)
  | drop handles handle hready _ _ hmay => exact .keeps (.of_erase rfl hready (.inl hmay))
  | select handle rest thread _ _ hthread hstate =>
    exact .keeps (.of_insert hthread rfl (by simp [wait, hstate]) (.inl rfl))
  | requeue handle thread hrun =>
    obtain ⟨-, hthread, hstate⟩ := running_eq_some_iff.mp hrun
    exact .keeps (.of_insert hthread rfl (by simp [wait, hstate]) (.inl rfl))
  | block handle thread hrun key _ deadline hmay =>
    exact .blocks handle (key, deadline) (running_eq_some_iff.mp hrun).1 hmay
      (blocks_release _ _ _ _)
  | exit handle thread hrun _ hmay =>
    obtain ⟨-, hthread, hstate⟩ := running_eq_some_iff.mp hrun
    exact .keeps (.of_insert hthread rfl (by simp [wait, GuestThread.exit, hstate])
      (.inr ⟨.inl hmay, rfl⟩))
  | forget handle thread hrun hmay =>
    obtain ⟨-, hthread, -⟩ := running_eq_some_iff.mp hrun
    exact .keeps (.of_insert hthread rfl rfl (.inr ⟨.inr hmay, rfl⟩))

/-! ## Waiting lists -/

/-- A service waits under keys made of one of its objects and a thread. The threads that wait
under its keys are those on the waiting lists of its objects, each under its own key and without
a deadline. -/
def Listed (key : ℕ → ℕ → String) (queue : ℕ → ℕ → Prop) (s : GuestScheduler) : Prop :=
  ∀ handle object thread deadline, s.waitOf handle = some (key object thread, deadline) ↔
    handle = thread ∧ deadline = none ∧ queue object handle

namespace Listed

variable {key : ℕ → ℕ → String} {queue : ℕ → ℕ → Prop}

section

variable (h : Listed key queue s)
include h

theorem congr {queue' : ℕ → ℕ → Prop}
    (hqueue : ∀ object thread, queue object thread ↔ queue' object thread) :
    Listed key queue' s := by
  intro handle object thread deadline
  rw [h, hqueue]

theorem oneWaits (object thread : ℕ) : s.OneWaits (key object thread) := by
  intro handle other deadline deadline' hwait hwait'
  exact ((h _ _ _ _).mp hwait).1.trans ((h _ _ _ _).mp hwait').1.symm

variable {thread : ℕ}

theorem not_queue (hnone : s.waitOf thread = none) (object : ℕ) : ¬ queue object thread := by
  intro hqueue
  have hwait := (h thread object thread none).mpr ⟨rfl, rfl, hqueue⟩
  cases hnone.symm.trans hwait

/-- Threads that are woken by their keys leave the lists. -/
theorem dequeue (hawakes : Awakes may now s s')
    (hwoken : ∀ object thread, may (key object thread) → s'.NoneWaits (key object thread)) :
    Listed key (fun object thread => queue object thread ∧ ¬ may (key object thread)) s' := by
  intro handle object thread deadline
  constructor
  · intro hwait
    obtain ⟨rfl, rfl, hqueue⟩ := (h _ _ _ _).mp (hawakes.waitOf_of_some hwait)
    exact ⟨rfl, rfl, hqueue, fun hmay => hwoken _ _ hmay _ _ hwait⟩
  · rintro ⟨rfl, rfl, hqueue, hmay⟩
    exact hawakes.waitOf_of_not_may ((h _ _ _ _).mpr ⟨rfl, rfl, hqueue⟩) hmay

theorem awakes (hawakes : Awakes may now s s')
    (hmay : ∀ object thread, ¬ may (key object thread)) : Listed key queue s' := by
  apply (h.dequeue hawakes fun object thread hkey => absurd hkey (hmay object thread)).congr
  exact fun object thread => and_iff_left (hmay _ _)

theorem keeps (hkeeps : Keeps who s s') : Listed key queue s' := by
  intro handle object thread deadline
  rw [hkeeps.waitOf, h]

/-- The current thread blocks under a key of another service. -/
theorem blocks {wait : Wait} (hblocks : Blocks thread wait s s') (hnone : s.waitOf thread = none)
    (hkey : ∀ object other, wait.1 ≠ key object other) : Listed key queue s' := by
  intro handle object other deadline
  rw [hblocks.waitOf, ← h]
  split
  next heq =>
    rw [← heq, hnone]
    constructor
    · intro hwait
      exact absurd (congrArg _ (Option.some.inj hwait)) (hkey _ _)
    · exact nofun
  · rfl

/-- The current thread blocks and is put on a list. -/
theorem enqueue
    (hinj : ∀ {object object' thread thread'}, key object thread = key object' thread' ↔
      object = object' ∧ thread = thread')
    {object : ℕ} (hblocks : Blocks thread (key object thread, none) s s')
    (hnone : s.waitOf thread = none) :
    Listed key (fun object' thread' => queue object' thread' ∨
      object' = object ∧ thread' = thread) s' := by
  intro handle object' other deadline
  rw [hblocks.waitOf]
  split
  next heq =>
    have hout := h.not_queue hnone object'
    rw [← heq, Option.some.injEq, Prod.mk.injEq, hinj]
    constructor
    · rintro ⟨⟨rfl, rfl⟩, rfl⟩
      exact ⟨rfl, rfl, .inr ⟨rfl, rfl⟩⟩
    · rintro ⟨rfl, rfl, hqueue | ⟨rfl, -⟩⟩
      · exact absurd hqueue hout
      · exact ⟨⟨rfl, rfl⟩, rfl⟩
  next hne =>
    rw [h]
    simp [Ne.symm hne]

end

end Listed

end GuestScheduler

end KajPS5.Kernel
