/-
# Reader-writer locks

A lock is free, held by one writer or held by readers. When its last holder leaves, it goes to
the first waiter, and to all the readers at the front of the queue if that is a reader. A
thread that got the lock this way owes the call that asked for it, so it makes that call before
any other and the grant does not outlive its holding the lock. The waiters are exactly the
threads that are blocked under the keys of the lock.
-/

import KajPS5.Kernel.PthreadCalls

namespace KajPS5.Kernel

open Math GuestScheduler OrderedMaps
open List hiding getElem?_insert

/-! ## What the calls do to one lock -/

namespace RwlockState

theorem free_iff {r : RwlockState} :
    r.free = true ↔ r.writer = invalidKernelHandle ∧ ∀ thread : ℕ, r.readers[thread]? = none := by
  rw [free, decide_eq_true_eq, isEmpty_iff_getElem?]

variable {tryOnly write : Bool}

/-- A reader gets a lock without a writer and without waiters exactly if it has a grant, or nobody
reads, or it reads already and its count can grow. -/
theorem lock_read_eq_ok_iff {current : ℕ} {r : RwlockState} (hcur : current ≠ invalidKernelHandle)
    (hwriter : r.writer = invalidKernelHandle) (hwaiters : r.waiters = []) :
    (r.lock current false tryOnly).1 = some .kOk ↔
      current ∈ r.grantedReaders ∨ (∀ other : ℕ, r.readers[other]? = none) ∨
        ∃ count, r.readers[current]? = some count ∧ count ≠ uint32Max := by
  have hfree : r.free = true ↔ ∀ other : ℕ, r.readers[other]? = none := by
    rw [free_iff]
    exact and_iff_right hwriter
  have hother : r.writer ≠ current := hwriter ▸ hcur.symm
  rw [lock, if_neg (by simp), ← hfree]
  by_cases hgrant : current ∈ r.grantedReaders
  · rw [if_pos ⟨rfl, hgrant⟩]
    exact iff_of_true rfl (.inl hgrant)
  rw [if_neg (by simp [hgrant])]
  cases hcount : r.readers[current]? with
  | some count =>
    have hreads : r.free ≠ true := fun h => by
      cases (hfree.mp h current).symm.trans hcount
    by_cases hmax : count = uint32Max
    · simp [hmax, hgrant, hreads]
    · simp [hmax]
  | none =>
    by_cases hnobody : r.free = true
    · simp [hother, hnobody, hwaiters]
    · cases tryOnly with
      | true => simp [hother, hnobody, hgrant]
      | false => simp [hother, hnobody, hwaiters, hgrant]

/-- What locking can do to a lock. -/
inductive Locks (current : ℕ) (write tryOnly : Bool) (r : RwlockState) :
    Option KernelStatus × RwlockState → Prop
  | grantedWrite (hwrite : write = true) :
      Locks current write tryOnly r (some .kOk, { r with grantedWriter := none })
  | grantedRead (hwrite : write = false) :
      Locks current write tryOnly r
        (some .kOk, { r with grantedReaders := r.grantedReaders.erase current })
  | refuse (hwriter : ¬ (write = true ∧ r.writer = current ∧ r.grantedWriter = some current))
      (hreader : ¬ (write = false ∧ current ∈ r.grantedReaders)) (status : KernelStatus)
      (hstatus : status ≠ .kWouldBlock) : Locks current write tryOnly r (some status, r)
  | again (hwrite : write = false) (hgranted : current ∉ r.grantedReaders) (count count' : ℕ)
      (hreader : r.readers[current]? = some count) :
      Locks current write tryOnly r
        (some .kOk, { r with readers := r.readers.insert current count' })
  | acquireWrite (hwrite : write = true) (hfree : r.free = true) (hwaiters : r.waiters = []) :
      Locks current write tryOnly r (some .kOk, { r with writer := current })
  | acquireRead (hwrite : write = false) (hfree : r.free = true) (hwaiters : r.waiters = []) :
      Locks current write tryOnly r
        (some .kOk, { r with readers := r.readers.insertIfNew current 1 })
  | wait (hwriter : r.writer ≠ current) (hreader : r.readers[current]? = none)
      (hfree : ¬ (r.free = true ∧ r.waiters = [])) (htry : tryOnly = false) :
      Locks current write tryOnly r (none, if r.waiters.any (·.thread = current) then r
        else { r with waiters := r.waiters ++ [{ thread := current, write }] })

theorem locks (current : ℕ) (write tryOnly : Bool) (r : RwlockState) :
    Locks current write tryOnly r (r.lock current write tryOnly) := by
  unfold lock
  split
  next h => exact .grantedWrite h.1
  next hwriter =>
    split
    next h => exact .grantedRead h.1
    next hreader =>
      split
      · exact .refuse hwriter hreader .kInvalidArgument nofun
      next hholds =>
        -- from here on a writer does not hold the lock
        split
        next count hcount =>
          cases write with
          | true => cases hcount
          | false =>
            split
            · exact .refuse hwriter hreader .kNoResources nofun
            · exact .again rfl (by simpa using hreader) _ _ hcount
        next hcount =>
          split
          · exact .refuse hwriter hreader .kInvalidArgument nofun
          next hother =>
            have hout : r.writer ≠ current ∧ r.readers[current]? = none := by
              cases write with
              | true => simpa using hholds
              | false => exact ⟨by simpa using hother, hcount⟩
            split
            next hfree =>
              cases write with
              | true => exact .acquireWrite rfl hfree.1 hfree.2
              | false => exact .acquireRead rfl hfree.1 hfree.2
            next hfree =>
              split
              · exact .refuse hwriter hreader .kBusy nofun
              next htry =>
                have hwait : Locks current write tryOnly r (none, _) :=
                  .wait hout.1 hout.2 hfree (Bool.not_eq_true _ ▸ htry)
                split
                next hany => simpa only [if_pos hany] using hwait
                next hany => simpa only [if_neg hany] using hwait

variable {status : KernelStatus}

theorem Locks.status_ne {current : ℕ} {r r' : RwlockState}
    (h : Locks current write tryOnly r (some status, r')) : status ≠ .kWouldBlock := by
  cases h with
  | refuse _ _ _ hstat => exact hstat
  | _ => exact nofun

/-- The readers at the front of the queue get the lock. -/
theorem grantReaders_spec (handle : ℕ) (waiters : List RwlockWaiter) (r : RwlockState) :
    ∃ granted rest, waiters = granted ++ rest ∧ (∀ waiter ∈ granted, waiter.write = false) ∧
      (granted = [] → ∀ waiter ∈ waiters.head?, waiter.write = true) ∧
      ∃ r', grantReaders handle waiters r =
          (granted.map fun waiter => rwlockWaitKey handle waiter.thread, r') ∧
        r'.writer = r.writer ∧ r'.grantedWriter = r.grantedWriter ∧ r'.waiters = rest ∧
        (∀ thread : ℕ, r'.readers[thread]?.isSome = true ↔
          r.readers[thread]?.isSome = true ∨ ∃ waiter ∈ granted, waiter.thread = thread) ∧
        ∀ thread, thread ∈ r'.grantedReaders ↔
          thread ∈ r.grantedReaders ∨ ∃ waiter ∈ granted, waiter.thread = thread := by
  induction waiters generalizing r with
  | nil => exact ⟨[], [], rfl, nofun, nofun, _, rfl, rfl, rfl, rfl, by simp, by simp⟩
  | cons waiter waiters ih =>
    rw [grantReaders]
    split
    next hwrite =>
      refine ⟨[], waiter :: waiters, rfl, nofun, ?_, _, rfl, rfl, rfl, rfl, by simp, by simp⟩
      simp [hwrite]
    next hwrite =>
      obtain ⟨granted, rest, hsplit, hreads, -, r', hres, hwriter, hgrantedWriter, hwaiters,
        hreaders, hgrant⟩ := ih { r with
          readers := r.readers.insertIfNew waiter.thread 1
          grantedReaders := insert waiter.thread r.grantedReaders }
      refine ⟨waiter :: granted, rest, by rw [hsplit, cons_append], ?_, nofun, r', ?_,
        hwriter, hgrantedWriter, hwaiters, fun thread => ?_, fun thread => ?_⟩
      · simpa [hwrite] using hreads
      · rw [hres, map_cons]
      · rw [hreaders]
        by_cases heq : waiter.thread = thread
        · cases hthread : r.readers[thread]? <;> simp [heq]
        · simp [heq]
      · rw [hgrant, Finset.mem_insert]
        simp only [mem_cons, exists_eq_or_imp]
        tauto

/-! ## One lock -/

/-- The holders, the grants and the waiters of the lock are consistent, and the threads that wait
for it or were granted it owe the call. -/
structure Sound (owed : Std.ExtTreeMap ℕ PthreadCall) (handle : ℕ) (r : RwlockState) : Prop where
  exclusive : r.writer ≠ invalidKernelHandle → ∀ thread : ℕ, r.readers[thread]? = none
  grantedReaders : ∀ thread ∈ r.grantedReaders, r.readers[thread]?.isSome = true ∧
    owed[thread]? = some (.lockRwlock handle false false)
  grantedWriter : ∀ thread, r.grantedWriter = some thread → thread = r.writer ∧
    thread ≠ invalidKernelHandle ∧ owed[thread]? = some (.lockRwlock handle true false)
  nodup : (r.waiters.map RwlockWaiter.thread).Nodup
  waiters : ∀ waiter ∈ r.waiters, waiter.thread ≠ invalidKernelHandle ∧
    waiter.thread ≠ r.writer ∧ r.readers[waiter.thread]? = none ∧
    owed[waiter.thread]? = some (.lockRwlock handle waiter.write false)

/-- Moreover nobody waits for a lock that is free. -/
structure Fits (owed : Std.ExtTreeMap ℕ PthreadCall) (handle : ℕ) (r : RwlockState) : Prop
    extends Sound owed handle r where
  free : r.free = true → r.waiters = []

variable {owed owed' : Std.ExtTreeMap ℕ PthreadCall} {handle current : ℕ} {r r' : RwlockState}

theorem fits_fresh (guestObjectSlot : ℕ) : Fits owed handle { guestObjectSlot } where
  exclusive h := absurd rfl h
  grantedReaders _ h := by simp at h
  grantedWriter := nofun
  nodup := nodup_nil
  waiters := nofun
  free _ := rfl

/-- The thread neither waits for the lock nor has a grant to pick up. -/
structure Clear (current : ℕ) (r : RwlockState) : Prop where
  reader : current ∉ r.grantedReaders
  writer : r.grantedWriter ≠ some current
  waiter : ∀ waiter ∈ r.waiters, waiter.thread ≠ current

/-- A thread that owes no call on the lock is clear of it. -/
theorem Sound.clear (h : r.Sound owed handle)
    (howed : ∀ write, owed[current]? ≠ some (.lockRwlock handle write false)) :
    r.Clear current where
  reader hmem := howed _ (h.grantedReaders _ hmem).2
  writer hsome := howed _ (h.grantedWriter _ hsome).2.2
  waiter _ hmem heq := howed _ (heq ▸ (h.waiters _ hmem).2.2.2)

/-- Nobody has a grant to pick up on a free lock. -/
theorem Sound.grants_of_free (h : r.Sound owed handle) (hfree : r.free = true) :
    r.grantedReaders = ∅ ∧ r.grantedWriter = none := by
  obtain ⟨hwriter, hreaders⟩ := free_iff.mp hfree
  constructor
  · apply Finset.eq_empty_of_forall_notMem
    intro thread hmem
    have hsome := (h.grantedReaders _ hmem).1
    simp [hreaders] at hsome
  · rw [Option.eq_none_iff_forall_ne_some]
    intro thread hsome
    obtain ⟨heq, hne, -⟩ := h.grantedWriter _ hsome
    exact hne (heq.trans hwriter)

section

variable (h : r.Sound owed handle) (hclear : r.Clear current)
include h hclear

/-- A writer that is clear of the lock gives it up. -/
theorem Sound.withoutWriter (hwriter : r.writer = current) :
    Sound owed handle { r with writer := invalidKernelHandle } where
  __ := h
  exclusive hne := absurd rfl hne
  grantedWriter thread hsome :=
    absurd ((h.grantedWriter _ hsome).1.trans hwriter ▸ hsome) hclear.writer
  waiters waiter hmem := by
    obtain ⟨hzero, -, hrest⟩ := h.waiters _ hmem
    exact ⟨hzero, hzero, hrest⟩

/-- What a reader that is clear of the lock reads does not matter. -/
theorem Sound.withReaders {readers : Std.ExtTreeMap ℕ ℕ} (hreader : r.readers[current]? ≠ none)
    (hothers : ∀ thread : ℕ, thread ≠ current → readers[thread]? = r.readers[thread]?) :
    Sound owed handle { r with readers } where
  __ := h
  exclusive hne := absurd (h.exclusive hne current) hreader
  grantedReaders thread hmem := by
    rw [hothers _ (ne_of_mem_of_not_mem hmem hclear.reader)]
    exact h.grantedReaders _ hmem
  waiters waiter hmem := by
    rw [hothers _ (hclear.waiter _ hmem)]
    exact h.waiters _ hmem

end

/-- What a thread owes that is clear of the lock does not matter. -/
theorem Fits.congr (h : r.Fits owed handle) (hclear : r.Clear current)
    (howed : ∀ thread, thread ≠ current → owed'[thread]? = owed[thread]?) :
    r.Fits owed' handle where
  __ := h
  grantedReaders thread hmem := by
    rw [howed _ (ne_of_mem_of_not_mem hmem hclear.reader)]
    exact h.grantedReaders _ hmem
  grantedWriter thread hsome := by
    rw [howed thread fun heq => hclear.writer (heq ▸ hsome)]
    exact h.grantedWriter _ hsome
  waiters waiter hmem := by
    rw [howed _ (hclear.waiter _ hmem)]
    exact h.waiters _ hmem

/-- A thread that gets an answer has no grant afterwards, and the waiters are the same. -/
theorem Fits.answer (h : r.Fits owed handle)
    (hlocks : Locks current write tryOnly r (some status, r'))
    (hmay : owed[current]? = none ∨ owed[current]? = some (.lockRwlock handle write tryOnly))
    (hwaiter : ∀ waiter ∈ r.waiters, waiter.thread ≠ current) :
    r'.Fits owed handle ∧ r'.Clear current ∧ r'.waiters = r.waiters := by
  have hgrantedReader : current ∈ r.grantedReaders → write = false := by
    intro hmem
    rw [(h.grantedReaders _ hmem).2] at hmay
    simp_all
  have hgrantedWriter : r.grantedWriter = some current → write = true ∧ r.writer = current := by
    intro hsome
    obtain ⟨hwriter, -, howed⟩ := h.grantedWriter _ hsome
    rw [howed] at hmay
    simp_all
  cases hlocks with
  | grantedWrite hwrite =>
    refine ⟨⟨⟨h.exclusive, h.grantedReaders, nofun, h.nodup, h.waiters⟩, h.free⟩,
      ⟨fun hmem => ?_, nofun, hwaiter⟩, rfl⟩
    simp_all
  | grantedRead hwrite =>
    refine ⟨⟨⟨h.exclusive, fun thread hmem => h.grantedReaders _ (Finset.mem_of_mem_erase hmem),
      h.grantedWriter, h.nodup, h.waiters⟩, h.free⟩,
      ⟨Finset.notMem_erase _ _, fun hsome => ?_, hwaiter⟩, rfl⟩
    simp_all
  | refuse hwriter hreader status hstat =>
    refine ⟨h, ⟨fun hmem => hreader ⟨hgrantedReader hmem, hmem⟩, fun hsome => ?_, hwaiter⟩, rfl⟩
    exact hwriter ⟨(hgrantedWriter hsome).1, (hgrantedWriter hsome).2, hsome⟩
  | again hwrite hgrant count count' hreader =>
    have hkept : ∀ thread : ℕ, (r.readers.insert current count')[thread]?.isSome =
        r.readers[thread]?.isSome := by
      intro thread
      rw [getElem?_insert]
      split
      next heq => simp [← heq, hreader]
      · rfl
    have hnone : ∀ thread : ℕ, r.readers[thread]? = none →
        (r.readers.insert current count')[thread]? = none := by
      intro thread hthread
      have hsome := hkept thread
      rw [hthread] at hsome
      exact Option.not_isSome_iff_eq_none.mp (Bool.eq_false_iff.mp hsome)
    refine ⟨⟨⟨fun hne thread => hnone _ (h.exclusive hne thread),
      fun thread hmem => ?_, h.grantedWriter, h.nodup, fun waiter hmem => ?_⟩, fun hfree => ?_⟩,
      ⟨hgrant, fun hsome => ?_, hwaiter⟩, rfl⟩
    · rw [hkept]
      exact h.grantedReaders _ hmem
    · obtain ⟨hzero, hwriter, hreaders, howed⟩ := h.waiters _ hmem
      exact ⟨hzero, hwriter, hnone _ hreaders, howed⟩
    · have := (free_iff.mp hfree).2 current
      simp at this
    · simp_all
  | acquireWrite hwrite hfree hwaiters =>
    obtain ⟨hreaders, hwriter⟩ := h.grants_of_free hfree
    refine ⟨⟨⟨fun _ => (free_iff.mp hfree).2, by simp [hreaders], by simp [hwriter], h.nodup,
      by simp [hwaiters]⟩, fun _ => hwaiters⟩, ⟨by simp [hreaders], by simp [hwriter], hwaiter⟩,
      rfl⟩
  | acquireRead hwrite hfree hwaiters =>
    obtain ⟨hreaders, hwriter⟩ := h.grants_of_free hfree
    exact ⟨⟨⟨fun hne => absurd (free_iff.mp hfree).1 hne, by simp [hreaders], by simp [hwriter],
      h.nodup, by simp [hwaiters]⟩, fun _ => hwaiters⟩,
      ⟨by simp [hreaders], by simp [hwriter], hwaiter⟩, rfl⟩

/-- A thread that has to wait is the last waiter, and owes the call from now on. -/
theorem Fits.wait (h : r.Fits owed handle) (hlocks : Locks current write tryOnly r (none, r'))
    (hcur : 0 < current) (hwaiter : ∀ waiter ∈ r.waiters, waiter.thread ≠ current)
    (howed : owed'[current]? = some (.lockRwlock handle write tryOnly))
    (hothers : ∀ thread, thread ≠ current → owed'[thread]? = owed[thread]?) :
    r'.Fits owed' handle ∧ r'.waiters = r.waiters ++ [{ thread := current, write }] := by
  generalize hres : ((none : Option KernelStatus), r') = result at hlocks
  cases hlocks with
  | wait hwriter hreader hfree htry =>
    have hany : r.waiters.any (·.thread = current) ≠ true := by simpa using hwaiter
    rw [if_neg hany] at hres
    obtain ⟨-, rfl⟩ := hres
    subst htry
    have hclear : r.Clear current := by
      refine ⟨fun hmem => ?_, fun hsome => ?_, hwaiter⟩
      · have hsome := (h.grantedReaders _ hmem).1
        simp [hreader] at hsome
      · exact hwriter (h.grantedWriter _ hsome).1.symm
    have hsame := h.congr hclear hothers
    refine ⟨⟨⟨hsame.exclusive, hsame.grantedReaders, hsame.grantedWriter, ?_, ?_⟩, ?_⟩, rfl⟩
    · rw [map_append]
      apply List.Nodup.append h.nodup (nodup_singleton _)
      intro thread hmem hthread
      rw [mem_singleton.mp hthread] at hmem
      obtain ⟨waiter, hmem, heq⟩ := mem_map.mp hmem
      exact hwaiter _ hmem heq
    · intro waiter hmem
      rcases mem_append.mp hmem with hmem | hmem
      · exact hsame.waiters _ hmem
      · rw [mem_singleton.mp hmem]
        exact ⟨hcur.ne', hwriter.symm, hreader, howed⟩
    · intro hfree'
      exact absurd ⟨hfree', h.free hfree'⟩ hfree
  | _ => cases hres

/-- The waiters of a lock are those of another one but for the threads that are woken. -/
def HandsOver (handle : ℕ) (wakeKeys : List String) (r r' : RwlockState) : Prop :=
  (∀ key ∈ wakeKeys, ∃ thread, key = rwlockWaitKey handle thread) ∧
    ∀ thread, (∃ waiter ∈ r'.waiters, waiter.thread = thread) ↔
      (∃ waiter ∈ r.waiters, waiter.thread = thread) ∧ rwlockWaitKey handle thread ∉ wakeKeys

theorem handsOver_nil (hwaiters : r'.waiters = r.waiters) : HandsOver handle [] r r' := by
  simp [HandsOver, hwaiters]

/-- The threads at the front of the queue go from the waiters to the holders. -/
theorem handsOver_front (granted rest : List RwlockWaiter)
    (hnodup : ((granted ++ rest).map RwlockWaiter.thread).Nodup)
    (hwaiters : r.waiters = granted ++ rest) (hrest : r'.waiters = rest) :
    HandsOver handle (granted.map fun waiter => rwlockWaitKey handle waiter.thread) r r' := by
  constructor
  · simp only [mem_map]
    rintro key ⟨waiter, -, rfl⟩
    exact ⟨waiter.thread, rfl⟩
  intro thread
  rw [map_append, nodup_append'] at hnodup
  have hdisjoint := hnodup.2.2
  have hkey : rwlockWaitKey handle thread ∈
      granted.map (fun waiter => rwlockWaitKey handle waiter.thread) ↔
      ∃ waiter ∈ granted, waiter.thread = thread := by
    simp [rwlockWaitKey_inj]
  rw [hkey, hwaiters, hrest]
  constructor
  · rintro ⟨waiter, hmem, rfl⟩
    refine ⟨⟨waiter, mem_append_right _ hmem, rfl⟩, ?_⟩
    rintro ⟨other, hother, heq⟩
    exact hdisjoint (mem_map_of_mem hother) (heq ▸ mem_map_of_mem hmem)
  · rintro ⟨⟨waiter, hmem, rfl⟩, hnot⟩
    rcases mem_append.mp hmem with hmem | hmem
    · exact absurd ⟨waiter, hmem, rfl⟩ hnot
    · exact ⟨waiter, hmem, rfl⟩

/-- A free lock is granted to the waiters at the front. -/
theorem Sound.grant (h : r.Sound owed handle) (hfree : r.free = true) :
    (r.grantRwlockWaitersLocked handle).2.Fits owed handle ∧
      HandsOver handle (r.grantRwlockWaitersLocked handle).1 r
        (r.grantRwlockWaitersLocked handle).2 := by
  obtain ⟨hwriter, hreaders⟩ := free_iff.mp hfree
  obtain ⟨hnoReader, hnoWriter⟩ := h.grants_of_free hfree
  have hnodup := h.nodup
  rw [grantRwlockWaitersLocked, if_neg (by simp [hfree])]
  split
  next hnil => exact ⟨⟨h, fun _ => hnil⟩, handsOver_front [] [] (by simp) hnil hnil⟩
  next first rest hwaiters =>
    have hfirst := h.waiters first (hwaiters ▸ mem_cons_self)
    rw [hwaiters] at hnodup
    split
    next hwrite =>
      have hout : ∀ waiter ∈ rest, waiter.thread ≠ first.thread := by
        intro waiter hmem heq
        rw [map_cons, nodup_cons] at hnodup
        exact hnodup.1 (heq ▸ mem_map_of_mem hmem)
      refine ⟨⟨⟨fun _ => hreaders, by simp [hnoReader], ?_, ?_, ?_⟩, ?_⟩,
        handsOver_front [first] _ hnodup hwaiters rfl⟩
      · rintro thread ⟨⟩
        exact ⟨rfl, hfirst.1, hwrite ▸ hfirst.2.2.2⟩
      · exact (nodup_cons.mp hnodup).2
      · intro waiter hmem
        obtain ⟨hzero, -, hreader, howed⟩ := h.waiters _ (hwaiters ▸ mem_cons_of_mem _ hmem)
        exact ⟨hzero, hout _ hmem, hreader, howed⟩
      · intro hfree'
        exact absurd (free_iff.mp hfree').1 hfirst.1
    next hwrite =>
      obtain ⟨granted, left, hsplit, hreads, hsome, r', hres, hwriter', hgrantedWriter, hleft,
        hreaders', hgrant⟩ := grantReaders_spec handle r.waiters r
      rw [← hwaiters, hsplit] at hnodup
      rw [hres]
      have hmem : ∀ waiter ∈ granted, waiter ∈ r.waiters := by
        intro waiter hmem
        rw [hsplit]
        exact mem_append_left _ hmem
      refine ⟨⟨⟨?_, ?_, ?_, ?_, ?_⟩, ?_⟩, handsOver_front granted left hnodup hsplit hleft⟩
      · intro hne
        exact absurd (hwriter'.trans hwriter) hne
      · intro thread hthread
        rw [hgrant, hnoReader] at hthread
        obtain ⟨waiter, hwaiter, rfl⟩ := hthread.resolve_left (Finset.notMem_empty _)
        have howed := (h.waiters _ (hmem _ hwaiter)).2.2.2
        rw [hreads _ hwaiter] at howed
        exact ⟨(hreaders' _).mpr (.inr ⟨waiter, hwaiter, rfl⟩), howed⟩
      · rw [hgrantedWriter, hnoWriter]
        exact nofun
      · rw [hleft]
        exact (nodup_append'.mp (map_append ▸ hnodup)).2.1
      · intro waiter hwaiter
        rw [hleft] at hwaiter
        obtain ⟨hzero, hne, -, howed⟩ := h.waiters _ (hsplit ▸ mem_append_right _ hwaiter)
        refine ⟨hzero, hwriter'.symm ▸ hne, ?_, howed⟩
        rw [← Option.not_isSome_iff_eq_none, hreaders', hreaders]
        rintro (hsome | ⟨other, hother, heq⟩)
        · cases hsome
        · rw [map_append, nodup_append'] at hnodup
          exact hnodup.2.2 (mem_map_of_mem hother) (heq ▸ mem_map_of_mem hwaiter)
      · -- at least the first waiter reads now, so the lock is not free
        intro hfree'
        cases granted with
        | nil =>
          have := hsome rfl first (by simp [hwaiters])
          exact absurd this hwrite
        | cons waiter granted =>
          have hread := (hreaders' waiter.thread).mpr (.inr ⟨waiter, mem_cons_self, rfl⟩)
          rw [(free_iff.mp hfree').2] at hread
          cases hread

/-- A thread that is clear of the lock gives it up once. -/
theorem Fits.unlock (h : r.Fits owed handle) (hclear : r.Clear current)
    (hunlock : r.unlock current = some r') : r'.Sound owed handle ∧ r'.waiters = r.waiters := by
  unfold RwlockState.unlock at hunlock
  split at hunlock
  next hwriter =>
    cases hunlock
    exact ⟨h.withoutWriter hclear hwriter, rfl⟩
  next hwriter =>
    cases hreader : r.readers[current]? with
    | none => simp [hreader] at hunlock
    | some count =>
      rw [hreader] at hunlock
      cases hunlock
      refine ⟨h.withReaders hclear (by simp [hreader]) fun thread hne => ?_, rfl⟩
      split
      · rw [getElem?_erase, if_neg hne.symm]
      · rw [getElem?_insert, if_neg hne.symm]

/-- The lock that `UnlockRwlock` stores, with the keys it wakes. -/
def afterUnlock (handle : ℕ) (r : RwlockState) : List String × RwlockState :=
  if r.free then r.grantRwlockWaitersLocked handle else ([], r)

/-- The lock after an unlock: if nobody holds it now, the next waiters get it. -/
theorem Fits.afterUnlock (h : r.Fits owed handle) (hclear : r.Clear current)
    (hunlock : r.unlock current = some r') :
    (r'.afterUnlock handle).2.Fits owed handle ∧
      HandsOver handle (r'.afterUnlock handle).1 r (r'.afterUnlock handle).2 := by
  obtain ⟨hsound, hwaiters⟩ := h.unlock hclear hunlock
  unfold RwlockState.afterUnlock
  split
  next hfree =>
    obtain ⟨hfits, hkeys, hhands⟩ := hsound.grant hfree
    refine ⟨hfits, hkeys, fun thread => ?_⟩
    rw [hhands, hwaiters]
  next hheld => exact ⟨⟨hsound, fun hfree => absurd hfree hheld⟩, handsOver_nil hwaiters⟩

/-- A thread that exits gives up the lock altogether. -/
theorem Fits.leave (h : r.Fits owed handle) (hclear : r.Clear current) (hcur : 0 < current) :
    (r.leave handle current).2.Fits owed handle ∧
      HandsOver handle (r.leave handle current).1 r (r.leave handle current).2 := by
  have hwaiters : r.waiters.filter (fun waiter => !decide (waiter.thread = current)) =
      r.waiters := by
    rw [filter_eq_self]
    exact fun waiter hmem => by simp [hclear.waiter _ hmem]
  by_cases hwriter : r.writer = current
  · -- a writer excludes readers, so it is the only holder
    have hreaders : ∀ thread : ℕ, r.readers[thread]? = none := h.exclusive (hwriter ▸ hcur.ne')
    have hsound := h.withoutWriter hclear hwriter
    have hfree : RwlockState.free { r with writer := invalidKernelHandle } = true :=
      free_iff.mpr ⟨rfl, hreaders⟩
    have hnoWriter : r.grantedWriter = none := (hsound.grants_of_free hfree).2
    have hleave : r.leave handle current =
        grantRwlockWaitersLocked handle { r with writer := invalidKernelHandle } := by
      rw [hnoWriter] at hfree
      simp [RwlockState.leave, hwriter, hreaders, hwaiters, hnoWriter, hfree]
    rw [hleave]
    exact hsound.grant hfree
  · cases hreader : r.readers[current]? with
    | none =>
      have hleave : r.leave handle current = ([], r) := by
        simp [RwlockState.leave, hwriter, hreader, hwaiters]
      rw [hleave]
      exact ⟨h, handsOver_front [] _ h.nodup rfl rfl⟩
    | some count =>
      set left : RwlockState := { r with readers := r.readers.erase current } with hleft
      have hsound : Sound owed handle left := by
        refine h.withReaders hclear (by simp [hreader]) fun thread hne => ?_
        rw [getElem?_erase, if_neg hne.symm]
      have hleave : r.leave handle current =
          if left.free then left.grantRwlockWaitersLocked handle else ([], left) := by
        simp [RwlockState.leave, hwriter, hreader, hwaiters, hleft, hclear.reader]
      rw [hleave]
      split
      next hfree => exact hsound.grant hfree
      next hfree => exact ⟨⟨hsound, fun h => absurd h hfree⟩, handsOver_front [] _ h.nodup rfl rfl⟩

end RwlockState

/-! ## All locks -/

/-- The thread waits for the lock. -/
def rwlockQueue (rwlocks : Std.ExtTreeMap ℕ RwlockState) (handle thread : ℕ) : Prop :=
  ∃ r, rwlocks[handle]? = some r ∧ ∃ waiter ∈ r.waiters, waiter.thread = thread

/-- Every lock is consistent, and the scheduler blocks exactly the waiters. -/
structure RwlocksFit (owed : Std.ExtTreeMap ℕ PthreadCall) (rwlocks : Std.ExtTreeMap ℕ RwlockState)
    (s : GuestScheduler) : Prop where
  fits : ∀ (handle : ℕ) r, rwlocks[handle]? = some r → r.Fits owed handle
  listed : Listed rwlockWaitKey (rwlockQueue rwlocks) s

namespace RwlocksFit

variable {owed owed' : Std.ExtTreeMap ℕ PthreadCall} {rwlocks : Std.ExtTreeMap ℕ RwlockState}
  {s s' : GuestScheduler}

theorem initial : RwlocksFit owed ∅ {} where
  fits _ r h := by simp at h
  listed handle object thread deadline := by simp [waitOf, rwlockQueue]

theorem rwlockQueue_insert {handle other thread : ℕ} {r' : RwlockState} :
    rwlockQueue (rwlocks.insert handle r') other thread ↔
      if handle = other then ∃ waiter ∈ r'.waiters, waiter.thread = thread
      else rwlockQueue rwlocks other thread := by
  simp only [rwlockQueue, getElem?_insert]
  split
  · simp
  · rfl

section

variable (h : RwlocksFit owed rwlocks s)
include h

variable {handle current : ℕ} {r r' : RwlockState}

/-- The waits under the keys of the locks are the same. -/
theorem withListed (hlisted : Listed rwlockWaitKey (rwlockQueue rwlocks) s') :
    RwlocksFit owed rwlocks s' :=
  ⟨h.fits, hlisted⟩

/-- What a thread owes that is clear of all locks does not matter. -/
theorem withOwed (hclear : ∀ (handle : ℕ) r, rwlocks[handle]? = some r →
      ∀ write, owed[current]? ≠ some (.lockRwlock handle write false))
    (howed : ∀ thread, thread ≠ current → owed'[thread]? = owed[thread]?) :
    RwlocksFit owed' rwlocks s :=
  ⟨fun handle r hfound => (h.fits _ r hfound).congr
    ((h.fits _ r hfound).clear (hclear handle r hfound)) howed, h.listed⟩

theorem not_waiting (hnone : s.waitOf current = none) (hfound : rwlocks[handle]? = some r) :
    ∀ waiter ∈ r.waiters, waiter.thread ≠ current :=
  fun waiter hmem heq => h.listed.not_queue hnone _ ⟨r, hfound, waiter, hmem, heq⟩

section

variable (howe : ∀ (other : ℕ) (write : Bool), other ≠ handle →
    owed[current]? ≠ some (PthreadCall.lockRwlock other write false))
  (howed : ∀ thread : ℕ, thread ≠ current → owed'[thread]? = owed[thread]?)
include howe howed

/-- One lock is changed; the current thread is clear of the others. -/
theorem fits_insert (hfits : r'.Fits owed' handle) (other : ℕ) (found : RwlockState)
    (hother : (rwlocks.insert handle r')[other]? = some found) : found.Fits owed' other := by
  refine forall_insert hfits (fun other found hne hother => ?_) _ _ hother
  have hfit := h.fits _ _ hother
  exact hfit.congr (hfit.clear fun write => howe _ _ (Ne.symm hne)) howed

/-- One lock is changed and keeps its waiters. -/
theorem put (hfound : rwlocks[handle]? = some r)
    (hfits : r'.Fits owed handle) (hclear : r'.Clear current) (hwaiters : r'.waiters = r.waiters) :
    RwlocksFit owed' (rwlocks.insert handle r') s where
  fits := h.fits_insert howe howed (hfits.congr hclear howed)
  listed := by
    apply h.listed.congr
    intro other thread
    rw [rwlockQueue_insert]
    split
    next heq => simp [← heq, rwlockQueue, hfound, hwaiters]
    · rfl

/-- The current thread is put on the waiting list of a lock. -/
theorem enqueue {write tryOnly : Bool} (hfound : rwlocks[handle]? = some r)
    (hlocks : RwlockState.Locks current write tryOnly r (none, r')) (hcur : 0 < current)
    (hnone : s.waitOf current = none)
    (howes : owed'[current]? = some (.lockRwlock handle write tryOnly))
    (hblocks : Blocks current (rwlockWaitKey handle current, none) s s') :
    RwlocksFit owed' (rwlocks.insert handle r') s' := by
  obtain ⟨hfits, hwaiters⟩ := (h.fits _ r hfound).wait hlocks hcur
    (h.not_waiting hnone hfound) howes howed
  refine ⟨h.fits_insert howe howed hfits, ?_⟩
  apply (h.listed.enqueue rwlockWaitKey_inj hblocks hnone).congr
  intro other thread
  rw [rwlockQueue_insert, hwaiters]
  by_cases heq : handle = other
  · subst heq
    simp [rwlockQueue, hfound, eq_comm]
  · simp [heq, Ne.symm heq]

end

variable {rwlocks' : Std.ExtTreeMap ℕ RwlockState}

/-- Some locks are left, and the threads that got them are woken. -/
theorem handOver {may : String → Prop} {now : ℕ}
    (leaves : ℕ → RwlockState → List String × RwlockState)
    (hleaves : ∀ (handle : ℕ) r, rwlocks[handle]? = some r →
      (leaves handle r).2.Fits owed handle ∧
        RwlockState.HandsOver handle (leaves handle r).1 r (leaves handle r).2)
    (hrwlocks : ∀ handle : ℕ, rwlocks'[handle]? = rwlocks[handle]?.map fun r =>
      (leaves handle r).2) (hmay : ∀ handle thread, may (rwlockWaitKey handle thread) ↔
      ∃ r, rwlocks[handle]? = some r ∧ rwlockWaitKey handle thread ∈ (leaves handle r).1)
    (hawakes : Awakes may now s s') (hnone : ∀ key, may key → s'.NoneWaits key) :
    RwlocksFit owed rwlocks' s' := by
  refine ⟨fun handle found hfound => ?_, ?_⟩
  · rw [hrwlocks] at hfound
    obtain ⟨r, hr, rfl⟩ := Option.map_eq_some_iff.mp hfound
    exact (hleaves _ r hr).1
  apply (h.listed.dequeue hawakes fun object thread => hnone _).congr
  intro handle thread
  rw [hmay]
  simp only [rwlockQueue, hrwlocks]
  cases hr : rwlocks[handle]? with
  | none => simp
  | some r =>
    simp only [Option.some.injEq, exists_eq_left', Option.map_some]
    rw [(hleaves _ r hr).2.2]

/-- An unused lock is created, or an idle one goes. -/
theorem exchanged (hexchanged : Exchanged (fun r => ∃ guestObjectSlot, r = { guestObjectSlot })
      (·.busy = false) rwlocks rwlocks') : RwlocksFit owed rwlocks' s where
  fits handle r hfound := by
    rcases hexchanged.of_after hfound with hpre | ⟨-, slot, rfl⟩
    · exact h.fits _ r hpre
    · exact RwlockState.fits_fresh _
  listed := by
    apply h.listed.congr
    intro handle thread
    constructor
    · rintro ⟨r, hfound, hqueue⟩
      rcases hexchanged.of_before hfound with hafter | hidle
      · exact ⟨r, hafter, hqueue⟩
      · simp only [RwlockState.busy, decide_eq_false_iff_not, not_or, not_not] at hidle
        simp [hidle.2.1] at hqueue
    · rintro ⟨r, hfound, hqueue⟩
      rcases hexchanged.of_after hfound with hpre | ⟨-, slot, rfl⟩
      · exact ⟨r, hpre, hqueue⟩
      · simp at hqueue

end

end RwlocksFit

/-! ## The calls -/

namespace PthreadService

variable (clock : SteadyClock)

/-- What `lockRwlock` can do. -/
inductive LocksRwlock (handle : ℕ) (write tryOnly : Bool) (s : PthreadService) :
    KernelStatus × PthreadService → Prop
  | refuse (status : KernelStatus) (hstatus : status ≠ .kWouldBlock)
      (hwhy : s.scheduler.currentThread = none ∨ s.rwlocks[handle]? = none) :
      LocksRwlock handle write tryOnly s (status, s)
  | answer (current : ℕ) (hcurrent : s.scheduler.currentThread = some current)
      (r r' : RwlockState) (hfound : s.rwlocks[handle]? = some r) (status : KernelStatus)
      (hlocks : RwlockState.Locks current write tryOnly r (some status, r')) :
      LocksRwlock handle write tryOnly s (status, s.putRwlock handle r')
  | block (current : ℕ) (hcurrent : s.scheduler.currentThread = some current)
      (r r' : RwlockState) (hfound : s.rwlocks[handle]? = some r)
      (hlocks : RwlockState.Locks current write tryOnly r (none, r')) (scheduler : GuestScheduler)
      (horderly : Orderly scheduler)
      (hblocks : Blocks current (rwlockWaitKey handle current, none) s.scheduler scheduler) :
      LocksRwlock handle write tryOnly s
        (.kWouldBlock, { s.putRwlock handle r' with scheduler })

theorem locksRwlock (handle : ℕ) (write tryOnly : Bool) {s : PthreadService}
    (hs : Orderly s.scheduler) :
    LocksRwlock handle write tryOnly s (s.lockRwlock handle write tryOnly) := by
  unfold lockRwlock
  cases hcur : s.scheduler.currentThread with
  | none => exact .refuse .kBusy nofun (.inl hcur)
  | some current =>
    cases hfound : s.rwlocks[handle]? with
    | none => exact .refuse .kNotFound nofun (.inr hfound)
    | some r =>
      have hlocks := r.locks current write tryOnly
      dsimp only
      split
      next status r' hres =>
        rw [hres] at hlocks
        exact .answer _ hcur r _ hfound _ hlocks
      next r' hres =>
        rw [hres] at hlocks
        obtain ⟨scheduler, hblock, hord, hblocks⟩ := blockCurrentLocked_current hs hcur
          (ne_empty_of_isPthreadKey (isPthreadKey_rwlockWaitKey handle current)) none
        rw [blockCurrent, hblock]
        exact .block _ hcur r _ hfound hlocks _ hord hblocks

/-- What `unlockRwlock` can do. -/
inductive UnlocksRwlock (handle : ℕ) (s : PthreadService) :
    KernelStatus × PthreadService → Prop
  | refuse (status : KernelStatus) (hstatus : status ≠ .kWouldBlock) :
      UnlocksRwlock handle s (status, s)
  | unlock (current : ℕ) (hcurrent : s.scheduler.currentThread = some current)
      (r r' : RwlockState) (hfound : s.rwlocks[handle]? = some r)
      (hunlock : r.unlock current = some r') :
      UnlocksRwlock handle s
        (.kOk, (s.putRwlock handle (r'.afterUnlock handle).2).wakeBlockedThreads
        clock (r'.afterUnlock handle).1)

theorem unlocksRwlock (handle : ℕ) (s : PthreadService) :
    UnlocksRwlock clock handle s (s.unlockRwlock clock handle) := by
  unfold unlockRwlock
  cases hcur : s.scheduler.currentThread with
  | none => exact .refuse .kBusy nofun
  | some current =>
    cases hfound : s.rwlocks[handle]? with
    | none => exact .refuse .kNotFound nofun
    | some r =>
      dsimp only
      split
      · exact .refuse .kPermissionDenied nofun
      next r' hunlock => exact .unlock _ hcur r _ hfound hunlock

end PthreadService

end KajPS5.Kernel
