/-
# Histories of the submission queue

A history is the queue after some calls together with the ids it has accepted, in
order, and the submissions that have left. In every history the counters are the
sums over all queues, ids increase in the order of acceptance, and for each queue
what was accepted is what left followed by what waits: every submission leaves
once, in its turn, and ended.
-/

import KajPS5.Gpu.SubmissionCalls
import KajPS5.Math.StepRuns
import Mathlib.Data.List.Nodup

namespace KajPS5.Gpu

open QueueTable List

variable {σ : Type}

/-! ## Histories -/

/-- The queue after some calls, the ids accepted so far and the submissions that left. -/
structure QueueHistory where
  state : GpuSubmissionQueue := {}
  admitted : List (QueueName × ℕ) := []
  departed : List Departure := []

inductive QueueCall (σ : Type)
  | enqueue (call : EnqueueCall σ)
  | drain (host : CommandHost σ) (world : CommandWorld σ)

namespace QueueHistory

/-- One more call. An accepted one is answered with the first of its ids. -/
def step (h : QueueHistory) : QueueCall σ → QueueHistory
  | .enqueue call =>
    let outcome := call.run h.state
    if outcome.1.status = .kAccepted then
      { h with
        state := outcome.2
        admitted := h.admitted ++
          (List.range' outcome.1.submissionId call.request.count).map (call.name, ·) }
    else { h with state := outcome.2 }
  | .drain host world =>
    let outcome := h.state.drain host world
    { h with state := outcome.2.2, departed := h.departed ++ outcome.2.1 }

def run (calls : List (QueueCall σ)) : QueueHistory := Math.StepRuns.run step {} calls

/-- The ids accepted for a queue. -/
def admittedTo (h : QueueHistory) (name : QueueName) : List ℕ :=
  (h.admitted.filter (·.1 = name)).map Prod.snd

/-- The ids of the submissions that left a queue. -/
def departedFrom (h : QueueHistory) (name : QueueName) : List ℕ :=
  (h.departed.filter (·.name = name)).map Departure.id

/-- The books of the queue are in order. -/
structure Accounted (h : QueueHistory) : Prop where
  submissions : h.state.pendingSubmissions = h.state.queues.total fun _ => 1
  rootDwords : h.state.pendingRootDwords = h.state.queues.total Submission.rootDwords
  /-- What was accepted for a queue is what left it, followed by what waits in it. -/
  conserved : ∀ name, h.admittedTo name =
    h.departedFrom name ++ (h.state.queues.queue name).map Submission.id
  increasing : (h.admitted.map Prod.snd).Pairwise (· < ·)
  ended : ∀ departure ∈ h.departed, departure.status ≠ .kBlocked
  bounded : h.state.nextSubmissionId < 2 ^ 64
  fresh : h.state.nextSubmissionId = 0 ∨ ∀ entry ∈ h.admitted, entry.2 < h.state.nextSubmissionId

namespace Accounted

variable {h : QueueHistory}

theorem initial : Accounted {} where
  submissions := by simp [total]
  rootDwords := by simp [total]
  conserved name := by cases name <;> simp [admittedTo, departedFrom, queue]
  increasing := List.Pairwise.nil
  ended := nofun
  bounded := by decide
  fresh := .inr nofun

theorem refused (hacc : Accounted h) {s : GpuSubmissionQueue} (hs : h.state.Refused s) :
    Accounted { h with state := s } where
  __ := hacc
  submissions := by rw [hs.pendingSubmissions, hs.total, hacc.submissions]
  rootDwords := by rw [hs.pendingRootDwords, hs.total, hacc.rootDwords]
  conserved name := by
    rw [hs.queue]
    exact hacc.conserved _
  bounded := by
    have := hacc.bounded
    rcases hs.nextSubmissionId with hsame | ⟨-, hnext⟩ <;> (dsimp only; omega)
  fresh := by
    rcases hs.nextSubmissionId with hsame | ⟨hpos, hnext⟩
    · rw [hsame]
      exact hacc.fresh
    by_cases hwrap : (h.state.nextSubmissionId + 1) % 2 ^ 64 = 0
    · exact .inl (hnext.trans hwrap)
    refine .inr fun entry hentry => ?_
    have hlt := hacc.fresh.resolve_left hpos _ hentry
    have := hacc.bounded
    dsimp only
    omega

variable {name : QueueName}

theorem admitEntries (hacc : Accounted h) {entries : List Submission} {count : ℕ}
    (limits : GpuQueueLimits)
    (hids : entries.map Submission.id = List.range' h.state.nextSubmissionId count)
    (hpos : h.state.nextSubmissionId ≠ 0) (hle : h.state.nextSubmissionId + count ≤ 2 ^ 64) :
    Accounted { h with
      state := h.state.admitEntries name entries limits
      admitted := h.admitted ++ (List.range' h.state.nextSubmissionId count).map (name, ·) } where
  submissions := by
    have := h.state.queues.total_store (fun _ => 1) name (h.state.queues.queue name ++ entries)
    have := hacc.submissions
    simp [GpuSubmissionQueue.admitEntries] at *
    omega
  rootDwords := by
    have := h.state.queues.total_store Submission.rootDwords name
      (h.state.queues.queue name ++ entries)
    have := hacc.rootDwords
    simp [GpuSubmissionQueue.admitEntries] at *
    omega
  conserved other := by
    have hold := hacc.conserved other
    by_cases hname : name = other
    · simp_all [admittedTo, departedFrom, GpuSubmissionQueue.admitEntries, filter_map]
    · simp_all [admittedTo, departedFrom, GpuSubmissionQueue.admitEntries, filter_map,
        queue_store_of_ne _ (Ne.symm hname)]
  increasing := by
    have hold := hacc.fresh.resolve_left hpos
    rw [map_append, map_map, pairwise_append]
    refine ⟨hacc.increasing, by simpa using pairwise_lt_range', ?_⟩
    simp only [mem_map, mem_range'_1]
    rintro _ ⟨entry, hentry, rfl⟩ _ ⟨id, ⟨hid, -⟩, rfl⟩
    exact (hold _ hentry).trans_le hid
  ended := hacc.ended
  bounded := Nat.mod_lt _ (by decide)
  fresh := by
    have hlen := congrArg List.length hids
    rw [length_map, length_range'] at hlen
    simp only [GpuSubmissionQueue.admitEntries, hlen]
    by_cases hwrap : h.state.nextSubmissionId + count = 2 ^ 64
    · exact .inl (by rw [hwrap, Nat.mod_self])
    rw [Nat.mod_eq_of_lt (lt_of_le_of_ne hle hwrap)]
    refine .inr fun entry hentry => ?_
    rcases mem_append.mp hentry with hold | hnew
    · exact Nat.lt_add_right _ (hacc.fresh.resolve_left hpos _ hold)
    · obtain ⟨id, hid, rfl⟩ := mem_map.mp hnew
      exact (mem_range'_1.mp hid).2

end Accounted

end QueueHistory

/-! ## Draining -/

/-- A drain is made of submissions that leave, submissions that stay blocked, and work in
the world. What all of these keep, a drain keeps. -/
structure DrainRun.Kept (keeps : DrainRun σ → Prop) : Prop where
  work : ∀ run world progressed, keeps run →
    keeps { run with world := world, progressed := progressed }
  blocked : ∀ run name submission rest cursor,
    run.queue.queues.queue name = submission :: rest → keeps run →
      keeps { run with queue := { run.queue with
        queues := run.queue.queues.store name ({ submission with cursor := cursor } :: rest) } }
  leave : ∀ run name submission rest result,
    run.queue.queues.queue name = submission :: rest → result.status ≠ .kBlocked → keeps run →
      keeps (run.leave name submission rest result)

namespace DrainRun.Kept

variable {keeps : DrainRun σ → Prop} {run : DrainRun σ}

section

variable (h : Kept keeps) (host : CommandHost σ)
include h host

theorem processQueue (name : QueueName)
    {submissions : List Submission} (hqueue : run.queue.queues.queue name = submissions)
    (hrun : keeps run) : keeps (run.processQueue host name submissions) := by
  induction submissions generalizing run with
  | nil => exact hrun
  | cons submission rest ih =>
    rw [DrainRun.processQueue]
    split
    · exact h.work _ _ _ (h.blocked _ _ _ _ _ hqueue hrun)
    next hended =>
      apply ih
      · simp [DrainRun.leave]
      · exact h.leave _ _ _ _ _ hqueue hended (h.work _ _ _ hrun)

theorem pass (hrun : keeps run) : keeps (run.pass host) := by
  rw [DrainRun.pass]
  generalize run.queue.queues.names = names
  have hstart : keeps { run with progressed := false } := h.work _ _ _ hrun
  revert hstart
  generalize { run with progressed := false } = start
  induction names generalizing start with
  | nil => exact id
  | cons name names ih => exact fun hstart => ih _ (h.processQueue _ _ rfl hstart)

theorem passes (count : ℕ) (hrun : keeps run) : keeps (run.passes host count).2 := by
  induction count generalizing run with
  | zero => exact hrun
  | succ count ih =>
    rw [DrainRun.passes]
    split
    · exact ih (h.pass _ hrun)
    · exact h.pass _ hrun

end

end DrainRun.Kept

/-- What a drain has come to so far: it has counted what left, and what waited in a queue is what
left it, followed by what waits. -/
structure Drained (s : GpuSubmissionQueue) (run : DrainRun σ) : Prop where
  completed : run.drain.completedSubmissions = run.departed.countP (·.status = .kComplete)
  failed : run.drain.failedSubmissions = run.departed.countP (·.status ≠ .kComplete)
  ended : ∀ departure ∈ run.departed, departure.status ≠ .kBlocked
  ids : ∀ name, (s.queues.queue name).map Submission.id =
    (run.departed.filter (·.name = name)).map Departure.id ++
      (run.queue.queues.queue name).map Submission.id
  submissions : s.queues.total (fun _ => 1) =
    run.departed.length + run.queue.queues.total fun _ => 1
  pendingSubmissions : run.queue.pendingSubmissions = s.pendingSubmissions - run.departed.length
  rootDwords : run.queue.queues.total Submission.rootDwords ≤ s.queues.total Submission.rootDwords
  pendingRootDwords : run.queue.pendingRootDwords = s.pendingRootDwords -
    (s.queues.total Submission.rootDwords - run.queue.queues.total Submission.rootDwords)
  nextSubmissionId : run.queue.nextSubmissionId = s.nextSubmissionId

theorem kept_drained (s : GpuSubmissionQueue) : DrainRun.Kept (σ := σ) (Drained s) where
  work _ _ _ h := { h with }
  blocked run name submission rest cursor hqueue h := by
    have hcount := run.queue.queues.total_store (fun _ => 1) name
      ({ submission with cursor } :: rest)
    have hwords := run.queue.queues.total_store Submission.rootDwords name
      ({ submission with cursor } :: rest)
    simp only [hqueue, map_cons, sum_cons, Nat.add_right_cancel_iff] at hcount hwords
    refine { h with ids := fun other => ?_, submissions := ?_, rootDwords := ?_,
                    pendingRootDwords := ?_ }
    · rw [h.ids]
      by_cases hname : other = name
      · simp [hname, hqueue]
      · rw [queue_store_of_ne _ hname]
    · exact hcount ▸ h.submissions
    · exact hwords ▸ h.rootDwords
    · exact hwords ▸ h.pendingRootDwords
  leave run name submission rest result hqueue hended h := by
    have hcount := run.queue.queues.total_store (fun _ => 1) name rest
    have hwords := run.queue.queues.total_store Submission.rootDwords name rest
    simp only [hqueue, map_cons, sum_cons] at hcount hwords
    have hsubmissions := h.submissions
    have hroot := h.rootDwords
    have hpending := h.pendingSubmissions
    have hpendingRoot := h.pendingRootDwords
    constructor
    case ids =>
      intro other
      rw [h.ids]
      by_cases hname : name = other
      · subst hname
        simp [DrainRun.leave, hqueue]
      · simp [DrainRun.leave, hname, queue_store_of_ne _ (Ne.symm hname)]
    case completed | failed =>
      by_cases hcomplete : result.status = .kComplete <;>
        simp [DrainRun.leave, GpuQueueDrainResult.count, hcomplete, h.completed, h.failed]
    case ended => exact forall_mem_append.mpr ⟨h.ended, by simpa using hended⟩
    case nextSubmissionId => exact h.nextSubmissionId
    all_goals
      simp only [DrainRun.leave, length_append, length_singleton]
      omega

theorem drained_passes (host : CommandHost σ) (world : CommandWorld σ) (s : GpuSubmissionQueue)
    (count : ℕ) : Drained s (DrainRun.passes host count { queue := s, world }).2 :=
  (kept_drained s).passes host count ⟨rfl, rfl, nofun, by simp, by simp, rfl, le_rfl, by simp, rfl⟩

/-- The result of a drain counts the submissions that left, by how they ended. The ids that
waited in a queue are those that left it, followed by those that still wait, and the counters of
what is pending go down by what left. -/
theorem GpuSubmissionQueue.drain_counts (host : CommandHost σ) (world : CommandWorld σ)
    (s : GpuSubmissionQueue) :
    let (result, departed, after) := s.drain host world
    result.completedSubmissions = departed.countP (·.status = .kComplete) ∧
      result.failedSubmissions = departed.countP (·.status ≠ .kComplete) ∧
      (∀ name, (s.queues.queue name).map Submission.id =
        (departed.filter (·.name = name)).map Departure.id ++
          (after.queues.queue name).map Submission.id) ∧
      result.pendingSubmissions = after.pendingSubmissions ∧
      after.pendingSubmissions = s.pendingSubmissions - departed.length ∧
      after.pendingRootDwords = s.pendingRootDwords -
        (s.queues.total Submission.rootDwords - after.queues.total Submission.rootDwords) := by
  have h := drained_passes host world s s.limits.maxDrainPasses
  have hdrop := Refused.dropEmpty
    (DrainRun.passes host s.limits.maxDrainPasses { queue := s, world }).2.queue
  refine ⟨h.completed, h.failed, fun name => ?_, rfl, h.pendingSubmissions, ?_⟩
  · rw [hdrop.queue]
    exact h.ids name
  · rw [hdrop.total]
    exact h.pendingRootDwords

namespace QueueHistory

namespace Accounted

variable {h : QueueHistory}

theorem drained {run : DrainRun σ} (hacc : Accounted h) (hrun : Drained h.state run) :
    Accounted { h with state := run.queue, departed := h.departed ++ run.departed } where
  __ := hacc
  submissions := by
    have hold := hacc.submissions
    have := hrun.submissions
    have := hrun.pendingSubmissions
    dsimp only
    omega
  rootDwords := by
    have hold := hacc.rootDwords
    have := hrun.rootDwords
    have := hrun.pendingRootDwords
    dsimp only
    omega
  conserved name := by
    have hold := hacc.conserved name
    rw [hrun.ids] at hold
    simpa [admittedTo, departedFrom] using hold
  ended := forall_mem_append.mpr ⟨hacc.ended, hrun.ended⟩
  bounded := hrun.nextSubmissionId ▸ hacc.bounded
  fresh := hrun.nextSubmissionId ▸ hacc.fresh

theorem drain (host : CommandHost σ) (world : CommandWorld σ) (hacc : Accounted h) :
    Accounted (h.step (.drain host world)) :=
  (hacc.drained (drained_passes host world h.state h.state.limits.maxDrainPasses)).refused
    (.dropEmpty _)

theorem step (hacc : Accounted h) (call : QueueCall σ) : Accounted (h.step call) := by
  cases call with
  | drain host world => exact hacc.drain _ _
  | enqueue call =>
    rw [QueueHistory.step]
    rcases call.explained hacc.bounded with
      ⟨hstat, hno, -⟩ | ⟨entries, hids, hpos, hle, hout⟩
    · rw [if_neg hstat]
      exact hacc.refused hno
    · rw [hout]
      exact hacc.admitEntries call.limits hids hpos hle

end Accounted

theorem accounted_run (calls : List (QueueCall σ)) : Accounted (run calls) :=
  Math.StepRuns.run_induction step (fun _ call hacc => hacc.step call) .initial calls

/-- No two waiting submissions have one id, and in each queue the ids increase. -/
def IdsInOrder (h : QueueHistory) : Prop :=
  (∀ name, (h.state.queues.queue name).Pairwise fun earlier later => earlier.id < later.id) ∧
  ∀ name other, name ≠ other → ∀ one ∈ h.state.queues.queue name,
    ∀ two ∈ h.state.queues.queue other, one.id ≠ two.id

/-- What waits in a queue was accepted for it. -/
theorem Accounted.mem_admitted {h : QueueHistory} (hacc : Accounted h) {name : QueueName}
    {submission : Submission} (hmem : submission ∈ h.state.queues.queue name) :
    (name, submission.id) ∈ h.admitted := by
  have hid : submission.id ∈ h.admittedTo name := by
    rw [hacc.conserved name]
    exact mem_append_right _ (mem_map_of_mem hmem)
  obtain ⟨⟨owner, id⟩, hentry, rfl⟩ := mem_map.mp hid
  rw [mem_filter, decide_eq_true_eq] at hentry
  obtain ⟨hentry, rfl⟩ := hentry
  exact hentry

theorem Accounted.idsInOrder {h : QueueHistory} (hacc : Accounted h) : h.IdsInOrder := by
  constructor
  · intro name
    have hadmitted : (h.admittedTo name).Pairwise (· < ·) :=
      hacc.increasing.sublist (filter_sublist.map _)
    rw [hacc.conserved name, pairwise_append] at hadmitted
    exact pairwise_map.mp hadmitted.2.1
  · intro name other hne one hone two htwo hid
    have hnodup : (h.admitted.map Prod.snd).Nodup := hacc.increasing.imp Nat.ne_of_lt
    have hsame := inj_on_of_nodup_map hnodup (hacc.mem_admitted hone)
      (hacc.mem_admitted htwo) hid
    exact hne (congrArg Prod.fst hsame)

/-- After any calls the books are in order, and a call that is refused changes nothing exactly
when it stops before it has taken an id or created a queue. -/
theorem run_accounted_and_refusals (calls : List (QueueCall σ)) :
    (run calls).Accounted ∧ (run calls).IdsInOrder ∧
      ∀ call : EnqueueCall σ, (call.run (run calls).state).1.status ≠ .kAccepted →
        ((call.run (run calls).state).2 = (run calls).state ↔
          call.StopsEarly (run calls).state) := by
  have hacc := accounted_run calls
  refine ⟨hacc, hacc.idsInOrder, fun call hrefused => ?_⟩
  rcases call.explained hacc.bounded with ⟨-, -, hiff⟩ | ⟨entries, -, -, -, houtcome⟩
  · exact hiff
  · exact absurd (by rw [houtcome]) hrefused

/-- A host whose memory reads as zero and whose sink completes everything. -/
def quietHost : CommandHost Unit where
  read _ _ length := some (List.replicate length 0)
  resolveProgramBindings _ bindings := (.kOk, bindings)
  submit _ state := (.kComplete, state)
  allocates _ := true

/-- A compute submission for a new owner whose last allocation fails. -/
def unlucky : EnqueueCall Unit where
  host := quietHost
  world := ⟨.empty, ()⟩
  allocations := { pushes := fun _ => false }
  name := .compute 4
  request := .single 0x1000 1

/-- The call is refused, but the id is gone and the queue is there. -/
theorem refused_call_takes_id : let s := (run ([] : List (QueueCall Unit))).state
    let outcome := unlucky.run s
    outcome.1.status = .kResourceLimit ∧ (s.nextSubmissionId, outcome.2.nextSubmissionId) = (1, 2) ∧
      (s.queues.computeQueues.contains 4, outcome.2.queues.computeQueues.contains 4) =
        (false, true) := by
  decide +kernel

/-- Two submissions are accepted and leave in a drain; then one is refused for want of memory
and one for its null address, which changes nothing. -/
theorem run_accounted_and_refusals_unlucky :
    let lucky : EnqueueCall Unit := { unlucky with allocations := {}, name := .graphics }
    let null : EnqueueCall Unit := { unlucky with request := .single 0 1 }
    let h := run [.enqueue lucky, .enqueue lucky, .drain quietHost ⟨.empty, ()⟩]
    h.admitted = [(.graphics, 1), (.graphics, 2)] ∧ h.Accounted ∧ h.IdsInOrder ∧
      (null.run h.state).2 = h.state ∧ (unlucky.run h.state).2 ≠ h.state := by
  intro lucky null h
  obtain ⟨hacc, hids, hrefusals⟩ :=
    run_accounted_and_refusals [.enqueue lucky, .enqueue lucky, .drain _ ⟨.empty, ()⟩]
  refine ⟨by decide +kernel, hacc, hids, ?_, ?_⟩
  · apply (hrefusals _ (by decide +kernel)).mpr
    rintro - ⟨⟨hnull, -⟩, -⟩
    exact absurd rfl hnull
  · intro hsame
    exact absurd (congrArg GpuSubmissionQueue.nextSubmissionId hsame) (by decide +kernel)

end QueueHistory

end KajPS5.Gpu
