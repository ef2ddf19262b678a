/-
# What the calls of the submission queue do

Each enqueue call is refused or accepts what it was asked for, with the next ids in
order. A refused call changes nothing, with one exception: `Commit` takes the id, and
`EnqueueCompute` creates the queue, before the submission is appended, and neither is
taken back. `StopsEarly` says when a call does not get that far.
-/

import KajPS5.Gpu.SubmissionQueue

namespace KajPS5.Gpu

open Math GpuSubmissionQueue OrderedMaps

/-! ## Storing queues -/

namespace QueueTable

variable (t : QueueTable)

@[simp]
theorem queue_store (name : QueueName) (submissions : List Submission) :
    (t.store name submissions).queue name = submissions := by
  cases name with
  | graphics => rfl
  | compute owner => simp [queue, store]

variable {owner : ℕ} {name : QueueName}

theorem queue_store_of_ne {other : QueueName} (h : other ≠ name) (submissions : List Submission) :
    (t.store name submissions).queue other = t.queue other := by
  cases name with
  | graphics =>
    cases other with
    | graphics => exact absurd rfl h
    | compute owner => rfl
  | compute owner =>
    cases other with
    | graphics => rfl
    | compute other =>
      have hne : owner ≠ other := fun heq => h (congrArg _ heq.symm)
      simp [queue, store, getElem?_insert, hne]

@[simp]
theorem queue_emplace (owner : ℕ) (name : QueueName) :
    (t.emplace owner).queue name = t.queue name := by
  cases name with
  | graphics => rfl
  | compute other =>
    simp only [queue, emplace, getElem?_insertIfNew]
    split
    next h => rw [h.2]; rfl
    · rfl

/-- Storing a queue exchanges its weight. -/
theorem total_store (weight : Submission → ℕ) (name : QueueName) (submissions : List Submission) :
    (t.store name submissions).total weight + ((t.queue name).map weight).sum =
      t.total weight + (submissions.map weight).sum := by
  cases name with
  | graphics =>
    simp only [total, store, queue]
    omega
  | compute owner =>
    have hmap := total_insert (fun queue => (queue.map weight).sum) t.computeQueues
      owner submissions
    have hqueue : ((t.queue (.compute owner)).map weight).sum =
        t.computeQueues[owner]?.elim 0 fun queue => (queue.map weight).sum := by
      rw [queue]
      cases t.computeQueues[owner]? <;> rfl
    simp only [total, store]
    omega

theorem store_queue (h : t.Exists name) : t.store name (t.queue name) = t := by
  cases name with
  | graphics => rfl
  | compute owner =>
    obtain ⟨submissions, hsome⟩ := Option.isSome_iff_exists.mp
      (Std.ExtTreeMap.mem_iff_isSome_getElem?.mp h)
    simp only [store, queue, hsome, Option.getD_some]
    rw [insert_of_getElem? hsome]

/-- A queue that is there is not created again. -/
theorem emplace_of_exists (h : t.Exists (.compute owner)) : t.emplace owner = t := by
  obtain ⟨submissions, hsome⟩ := Option.isSome_iff_exists.mp
    (Std.ExtTreeMap.mem_iff_isSome_getElem?.mp h)
  rw [emplace, insertIfNew_of_some hsome]

/-- A queue that is created is an empty entry. -/
theorem emplace_of_not_exists (h : ¬ t.Exists (.compute owner)) :
    t.emplace owner = t.store (.compute owner) [] := by
  rw [emplace, insertIfNew_of_none (Std.ExtTreeMap.getElem?_eq_none h), store]

theorem exists_emplace (owner : ℕ) : (t.emplace owner).Exists (.compute owner) := by
  simp [Exists, emplace]

theorem total_emplace (weight : Submission → ℕ) (owner : ℕ) :
    (t.emplace owner).total weight = t.total weight := by
  by_cases h : t.Exists (.compute owner)
  · rw [emplace_of_exists t h]
  · have hnone : t.queue (.compute owner) = [] := by
      simp [queue, Std.ExtTreeMap.getElem?_eq_none h]
    rw [emplace_of_not_exists t h]
    simpa [hnone] using total_store t _ (.compute owner) []

/-- Erasing a queue that was created undoes its creation. -/
theorem erase_emplace (h : ¬ t.Exists (.compute owner)) :
    { t.emplace owner with computeQueues := (t.emplace owner).computeQueues.erase owner } = t := by
  rw [emplace_of_not_exists t h]
  simp [store, erase_insert_of_none (Std.ExtTreeMap.getElem?_eq_none h)]

theorem store_emplace (owner : ℕ) (submissions : List Submission) :
    (t.emplace owner).store (.compute owner) submissions =
      t.store (.compute owner) submissions := by
  by_cases h : t.Exists (.compute owner)
  · rw [emplace_of_exists t h]
  · rw [emplace_of_not_exists t h]
    simp [store, insert_insert]

end QueueTable

variable {σ : Type}

/-! ## What an enqueue call does -/

namespace GpuSubmissionQueue

/-- Submissions are accepted: they are appended, counted, and use up their ids. -/
def admitEntries (name : QueueName) (entries : List Submission) (limits : GpuQueueLimits)
    (s : GpuSubmissionQueue) : GpuSubmissionQueue where
  queues := s.queues.store name (s.queues.queue name ++ entries)
  limits := limits
  nextSubmissionId := (s.nextSubmissionId + entries.length) % 2 ^ 64
  pendingSubmissions := s.pendingSubmissions + entries.length
  pendingRootDwords := s.pendingRootDwords + (entries.map Submission.rootDwords).sum

/-- The limits leave room for one submission of this length. -/
def HasRoom (dwordCount : ℕ) (limits : GpuQueueLimits) (s : GpuSubmissionQueue) : Prop :=
  limits.maxPendingSubmissions ≠ 0 ∧ limits.maxPendingRootDwords ≠ 0 ∧
    limits.maxDrainPasses ≠ 0 ∧ s.pendingSubmissions < limits.maxPendingSubmissions ∧
      dwordCount ≤ limits.maxPendingRootDwords -
        min s.pendingRootDwords limits.maxPendingRootDwords

/-- The ids are used up, or the counter of words would leave 64 bits. -/
def Exhausted (dwordCount : ℕ) (s : GpuSubmissionQueue) : Prop :=
  s.nextSubmissionId = 0 ∨ 2 ^ 64 - 1 - dwordCount < s.pendingRootDwords

end GpuSubmissionQueue

/-- The command buffer can be copied from guest memory under these limits. -/
def Startable (host : CommandHost σ) (world : CommandWorld σ) (limits : GpuCommandLimits)
    (address : BitVec 64) (dwordCount : ℕ) : Prop :=
  (address ≠ 0 ∧ address &&& 3 = 0 ∧ dwordCount ≠ 0 ∧ limits.maxActions ≠ 0 ∧
    limits.maxBufferDwords ≠ 0 ∧ limits.maxProcessedDwords ≠ 0) ∧
  dwordCount ≤ limits.maxBufferDwords ∧ host.allocates world.state = true ∧
  (host.read world.state address.toNat (dwordCount * 4)).isSome = true

namespace GpuSubmissionQueue

variable (host : CommandHost σ) (world : CommandWorld σ)

theorem exists_readDwords_iff (limits : GpuCommandLimits) (state : σ) (address : BitVec 64)
    (dwordCount : ℕ) :
    (∃ words, readDwords host limits state address dwordCount = .ok words) ↔
      ¬ (address = 0 ∨ address &&& 3 ≠ 0 ∨ dwordCount = 0 ∨ limits.maxBufferDwords < dwordCount) ∧
        host.allocates state = true ∧
          (host.read state address.toNat (dwordCount * 4)).isSome = true := by
  unfold readDwords
  split
  next hargs => simp only [hargs, not_true_eq_false, false_and, reduceCtorEq, exists_const]
  next hargs =>
    cases hallocates : host.allocates state with
    | false => simp
    | true =>
      cases host.read state address.toNat (dwordCount * 4) with
      | none => simp
      | some bytes => exact ⟨fun _ => ⟨hargs, rfl, rfl⟩, fun _ => ⟨_, rfl⟩⟩

/-- A submission begins when its first frame can be copied. -/
theorem beginCursor_terminal_iff (limits : GpuQueueLimits) (address : BitVec 64)
    (dwordCount : ℕ) :
    (beginCursor host world limits address dwordCount).terminal = false ↔
      Startable host world limits.command address dwordCount := by
  have hwords := exists_readDwords_iff host limits.command world.state address dwordCount
  unfold beginCursor CommandDecoder.beginCommandBuffer Startable
  dsimp only
  split
  next hargs =>
    constructor
    · nofun
    · rintro ⟨hgood, -⟩
      exact absurd hargs (by push Not; exact hgood)
  next hargs =>
    push Not at hargs
    obtain ⟨haddr, halign, hcount, -⟩ := id hargs
    rw [CommandDecoder.snapshotFrame]
    cases hread : readDwords host limits.command world.state address dwordCount with
    | error stop =>
      constructor
      · nofun
      rintro ⟨-, hfits, hallocates, hbytes⟩
      have hgood : ¬ (address = 0 ∨ address &&& 3 ≠ 0 ∨ dwordCount = 0 ∨
          limits.command.maxBufferDwords < dwordCount) := by
        push Not
        exact ⟨haddr, halign, hcount, hfits⟩
      obtain ⟨words, hwords⟩ := hwords.mpr ⟨hgood, hallocates, hbytes⟩
      cases hread.symm.trans hwords
    | ok words =>
      obtain ⟨hgood, hallocates, hbytes⟩ := hwords.mp ⟨words, hread⟩
      push Not at hgood
      rw [hallocates]
      exact ⟨fun _ => ⟨hargs, hgood.2.2.2, rfl, hbytes⟩, fun _ => rfl⟩

theorem notBegun_status (cursor : GpuCommandCursor) : (notBegun cursor).status ≠ .kAccepted := by
  unfold notBegun enqueueStatus
  cases cursor.result.status <;> nofun

/-- `Prepare` refuses, or there is room and the command buffer can be begun. -/
theorem prepare_cases (address : BitVec 64) (dwordCount : ℕ) (limits : GpuQueueLimits)
    (s : GpuSubmissionQueue) :
    (∃ result, s.prepare host world address dwordCount limits = .error result ∧
      result.status ≠ .kAccepted ∧
        ¬ (s.HasRoom dwordCount limits ∧ Startable host world limits.command address dwordCount)) ∨
    (s.prepare host world address dwordCount limits =
        .ok (beginCursor host world limits address dwordCount) ∧
      s.HasRoom dwordCount limits ∧ Startable host world limits.command address dwordCount) := by
  have hbegin := beginCursor_terminal_iff host world limits address dwordCount
  unfold prepare HasRoom
  split
  next hfull =>
    refine .inl ⟨_, rfl, nofun, fun h => absurd hfull ?_⟩
    push Not
    exact h.1
  next hroom =>
    push Not at hroom
    cases hterminal : (beginCursor host world limits address dwordCount).terminal with
    | true =>
      refine .inl ⟨_, if_pos hterminal, notBegun_status _, fun h => ?_⟩
      cases (hbegin.mpr h.2).symm.trans hterminal
    | false => exact .inr ⟨if_neg (by simp [hterminal]), hroom, hbegin.mp hterminal⟩

/-- `Commit` refuses, takes an id that it does not use, or accepts. -/
theorem commit_cases (pushes : Bool) (name : QueueName) (dwordCount : ℕ)
    (limits : GpuQueueLimits) (cursor : GpuCommandCursor) (s : GpuSubmissionQueue) :
    (s.Exhausted dwordCount ∧
      s.commit pushes name dwordCount limits cursor = ({ status := .kResourceLimit }, s)) ∨
    (¬ s.Exhausted dwordCount ∧
      s.commit pushes name dwordCount limits cursor = ({ status := .kResourceLimit },
        { s with nextSubmissionId := (s.nextSubmissionId + 1) % 2 ^ 64 })) ∨
    (¬ s.Exhausted dwordCount ∧ s.commit pushes name dwordCount limits cursor =
        ({ submissionId := s.nextSubmissionId },
          s.admitEntries name [⟨s.nextSubmissionId, dwordCount, cursor⟩] limits)) := by
  unfold commit Exhausted
  split
  next h => exact .inl ⟨h, rfl⟩
  next h =>
    cases pushes with
    | false => exact .inr (.inl ⟨h, rfl⟩)
    | true => exact .inr (.inr ⟨h, by simp [admitEntries]⟩)

/-! ## What a batch does -/

theorem totalDwords_eq {buffers : List GpuCommandBufferDescriptor} {sum dwords : ℕ}
    (h : totalDwords buffers sum = some dwords) :
    dwords = sum + (buffers.map GpuCommandBufferDescriptor.dwordCount).sum := by
  induction buffers generalizing sum with
  | nil =>
    cases h
    rfl
  | cons buffer buffers ih =>
    rw [totalDwords] at h
    split_ifs at h
    rw [ih h, List.map_cons, List.sum_cons, Nat.add_assoc]

theorem beginAll_cases (limits : GpuQueueLimits) (buffers : List GpuCommandBufferDescriptor) :
    (∃ result, beginAll host world limits buffers = .error result ∧ result.status ≠ .kAccepted) ∨
    (∃ cursors, beginAll host world limits buffers = .ok cursors ∧
      cursors.length = buffers.length) := by
  induction buffers with
  | nil => exact .inr ⟨[], rfl, rfl⟩
  | cons buffer buffers ih =>
    rw [beginAll]
    cases (beginCursor host world limits buffer.address buffer.dwordCount).terminal with
    | true => exact .inl ⟨_, rfl, notBegun_status _⟩
    | false =>
      rcases ih with ⟨result, hres, hstat⟩ | ⟨cursors, hcursors, hlen⟩
      · rw [hres]
        exact .inl ⟨result, rfl, hstat⟩
      · rw [hcursors]
        exact .inr ⟨_, rfl, congrArg (· + 1) hlen⟩

/-- The submissions of a batch, with ids counted up from the next one. -/
def batchEntries (nextId : ℕ) :
    List (GpuCommandBufferDescriptor × GpuCommandCursor) → ℕ → List Submission
  | [], _ => []
  | (buffer, cursor) :: rest, index =>
    ⟨nextId + index, buffer.dwordCount, cursor⟩ :: batchEntries nextId rest (index + 1)

section

variable (nextId : ℕ) (pairs : List (GpuCommandBufferDescriptor × GpuCommandCursor)) (index : ℕ)

theorem map_id_batchEntries : (batchEntries nextId pairs index).map Submission.id =
      List.range' (nextId + index) pairs.length := by
  induction pairs generalizing index with
  | nil => rfl
  | cons pair pairs ih =>
    rw [batchEntries, List.map_cons, ih, List.length_cons, List.range'_succ, Nat.add_assoc]

theorem map_rootDwords_batchEntries : (batchEntries nextId pairs index).map Submission.rootDwords =
      pairs.map fun pair => pair.1.dwordCount := by
  induction pairs generalizing index with
  | nil => rfl
  | cons pair pairs ih => rw [batchEntries, List.map_cons, ih, List.map_cons]

end

/-- The insertions of a batch are a first part of its submissions, and all of them when none
fails. -/
theorem pushAll_cases (pushes : ℕ → Bool) (nextId : ℕ)
    (pairs : List (GpuCommandBufferDescriptor × GpuCommandCursor)) (index : ℕ)
    (submissions : List Submission) :
    (∃ entries, pushAll pushes nextId pairs index submissions =
      (false, index + entries.length, submissions ++ entries)) ∨
    (pushAll pushes nextId pairs index submissions =
      (true, index + pairs.length, submissions ++ batchEntries nextId pairs index)) := by
  induction pairs generalizing index submissions with
  | nil => exact .inr (by simp [pushAll, batchEntries])
  | cons pair pairs ih =>
    rw [pushAll]
    cases pushes index with
    | false => exact .inl ⟨[], by simp⟩
    | true =>
      rcases ih (index + 1) (submissions ++ [⟨nextId + index, pair.1.dwordCount, pair.2⟩]) with
        ⟨entries, hpush⟩ | hpush
      · refine .inl ⟨⟨nextId + index, pair.1.dwordCount, pair.2⟩ :: entries, ?_⟩
        simp [hpush, Nat.add_assoc, Nat.add_comm 1]
      · right
        simp [hpush, batchEntries, Nat.add_assoc, Nat.add_comm 1]

/-- One `pop_back` for each insertion takes them all back. -/
theorem dropLast_iterate_append (submissions entries : List Submission) :
    List.dropLast^[entries.length] (submissions ++ entries) = submissions := by
  induction entries generalizing submissions with
  | nil => simp
  | cons entry entries ih =>
    rw [List.length_cons, Function.iterate_succ_apply', List.append_cons, ih, List.dropLast_concat]

/-- A call accepts this many submissions for a queue, with the next ids in order. -/
def Admits (name : QueueName) (count : ℕ) (limits : GpuQueueLimits) (s : GpuSubmissionQueue)
    (outcome : GpuEnqueueResult × GpuSubmissionQueue) : Prop :=
  ∃ entries : List Submission, entries.map Submission.id = List.range' s.nextSubmissionId count ∧
    s.nextSubmissionId ≠ 0 ∧ s.nextSubmissionId + count ≤ 2 ^ 64 ∧
    outcome = ({ submissionId := s.nextSubmissionId }, s.admitEntries name entries limits)

/-- A batch for a queue that exists is accepted as a whole, or nothing changes. -/
theorem enqueueBatch_cases (allocations : QueueAllocations) (name : QueueName)
    (buffers : List GpuCommandBufferDescriptor) (limits : GpuQueueLimits)
    {s : GpuSubmissionQueue} (hid : s.nextSubmissionId < 2 ^ 64) (hname : s.queues.Exists name) :
    (∃ result, s.enqueueBatch host world allocations name buffers limits = (result, s) ∧
      result.status ≠ .kAccepted) ∨
    s.Admits name buffers.length limits
      (s.enqueueBatch host world allocations name buffers limits) := by
  unfold enqueueBatch
  split
  · exact .inl ⟨_, rfl, nofun⟩
  split
  · exact .inl ⟨_, rfl, nofun⟩
  split
  · exact .inl ⟨_, rfl, nofun⟩
  next dwords hdwords =>
  split
  · exact .inl ⟨_, rfl, nofun⟩
  split
  · exact .inl ⟨_, rfl, nofun⟩
  next hids =>
  split
  · exact .inl ⟨_, rfl, nofun⟩
  rcases beginAll_cases host world limits buffers with
    ⟨result, hres, hstat⟩ | ⟨cursors, hcursors, hlen⟩
  · rw [hres]
    exact .inl ⟨result, rfl, hstat⟩
  rw [hcursors]
  have hpairs : (buffers.zip cursors).length = buffers.length := by simp [hlen]
  rcases pushAll_cases allocations.pushes s.nextSubmissionId (buffers.zip cursors) 0
    (s.queues.queue name) with ⟨entries, hpush⟩ | hpush
  · simp [hpush, dropLast_iterate_append, s.queues.store_queue hname]
  right
  refine ⟨batchEntries s.nextSubmissionId (buffers.zip cursors) 0, ?_, ?_, ?_, ?_⟩
  · rw [map_id_batchEntries, hpairs, Nat.add_zero]
  · exact fun h => hids (.inl h)
  · omega
  have hcount := congrArg List.length
    (map_id_batchEntries s.nextSubmissionId (buffers.zip cursors) 0)
  have hsum : (buffers.zip cursors).map (fun pair => pair.1.dwordCount) =
      buffers.map GpuCommandBufferDescriptor.dwordCount := by
    rw [← List.map_fst_zip hlen.ge, List.map_map]
    simp [List.map_fst_zip, hlen.ge]
  rw [List.length_map, hpairs] at hcount
  simp [hpush, admitEntries, hcount, map_rootDwords_batchEntries, hsum, totalDwords_eq hdwords]

/-- Creating the queue first makes no difference to what is accepted. -/
theorem admitEntries_emplace (owner : ℕ) (entries : List Submission) (limits : GpuQueueLimits)
    (s : GpuSubmissionQueue) :
    { s with queues := s.queues.emplace owner }.admitEntries (.compute owner) entries limits =
      s.admitEntries (.compute owner) entries limits := by
  simp [admitEntries, QueueTable.store_emplace]

/-- What a refused call may leave behind: the counters and what waits are as before, but an
empty queue may be new and one id may be gone. -/
structure Refused (s t : GpuSubmissionQueue) : Prop where
  queue : ∀ name, t.queues.queue name = s.queues.queue name
  total : ∀ weight, t.queues.total weight = s.queues.total weight
  pendingSubmissions : t.pendingSubmissions = s.pendingSubmissions
  pendingRootDwords : t.pendingRootDwords = s.pendingRootDwords
  nextSubmissionId : t.nextSubmissionId = s.nextSubmissionId ∨
    s.nextSubmissionId ≠ 0 ∧ t.nextSubmissionId = (s.nextSubmissionId + 1) % 2 ^ 64

theorem Refused.refl (s : GpuSubmissionQueue) : Refused s s :=
  ⟨fun _ => rfl, fun _ => rfl, rfl, rfl, .inl rfl⟩

theorem Refused.emplace (s : GpuSubmissionQueue) (owner : ℕ) :
    Refused s { s with queues := s.queues.emplace owner } :=
  ⟨s.queues.queue_emplace owner, fun weight => s.queues.total_emplace weight owner, rfl, rfl,
    .inl rfl⟩

/-- Dropping the empty compute queues changes nothing that counts. -/
theorem Refused.dropEmpty (s : GpuSubmissionQueue) : Refused s { s with queues := { s.queues with
      computeQueues := s.queues.computeQueues.filter fun _ submissions => !submissions.isEmpty } }
    where
  queue name := by
    cases name with
    | graphics => rfl
    | compute owner =>
      simp only [QueueTable.queue, Std.ExtTreeMap.getElem?_filter']
      cases s.queues.computeQueues[owner]? with
      | none => rfl
      | some submissions => cases submissions <;> rfl
  total weight := by
    rw [QueueTable.total, QueueTable.total, total_filter]
    simp_all
  pendingSubmissions := rfl
  pendingRootDwords := rfl
  nextSubmissionId := .inl rfl

/-- The id is taken all the same. -/
theorem Refused.takeId {s t : GpuSubmissionQueue} (h : Refused s t)
    (hsame : t.nextSubmissionId = s.nextSubmissionId) (hid : s.nextSubmissionId ≠ 0) :
    Refused s { t with nextSubmissionId := (t.nextSubmissionId + 1) % 2 ^ 64 } :=
  { h with nextSubmissionId := .inr ⟨hid, by rw [hsame]⟩ }

end GpuSubmissionQueue

/-- What one call asks to be enqueued. -/
inductive EnqueueRequest
  | single (address : BitVec 64) (dwordCount : ℕ)
  | batch (buffers : List GpuCommandBufferDescriptor)

def EnqueueRequest.count : EnqueueRequest → ℕ
  | .single _ _ => 1
  | .batch buffers => buffers.length

/-- One of the four enqueue calls, in its surroundings. -/
structure EnqueueCall (σ : Type) where
  host : CommandHost σ
  world : CommandWorld σ
  allocations : QueueAllocations := {}
  name : QueueName
  request : EnqueueRequest
  limits : GpuQueueLimits := {}

namespace EnqueueCall

variable (call : EnqueueCall σ)

def run (s : GpuSubmissionQueue) : GpuEnqueueResult × GpuSubmissionQueue :=
  match call.name, call.request with
  | .graphics, .single address dwordCount =>
    s.enqueueGraphics call.host call.world call.allocations address dwordCount call.limits
  | .compute owner, .single address dwordCount =>
    s.enqueueCompute call.host call.world call.allocations owner address dwordCount call.limits
  | .graphics, .batch buffers =>
    s.enqueueGraphicsBatch call.host call.world call.allocations buffers call.limits
  | .compute owner, .batch buffers =>
    s.enqueueComputeBatch call.host call.world call.allocations owner buffers call.limits

/-- A call that is refused in this state does not get as far as taking an id or creating a
queue. -/
def StopsEarly (s : GpuSubmissionQueue) : Prop :=
  match call.name, call.request with
  | _, .batch _ => True
  | .graphics, .single address dwordCount =>
    s.HasRoom dwordCount call.limits →
      Startable call.host call.world call.limits.command address dwordCount → s.Exhausted dwordCount
  | .compute owner, .single address dwordCount =>
    s.HasRoom dwordCount call.limits →
      Startable call.host call.world call.limits.command address dwordCount →
        call.allocations.emplaces = false ∨
          s.queues.Exists (.compute owner) ∧ s.Exhausted dwordCount

/-- A call is refused, and the state is as before exactly when it stops early, or it accepts
what it was asked for. -/
def Explained (s : GpuSubmissionQueue) : Prop :=
  ((call.run s).1.status ≠ .kAccepted ∧ s.Refused (call.run s).2 ∧
    ((call.run s).2 = s ↔ call.StopsEarly s)) ∨
  s.Admits call.name call.request.count call.limits (call.run s)

variable {s : GpuSubmissionQueue} (host : CommandHost σ) (world : CommandWorld σ)
  (allocations : QueueAllocations) (limits : GpuQueueLimits)

theorem takeId_ne (s : GpuSubmissionQueue) :
    (s.nextSubmissionId + 1) % 2 ^ 64 ≠ s.nextSubmissionId := by
  omega

section

variable (hid : s.nextSubmissionId < 2 ^ 64)
include hid

theorem explained_enqueueGraphics (address : BitVec 64) (dwordCount : ℕ) :
    (⟨host, world, allocations, .graphics, .single address dwordCount, limits⟩ :
      EnqueueCall σ).Explained s := by
  unfold Explained
  simp only [run, enqueueGraphics]
  rcases s.prepare_cases host world address dwordCount limits with
    ⟨result, hprepare, hstat, hnot⟩ | ⟨hprepare, hroom, hstart⟩
  · rw [hprepare]
    exact .inl ⟨hstat, .refl s, iff_of_true rfl fun hroom hstart => absurd ⟨hroom, hstart⟩ hnot⟩
  rw [hprepare]
  rcases s.commit_cases (allocations.pushes 0) .graphics dwordCount limits
    (beginCursor host world limits address dwordCount) with
    ⟨hspent, hcommit⟩ | ⟨hspent, hcommit⟩ | ⟨hspent, hcommit⟩
  · simp only [hcommit]
    exact .inl ⟨nofun, .refl s, iff_of_true trivial fun _ _ => hspent⟩
  · simp only [hcommit]
    refine .inl ⟨nofun, (GpuSubmissionQueue.Refused.refl s).takeId rfl fun h =>
      hspent (.inl h), iff_of_false (fun h => ?_) fun h => hspent (h hroom hstart)⟩
    exact takeId_ne s (congrArg nextSubmissionId h)
  · simp only [hcommit]
    exact .inr ⟨_, rfl, fun h => hspent (.inl h), hid, rfl⟩

theorem explained_enqueueCompute (owner : ℕ) (address : BitVec 64) (dwordCount : ℕ) :
    (⟨host, world, allocations, .compute owner, .single address dwordCount, limits⟩ :
      EnqueueCall σ).Explained s := by
  unfold Explained
  simp only [run, StopsEarly, enqueueCompute]
  rcases s.prepare_cases host world address dwordCount limits with
    ⟨result, hprepare, hstat, hnot⟩ | ⟨hprepare, hroom, hstart⟩
  · rw [hprepare]
    exact .inl ⟨hstat, .refl s, iff_of_true rfl fun hroom hstart => absurd ⟨hroom, hstart⟩ hnot⟩
  rw [hprepare]
  cases hemplaces : allocations.emplaces with
  | false => exact .inl ⟨nofun, .refl s, iff_of_true rfl fun _ _ => .inl rfl⟩
  | true =>
    have hexists : { s with queues := s.queues.emplace owner } = s ↔
        s.queues.Exists (.compute owner) := by
      constructor
      · intro h
        have hqueues : s.queues.emplace owner = s.queues := congrArg queues h
        rw [← hqueues]
        exact s.queues.exists_emplace _
      · intro h
        rw [s.queues.emplace_of_exists h]
    rcases commit_cases (allocations.pushes 0) (.compute owner) dwordCount
      limits (beginCursor host world limits address dwordCount)
      { s with queues := s.queues.emplace owner } with
      ⟨hspent, hcommit⟩ | ⟨hspent, hcommit⟩ | ⟨hspent, hcommit⟩
    · simp only [Bool.not_true, Bool.false_eq_true, if_false, hcommit]
      refine .inl ⟨nofun, .emplace s owner, ?_⟩
      rw [hexists]
      constructor
      · exact fun h _ _ => .inr ⟨h, hspent⟩
      · exact fun h => ((h hroom hstart).resolve_left nofun).1
    · simp only [hcommit]
      refine .inl ⟨nofun, (GpuSubmissionQueue.Refused.emplace s owner).takeId rfl fun h =>
        hspent (.inl h), iff_of_false (fun h => ?_) fun h => ?_⟩
      · exact takeId_ne s (congrArg nextSubmissionId h)
      · exact hspent ((h hroom hstart).resolve_left nofun).2
    · simp only [Bool.not_true, Bool.false_eq_true, if_false, hcommit]
      refine .inr ⟨[⟨_, dwordCount, beginCursor host world limits address dwordCount⟩], rfl,
        fun h => hspent (.inl h), hid, ?_⟩
      rw [admitEntries_emplace]

theorem explained_enqueueGraphicsBatch (buffers : List GpuCommandBufferDescriptor) :
    (⟨host, world, allocations, .graphics, .batch buffers, limits⟩ :
      EnqueueCall σ).Explained s := by
  unfold Explained
  simp only [run, enqueueGraphicsBatch]
  rcases enqueueBatch_cases host world allocations .graphics _ _ hid
    trivial with ⟨result, hbatch, hstat⟩ | hadmits
  · rw [hbatch]
    exact .inl ⟨hstat, .refl s, iff_of_true rfl trivial⟩
  · exact .inr hadmits

theorem explained_enqueueComputeBatch (owner : ℕ) (buffers : List GpuCommandBufferDescriptor) :
    (⟨host, world, allocations, .compute owner, .batch buffers, limits⟩ :
      EnqueueCall σ).Explained s := by
  unfold Explained
  simp only [run, StopsEarly, enqueueComputeBatch]
  cases allocations.emplaces with
  | false => exact .inl ⟨nofun, .refl s, iff_of_true rfl trivial⟩
  | true =>
    rcases enqueueBatch_cases host world allocations (.compute owner) buffers
      limits (s := { s with queues := s.queues.emplace owner }) hid
      (s.queues.exists_emplace owner) with ⟨result, hbatch, hstat⟩ | hadmits
    · left
      simp only [Bool.not_true, Bool.false_eq_true, if_false, hbatch]
      by_cases hexists : s.queues.Exists (.compute owner)
      · have hin : s.queues.computeQueues.contains owner = true := hexists
        simp only [hin, Bool.not_true, Bool.false_eq_true, false_and, and_false, if_false,
          s.queues.emplace_of_exists hexists]
        exact ⟨hstat, .refl s, trivial⟩
      · have hin : s.queues.computeQueues.contains owner = false := Bool.eq_false_iff.mpr hexists
        have hempty : s.queues.queue (.compute owner) = [] := by
          simp [QueueTable.queue, Std.ExtTreeMap.getElem?_eq_none hexists]
        simp only [hin, Bool.not_false, QueueTable.queue_emplace, hempty, ne_eq, hstat,
          not_false_eq_true, and_self, if_true, s.queues.erase_emplace hexists]
        exact ⟨trivial, .refl s, trivial⟩
    · right
      obtain ⟨entries, hids, hpos, hle, hout⟩ := hadmits
      refine ⟨entries, hids, hpos, hle, ?_⟩
      simp only [hout]
      simp [admitEntries_emplace]

end

theorem explained (hid : s.nextSubmissionId < 2 ^ 64) : call.Explained s := by
  obtain ⟨host, world, allocations, name, request, limits⟩ := call
  cases request with
  | single address dwordCount =>
    cases name with
    | graphics => exact explained_enqueueGraphics _ _ _ _ hid _ _
    | compute owner => exact explained_enqueueCompute _ _ _ _ hid _ _ _
  | batch buffers =>
    cases name with
    | graphics => exact explained_enqueueGraphicsBatch _ _ _ _ hid _
    | compute owner => exact explained_enqueueComputeBatch _ _ _ _ hid _ _

end EnqueueCall

end KajPS5.Gpu
