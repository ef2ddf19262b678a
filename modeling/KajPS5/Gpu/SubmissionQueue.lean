/-
# The submission queue

Submissions wait in one graphics queue and in one compute queue for each owner.
Enqueueing begins a command buffer and appends its cursor; draining takes up the
fronts of all queues again, pass after pass, until no queue gets further.

What may run out of memory is an answer of `QueueAllocations`. The failures that
the source catches answer `kResourceLimit`. A batch whose insertions fail part way
takes back those it has made. `departed` is a record of the submissions that left
which the source does not keep.

Counters are natural numbers, ids wrap at 64 bits. No counter wraps: what is added
is bounded by the limits, what is subtracted is part of the sum.
-/

import KajPS5.Gpu.CommandProcessor
import KajPS5.Math.OrderedMaps

namespace KajPS5.Gpu

inductive GpuEnqueueStatus
  | kAccepted | kInvalidArgument | kMemoryFault | kResourceLimit
  deriving DecidableEq, Repr

/-- `EnqueueStatus`. -/
def enqueueStatus : GpuCommandStatus → GpuEnqueueStatus
  | .kInvalidArgument => .kInvalidArgument
  | .kMemoryFault => .kMemoryFault
  | .kResourceLimit => .kResourceLimit
  | .kComplete | .kBlocked | .kMalformedPacket | .kUnsupportedPacket => .kInvalidArgument

structure GpuQueueLimits where
  maxPendingSubmissions : ℕ := 64
  maxPendingRootDwords : ℕ := 4000000
  maxDrainPasses : ℕ := 256
  command : GpuCommandLimits := {}

structure GpuEnqueueResult where
  status : GpuEnqueueStatus := .kAccepted
  submissionId : ℕ := 0
  command : GpuCommandResult := {}
  deriving DecidableEq, Repr

structure GpuCommandBufferDescriptor where
  address : BitVec 64
  dwordCount : ℕ

structure GpuQueueDrainResult where
  (completedSubmissions failedSubmissions blockedQueues pendingSubmissions : ℕ := 0)
  firstFailure : Option GpuCommandResult := none
  passLimitReached : Bool := false

structure Submission where
  (id rootDwords : ℕ)
  cursor : GpuCommandCursor

/-- Which queue a submission is put in. -/
inductive QueueName
  | graphics
  | compute (owner : ℕ)
  deriving DecidableEq, Repr

/-- A submission that has left its queue, with the status it left with. -/
structure Departure where
  name : QueueName
  id : ℕ
  status : GpuCommandStatus

/-- The answers of the allocator in one call. -/
structure QueueAllocations where
  /-- A compute queue can be created. -/
  emplaces : Bool := true
  /-- The cursors of a batch can be held. -/
  reserves : Bool := true
  /-- The submission with this index in the call can be appended. -/
  pushes : ℕ → Bool := fun _ => true

/-! ## The queues -/

structure QueueTable where
  graphics : List Submission := []
  computeQueues : Std.ExtTreeMap ℕ (List Submission) := ∅

namespace QueueTable

variable (t : QueueTable)

def queue : QueueName → List Submission
  | .graphics => t.graphics
  | .compute owner => t.computeQueues[owner]?.getD []

def store (name : QueueName) (submissions : List Submission) : QueueTable :=
  match name with
  | .graphics => { t with graphics := submissions }
  | .compute owner => { t with computeQueues := t.computeQueues.insert owner submissions }

/-- `try_emplace` of a compute queue. -/
def emplace (owner : ℕ) : QueueTable :=
  { t with computeQueues := t.computeQueues.insertIfNew owner [] }

/-- The queue exists, which a compute queue need not. -/
def Exists : QueueName → Prop
  | .graphics => True
  | .compute owner => owner ∈ t.computeQueues

/-- The names of the queues in the order in which they are drained. -/
def names : List QueueName := .graphics :: t.computeQueues.keys.map .compute

/-- The weights of all submissions of all queues together. -/
def total (weight : Submission → ℕ) : ℕ :=
  (t.graphics.map weight).sum +
    Math.OrderedMaps.total (fun submissions => (submissions.map weight).sum) t.computeQueues

end QueueTable

structure GpuSubmissionQueue where
  queues : QueueTable := {}
  limits : GpuQueueLimits := {}
  nextSubmissionId : ℕ := 1
  (pendingSubmissions pendingRootDwords : ℕ := 0)

variable {σ : Type}

namespace GpuSubmissionQueue

/-! ## Enqueueing -/

variable (host : CommandHost σ)

/-- The cursor with which a command buffer begins. -/
def beginCursor (world : CommandWorld σ) (limits : GpuQueueLimits) (address : BitVec 64)
    (dwordCount : ℕ) : GpuCommandCursor :=
  (CommandDecoder.beginCommandBuffer host limits.command address dwordCount world).cursor

/-- The answer for a command buffer that could not be begun. -/
def notBegun (cursor : GpuCommandCursor) : GpuEnqueueResult :=
  { status := enqueueStatus cursor.result.status, command := cursor.result }

/-- `Prepare`. -/
def prepare (world : CommandWorld σ) (address : BitVec 64) (dwordCount : ℕ)
    (limits : GpuQueueLimits) (s : GpuSubmissionQueue) : Except GpuEnqueueResult GpuCommandCursor :=
  if limits.maxPendingSubmissions = 0 ∨ limits.maxPendingRootDwords = 0 ∨
      limits.maxDrainPasses = 0 ∨ limits.maxPendingSubmissions ≤ s.pendingSubmissions ∨
      limits.maxPendingRootDwords - min s.pendingRootDwords limits.maxPendingRootDwords <
        dwordCount then
    .error { status := .kResourceLimit }
  else
    let cursor := beginCursor host world limits address dwordCount
    if cursor.terminal then .error (notBegun cursor) else .ok cursor

/-- `Commit`. The id is taken before the submission is appended. -/
def commit (pushes : Bool) (name : QueueName) (dwordCount : ℕ) (limits : GpuQueueLimits)
    (cursor : GpuCommandCursor) (s : GpuSubmissionQueue) :
    GpuEnqueueResult × GpuSubmissionQueue :=
  if s.nextSubmissionId = 0 ∨ 2 ^ 64 - 1 - dwordCount < s.pendingRootDwords then
    ({ status := .kResourceLimit }, s)
  else
    let id := s.nextSubmissionId
    let s := { s with nextSubmissionId := (id + 1) % 2 ^ 64 }
    if !pushes then ({ status := .kResourceLimit }, s)
    else
      ({ submissionId := id }, { s with
        queues := s.queues.store name (s.queues.queue name ++ [⟨id, dwordCount, cursor⟩])
        pendingSubmissions := s.pendingSubmissions + 1
        pendingRootDwords := s.pendingRootDwords + dwordCount
        limits := limits })

/-- `EnqueueGraphics`. -/
def enqueueGraphics (world : CommandWorld σ) (allocations : QueueAllocations) (address : BitVec 64)
    (dwordCount : ℕ) (limits : GpuQueueLimits) (s : GpuSubmissionQueue) : GpuEnqueueResult ×
    GpuSubmissionQueue := match s.prepare host world address dwordCount limits with
  | .error result => (result, s)
  | .ok cursor => s.commit (allocations.pushes 0) .graphics dwordCount limits cursor

/-- `EnqueueCompute`. A queue that has been created stays when `Commit` refuses. -/
def enqueueCompute (world : CommandWorld σ) (allocations : QueueAllocations) (owner : ℕ)
    (address : BitVec 64) (dwordCount : ℕ) (limits : GpuQueueLimits) (s : GpuSubmissionQueue) :
    GpuEnqueueResult × GpuSubmissionQueue :=
  match s.prepare host world address dwordCount limits with
  | .error result => (result, s)
  | .ok cursor =>
    if !allocations.emplaces then ({ status := .kResourceLimit }, s)
    else
      { s with queues := s.queues.emplace owner }.commit (allocations.pushes 0)
        (.compute owner) dwordCount limits cursor

/-! ## Batches -/

/-- The sum of the root words of a batch, unless it leaves 64 bits. -/
def totalDwords : List GpuCommandBufferDescriptor → ℕ → Option ℕ
  | [], sum => some sum
  | buffer :: buffers, sum =>
    if 2 ^ 64 - 1 - sum < buffer.dwordCount then none
    else totalDwords buffers (sum + buffer.dwordCount)

/-- Begin the command buffers of a batch. -/
def beginAll (host : CommandHost σ) (world : CommandWorld σ) (limits : GpuQueueLimits) :
    List GpuCommandBufferDescriptor → Except GpuEnqueueResult (List GpuCommandCursor)
  | [] => .ok []
  | buffer :: buffers =>
    let cursor := beginCursor host world limits buffer.address buffer.dwordCount
    if cursor.terminal then .error (notBegun cursor)
    else match beginAll host world limits buffers with
      | .error result => .error result
      | .ok cursors => .ok (cursor :: cursors)

/-- Append the submissions of a batch to its queue. The result says how many were appended,
and whether these are all. -/
def pushAll (pushes : ℕ → Bool) (nextId : ℕ) :
    List (GpuCommandBufferDescriptor × GpuCommandCursor) → ℕ → List Submission →
      Bool × ℕ × List Submission
  | [], index, submissions => (true, index, submissions)
  | (buffer, cursor) :: rest, index, submissions =>
    if !pushes index then (false, index, submissions)
    else
      pushAll pushes nextId rest (index + 1)
        (submissions ++ [⟨nextId + index, buffer.dwordCount, cursor⟩])

/-- `EnqueueBatch`. -/
def enqueueBatch (world : CommandWorld σ) (allocations : QueueAllocations) (name : QueueName)
    (buffers : List GpuCommandBufferDescriptor) (limits : GpuQueueLimits) (s : GpuSubmissionQueue) :
    GpuEnqueueResult × GpuSubmissionQueue :=
  let refused : GpuEnqueueResult × GpuSubmissionQueue := ({ status := .kResourceLimit }, s)
  if buffers = [] then ({ status := .kInvalidArgument }, s)
  else if limits.maxPendingSubmissions = 0 ∨ limits.maxPendingRootDwords = 0 ∨
      limits.maxDrainPasses = 0 ∨ limits.maxPendingSubmissions < buffers.length ∨
      limits.maxPendingSubmissions - buffers.length < s.pendingSubmissions then refused
  else match totalDwords buffers 0 with
    | none => refused
    | some dwords =>
      if limits.maxPendingRootDwords < dwords ∨
          limits.maxPendingRootDwords - dwords < s.pendingRootDwords then refused
      else if s.nextSubmissionId = 0 ∨
          2 ^ 64 - 1 - s.nextSubmissionId < buffers.length - 1 then refused
      else if !allocations.reserves then refused
      else match beginAll host world limits buffers with
        | .error result => (result, s)
        | .ok cursors =>
          let (complete, inserted, submissions) :=
            pushAll allocations.pushes s.nextSubmissionId (buffers.zip cursors) 0
              (s.queues.queue name)
          if !complete then
            -- The insertions made so far are taken back, one `pop_back` for each.
            ({ status := .kResourceLimit },
              { s with queues := s.queues.store name (List.dropLast^[inserted] submissions) })
          else
            ({ submissionId := s.nextSubmissionId }, { s with
              queues := s.queues.store name submissions
              nextSubmissionId := (s.nextSubmissionId + buffers.length) % 2 ^ 64
              pendingSubmissions := s.pendingSubmissions + buffers.length
              pendingRootDwords := s.pendingRootDwords + dwords
              limits := limits })

/-- `EnqueueGraphicsBatch`. -/
def enqueueGraphicsBatch (world : CommandWorld σ) (allocations : QueueAllocations)
    (buffers : List GpuCommandBufferDescriptor) (limits : GpuQueueLimits) (s : GpuSubmissionQueue) :
    GpuEnqueueResult × GpuSubmissionQueue :=
  s.enqueueBatch host world allocations .graphics buffers limits

/-- `EnqueueComputeBatch`. Unlike `EnqueueCompute` it erases a queue that it has created when
the batch is refused. -/
def enqueueComputeBatch (world : CommandWorld σ) (allocations : QueueAllocations) (owner : ℕ)
    (buffers : List GpuCommandBufferDescriptor) (limits : GpuQueueLimits) (s : GpuSubmissionQueue) :
    GpuEnqueueResult × GpuSubmissionQueue :=
  if !allocations.emplaces then ({ status := .kResourceLimit }, s)
  else
    let inserted := !s.queues.computeQueues.contains owner
    let (result, s) := { s with queues := s.queues.emplace owner }.enqueueBatch host world
      allocations (.compute owner) buffers limits
    if result.status ≠ .kAccepted ∧ inserted ∧ s.queues.queue (.compute owner) = [] then
      (result, { s with queues :=
        { s.queues with computeQueues := s.queues.computeQueues.erase owner } })
    else (result, s)

end GpuSubmissionQueue

/-! ## Draining -/

/-- A drain under way. -/
structure DrainRun (σ : Type) where
  queue : GpuSubmissionQueue
  world : CommandWorld σ
  drain : GpuQueueDrainResult := {}
  progressed : Bool := false
  departed : List Departure := []

/-- Count how a submission ended. -/
def GpuQueueDrainResult.count (result : GpuCommandResult) (drain : GpuQueueDrainResult) :
    GpuQueueDrainResult :=
  if result.status = .kComplete then
    { drain with completedSubmissions := drain.completedSubmissions + 1 }
  else
    { drain with
      failedSubmissions := drain.failedSubmissions + 1
      firstFailure := drain.firstFailure.or (some result) }

namespace DrainRun

/-- The front of a queue, which ends with this result, leaves it. -/
def leave (name : QueueName) (submission : Submission) (rest : List Submission)
    (result : GpuCommandResult) (run : DrainRun σ) : DrainRun σ :=
  { run with
    queue := { run.queue with
      queues := run.queue.queues.store name rest
      pendingSubmissions := run.queue.pendingSubmissions - 1
      pendingRootDwords := run.queue.pendingRootDwords - submission.rootDwords }
    drain := run.drain.count result
    progressed := true
    departed := run.departed ++ [⟨name, submission.id, result.status⟩] }

/-- `process_queue`: take up the front of the queue until one blocks or none is left. -/
def processQueue (host : CommandHost σ) (name : QueueName) :
    List Submission → DrainRun σ → DrainRun σ
  | [], run => run
  | submission :: rest, run =>
    let d := CommandDecoder.resumeCommandBuffer host run.world
      ⟨run.world, submission.cursor, []⟩
    let result := d.cursor.result
    let run := { run with
      world := d.world
      progressed := run.progressed ||
        result.submittedActions ≠ submission.cursor.result.submittedActions }
    if result.status = .kBlocked then
      { run with queue := { run.queue with
        queues := run.queue.queues.store name ({ submission with cursor := d.cursor } :: rest) } }
    else processQueue host name rest (run.leave name submission rest result)

/-- One pass over all queues. -/
def pass (host : CommandHost σ) (run : DrainRun σ) : DrainRun σ :=
  run.queue.queues.names.foldl
    (fun run name => run.processQueue host name (run.queue.queues.queue name))
    { run with progressed := false }

/-- Passes until one makes no progress, which settles the drain. -/
def passes (host : CommandHost σ) : ℕ → DrainRun σ → Bool × DrainRun σ
  | 0, run => (false, run)
  | count + 1, run =>
    let run := run.pass host
    if run.progressed then passes host count run else (true, run)

end DrainRun

/-- `Drain`, with what departed. -/
def GpuSubmissionQueue.drain (host : CommandHost σ) (world : CommandWorld σ)
    (s : GpuSubmissionQueue) : GpuQueueDrainResult × List Departure × GpuSubmissionQueue :=
  let (settled, run) := DrainRun.passes host s.limits.maxDrainPasses { queue := s, world }
  let queues := run.queue.queues
  let kept := queues.computeQueues.filter fun _ submissions => !submissions.isEmpty
  ({ run.drain with
      passLimitReached := !settled && run.queue.pendingSubmissions ≠ 0
      pendingSubmissions := run.queue.pendingSubmissions
      blockedQueues := (if queues.graphics.isEmpty then 0 else 1) + kept.size },
    run.departed,
    { run.queue with queues := { queues with computeQueues := kept } })

end KajPS5.Gpu
