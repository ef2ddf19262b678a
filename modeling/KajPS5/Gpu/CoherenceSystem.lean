/-
# Guest memory, its writers and the tracker, step by step

Threads that store to guest memory run side by side with mapping calls and with
the tracker. A writer stores under the shared mapping lock, in pieces of any size,
while its mutation report grows; when it has released the lock it stamps one range
after the other with a write generation and delivers the event to the tracker.
Other threads get in between any two of these steps, so events arrive late and out
of order. Mapping calls hold the lock alone and wait for the writers that store.

The results say what one step can do to a record, to the bytes behind it and to the
events that are still owed to the tracker. What an uploader can rely on follows
from them for any order of steps.
-/

import KajPS5.Gpu.ResourceCoherence
import KajPS5.Math.StepRuns
import KajPS5.Memory.MappingIdentity
import KajPS5.Memory.MutationCoverage

namespace KajPS5.Gpu

open Math Memory ResourceRecord MemoryWorld GpuResourceCoherence GuestMemory List Option

/-! ## Writers -/

/-- One stretch of stores of a call: what `WriteBytes` or `FillBytes` do in one go. -/
inductive StorePiece
  | write (address : ℕ) (source : List UInt8)
  | fill (address length : ℕ) (value : UInt8)

namespace StorePiece

def address : StorePiece → ℕ
  | write address _ | fill address _ _ => address

def length : StorePiece → ℕ
  | write _ source => source.length
  | fill _ length _ => length

/-- Store the piece, going on with the report of the call. -/
def run (w : MemoryWorld) (fault : Bool) (alloc : ℕ → ℕ → Bool) (mutations : MutationReport) :
    StorePiece → StoreResult
  | write address source => w.writeBytes fault alloc address source mutations
  | fill address length value => w.fillBytes fault alloc address length value mutations

/-- The one stretch of a call other than a copy, which stores in several. -/
def ofCall : StoreCall → Option StorePiece
  | .write address source | .initializeBytes address source => some (write address source)
  | .fill address length value | .initializeFill address length value =>
    some (fill address length value)
  | .copy _ _ _ => none

end StorePiece

/-- A thread that stores. -/
inductive Writer
  /-- Under the mapping lock, with the mutations recorded so far. -/
  | storing (mutations : MutationReport)
  /-- In `NotifyMutationReport`, with the ranges to come and the event that has its
  generation but has not been delivered. -/
  | notifying (pending : List MutationRange) (event : Option GuestMemoryWriteEvent)

namespace Writer

/-- Between two calls. -/
def idle : Writer := notifying [] none

def isStoring : Writer → Bool
  | storing _ => true
  | notifying _ _ => false

/-- The writer has still to deliver an event over the address. `accept` restricts
the events that have their generation already. -/
def Owes (memory : GuestMemory) (accept : GuestMemoryWriteEvent → Prop) (a : ℕ) : Writer → Prop
  | storing mutations => ∃ r ∈ memory.notifiedRanges mutations, r.Contains a
  | notifying pending event =>
    (∃ r ∈ pending, r.Contains a) ∨ ∃ e, event = some e ∧ InRange e.address e.size a ∧ accept e

end Writer

/-! ## The system -/

structure CoherenceSystem where
  world : MemoryWorld
  tracker : GpuResourceCoherence
  writers : List Writer

inductive CoherenceAction
  | beginStore (writer : ℕ)
  | store (writer : ℕ) (fault : Bool) (alloc : ℕ → ℕ → Bool) (piece : StorePiece)
  | finishStore (writer : ℕ)
  | assign (writer : ℕ)
  | deliver (writer : ℕ)
  | mapping (call : MappingCall)
  | register (snapshot : CoherenceSnapshot) (alloc : Bool) (address size : ℕ)
  | unregister (resource : GpuResourceId)
  | setGpuWritePending (pending : Bool) (resource : GpuResourceId)

/-- A mapping call, of which there are none in a run of mere reads and writes. -/
def CoherenceAction.isMapping : CoherenceAction → Bool
  | mapping _ => true
  | _ => false

namespace CoherenceSystem

/-- Any number of threads over a constructed memory. -/
def create (m : GuestMemory) (backings : Backings) (threads : ℕ) : CoherenceSystem where
  world := ⟨m, backings⟩
  tracker := .create
  writers := List.replicate threads .idle

/-- The snapshot was taken now or earlier. -/
def Precedes (snapshot : CoherenceSnapshot) (memory : GuestMemory) : Prop :=
  snapshot.writeGeneration ≤ memory.writeGeneration ∧
    (snapshot.writeGenerationExhausted → memory.writeGenerationExhausted)

instance (snapshot : CoherenceSnapshot) (memory : GuestMemory) :
    Decidable (Precedes snapshot memory) :=
  inferInstanceAs (Decidable (_ ∧ _))

/-- One step. An action that its thread cannot take changes nothing. -/
def step (s : CoherenceSystem) : CoherenceAction → CoherenceSystem
  | .beginStore u => match s.writers[u]? with
    | some (.notifying [] none) => { s with writers := s.writers.set u (.storing {}) }
    | _ => s
  | .store u fault alloc piece => match s.writers[u]? with
    | some (.storing mutations) =>
      -- Every call checks that its whole range is mapped before it stores.
      if s.world.memory.isMappedLocked piece.address piece.length then
        let result := piece.run s.world fault alloc mutations
        { s with
          world := result.world
          writers := s.writers.set u (.storing result.mutations) }
      else s
    | _ => s
  | .finishStore u => match s.writers[u]? with
    | some (.storing mutations) =>
      { s with
        writers := s.writers.set u
          (.notifying (s.world.memory.notifiedRanges mutations) none) }
    | _ => s
  | .assign u => match s.writers[u]? with
    | some (.notifying (range :: pending) none) =>
      let (event, memory) := s.world.memory.assignWriteGeneration range.address range.size
      { s with
        world := { s.world with memory }
        writers := s.writers.set u (.notifying pending (some event)) }
    | _ => s
  | .deliver u => match s.writers[u]? with
    | some (.notifying pending (some event)) =>
      { s with
        tracker := s.tracker.onGuestMemoryWrite event
        writers := s.writers.set u (.notifying pending none) }
    | _ => s
  | .mapping call =>
    if s.writers.any Writer.isStoring then s
    else { s with world.memory := (s.world.memory.perform s.world.backings call).2 }
  | .register snapshot alloc address size =>
    -- The snapshot is taken before the token, under the tracker's lock.
    if Precedes snapshot s.world.memory then
      { s with
        tracker := (s.tracker.registerResource s.world.memory snapshot alloc address size).2 }
    else s
  | .unregister resource => { s with tracker := (s.tracker.unregisterResource resource).2 }
  | .setGpuWritePending pending resource =>
    { s with
      tracker := (s.tracker.setGpuWritePending pending s.world.memory resource).2 }

def run (s : CoherenceSystem) (actions : List CoherenceAction) : CoherenceSystem :=
  StepRuns.run step s actions

/-- The event the action delivers. -/
def deliveredBy (s : CoherenceSystem) : CoherenceAction → Option GuestMemoryWriteEvent
  | .deliver u => match s.writers[u]? with
    | some (.notifying _ event) => event
    | _ => none
  | _ => none

/-- Some thread has still to deliver an event over the address. -/
def Undelivered (s : CoherenceSystem) (accept : GuestMemoryWriteEvent → Prop) (a : ℕ) : Prop :=
  ∃ u : ℕ, ∃ writer : Writer, s.writers[u]? = some writer ∧ writer.Owes s.world.memory accept a

/-- The event tells more than the generation does. -/
def NewerThan (since : GuestMemoryGeneration) (event : GuestMemoryWriteEvent) : Prop :=
  since < event.generation ∨ event.generationExhausted = true

/-! ## Invariants -/

/-- What a writer holds: recorded addresses and ranges inside the window, and
generations that have been assigned. -/
def WriterValid (memory : GuestMemory) : Writer → Prop
  | .storing mutations =>
    ∃ addresses, mutations.Describes addresses ∧ ∀ a ∈ addresses, memory.InWindow a
  | .notifying pending event =>
    (∀ r ∈ pending, r.size ≠ 0 ∧ ∀ a, r.Contains a → memory.InWindow a) ∧
      ∀ e, event = some e → e.size ≠ 0 ∧ (∀ a, InRange e.address e.size a → memory.InWindow a) ∧
        e.generation ≤ memory.writeGeneration

/-- What a record holds: an identifier and generations that exist. -/
structure RecordValid (s : CoherenceSystem) (resource : GpuResourceId)
    (record : ResourceRecord) : Prop where
  resource_lt : resource < s.tracker.nextResourceId
  cpuWriteGeneration_le : record.cpuWriteGeneration ≤ s.world.memory.writeGeneration
  token_le : record.mappingToken.generation ≤ s.world.memory.nextMappingGeneration
  token_exhausted : record.mappingToken.generationExhausted = false

structure Inv (s : CoherenceSystem) : Prop where
  world : s.world.WellFormed
  writers : ∀ (u : ℕ) writer, s.writers[u]? = some writer → WriterValid s.world.memory writer
  records : ∀ resource record, s.tracker.records resource = some record →
    s.RecordValid resource record

/-- How a record changes in a step that delivers at most the given event: its range
and token stay, its generation grows to that of the event if it changes, lost
precision does not return, and a record that is clean has not changed at all. -/
structure Evolves (delivered : Option GuestMemoryWriteEvent) (record record' : ResourceRecord) :
    Prop where
  address : record'.address = record.address
  size : record'.size = record.size
  mappingToken : record'.mappingToken = record.mappingToken
  generation : record.cpuWriteGeneration ≤ record'.cpuWriteGeneration
  heard : record'.cpuWriteGeneration = record.cpuWriteGeneration ∨ ∃ event, delivered = some event ∧
      rangesOverlap record.address record.size event.address event.size = true ∧
        record'.cpuWriteGeneration = event.generation
  precise : record.cpuGenerationPrecise = false → record'.cpuGenerationPrecise = false
  clean : record'.needsCpuUpload = false →
    record.needsCpuUpload = false ∧ record'.cpuWriteGeneration = record.cpuWriteGeneration ∧
      record'.cpuGenerationPrecise = record.cpuGenerationPrecise

variable {s s' : CoherenceSystem} {delivered : Option GuestMemoryWriteEvent}

theorem Evolves.refl (record : ResourceRecord) : Evolves delivered record record :=
  ⟨rfl, rfl, rfl, le_rfl, .inl rfl, id, fun h => ⟨h, rfl, rfl⟩⟩

/-- What one step can do that delivers at most the given event. -/
structure Transition (delivered : Option GuestMemoryWriteEvent) (s s' : CoherenceSystem) :
    Prop where
  inv : s'.Inv
  generation : s.world.memory.writeGeneration ≤ s'.world.memory.writeGeneration
  nextResourceId : s.tracker.nextResourceId ≤ s'.tracker.nextResourceId
  /-- A record has evolved from one that was there, or is new and to be uploaded. -/
  records : ∀ resource record', s'.tracker.records resource = some record' →
    (∃ record, s.tracker.records resource = some record ∧ Evolves delivered record record') ∨
      (s.tracker.nextResourceId ≤ resource ∧ record'.needsCpuUpload = true ∧
        record'.recordIsCurrent s'.world.memory = true)
  /-- A record that is current after the step was so before. -/
  current : ∀ resource record, s.tracker.records resource = some record →
    record.recordIsCurrent s'.world.memory = true → record.recordIsCurrent s.world.memory = true
  /-- A byte of a current record changes only with an event to come. -/
  bytes : ∀ resource record, s.tracker.records resource = some record →
    record.recordIsCurrent s'.world.memory = true →
      ∀ a, InRange record.address record.size a → ∀ since,
        s.world.byteAt a = s'.world.byteAt a ∨ s'.Undelivered (NewerThan since) a
  /-- An event to come stays so until the records it covers know of it. -/
  owed : ∀ since ≤ s.world.memory.writeGeneration, ∀ a, s.Undelivered (NewerThan since) a →
    s'.Undelivered (NewerThan since) a ∨
      ∀ resource record', s'.tracker.records resource = some record' →
        InRange record'.address record'.size a →
          since < record'.cpuWriteGeneration ∨ record'.cpuGenerationPrecise = false

theorem Transition.refl (h : s.Inv) : Transition delivered s s where
  inv := h
  generation := le_rfl
  nextResourceId := le_rfl
  records _ record' hrec := .inl ⟨record', hrec, .refl record'⟩
  current _ _ _ h := h
  bytes _ _ _ _ _ _ _ := .inl rfl
  owed _ _ _ h := .inl h

variable {record : ResourceRecord} {a u : ℕ} {resource other : GpuResourceId} {m m' : GuestMemory}
  {w : MemoryWorld} {base : CoherenceSystem} {since : GuestMemoryGeneration} {uploaded : ℕ → UInt8}
  {new : Writer} {value : UInt8}

variable {record' : ResourceRecord} {writers : List Writer} {old : Writer} {report : MutationReport}
  {piece : StorePiece} {event : GuestMemoryWriteEvent}

theorem recordIsCurrent_congr (h : Evolves delivered record record') (memory : GuestMemory) :
    record'.recordIsCurrent memory = record.recordIsCurrent memory := by
  rw [recordIsCurrent, recordIsCurrent, h.address, h.size, h.mappingToken]

theorem capture_of_recordIsCurrent (h : record.recordIsCurrent m = true) :
    m.captureMappingTokenLocked record.address record.size = some record.mappingToken ∧
      record.mappingToken.generationExhausted = false := by
  rw [recordIsCurrent] at h
  split at h
  · cases h
  · next token hcap =>
    simp only [Bool.and_eq_true, Bool.not_eq_true', decide_eq_true_eq] at h
    obtain ⟨hlive, rfl⟩ := h
    exact ⟨hcap, hlive⟩

/-- The bytes of a current record are mapped. -/
theorem inWindow_of_recordIsCurrent (hm : m.WellFormed) (h : record.recordIsCurrent m = true)
    (ha : InRange record.address record.size a) : m.InWindow a := by
  have hmap := (mapped_of_captureMappingTokenLocked hm (capture_of_recordIsCurrent h).1).2 a ha
  obtain ⟨p, hp⟩ := isSome_iff_exists.mp hmap
  exact hm.inWindow a p hp

/-- Replacing a writer keeps what the writers owe if the new one owes as much. -/
theorem exists_set (hu : writers[u]? = some old) {owes owes' : Writer → Prop}
    (hothers : ∀ writer, owes writer → owes' writer) (hnew : owes old → owes' new)
    (h : ∃ (v : ℕ) (writer : Writer), writers[v]? = some writer ∧ owes writer) :
    ∃ (v : ℕ) (writer : Writer), (writers.set u new)[v]? = some writer ∧ owes' writer := by
  obtain ⟨v, writer, hv, howes⟩ := h
  by_cases huv : u = v
  · subst huv
    obtain rfl := mem_unique hu hv
    obtain ⟨hlt, -⟩ := List.getElem?_eq_some_iff.mp hu
    exact ⟨u, new, List.getElem?_set_self hlt, hnew howes⟩
  · exact ⟨v, writer, by rw [List.getElem?_set_ne huv, hv], hothers _ howes⟩

theorem forall_set {valid valid' : Writer → Prop}
    (h : ∀ (v : ℕ) writer, writers[v]? = some writer → valid writer)
    (hothers : ∀ writer, valid writer → valid' writer) (hnew : valid' new) :
    ∀ (v : ℕ) writer, (writers.set u new)[v]? = some writer → valid' writer := by
  intro v writer hv
  by_cases huv : u = v
  · subst huv
    rw [getElem?_set_self' ] at hv
    obtain ⟨_, -, rfl⟩ := map_eq_some_iff.mp hv
    exact hnew
  · rw [getElem?_set_ne huv] at hv
    exact hothers _ (h v _ hv)

/-! ## Recorded ranges -/

theorem exists_notifiedRanges_iff {addresses : Set ℕ} (h : report.Describes addresses) (a : ℕ) :
    (∃ r ∈ m.notifiedRanges report, r.Contains a) ↔
      if report.wholeMemory then m.InWindow a else a ∈ addresses := by
  have hnonempty : ∀ r : MutationRange, r.Contains a → r.size ≠ 0 := by
    intro r hr hzero
    have hlast : a < r.address + r.size := hr.2
    have hfirst : r.address ≤ a := hr.1
    omega
  have hfilter : (∃ r ∈ m.notifiedRanges report, r.Contains a) ↔
      ∃ r ∈ (if report.wholeMemory then [⟨m.baseAddress, m.storageSize⟩] else report.ranges),
        MutationRange.Contains r a := by
    simp only [notifiedRanges, mem_filter, decide_eq_true_eq]
    constructor
    · rintro ⟨r, ⟨hmem, -⟩, hr⟩
      exact ⟨r, hmem, hr⟩
    · rintro ⟨r, hmem, hr⟩
      exact ⟨r, ⟨hmem, hnonempty r hr⟩, hr⟩
  rw [hfilter]
  cases hwhole : report.wholeMemory with
  | true =>
    simp only [if_true, mem_singleton, exists_eq_left]
    exact Iff.rfl
  | false => exact h.covers hwhole a

section

variable (hbase : m'.baseAddress = m.baseAddress)
include hbase

section

variable (hsize : m'.storageSize = m.storageSize)
include hsize

theorem notifiedRanges_congr (report : MutationReport) :
    m'.notifiedRanges report = m.notifiedRanges report := by
  rw [notifiedRanges, notifiedRanges, hbase, hsize]

theorem owes_congr {accept : GuestMemoryWriteEvent → Prop} (writer : Writer)
    (h : writer.Owes m accept a) : writer.Owes m' accept a := by
  cases writer with
  | storing mutations =>
    rw [Writer.Owes, notifiedRanges_congr hbase hsize]
    exact h
  | notifying pending event => exact h

theorem writerValid_congr (hgen : m.writeGeneration ≤ m'.writeGeneration)
    (writer : Writer) (h : WriterValid m writer) : WriterValid m' writer := by
  have hwin : ∀ a, m.InWindow a → m'.InWindow a := by
    intro a ha
    rwa [InWindow, hbase, hsize]
  cases writer with
  | storing mutations =>
    obtain ⟨addresses, hdesc, hin⟩ := h
    exact ⟨addresses, hdesc, fun a ha => hwin a (hin a ha)⟩
  | notifying pending event =>
    refine ⟨fun r hr => ⟨(h.1 r hr).1, fun a ha => hwin a ((h.1 r hr).2 a ha)⟩, fun e he => ?_⟩
    obtain ⟨hsize, hin, hle⟩ := h.2 e he
    exact ⟨hsize, fun a ha => hwin a (hin a ha), hle.trans hgen⟩

end

end

theorem recordAll_wholeMemory (m : GuestMemory) (h : report.wholeMemory = true)
    (chunks : List (ℕ × ℕ)) : recordAll m report chunks = report := by
  have hchunk : ∀ chunks : List (ℕ × ℕ), chunks.foldl m.recordChunk report = report := by
    intro chunks
    induction chunks with
    | nil => rfl
    | cons chunk chunks ih =>
      rw [foldl_cons, recordChunk, if_pos h]
      exact ih
  induction chunks with
  | nil => rfl
  | cons chunk chunks ih =>
    rw [recordAll, foldl_cons]
    rw [recordActualWriteRangeLocked, hchunk]
    exact ih

/-! ## Storing -/

/-- A call is refused, or it is its one stretch over a mapped range. -/
theorem store_eq_run (h : w.WellFormed) (fault : Bool) (alloc : ℕ → ℕ → Bool) {call : StoreCall}
    (hpiece : StorePiece.ofCall call = some piece) :
    w.store fault alloc call = w.begin {} ∨
      (w.memory.isMappedLocked piece.address piece.length = true ∧
        w.store fault alloc call = piece.run w fault alloc {}) := by
  rcases store_cases h fault alloc call with hno | ⟨_, _, _, rfl⟩ |
    ⟨address, source, rfl | rfl, hmap, hstore⟩ |
    ⟨address, length, value, rfl | rfl, hmap, hstore⟩
  · exact .inl hno
  · cases hpiece
  all_goals
    cases hpiece
    exact .inr ⟨hmap, hstore⟩

/-- What a piece does: it stores to mapped addresses and records them. -/
theorem StorePiece.run_spec (h : w.WellFormed) (fault : Bool) (alloc : ℕ → ℕ → Bool)
    (mutations : MutationReport)
    (hmap : w.memory.isMappedLocked piece.address piece.length = true) :
    ∃ passed value reaches,
      MemoryWorld.Stored (w.begin mutations) (piece.run w fault alloc mutations) passed value
        reaches ∧
      ∀ a ∈ passed.flatMap chunkAddresses, (w.memory.protections a).isSome = true := by
  obtain ⟨hbase, hall⟩ := mapped_of_canAccessLocked h hmap
  cases piece with
  | write address source =>
    obtain ⟨passed, rest, hsplit, hstore, -⟩ := writeBytes_spec h _ _ hbase source mutations
    exact ⟨passed, _, _, hstore, mapped_of_passed h hall hsplit⟩
  | fill address length value =>
    obtain ⟨passed, rest, hsplit, hstore, -⟩ := fillBytes_spec h _ _ hbase length value mutations
    exact ⟨passed, _, _, hstore, mapped_of_passed h hall hsplit⟩

/-- A step of a writer on guest memory: bytes and write generations may change,
mapping tables do not. -/
structure KeepsTables (w w' : MemoryWorld) : Prop where
  wellFormed : w'.WellFormed
  baseAddress : w'.memory.baseAddress = w.memory.baseAddress
  storageSize : w'.memory.storageSize = w.memory.storageSize
  token : w'.memory.captureMappingTokenLocked = w.memory.captureMappingTokenLocked
  nextMappingGeneration : w'.memory.nextMappingGeneration = w.memory.nextMappingGeneration
  writeGeneration : w.memory.writeGeneration ≤ w'.memory.writeGeneration

theorem keepsTables_of_sameTables {w' : MemoryWorld} (h : w.WellFormed) (hsame : w.SameTables w') :
    KeepsTables w w' := by
  refine ⟨hsame.wellFormed h, ?_, ?_, ?_, ?_, ?_⟩ <;> rw [hsame.memory]
  rfl

theorem transition_writer (h : s.Inv) {world : MemoryWorld} (hu : s.writers[u]? = some old)
    (hkeeps : KeepsTables s.world world) (hvalid : WriterValid world.memory new)
    (howes : ∀ since ≤ s.world.memory.writeGeneration, ∀ a,
      old.Owes s.world.memory (NewerThan since) a → new.Owes s.world.memory (NewerThan since) a)
    (hbytes : ∀ a, s.world.memory.InWindow a → ∀ since, s.world.byteAt a = world.byteAt a ∨
      new.Owes s.world.memory (NewerThan since) a) :
    Transition none s { s with world, writers := s.writers.set u new } := by
  have hbase := hkeeps.baseAddress
  have hsize := hkeeps.storageSize
  have hcur : ∀ record : ResourceRecord,
      record.recordIsCurrent world.memory = record.recordIsCurrent s.world.memory := by
    intro record
    rw [recordIsCurrent, recordIsCurrent, hkeeps.token]
  obtain ⟨hlt, -⟩ := List.getElem?_eq_some_iff.mp hu
  exact
    { inv :=
        { world := hkeeps.wellFormed
          writers := forall_set h.writers
            (fun writer hw => writerValid_congr hbase hsize hkeeps.writeGeneration _ hw)
            hvalid
          records := fun resource record hrec => by
            obtain ⟨hres, hle, htoken, hspent⟩ := h.records _ _ hrec
            exact ⟨hres, hle.trans hkeeps.writeGeneration,
              htoken.trans hkeeps.nextMappingGeneration.ge, hspent⟩ }
      generation := hkeeps.writeGeneration
      nextResourceId := le_rfl
      records := fun _ record' hrec => .inl ⟨record', hrec, .refl record'⟩
      current := fun _ record _ hafter => (hcur record).symm.trans hafter
      bytes := fun resource record hrec hafter a ha since => by
        have hwin := inWindow_of_recordIsCurrent h.world.tables ((hcur record).symm.trans hafter) ha
        exact (hbytes a hwin _).imp id fun hnew =>
          ⟨u, new, List.getElem?_set_self hlt, owes_congr hbase hsize _ hnew⟩
      owed := fun since hsince a howed => .inl (exists_set hu
        (fun writer hw => owes_congr hbase hsize _ hw)
        (fun hold => owes_congr hbase hsize _ (howes _ hsince a hold)) howed) }

theorem transition_beginStore (h : s.Inv) (u : ℕ) : Transition none s (s.step (.beginStore u)) := by
  rw [step]
  split
  · rename_i hu
    refine transition_writer h hu (keepsTables_of_sameTables h.world (.refl _))
      ⟨∅, MutationReport.describes_empty, by simp⟩ ?_ fun _ _ _ => .inl rfl
    rintro since - a (⟨r, hr, -⟩ | ⟨e, he, -⟩)
    · simp at hr
    · simp at he
  · exact .refl h

theorem transition_finishStore (h : s.Inv) (u : ℕ) :
    Transition none s (s.step (.finishStore u)) := by
  rw [step]
  split
  · rename_i mutations hu
    obtain ⟨addresses, hdesc, hin⟩ := h.writers u _ hu
    refine transition_writer h hu (keepsTables_of_sameTables h.world (.refl _))
      ⟨fun r hr => ?_, fun e he => by simp at he⟩ (fun _ _ _ howes => .inl howes)
      fun _ _ _ => .inl rfl
    refine ⟨by simpa using (mem_filter.mp hr).2, fun a ha => ?_⟩
    have hcovered := (exists_notifiedRanges_iff hdesc a).mp ⟨r, hr, ha⟩
    split_ifs at hcovered
    · exact hcovered
    · exact hin a hcovered
  · exact .refl h

theorem transition_store (h : s.Inv) (u : ℕ) (fault : Bool) (alloc : ℕ → ℕ → Bool)
    (piece : StorePiece) : Transition none s (s.step (.store u fault alloc piece)) := by
  rw [step]
  split
  · rename_i mutations hu
    split_ifs with hmap
    · obtain ⟨passed, value, reaches, hstore, hpassed⟩ := StorePiece.run_spec h.world _ _ _ hmap
      obtain ⟨addresses, hdesc, hin⟩ := h.writers u _ hu
      have hreport : (piece.run s.world fault alloc mutations).mutations.Describes
          (addresses ∪ s.world.memory.sameCells (passed.flatMap chunkAddresses)) := by
        rw [hstore.mutations]
        exact recordAll_spec h.world.tables.shared _ hdesc
      have hall : ∀ a ∈ addresses ∪ s.world.memory.sameCells (passed.flatMap chunkAddresses),
          s.world.memory.InWindow a := by
        rintro a (ha | ha)
        · exact hin a ha
        · obtain ⟨p, hp⟩ := isSome_iff_exists.mp (mapped_of_mem_sameCells h.world hpassed ha)
          exact h.world.tables.inWindow a p hp
      have hkeeps := keepsTables_of_sameTables h.world hstore.same
      refine transition_writer h hu hkeeps (writerValid_congr hkeeps.baseAddress
        hkeeps.storageSize hkeeps.writeGeneration _ ⟨_, hreport, hall⟩) ?_ ?_
      · -- A report that has not given up keeps its ranges; one that has covers everything.
        intro since _ a howed
        rw [Writer.Owes, exists_notifiedRanges_iff hdesc] at howed
        rw [Writer.Owes, exists_notifiedRanges_iff hreport]
        cases hwhole : mutations.wholeMemory with
        | true =>
          rw [hwhole] at howed
          have hsame : (piece.run s.world fault alloc mutations).mutations = mutations :=
            hstore.mutations.trans (recordAll_wholeMemory _ hwhole passed)
          rw [hsame, hwhole]
          exact howed
        | false =>
          rw [hwhole] at howed
          split_ifs
          · exact hin a howed
          · exact .inl howed
      · intro a hwin since
        by_cases ha : a ∈ s.world.memory.sameCells (passed.flatMap chunkAddresses)
        · right
          rw [Writer.Owes, exists_notifiedRanges_iff hreport]
          split_ifs
          · exact hwin
          · exact .inr ha
        · left
          rw [byteAt, byteAt, hstore.same.cellOf]
          exact (hstore.frame _ fun b hb heq => ha ⟨b, hb, heq⟩).symm
    · exact .refl h
  · exact .refl h

/-! ## Stamping and delivering -/

theorem assignWriteGeneration_spec (m : GuestMemory) (address length : ℕ) :
    (m.assignWriteGeneration address length).1.generation =
        (m.assignWriteGeneration address length).2.writeGeneration ∧
      m.writeGeneration ≤ (m.assignWriteGeneration address length).2.writeGeneration ∧
      ∀ since ≤ m.writeGeneration, NewerThan since (m.assignWriteGeneration address length).1 := by
  refine ⟨rfl, ?_⟩
  simp only [assignWriteGeneration]
  split_ifs with hspent
  · exact ⟨le_rfl, fun _ _ => .inr hspent⟩
  cases hadvance : advanceGuestMemoryGeneration m.writeGeneration with
  | none => exact ⟨le_rfl, fun _ _ => .inr rfl⟩
  | some generation =>
    have hlt := lt_of_advance hadvance
    exact ⟨hlt.le, fun _ hsince => .inl (hsince.trans_lt hlt)⟩

theorem keepsTables_assign (h : w.WellFormed) (address length : ℕ) :
    KeepsTables w { w with memory := (w.memory.assignWriteGeneration address length).2 } ∧
      ∀ a, w.byteAt a = byteAt
        { w with memory := (w.memory.assignWriteGeneration address length).2 } a := by
  have hle := (assignWriteGeneration_spec w.memory address length).2.1
  have hmemory := assignWriteGeneration_memory w.memory address length
  refine ⟨⟨h.of_sameButGeneration hmemory, ?_, ?_, ?_, ?_, hle⟩, fun a => ?_⟩ <;> rw [hmemory]
  · rfl
  · rfl

theorem transition_assign (h : s.Inv) (u : ℕ) : Transition none s (s.step (.assign u)) := by
  rw [step]
  split
  · rename_i range pending hu
    obtain ⟨hgen, -, hnewer⟩ := assignWriteGeneration_spec s.world.memory range.address range.size
    obtain ⟨hkeeps, hbytes⟩ := keepsTables_assign h.world range.address range.size
    have hwin : ∀ a, s.world.memory.InWindow a →
        (s.world.memory.assignWriteGeneration range.address range.size).2.InWindow a := by
      intro a ha
      rwa [InWindow, hkeeps.baseAddress, hkeeps.storageSize]
    have hvalid := (h.writers u _ hu).1
    refine transition_writer h hu hkeeps ⟨fun r hr => ?_, fun e he => ?_⟩ ?_
      fun a _ _ => .inl (hbytes a)
    · obtain ⟨hsize, hin⟩ := hvalid r (mem_cons_of_mem _ hr)
      exact ⟨hsize, fun a ha => hwin a (hin a ha)⟩
    · cases he
      obtain ⟨hsize, hin⟩ := hvalid range mem_cons_self
      exact ⟨hsize, fun a ha => hwin a (hin a ha), hgen.le⟩
    · rintro since hsince a (⟨r, hr, ha⟩ | ⟨e, he, -⟩)
      · rcases mem_cons.mp hr with rfl | hr
        · exact .inr ⟨_, rfl, ha, hnewer _ hsince⟩
        · exact .inl ⟨r, hr, ha⟩
      · simp at he
  · exact .refl h

theorem evolves_onWrite
    (hover : rangesOverlap record.address record.size event.address event.size = true) :
    Evolves (some event) record (record.onWrite event) := by
  refine ⟨rfl, rfl, rfl, ?_, ?_, ?_, ?_⟩
  · simp only [onWrite, decide_eq_true_eq]
    split_ifs with hnewer
    · exact hnewer.le
    · exact le_rfl
  · simp only [onWrite]
    split_ifs
    · exact .inr ⟨event, rfl, hover, rfl⟩
    · exact .inl rfl
  · intro himprecise
    simp [onWrite, himprecise]
  · intro hclean
    by_cases hnewer : record.cpuWriteGeneration < event.generation
    · simp [onWrite, hnewer] at hclean
    cases hspent : event.generationExhausted with
    | true => simp [onWrite, hspent] at hclean
    | false =>
      simp only [onWrite, hnewer, hspent, decide_false, Bool.false_eq_true, if_false] at hclean ⊢
      split_ifs at hclean
      exact ⟨hclean, trivial, trivial⟩

/-- A record that hears of a newer event knows of it. -/
theorem knows_onWrite (h : NewerThan since event) (record : ResourceRecord) :
    since < (record.onWrite event).cpuWriteGeneration ∨
      (record.onWrite event).cpuGenerationPrecise = false := by
  rcases h with hlt | hspent
  · left
    simp only [onWrite, decide_eq_true_eq]
    split_ifs with hnewer
    · exact hlt
    · exact hlt.trans_le (not_lt.mp hnewer)
  · simp [onWrite, hspent]

theorem rangesOverlap_of_mem {leftAddress leftSize rightAddress rightSize : ℕ}
    (hleft : InRange leftAddress leftSize a) (hright : InRange rightAddress rightSize a) :
    rangesOverlap leftAddress leftSize rightAddress rightSize = true := by
  simp only [InRange] at hleft hright
  simp only [rangesOverlap, Bool.and_eq_true, decide_eq_true_eq]
  omega

theorem transition_deliver (h : s.Inv) (u : ℕ) :
    Transition (s.deliveredBy (.deliver u)) s (s.step (.deliver u)) := by
  rw [step]
  split
  · rename_i pending event hu
    have hdelivered : s.deliveredBy (.deliver u) = some event := by simp [deliveredBy, hu]
    rw [hdelivered]
    obtain ⟨hpend, hevent⟩ := h.writers u _ hu
    obtain ⟨hsize, hin, hle⟩ := hevent event rfl
    -- The event passes the range check, since it lies in the window.
    have hrange : isValidRange event.address event.size = true := by
      have hlast := hin (event.address + event.size - 1) ⟨by omega, by omega⟩
      have hwin := h.world.tables.window
      simp only [InWindow, InRange] at hlast
      simp only [isValidRange, Bool.and_eq_true, decide_eq_true_eq]
      exact ⟨hsize, by omega⟩
    have hheard : ∀ resource record',
        (s.tracker.onGuestMemoryWrite event).records resource = some record' →
          ∃ record, s.tracker.records resource = some record ∧ Evolves (some event) record record' ∧
            record'.cpuWriteGeneration ≤ s.world.memory.writeGeneration ∧
            (rangesOverlap record'.address record'.size event.address event.size = true →
              record' = record.onWrite event) := by
      intro resource record' hrec'
      rw [onGuestMemoryWrite, hrange] at hrec'
      obtain ⟨record, hrec, rfl⟩ := map_eq_some_iff.mp hrec'
      have hpre := (h.records _ _ hrec).cpuWriteGeneration_le
      refine ⟨record, hrec, ?_⟩
      split_ifs with hover
      · refine ⟨evolves_onWrite hover, ?_, fun _ => rfl⟩
        simp only [onWrite]
        split_ifs
        · exact hle
        · exact hpre
      · exact ⟨.refl _, hpre, fun hyes => absurd hyes hover⟩
    have hnext : (s.tracker.onGuestMemoryWrite event).nextResourceId =
        s.tracker.nextResourceId := by
      rw [onGuestMemoryWrite, hrange]
      rfl
    exact
      { inv :=
          { world := h.world
            writers := forall_set h.writers (fun _ hw => hw) ⟨hpend, fun e he => by simp at he⟩
            records := fun resource record' hrec' => by
              obtain ⟨record, hrec, hevolves, hgen, -⟩ := hheard _ _ hrec'
              obtain ⟨hlt, -, htoken, hspent⟩ := h.records _ _ hrec
              exact ⟨lt_of_lt_of_eq hlt hnext.symm, hgen,
                by rw [hevolves.mappingToken]; exact htoken,
                by rw [hevolves.mappingToken]; exact hspent⟩ }
        generation := le_rfl
        nextResourceId := hnext.ge
        records := fun resource record' hrec' => by
          obtain ⟨record, hrec, hevolves, -⟩ := hheard _ _ hrec'
          exact .inl ⟨record, hrec, hevolves⟩
        current := fun _ _ _ hafter => hafter
        bytes := fun _ _ _ _ _ _ _ => .inl rfl
        owed := fun since _ a howed => by
          by_cases hcovers : InRange event.address event.size a ∧ NewerThan since event
          · right
            intro resource record' hrec' ha
            obtain ⟨record, -, -, -, honWrite⟩ := hheard _ _ hrec'
            rw [honWrite (rangesOverlap_of_mem ha hcovers.1)]
            exact knows_onWrite hcovers.2 _
          · refine .inl (exists_set hu (fun _ hw => hw) ?_ howed)
            rintro (hmore | ⟨e, he, ha, hnewer⟩)
            · exact .inl hmore
            · cases he
              exact absurd ⟨ha, hnewer⟩ hcovers }
  · exact .refl h

/-! ## Mapping calls -/

/-- A call that neither maps nor unmaps an address leaves its byte alone. -/
theorem byteAt_perform (h : w.WellFormed) (call : MappingCall)
    (hsame : (w.memory.perform w.backings call).2.identities a = w.memory.identities a)
    (hsome : (w.memory.identities a).isSome = true) :
    w.byteAt a = byteAt { w with memory := (w.memory.perform w.backings call).2 } a := by
  rcases (perform_outcome _ h.tables call).cases with
    ⟨-, hunchanged⟩ | ⟨-, hdone⟩
  · rw [byteAt, byteAt, contents_unchanged hunchanged, cellOf, cellOf, sharing, sharing,
      hunchanged.sharedMappings]
  obtain ⟨g, hg⟩ := isSome_iff_exists.mp hsome
  have hmapped : (w.memory.protections a).isSome = true := by
    rw [← h.tables.identities_isSome]
    exact hsome
  obtain ⟨p, hp⟩ := isSome_iff_exists.mp hmapped
  have hwin := h.tables.inWindow a p hp
  have hkept : InRange call.address call.length a → call.isUnmap = false ∧ call.isMap = false := by
    intro hin
    rw [hdone.identities a, if_pos hin, hg] at hsame
    have hrange := (hdone.range a hin).2
    cases hunmap : call.isUnmap with
    | true => simp [hunmap] at hsame
    | false =>
      cases hmap : call.isMap with
      | true => rw [hmapped, hmap] at hrange; simp at hrange
      | false => exact ⟨rfl, rfl⟩
  have hshare : (w.memory.perform w.backings call).2.sharing a = w.memory.sharing a := by
    refine (congrFun (congrArg AddressSpace.sharing hdone.space) a).trans ?_
    cases call with
    | map | protect => rfl
    | mapShared alloc address length protection backing backingOffset =>
      exact if_neg fun hin => absurd (hkept hin).2 (by simp [MappingCall.isMap])
    | unmap address length =>
      exact if_neg fun hin => absurd (hkept hin).1 (by simp [MappingCall.isUnmap])
  have hown := contents_performed hdone hwin
  rw [if_neg fun hunmap => absurd hunmap.1 (by simp [(hkept hunmap.2).1])] at hown
  rw [byteAt, byteAt]
  cases hcell : w.memory.sharing a with
  | none =>
    rw [cellOf_of_none hcell, cellOf_of_none (hshare.trans hcell)]
    exact hown.symm
  | some b =>
    rw [cellOf_of_some hcell, cellOf_of_some (hshare.trans hcell)]
    rfl

theorem transition_mapping (h : s.Inv) (call : MappingCall) :
    Transition none s (s.step (.mapping call)) := by
  rw [step]
  split_ifs with hstoring
  · exact .refl h
  have hwf := wellFormed_step h.world (.mapping call)
  have hnext := (generation_le_perform s.world.backings h.world.tables call).1
  obtain ⟨hbase, hsize, hgen⟩ := perform_frame s.world.backings s.world.memory call
  have hkept := fun resource record hrec hafter =>
    captureMappingTokenLocked_perform s.world.backings h.world.tables call
      (h.records _ _ hrec).token_le
      (h.records resource record hrec).token_exhausted
      (capture_of_recordIsCurrent hafter).1
  exact
    { inv :=
        { world := hwf
          writers := fun u writer hu => writerValid_congr hbase hsize hgen.ge _ (h.writers u _ hu)
          records := fun resource record hrec => by
            obtain ⟨hlt, hle, htoken, hspent⟩ := h.records _ _ hrec
            exact ⟨hlt, hle.trans hgen.ge, htoken.trans hnext, hspent⟩ }
      generation := hgen.ge
      nextResourceId := le_rfl
      records := fun _ record' hrec => .inl ⟨record', hrec, .refl record'⟩
      current := fun resource record hrec hafter => by
        rw [recordIsCurrent, (hkept _ _ hrec hafter).1]
        simp [(h.records _ _ hrec).token_exhausted]
      bytes := fun resource record hrec hafter a ha _ => by
        obtain ⟨hsame, hsome⟩ := (hkept _ _ hrec hafter).2 a ha
        exact .inl (byteAt_perform h.world _ hsame hsome)
      owed := fun _ _ _ ⟨u, writer, hu, howes⟩ =>
        .inl ⟨u, writer, hu, owes_congr hbase hsize _ howes⟩ }

/-! ## The tracker's own calls -/

theorem records_setRecord {c : GpuResourceCoherence} {value : Option ResourceRecord}
    (h : (c.setRecord resource value).records other = some record') :
    other = resource ∧ value = some record' ∨ c.records other = some record' := by
  simp only [setRecord, Function.update_apply] at h
  split_ifs at h with hid
  · exact .inl ⟨hid, h⟩
  · exact .inr h

/-- A call on the tracker that changes at most one record, by an evolution. -/
theorem transition_tracker (h : s.Inv) {tracker : GpuResourceCoherence}
    (hnext : s.tracker.nextResourceId ≤ tracker.nextResourceId)
    (hrecords : ∀ resource record', tracker.records resource = some record' →
      (∃ record, s.tracker.records resource = some record ∧ Evolves none record record' ∧
        record'.cpuWriteGeneration = record.cpuWriteGeneration) ∨
      (s.tracker.nextResourceId ≤ resource ∧ record'.needsCpuUpload = true ∧
        record'.recordIsCurrent s.world.memory = true ∧
        RecordValid { s with tracker } resource record')) :
    Transition none s { s with tracker } where
  inv :=
    { h with
      records := fun resource record' hrec' => by
        rcases hrecords _ _ hrec' with
          ⟨record, hrec, hevolves, hgen⟩ | ⟨-, -, -, hvalid⟩
        · obtain ⟨hlt, hle, htoken, hspent⟩ := h.records resource record hrec
          rw [← hgen] at hle
          rw [← hevolves.mappingToken] at htoken hspent
          exact ⟨hlt.trans_le hnext, hle, htoken, hspent⟩
        · exact hvalid }
  generation := le_rfl
  nextResourceId := hnext
  records resource record' hrec' :=
    (hrecords resource record' hrec').imp
      (fun ⟨record, hrec, hevolves, _⟩ => ⟨record, hrec, hevolves⟩)
      fun ⟨hle, hdirty, hcur, _⟩ => ⟨hle, hdirty, hcur⟩
  current _ _ _ hafter := hafter
  bytes _ _ _ _ _ _ _ := .inl rfl
  owed _ _ _ howed := .inl howed

/-- A resource is registered with the token its range has. -/
theorem registerResource_cases (c : GpuResourceCoherence) (memory : GuestMemory)
    (snapshot : CoherenceSnapshot) (alloc : Bool) (address size : ℕ) :
    c.registerResource memory snapshot alloc address size = (none, c) ∨
      ∃ record : ResourceRecord, record.address = address ∧ record.size = size ∧
        record.recordIsCurrent memory = true ∧
        record.cpuWriteGeneration = snapshot.writeGeneration ∧ record.needsCpuUpload = true ∧
        c.registerResource memory snapshot alloc address size =
          (some c.nextResourceId, { c.setRecord c.nextResourceId (some record) with
            nextResourceId := c.nextResourceId + 1 }) := by
  rw [registerResource]
  split_ifs with hinvalid
  · exact .inl rfl
  cases hcap : memory.captureMappingTokenLocked address size with
  | none => exact .inl rfl
  | some token =>
    simp only
    split_ifs with hreject
    · exact .inl rfl
    · simp only [Bool.or_eq_true, not_or] at hreject
      refine .inr ⟨_, rfl, rfl, ?_, rfl, rfl, rfl⟩
      simp [recordIsCurrent, hcap, hreject.1.1]

theorem transition_register (h : s.Inv) (snapshot : CoherenceSnapshot) (alloc : Bool)
    (address size : ℕ) : Transition none s (s.step (.register snapshot alloc address size)) := by
  rw [step]
  split_ifs with hprecedes
  · rcases registerResource_cases s.tracker s.world.memory snapshot alloc address size with
      hfail | ⟨record, -, -, hcur, hgen, hdirty, hdone⟩
    · rw [hfail]
      exact .refl h
    rw [hdone]
    refine transition_tracker h (Nat.le_succ _) fun resource record' hrec' => ?_
    rcases records_setRecord hrec' with ⟨rfl, hnew⟩ | hsame
    · cases hnew
      obtain ⟨hcap, hspent⟩ := capture_of_recordIsCurrent hcur
      obtain ⟨hlen, hmap⟩ := mapped_of_captureMappingTokenLocked h.world.tables hcap
      obtain ⟨newest, hbest, hcap'⟩ := captureMappingTokenLocked_spec h.world.tables hlen hmap
      have htoken := mem_unique hcap hcap'
      refine .inr ⟨le_rfl, hdirty, hcur, Nat.lt_succ_self _, ?_, ?_, hspent⟩
      · rw [hgen]
        exact hprecedes.1
      · rw [htoken]
        exact mem_generationsOn_le h.world.tables hbest.1
    · exact .inl ⟨record', hsame, .refl _, rfl⟩
  · exact .refl h

theorem transition_unregister (h : s.Inv) (resource : GpuResourceId) :
    Transition none s (s.step (.unregister resource)) := by
  refine transition_tracker h le_rfl fun id record' hrec' => ?_
  rcases records_setRecord hrec' with ⟨-, hnew⟩ | hsame
  · cases hnew
  · exact .inl ⟨record', hsame, .refl _, rfl⟩

theorem transition_setGpuWritePending (h : s.Inv) (pending : Bool) (resource : GpuResourceId) :
    Transition none s (s.step (.setGpuWritePending pending resource)) := by
  rw [step, setGpuWritePending]
  cases hrec : s.tracker.records resource with
  | none => exact .refl h
  | some record =>
    simp only
    split_ifs with hstale
    · exact .refl h
    refine transition_tracker h le_rfl fun other record' hrec' => ?_
    rcases records_setRecord hrec' with ⟨rfl, hnew⟩ | hsame
    · cases hnew
      exact .inl ⟨record, hrec,
        ⟨rfl, rfl, rfl, le_rfl, .inl rfl, id, fun hclean => ⟨hclean, rfl, rfl⟩⟩, rfl⟩
    · exact .inl ⟨record', hsame, .refl _, rfl⟩

/-- Every step is a transition. -/
theorem transition_step (h : s.Inv) (action : CoherenceAction) :
    Transition (s.deliveredBy action) s (s.step action) := by
  cases action with
  | beginStore u => exact transition_beginStore h u
  | store u fault alloc piece => exact transition_store h u _ _ _
  | finishStore u => exact transition_finishStore h u
  | assign u => exact transition_assign h u
  | deliver u => exact transition_deliver h u
  | mapping call => exact transition_mapping h _
  | register snapshot alloc address size => exact transition_register h _ _ _ _
  | unregister resource => exact transition_unregister h _
  | setGpuWritePending pending resource => exact transition_setGpuWritePending h _ _

theorem inv_create {baseAddress size : ℕ} {initialProtection : GuestMemoryProtection}
    (hcreate : GuestMemory.create baseAddress size initialProtection = some m) (backings : Backings)
    (threads : ℕ) : (create m backings threads).Inv where
  world := (MemoryWorld.Reachable.create hcreate backings).wellFormed
  writers u _ hu := by
    rw [create, getElem?_replicate] at hu
    split_ifs at hu
    cases hu
    exact ⟨by simp, by simp⟩
  records _ _ hrec := by simp [create, GpuResourceCoherence.create] at hrec

theorem inv_run (h : s.Inv) (actions : List CoherenceAction) : (s.run actions).Inv :=
  StepRuns.run_induction (P := Inv) step (fun _ action h => (transition_step h action).inv) h
    actions

/-! ## Runs without mapping calls -/

/-- The mapping of no range registered from the given identifier on has changed. -/
def CurrentFrom (first : GpuResourceId) (s : CoherenceSystem) : Prop :=
  ∀ resource record, first ≤ resource → s.tracker.records resource = some record →
    record.recordIsCurrent s.world.memory = true

theorem token_step (h : s.Inv) {action : CoherenceAction} (hmap : action.isMapping = false) :
    (s.step action).world.memory.captureMappingTokenLocked =
      s.world.memory.captureMappingTokenLocked := by
  cases action with
  | mapping call => simp [CoherenceAction.isMapping] at hmap
  | store u fault alloc piece =>
    rw [step]
    split
    · split_ifs with hmapped
      · obtain ⟨passed, value, reaches, hstore, -⟩ := StorePiece.run_spec h.world _ _ _ hmapped
        exact (keepsTables_of_sameTables h.world hstore.same).token
      · rfl
    · rfl
  | assign u =>
    rw [step]
    split
    · exact (keepsTables_assign h.world _ _).1.token
    · rfl
  | beginStore u | finishStore u | deliver u => rw [step]; split <;> rfl
  | register snapshot alloc address size => rw [step]; split_ifs <;> rfl
  | unregister resource | setGpuWritePending pending resource => rfl

theorem CurrentFrom.step {first : GpuResourceId} (h : s.Inv) (hall : s.CurrentFrom first)
    (action : CoherenceAction) (hmap : action.isMapping = false) :
    (s.step action).CurrentFrom first := by
  have htoken := token_step h hmap
  intro resource record' hfirst hrec'
  rcases (transition_step h action).records _ _ hrec' with
    ⟨record, hrec, hevolves⟩ | ⟨-, -, hcur⟩
  · rw [recordIsCurrent, htoken, ← recordIsCurrent, recordIsCurrent_congr hevolves]
    exact hall resource record hfirst hrec
  · exact hcur

/-! ## Copies of bytes -/

/-- A value copied from the address of a resource no earlier than the generation
`since` was the write generation: it is still the byte in memory, or an event the
tracker will take for newer is to come, or the tracker has heard of one. -/
def Fresh (s : CoherenceSystem) (resource : GpuResourceId) (since : GuestMemoryGeneration)
    (a : ℕ) (value : UInt8) : Prop :=
  ∀ record, s.tracker.records resource = some record →
    record.recordIsCurrent s.world.memory = true → InRange record.address record.size a →
      value = s.world.byteAt a ∨ s.Undelivered (NewerThan since) a ∨
        since < record.cpuWriteGeneration ∨ record.cpuGenerationPrecise = false

theorem Undelivered.of_accept {accept accept' : GuestMemoryWriteEvent → Prop}
    (h : s.Undelivered accept a) (himp : ∀ e, accept e → accept' e) : s.Undelivered accept' a := by
  obtain ⟨u, writer, hu, howes⟩ := h
  refine ⟨u, writer, hu, ?_⟩
  cases writer with
  | storing mutations => exact howes
  | notifying pending event =>
    exact howes.imp id fun ⟨e, he, ha, haccept⟩ => ⟨e, he, ha, himp e haccept⟩

/-- A copy that is fresh as of some generation is so as of any earlier one. -/
theorem Fresh.anti {earlier : GuestMemoryGeneration} (h : s.Fresh resource since a value)
    (hle : earlier ≤ since) : s.Fresh resource earlier a value := by
  intro record hrec hcur ha
  refine (h _ hrec hcur ha).imp id fun hrest => hrest.imp ?_ fun hheard => ?_
  · exact fun howed => howed.of_accept fun e he => he.imp (lt_of_le_of_lt hle) id
  · exact hheard.imp (lt_of_le_of_lt hle) id

/-- A copy stays fresh, whatever happens. -/
theorem Fresh.transition (ht : Transition delivered s s')
    (hres : resource < s.tracker.nextResourceId) (hsince : since ≤ s.world.memory.writeGeneration)
    (h : s.Fresh resource since a value) : s'.Fresh resource since a value := by
  intro record' hrec' hcur' ha'
  obtain ⟨record, hrec, hevolves⟩ :=
    (ht.records _ _ hrec').resolve_right fun hnew => not_lt.mpr hnew.1 hres
  rw [recordIsCurrent_congr hevolves] at hcur'
  have ha : InRange record.address record.size a := by rwa [hevolves.address, hevolves.size] at ha'
  rcases h _ hrec (ht.current _ _ hrec hcur') ha with
    hbyte | howed | hknown | himprecise
  · rcases ht.bytes resource record hrec hcur' a ha since with hsame | howed
    · exact .inl (hbyte.trans hsame)
    · exact .inr (.inl howed)
  · rcases ht.owed since hsince a howed with howed' | hheard
    · exact .inr (.inl howed')
    · exact .inr (.inr (hheard resource record' hrec' ha'))
  · exact .inr (.inr (.inl (hknown.trans_le hevolves.generation)))
  · exact .inr (.inr (.inr (hevolves.precise himprecise)))

/-- The bytes last acknowledged for a resource: as long as its record is clean, they
are a fresh copy as of the record's generation. -/
def Settled (s : CoherenceSystem) (resource : GpuResourceId) (uploaded : ℕ → UInt8) : Prop :=
  ∀ record, s.tracker.records resource = some record → record.needsCpuUpload = false →
    record.cpuGenerationPrecise = true ∧ ∀ a, InRange record.address record.size a →
        s.Fresh resource record.cpuWriteGeneration a (uploaded a)

theorem Settled.transition (hinv : s.Inv) (ht : Transition delivered s s')
    (h : s.Settled resource uploaded) : s'.Settled resource uploaded := by
  intro record' hrec' hclean'
  obtain ⟨record, hrec, hevolves⟩ :=
    (ht.records _ _ hrec').resolve_right fun hnew => by simp [hclean'] at hnew
  obtain ⟨hclean, hgen, hprecise⟩ := hevolves.clean hclean'
  obtain ⟨hpre, hfresh⟩ := h _ hrec hclean
  refine ⟨hprecise.trans hpre, fun a ha => ?_⟩
  rw [hevolves.address, hevolves.size] at ha
  rw [hgen]
  exact (hfresh a ha).transition ht (hinv.records _ _ hrec).resource_lt
    (hinv.records _ _ hrec).cpuWriteGeneration_le

/-- What a clean record of a current range says. -/
theorem Settled.byteAt_or_undelivered (h : s.Settled resource uploaded)
    (hrec : s.tracker.records resource = some record)
    (hcur : record.recordIsCurrent s.world.memory = true)
    (hclean : record.needsCpuUpload = false) (ha : InRange record.address record.size a) :
    uploaded a = s.world.byteAt a ∨ s.Undelivered (NewerThan record.cpuWriteGeneration) a := by
  obtain ⟨hprecise, hfresh⟩ := h _ hrec hclean
  rcases hfresh a ha _ hrec hcur ha with hbyte | howed | hlt | himprecise
  · exact .inl hbyte
  · exact .inr howed
  · exact absurd hlt (lt_irrefl _)
  · rw [hprecise] at himprecise
    cases himprecise

/-! ## Acknowledging -/

theorem acknowledgeCpuUpload_cases (c : GpuResourceCoherence) (memory : GuestMemory)
    (resource : GpuResourceId) (generation : GuestMemoryGeneration) :
    c.acknowledgeCpuUpload memory resource generation = (false, c) ∨
      ∃ record, c.records resource = some record ∧ record.cpuGenerationPrecise = true ∧
        record.cpuWriteGeneration = generation ∧
        c.acknowledgeCpuUpload memory resource generation =
          (true, c.setRecord resource (some { record with needsCpuUpload := false })) := by
  rw [acknowledgeCpuUpload]
  cases hrec : c.records resource with
  | none => exact .inl rfl
  | some record =>
    simp only
    split_ifs with hstale hreject
    · exact .inl rfl
    · exact .inl rfl
    · simp only [Bool.or_eq_true, not_or, Bool.not_eq_true', Bool.not_eq_false, decide_eq_true_eq,
        not_not] at hreject
      exact .inr ⟨record, rfl, hreject.1.2, hreject.2, rfl⟩

/-- The system after a successful acknowledgement. -/
def acknowledged (base : CoherenceSystem) (resource : GpuResourceId) (record : ResourceRecord) :
    CoherenceSystem :=
  { base with
    tracker := base.tracker.setRecord resource (some { record with needsCpuUpload := false }) }

variable (hrec : base.tracker.records resource = some record)
include hrec

/-- Acknowledging changes nothing in a record that freshness looks at. -/
theorem records_acknowledged
    (hrec' : (acknowledged base resource record).tracker.records other = some record') :
    ∃ before, base.tracker.records other = some before ∧
      record' = { before with needsCpuUpload := record'.needsCpuUpload } ∧
      (other ≠ resource → record' = before) := by
  rcases records_setRecord hrec' with ⟨rfl, hnew⟩ | hsame
  · cases hnew
    exact ⟨record, hrec, rfl, fun hne => absurd rfl hne⟩
  · exact ⟨record', hsame, rfl, fun _ => rfl⟩

theorem fresh_acknowledged (h : base.Fresh other since a value) :
    (acknowledged base resource record).Fresh other since a value := by
  intro record' hrec' hcur ha
  obtain ⟨before, hpre, heq, -⟩ := records_acknowledged hrec hrec'
  rw [heq] at hcur ha ⊢
  exact h before hpre hcur ha

theorem inv_acknowledged (h : base.Inv) : (acknowledged base resource record).Inv where
  __ := h
  records other _ hrec' := by
    obtain ⟨before, hpre, heq, -⟩ := records_acknowledged hrec hrec'
    obtain ⟨hlt, hle, htoken, hspent⟩ := h.records _ _ hpre
    rw [heq]
    exact ⟨hlt, hle, htoken, hspent⟩

theorem settled_acknowledged (hother : other ≠ resource) (h : base.Settled other uploaded) :
    (acknowledged base resource record).Settled other uploaded := by
  intro record' hrec' hclean
  obtain ⟨before, hpre, -, hsame⟩ := records_acknowledged hrec hrec'
  obtain rfl := hsame hother
  obtain ⟨hprecise, hfresh⟩ := h _ hpre hclean
  exact ⟨hprecise, fun a ha => fresh_acknowledged hrec (hfresh a ha)⟩

/-- What an acknowledged upload of fresh bytes leaves behind. -/
theorem settled_acknowledged_self (hprecise : record.cpuGenerationPrecise = true)
    (hfresh : ∀ a, InRange record.address record.size a →
      base.Fresh resource record.cpuWriteGeneration a (uploaded a)) :
    (acknowledged base resource record).Settled resource uploaded := by
  intro record' hrec' _
  obtain ⟨before, hpre, heq, -⟩ := records_acknowledged hrec hrec'
  obtain rfl := mem_unique hrec hpre
  rw [heq]
  exact ⟨hprecise, fun a ha => fresh_acknowledged hrec (hfresh a ha)⟩

end CoherenceSystem

end KajPS5.Gpu
