/-
# Uploading never loses a write

An uploader asks the tracker for the generation of a resource, copies its bytes
from guest memory, one at a time and in any order, and then acknowledges the
generation it was told. Any number of uploaders run between the steps of the
writers. Whatever the order, a record that counts as uploaded and whose range is
still mapped as it was shows the bytes in guest memory, unless an event that
overlaps the range is on its way.
-/

import KajPS5.Gpu.CoherenceSystem

namespace KajPS5.Gpu

open Math Memory GuestMemoryProtection Function CoherenceSystem

/-- An upload in progress: the generation the tracker answered and the bytes copied
since. -/
structure Upload where
  resource : GpuResourceId
  generation : GuestMemoryGeneration
  bytes : ℕ → Option UInt8

structure UploadSystem where
  base : CoherenceSystem
  uploads : ℕ → Option Upload
  /-- The bytes of the last acknowledged upload of each resource. -/
  uploaded : GpuResourceId → ℕ → UInt8

inductive UploadAction
  | other (action : CoherenceAction)
  | query (uploader : ℕ) (resource : GpuResourceId)
  | readByte (uploader : ℕ) (a : ℕ)
  | acknowledge (uploader : ℕ)

namespace UploadSystem

def create (m : GuestMemory) (backings : Backings) (threads : ℕ) : UploadSystem where
  base := .create m backings threads
  uploads _ := none
  uploaded _ _ := 0

def setUpload (s : UploadSystem) (uploader : ℕ) (upload : Option Upload) : UploadSystem :=
  { s with uploads := Function.update s.uploads uploader upload }

/-- Every byte of the resource has been copied. -/
def isComplete (s : UploadSystem) (upload : Upload) : Bool :=
  match s.base.tracker.records upload.resource with
  | none => false
  | some record => (List.range' record.address record.size).all fun a => (upload.bytes a).isSome

/-- One step. An action that its thread cannot take changes nothing. -/
def step (s : UploadSystem) : UploadAction → UploadSystem
  | .other action => { s with base := s.base.step action }
  | .query uploader resource => match s.base.tracker.query s.base.world.memory resource with
    | none => s
    | some state => s.setUpload uploader (some ⟨resource, state.cpuWriteGeneration, fun _ => none⟩)
  | .readByte uploader a => match s.uploads uploader, s.base.world.read a 1 with
    | some upload, some [value] =>
      s.setUpload uploader
        (some { upload with bytes := Function.update upload.bytes a (some value) })
    | _, _ => s
  | .acknowledge uploader => match s.uploads uploader with
    | none => s
    | some upload =>
      if s.isComplete upload then
        match s.base.tracker.acknowledgeCpuUpload s.base.world.memory upload.resource
          upload.generation with
        | (false, _) => s.setUpload uploader none
        | (true, tracker) =>
          { base := { s.base with tracker }
            uploads := Function.update s.uploads uploader none
            uploaded := Function.update s.uploaded upload.resource
              fun a => (upload.bytes a).getD 0 }
      else s

def run (s : UploadSystem) (actions : List UploadAction) : UploadSystem :=
  StepRuns.run step s actions

/-! ## The invariant -/

/-- The copied bytes of an upload are fresh as of the generation it was told. -/
structure UploadValid (base : CoherenceSystem) (upload : Upload) : Prop where
  resource_lt : upload.resource < base.tracker.nextResourceId
  generation_le : upload.generation ≤ base.world.memory.writeGeneration
  fresh : ∀ a value, upload.bytes a = some value →
    base.Fresh upload.resource upload.generation a value

structure Inv (s : UploadSystem) : Prop where
  base : s.base.Inv
  uploads : ∀ uploader upload, s.uploads uploader = some upload → UploadValid s.base upload
  settled : ∀ resource, s.base.Settled resource (s.uploaded resource)

variable {s : UploadSystem}

theorem inv_other (h : s.Inv) (action : CoherenceAction) : (s.step (.other action)).Inv := by
  have ht := transition_step h.base action
  refine ⟨ht.inv, fun uploader upload hupload => ?_,
    fun resource => (h.settled resource).transition h.base ht⟩
  obtain ⟨hlt, hle, hfresh⟩ := h.uploads _ _ hupload
  exact ⟨hlt.trans_le ht.nextResourceId, hle.trans ht.generation,
    fun a value hvalue => (hfresh a _ hvalue).transition ht hlt hle⟩

theorem inv_setUpload (h : s.Inv) (uploader : ℕ) {upload : Option Upload}
    (hvalid : ∀ up, upload = some up → UploadValid s.base up) :
    (s.setUpload uploader upload).Inv := by
  refine ⟨h.base, fun other up hup => ?_, h.settled⟩
  by_cases hother : other = uploader
  · subst hother
    simp only [setUpload, update_self] at hup
    exact hvalid _ hup
  · simp only [setUpload, update_of_ne hother] at hup
    exact h.uploads _ _ hup

theorem inv_query (h : s.Inv) (uploader : ℕ) (resource : GpuResourceId) :
    (s.step (.query uploader resource)).Inv := by
  rw [step, GpuResourceCoherence.query]
  cases hrec : s.base.tracker.records resource with
  | none => exact h
  | some record =>
    obtain ⟨hlt, hle, -, -⟩ := h.base.records _ _ hrec
    refine inv_setUpload h uploader fun up hup => ?_
    cases hup
    exact ⟨hlt, hle, fun a value hvalue => by simp at hvalue⟩

/-- A byte that has just been read is fresh. -/
theorem inv_readByte (h : s.Inv) (uploader a : ℕ) : (s.step (.readByte uploader a)).Inv := by
  rw [step]
  split
  · rename_i upload value hupload hread
    refine inv_setUpload h uploader fun up hup => ?_
    cases hup
    obtain ⟨hlt, hle, hfresh⟩ := h.uploads _ _ hupload
    refine ⟨hlt, hle, fun b byte hbyte => ?_⟩
    by_cases hb : b = a
    · subst hb
      simp only [update_self, Option.some.injEq] at hbyte
      rw [MemoryWorld.read_eq h.base.world] at hread
      split_ifs at hread
      have hvalue : [s.base.world.byteAt b] = [value] := Option.some.inj hread
      intro record _ _ _
      exact .inl (hbyte.symm.trans (List.cons.inj hvalue).1.symm)
    · simp only [update_of_ne hb] at hbyte
      exact hfresh b _ hbyte
  · exact h

theorem isSome_of_isComplete {upload : Upload} (h : s.isComplete upload = true)
    {record : ResourceRecord} (hrec : s.base.tracker.records upload.resource = some record)
    {a : ℕ} (ha : InRange record.address record.size a) : (upload.bytes a).isSome = true := by
  rw [isComplete, hrec] at h
  exact List.all_eq_true.mp h a (List.mem_range'_1.mpr ha)

theorem inv_acknowledge (h : s.Inv) (uploader : ℕ) : (s.step (.acknowledge uploader)).Inv := by
  rw [step]
  cases hupload : s.uploads uploader with
  | none => exact h
  | some upload =>
    simp only
    split_ifs with hcomplete
    · obtain ⟨hlt, hle, hfresh⟩ := h.uploads _ _ hupload
      rcases acknowledgeCpuUpload_cases s.base.tracker s.base.world.memory
        upload.resource upload.generation with
        hfail | ⟨record, hrec, hprecise, hgen, hdone⟩
      · rw [hfail]
        exact inv_setUpload h _ fun up hup => by simp at hup
      rw [hdone]
      refine ⟨inv_acknowledged hrec h.base, fun other up hup => ?_,
        fun resource => ?_⟩
      · by_cases hother : other = uploader
        · subst hother
          exact absurd hup (by simp)
        · simp only [update_of_ne hother] at hup
          obtain ⟨hlt', hle', hfresh'⟩ := h.uploads _ _ hup
          exact ⟨hlt', hle', fun a value hvalue =>
            fresh_acknowledged hrec (hfresh' a _ hvalue)⟩
      · by_cases hres : resource = upload.resource
        · subst hres
          simp only [update_self]
          refine settled_acknowledged_self hrec hprecise fun a ha => ?_
          obtain ⟨value, hvalue⟩ := Option.isSome_iff_exists.mp
            (isSome_of_isComplete hcomplete hrec ha)
          rw [hvalue, hgen]
          exact hfresh a _ hvalue
        · simp only [update_of_ne hres]
          exact settled_acknowledged hrec hres (h.settled _)
    · exact h

theorem inv_step (h : s.Inv) (action : UploadAction) : (s.step action).Inv := by
  cases action with
  | other action => exact inv_other h _
  | query uploader resource => exact inv_query h _ _
  | readByte uploader a => exact inv_readByte h _ a
  | acknowledge uploader => exact inv_acknowledge h _

theorem inv_run (h : s.Inv) (actions : List UploadAction) : (s.run actions).Inv :=
  StepRuns.run_induction (P := Inv) step (fun _ action h => inv_step h action) h actions

theorem inv_create {baseAddress size : ℕ} {initialProtection : GuestMemoryProtection}
    {m : GuestMemory} (hcreate : GuestMemory.create baseAddress size initialProtection = some m)
    (backings : Backings) (threads : ℕ) : (create m backings threads).Inv where
  base := CoherenceSystem.inv_create hcreate _ _
  uploads _ _ hupload := by simp [create] at hupload
  settled _ _ hrec := by simp [create, CoherenceSystem.create, GpuResourceCoherence.create] at hrec

/-- In every run of any number of writers and uploaders: as long as the mapping token
of a resource is current and its record needs no upload, the uploaded bytes are
those in guest memory, or an event that overlaps the resource has not been
delivered. -/
theorem uploaded_or_undelivered {baseAddress size : ℕ} {initialProtection : GuestMemoryProtection}
    {m : GuestMemory} (hcreate : GuestMemory.create baseAddress size initialProtection = some m)
    (backings : Backings) (threads : ℕ) (actions : List UploadAction) :
    let s := (create m backings threads).run actions
    ∀ resource record, s.base.tracker.records resource = some record →
      record.recordIsCurrent s.base.world.memory = true → record.needsCpuUpload = false →
        (∀ a, InRange record.address record.size a →
          s.uploaded resource a = s.base.world.byteAt a) ∨
        ∃ a, InRange record.address record.size a ∧ s.base.Undelivered (fun _ => True) a := by
  intro s resource record hrecord hcurrent hclean
  have hsettled := (inv_run (inv_create hcreate backings threads) actions).settled resource
  by_cases howed : ∃ a, InRange record.address record.size a ∧ s.base.Undelivered (fun _ => True) a
  · exact .inr howed
  · refine .inl fun a ha => ?_
    refine (hsettled.byteAt_or_undelivered hrecord hcurrent hclean ha).resolve_right ?_
    exact fun hnewer => howed ⟨a, ha, hnewer.of_accept fun _ _ => trivial⟩

/-- Two bytes are uploaded while a writer that stores to the second one has not
delivered its event. -/
def racingActions : List UploadAction :=
  [.other (.register ⟨{}, false⟩ true 0x1000 2), .query 0 1, .readByte 0 0x1000,
    .readByte 0 0x1001, .other (.beginStore 0),
    .other (.store 0 false (fun _ _ => true) (.write 0x1001 [7])), .other (.finishStore 0),
    .other (.assign 0), .acknowledge 0]

theorem uploaded_or_undelivered_racing :
    ∃ m, GuestMemory.create 0x1000 0x8000 (kRead ||| kWrite) = some m ∧
      let s := (create m (fun _ => .create 0) 1).run racingActions
      (∃ record, s.base.tracker.records 1 = some record ∧ record.needsCpuUpload = false ∧
        record.recordIsCurrent s.base.world.memory = true) ∧
      ((∀ a, InRange 0x1000 2 a → s.uploaded 1 a = s.base.world.byteAt a) ∨
        ∃ a, InRange 0x1000 2 a ∧ s.base.Undelivered (fun _ => True) a) := by
  have hcreate : GuestMemory.create 0x1000 0x8000 (kRead ||| kWrite) = some _ := rfl
  refine ⟨_, hcreate, ⟨_, rfl, rfl, rfl⟩, ?_⟩
  exact uploaded_or_undelivered hcreate (fun _ => .create 0) 1 racingActions 1 _ rfl rfl rfl

end UploadSystem

end KajPS5.Gpu
