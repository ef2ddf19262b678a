/-
# Reachable guest memories

The public calls on a guest memory as one alphabet, and the worlds that some
sequence of them reaches from a constructed memory over arbitrary backings. Every
reachable world is well formed: mapping calls keep the tables, a shared mapping
is only created inside its backing, and storing calls change no table at all.
-/

import KajPS5.Memory.MappingCalls
import KajPS5.Memory.CopyLoops

namespace KajPS5.Memory

open Math GuestMemoryProtection GuestMemory

/-- A public call on a guest memory. -/
inductive MemoryCall
  | mapping (call : MappingCall)
  | store (fault : Bool) (alloc : ℕ → ℕ → Bool) (call : StoreCall)
  | read (address length : ℕ)

namespace MemoryWorld

variable {w : MemoryWorld}

/-- The world after a storing call has notified its events. -/
def notified (result : StoreResult) : MemoryWorld :=
  { result.world with
    memory := (result.world.memory.notifyMutationReport result.mutations).2 }

/-- The world after a call. -/
def step (w : MemoryWorld) : MemoryCall → MemoryWorld
  | .mapping call => { w with memory := (w.memory.perform w.backings call).2 }
  | .store fault alloc call => notified (w.store fault alloc call)
  | .read _ _ => w

/-- The worlds some sequence of calls reaches. -/
inductive Reachable : MemoryWorld → Prop
  | create {baseAddress size : ℕ} {initialProtection : GuestMemoryProtection} {m : GuestMemory}
      (hcreate : create baseAddress size initialProtection = some m)
      (backings : Backings) : Reachable ⟨m, backings⟩
  | step {w : MemoryWorld} (hw : Reachable w) (call : MemoryCall) : Reachable (w.step call)

/-! ## Notifying changes the write generation only -/

theorem assignWriteGeneration_memory (m : GuestMemory) (address length : ℕ) :
    (m.assignWriteGeneration address length).2 = { m with
        writeGeneration := (m.assignWriteGeneration address length).2.writeGeneration
        writeGenerationExhausted :=
          (m.assignWriteGeneration address length).2.writeGenerationExhausted } := by
  rw [assignWriteGeneration]
  split_ifs
  · rfl
  · cases advanceGuestMemoryGeneration m.writeGeneration <;> rfl

/-- Two memories that differ in their write generation only. -/
def SameButGeneration (m m' : GuestMemory) : Prop :=
  m' = { m with
    writeGeneration := m'.writeGeneration
    writeGenerationExhausted := m'.writeGenerationExhausted }

theorem sameButGeneration_notify (m : GuestMemory) (report : MutationReport) :
    SameButGeneration m (m.notifyMutationReport report).2 := by
  rw [notifyMutationReport]
  generalize m.notifiedRanges report = ranges
  suffices h : ∀ events m₁, SameButGeneration m m₁ → SameButGeneration m
      (ranges.foldl (fun (acc : List GuestMemoryWriteEvent × GuestMemory) r =>
        (acc.1 ++ [(acc.2.assignWriteGeneration r.address r.size).1],
          (acc.2.assignWriteGeneration r.address r.size).2)) (events, m₁)).2 from h [] m rfl
  induction ranges with
  | nil => exact fun _ _ h => h
  | cons r ranges ih =>
    intro events m₁ h
    refine ih _ _ ?_
    rw [SameButGeneration, assignWriteGeneration_memory]
    rw [h]

theorem sameTables_notified (result : StoreResult) :
    (notified result).memory.sharing = result.world.memory.sharing ∧
      (notified result).memory.protections = result.world.memory.protections ∧
      (notified result).memory.cellOf = result.world.memory.cellOf ∧
      (notified result).contents = result.world.contents := by
  have hsame := sameButGeneration_notify result.world.memory result.mutations
  simp only [notified]
  rw [hsame]
  refine ⟨rfl, rfl, rfl, ?_⟩
  funext cell
  cases cell <;> rfl

variable {m' : GuestMemory} {a : ℕ}

theorem WellFormed.of_sameButGeneration (h : w.WellFormed) (hsame : SameButGeneration w.memory m') :
    ({ w with memory := m' } : MemoryWorld).WellFormed := by
  rw [hsame]
  exact ⟨{ h.tables with }, h.backed⟩

theorem wellFormed_notified {result : StoreResult} (h : result.world.WellFormed) :
    (notified result).WellFormed :=
  h.of_sameButGeneration (sameButGeneration_notify result.world.memory result.mutations)

/-! ## What mapping calls do to the bytes -/

/-- The private bytes after a successful mapping call. -/
theorem contents_performed {call : MappingCall} (hdone : w.memory.Performed call m')
    (ha : w.memory.InWindow a) :
    ({ w with memory := m' } : MemoryWorld).contents (.own a) =
      if call.isUnmap = true ∧ InRange call.address call.length a then 0
      else w.contents (.own a) := by
  have hbase : w.memory.baseAddress ≤ a := ha.1
  simp only [contents, offsetOf, hdone.baseAddress, hbase]
  exact hdone.bytes a ha

/-- A failed mapping call changes no byte. -/
theorem contents_unchanged (hsame : w.memory.Unchanged m') :
    ({ w with memory := m' } : MemoryWorld).contents = w.contents := by
  funext cell
  cases cell <;> simp [contents, offsetOf, hsame.baseAddress, hsame.bytes]

/-! ## Shared mappings lie in their backings -/

/-- A call shows no byte outside a backing. -/
theorem sharing_perform (h : w.WellFormed) (call : MappingCall) {id : BackingId} {offset : ℕ}
    (ha : (w.memory.perform w.backings call).2.sharing a = some (id, offset)) :
    offset < (w.backings id).size := by
  rcases (perform_outcome _ h.tables call).cases with
    ⟨-, hsame⟩ | ⟨htrue, hdone⟩
  · rw [sharing, hsame.sharedMappings] at ha
    exact h.backed a id offset ha
  have hspace := congrFun (congrArg AddressSpace.sharing hdone.space) a
  rw [space] at hspace
  simp only [ha] at hspace
  cases call with
  | map alloc address length protection | protect address length protection =>
    exact h.backed a _ _ hspace.symm
  | unmap address length =>
    simp only [MappingCall.effect, AddressMap.remove] at hspace
    split_ifs at hspace with hin
    exact h.backed a _ _ hspace.symm
  | mapShared alloc address length protection backing backingOffset =>
    simp only [MappingCall.effect, AddressMap.assign] at hspace
    split_ifs at hspace with hin
    · rcases mapShared_cases w.backings w.memory alloc address length protection
        backing backingOffset with ⟨_, _, -, -, heq⟩ | ⟨backing, rfl, hcontains, -⟩
      · rw [perform, heq] at htrue
        cases htrue
      · obtain ⟨rfl, rfl⟩ := Prod.mk.inj (Option.some.inj hspace)
        simp only [SharedMemoryBacking.contains, Bool.and_eq_true, decide_eq_true_eq,
          InRange] at hcontains hin ⊢
        omega
    · exact h.backed a _ _ hspace.symm

theorem wellFormed_step (h : w.WellFormed) (call : MemoryCall) : (w.step call).WellFormed := by
  cases call with
  | mapping call =>
    exact ⟨(perform_outcome _ h.tables _).wellFormed, fun a id offset ha => sharing_perform h _ ha⟩
  | store fault alloc call =>
    exact wellFormed_notified ((callStored_store h _ _ _).same.wellFormed h)
  | read address length => exact h

/-- Every reachable world is well formed. -/
theorem Reachable.wellFormed (h : Reachable w) : w.WellFormed := by
  induction h with
  | create hcreate backings =>
    obtain ⟨hwf, -, -, -, hshared, -⟩ := create_spec hcreate
    refine ⟨hwf, fun a id offset ha => ?_⟩
    rw [sharing, hshared] at ha
    simp at ha
  | step _ call ih => exact wellFormed_step ih _

end MemoryWorld

end KajPS5.Memory
