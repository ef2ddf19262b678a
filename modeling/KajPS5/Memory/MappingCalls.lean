/-
# Mapping calls as operations on the address space

The four calls that change the mapping of a guest memory, as one alphabet. Each
successful call does to the three maps of the address space what its name says,
one byte at a time; each failed call leaves every table as it was. Both are
proved for a single call from any well-formed memory and extended to every
sequence of calls from a constructed one.
-/

import KajPS5.Math.StepRuns
import KajPS5.Memory.Tables

namespace KajPS5.Memory

open Math Spanned GuestMemoryProtection AddressMap IsOrdered

/-- A mapping call with its arguments. -/
inductive MappingCall
  | map (alloc : GuestMemory.MapAllocations) (address length : ℕ)
      (protection : GuestMemoryProtection)
  | mapShared (alloc : GuestMemory.MapAllocations) (address length : ℕ)
      (protection : GuestMemoryProtection) (backing : Option BackingId) (backingOffset : ℕ)
  | protect (address length : ℕ) (protection : GuestMemoryProtection)
  | unmap (address length : ℕ)

/-- The three maps of the address space. -/
@[ext]
structure AddressSpace where
  protections : AddressMap GuestMemoryProtection
  identities : AddressMap GuestMemoryGeneration
  sharing : AddressMap BackingByte

namespace MappingCall

/-- What a successful call does to the address space. A new mapping is stamped
with `generation`. -/
def effect (generation : GuestMemoryGeneration) (space : AddressSpace) :
    MappingCall → AddressSpace
  | map _ address length protection =>
    { space with
      protections := space.protections.assign address length fun _ => protection
      identities := space.identities.assign address length fun _ => generation }
  | mapShared _ address length protection backing backingOffset =>
    { protections := space.protections.assign address length fun _ => protection
      identities := space.identities.assign address length fun _ => generation
      sharing := space.sharing.assign address length fun a =>
        (backing.getD 0, backingOffset + (a - address)) }
  | protect address length protection =>
    { space with protections := space.protections.repaint address length protection }
  | unmap address length =>
    { protections := space.protections.remove address length
      identities := space.identities.remove address length
      sharing := space.sharing.remove address length }

/-- The range a call is about. -/
def address : MappingCall → ℕ
  | map _ address _ _ | mapShared _ address _ _ _ _ | protect address _ _ | unmap address _ =>
    address

def length : MappingCall → ℕ
  | map _ _ length _ | mapShared _ _ length _ _ _ | protect _ length _ | unmap _ length => length

/-- A call that creates a mapping. -/
def isMap : MappingCall → Bool
  | map .. | mapShared .. => true
  | protect .. | unmap .. => false

def isUnmap : MappingCall → Bool
  | unmap .. => true
  | map .. | mapShared .. | protect .. => false

end MappingCall

namespace GuestMemory

variable (backings : Backings)

/-- Run one mapping call. -/
def perform (m : GuestMemory) : MappingCall → Bool × GuestMemory
  | .map alloc address length protection => m.mapLocked alloc address length protection
  | .mapShared alloc address length protection backing backingOffset =>
    m.mapShared backings alloc address length protection backing backingOffset
  | .protect address length protection => m.protect address length protection
  | .unmap address length => m.unmap address length

/-- The maps the tables denote. -/
def space (m : GuestMemory) : AddressSpace := ⟨m.protections, m.identities, m.sharing⟩

variable {m : GuestMemory}

/-! ## What each call can do -/

variable (m)

/-- The state after a failed mapping attempt: at most a generation is spent. -/
def spend (generation : GuestMemoryGeneration) (exhausted : Bool) : GuestMemory :=
  { m with nextMappingGeneration := generation, mappingGenerationExhausted := exhausted }

/-- The state after a successful mapping. -/
def withMapping (address length : ℕ) (protection : GuestMemoryProtection)
    (generation : GuestMemoryGeneration) : GuestMemory :=
  { m with
    regions := coalesce (insertSorted m.regions ⟨address, length, protection⟩)
    mappingIdentityRegions :=
      coalesce (insertSorted m.mappingIdentityRegions ⟨address, length, generation⟩)
    nextMappingGeneration := generation }

theorem eraseIdx_insertSorted {ρ : Type*} [Spanned ρ] (t : List ρ) (x : ρ) :
    (insertSorted t x).eraseIdx (lowerBound t (start x)) = t :=
  List.eraseIdx_insertIdx_self x

theorem allocateMappingGenerationLocked_cases :
    (∃ exhausted, (m.mappingGenerationExhausted = true → exhausted = true) ∧
        m.allocateMappingGenerationLocked = (none, m.spend m.nextMappingGeneration exhausted)) ∨
      (m.mappingGenerationExhausted = false ∧ ∃ generation, m.nextMappingGeneration < generation ∧
        m.allocateMappingGenerationLocked =
          (some generation, { m with nextMappingGeneration := generation })) := by
  rw [allocateMappingGenerationLocked]
  split_ifs with hspent
  · exact .inl ⟨_, id, rfl⟩
  · cases hadvance : advanceGuestMemoryGeneration m.nextMappingGeneration with
    | none => exact .inl ⟨true, fun _ => rfl, rfl⟩
    | some generation =>
      exact .inr ⟨eq_false_of_ne_true hspent, generation, lt_of_advance hadvance, rfl⟩

section

variable (alloc : MapAllocations) (address length : ℕ) (protection : GuestMemoryProtection)

theorem mapLocked_cases :
    (∃ generation exhausted, m.nextMappingGeneration ≤ generation ∧
        (m.mappingGenerationExhausted = true → exhausted = true) ∧
        m.mapLocked alloc address length protection = (false, m.spend generation exhausted)) ∨
      (m.canMapLocked address length = true ∧ m.mappingGenerationExhausted = false ∧
        ∃ generation, m.nextMappingGeneration < generation ∧
          m.mapLocked alloc address length protection =
            (true, m.withMapping address length protection generation)) := by
  rw [mapLocked]
  rcases m.allocateMappingGenerationLocked_cases with
    ⟨exhausted, hmono, hnone⟩ | ⟨hspent, generation, hlt, hsome⟩
  · rw [hnone]
    dsimp only
    split_ifs
    · exact .inl ⟨_, _, le_rfl, id, rfl⟩
    · exact .inl ⟨_, _, le_rfl, id, rfl⟩
    · exact .inl ⟨_, exhausted, le_rfl, hmono, rfl⟩
  · rw [hsome]
    split_ifs with _ hmap
    · exact .inl ⟨_, _, le_rfl, id, rfl⟩
    · exact .inl ⟨_, _, le_rfl, id, rfl⟩
    · exact .inl ⟨_, _, hlt.le, id, rfl⟩
    · -- the second insertion fails, so the first is undone
      have herase := eraseIdx_insertSorted m.regions
        (⟨address, length, protection⟩ : GuestMemoryRegion)
      exact .inl ⟨generation, _, hlt.le, id, congrArg (fun regions =>
        (false, { m with regions, nextMappingGeneration := generation })) herase⟩
    · simp only [Bool.not_eq_true', Bool.not_eq_false] at hmap
      exact .inr ⟨hmap, hspent, generation, hlt, rfl⟩

/-- The table of shared mappings with one more entry. -/
def withSharedMapping (mapping : SharedMapping) : GuestMemory :=
  { m with sharedMappings := insertSorted m.sharedMappings mapping }

theorem mapShared_cases (backing : Option BackingId) (backingOffset : ℕ) :
    (∃ generation exhausted, m.nextMappingGeneration ≤ generation ∧
        (m.mappingGenerationExhausted = true → exhausted = true) ∧
        m.mapShared backings alloc address length protection backing backingOffset =
          (false, m.spend generation exhausted)) ∨
      (∃ id, backing = some id ∧ (backings id).contains backingOffset length = true ∧
        m.canMapLocked address length = true ∧ m.mappingGenerationExhausted = false ∧
        ∃ generation, m.nextMappingGeneration < generation ∧
          m.mapShared backings alloc address length protection backing backingOffset =
            (true, (m.withSharedMapping ⟨address, length, backingOffset, id⟩).withMapping
              address length protection generation)) := by
  cases backing with
  | none => exact .inl ⟨_, _, le_rfl, id, rfl⟩
  | some backing =>
    simp only [mapShared]
    split_ifs with hreject hshared
    · exact .inl ⟨_, _, le_rfl, id, rfl⟩
    · exact .inl ⟨_, _, le_rfl, id, rfl⟩
    simp only [Bool.or_eq_true, not_or, Bool.not_eq_true', Bool.not_eq_false] at hreject
    rw [← withSharedMapping]
    rcases mapLocked_cases (m.withSharedMapping ⟨address, length, backingOffset, backing⟩)
        alloc address length protection with
      ⟨generation, exhausted, hle, hmono, heq⟩ | ⟨-, hspent, generation, hlt, heq⟩
    · rw [heq]
      have herase := eraseIdx_insertSorted m.sharedMappings
        (⟨address, length, backingOffset, backing⟩ : SharedMapping)
      exact .inl ⟨generation, exhausted, hle, hmono, congrArg (fun sharedMappings =>
        (false, ({ m with sharedMappings } : GuestMemory).spend generation exhausted)) herase⟩
    · rw [heq]
      exact .inr ⟨backing, rfl, hreject.1.1, hreject.2, hspent, generation, hlt, rfl⟩

theorem protect_cases : m.protect address length protection = (false, m) ∨
      (length ≠ 0 ∧ m.isMappedLocked address length = true ∧ m.protect address length protection =
          (true, { m with
            regions := coalesce (m.regions.flatMap
              (protectRegion address (address + length) protection)) })) := by
  rw [protect]
  split_ifs with hreject hmapped
  · exact .inl rfl
  · exact .inl rfl
  · simp only [Bool.or_eq_true, not_or, decide_eq_true_eq, Bool.not_eq_true',
      Bool.not_eq_false] at hreject hmapped
    exact .inr ⟨hreject.1, hmapped, rfl⟩

theorem unmap_cases : m.unmap address length = (false, m) ∨
      (length ≠ 0 ∧ m.isMappedLocked address length = true ∧ m.unmap address length =
          (true, { m with
            bytes := fun o =>
              if m.offsetOf address ≤ o ∧ o < m.offsetOf address + length then 0 else m.bytes o
            regions := coalesce (m.regions.flatMap (unmapRegion address (address + length)))
            mappingIdentityRegions := coalesce
              (m.mappingIdentityRegions.flatMap (unmapIdentity address (address + length)))
            sharedMappings :=
              m.sharedMappings.flatMap (unmapSharedMapping address (address + length)) })) := by
  rw [unmap]
  split_ifs with hlen hmapped
  · exact .inl rfl
  · exact .inl rfl
  · rw [Bool.not_eq_true', Bool.not_eq_false] at hmapped
    exact .inr ⟨hlen, hmapped, rfl⟩

end

variable {m}

/-! ## The table updates on the maps -/

theorem unmapRegion_eq_resect (address rangeEnd : ℕ) (region : GuestMemoryRegion) :
    unmapRegion address rangeEnd region = resect (fun _ => []) address rangeEnd region := by
  simp only [resect, List.append_nil]
  rfl

theorem unmapIdentity_eq_cut (address rangeEnd : ℕ) (identity : MappingIdentityRegion) :
    unmapIdentity address rangeEnd identity = cut address rangeEnd identity := by
  have hstart : start identity = identity.address := rfl
  have hstop : stop identity = identity.address + identity.size := rfl
  simp only [unmapIdentity, cut, hstart, hstop]
  split_ifs with hout hall hfront hback
  · rfl
  · rfl
  · simp only [slice, List.cons.injEq, MappingIdentityRegion.mk.injEq, and_true, true_and]
    omega
  · rfl
  · rfl

theorem unmapSharedMapping_eq_cut (address rangeEnd : ℕ) (mapping : SharedMapping) :
    unmapSharedMapping address rangeEnd mapping = cut address rangeEnd mapping := by
  have hstart : start mapping = mapping.address := rfl
  have hstop : stop mapping = mapping.address + mapping.size := rfl
  simp only [unmapSharedMapping, cut, hstart, hstop]
  split_ifs with hout hall hfront hback
  · rfl
  · rfl
  · simp only [slice, List.cons.injEq, SharedMapping.mk.injEq, and_true, true_and]
    omega
  · simp [slice]
  · simp [slice]

section

variable {ρ ν : Type*} [SlicedSpan ρ ν] {t : List ρ}

/-- The table is ordered and denotes the map. -/
def Represents (t : List ρ) (f : AddressMap ν) : Prop := IsOrdered t ∧ denote t = f

theorem Represents.coalesce {ρ : Type*} [MergingSpan ρ ν] {t : List ρ} {f : AddressMap ν}
    (h : Represents t f) : Represents (Math.coalesce t) f :=
  ⟨h.1.coalesce, (funext (denote_coalesce h.1)).trans h.2⟩

/-- Inserting a record over free addresses assigns its values to them. -/
theorem insertSorted_of_free (h : IsOrdered t) {x : ρ} (hpos : 0 < size x)
    (hfree : ∀ a, InRange (start x) (size x) a → denote t a = none) :
    Represents (insertSorted t x) (assign (denote t) (start x) (size x) (valueAt x)) := by
  have hlt : start x < stop x := Nat.lt_add_of_pos_right hpos
  have hgap := (forall_denote_eq_none_iff h hlt).mp fun _ hlo hhi => hfree _ ⟨hlo, hhi⟩
  exact ⟨h.insertSorted hpos hgap, funext (denote_insertSorted h hgap)⟩

/-- The table after a range is unmapped. -/
theorem remove_flatMap (h : IsOrdered t) (address : ℕ) {length : ℕ} (hlen : length ≠ 0)
    {f : ρ → List ρ} (hf : ∀ r ∈ t, f r = resect (fun _ => []) address (address + length) r) :
    Represents (t.flatMap f) (remove (denote t) address length) := by
  have htable : t.flatMap f = resectTable (fun _ => []) address (address + length) t :=
    List.flatMap_congr hf
  rw [htable]
  obtain ⟨hord, hdenote⟩ := resectTable_nil h (show address < address + length by omega)
  exact ⟨hord, funext hdenote⟩

end

variable {address length : ℕ}

section

variable (h : m.WellFormed)
include h

section

variable (hmap : m.canMapLocked address length = true)
include hmap

theorem regions_withMapping (protection : GuestMemoryProtection) :
    Represents (coalesce (insertSorted m.regions ⟨address, length, protection⟩))
      (m.protections.assign address length fun _ => protection) :=
  .coalesce (insertSorted_of_free h.regions ((canMapLocked_iff h).mp hmap).1
    fun _ ha => (h.free_of_canMapLocked hmap ha).1)

theorem identityRegions_withMapping (generation : GuestMemoryGeneration) :
    Represents (coalesce (insertSorted m.mappingIdentityRegions ⟨address, length, generation⟩))
      (m.identities.assign address length fun _ => generation) :=
  .coalesce (insertSorted_of_free h.identityRegions ((canMapLocked_iff h).mp hmap).1
    fun _ ha => (h.free_of_canMapLocked hmap ha).2.1)

theorem sharedMappings_withSharedMapping (backingOffset : ℕ) (backing : BackingId) :
    Represents (insertSorted m.sharedMappings ⟨address, length, backingOffset, backing⟩)
      (m.sharing.assign address length fun a => (backing, backingOffset + (a - address))) :=
  insertSorted_of_free h.shared ((canMapLocked_iff h).mp hmap).1
    fun _ ha => (h.free_of_canMapLocked hmap ha).2.2

/-- A new mapping keeps the tables well formed, whatever shared mapping came
with it. -/
theorem WellFormed.withMapping
    {protection : GuestMemoryProtection} {generation : GuestMemoryGeneration}
    (hlt : m.nextMappingGeneration < generation) {shared : List SharedMapping}
    (hshared : IsOrdered shared) (hshare : ∀ a b, denote shared a = some b →
      InRange address length a ∨ m.sharing a = some b) :
    (({ m with sharedMappings := shared } : GuestMemory).withMapping
      address length protection generation).WellFormed := by
  obtain ⟨hregions, hprot⟩ := regions_withMapping h hmap protection
  obtain ⟨hids, hidentities⟩ := identityRegions_withMapping h hmap generation
  have hwin := contains_iff.mp ((canMapLocked_iff h).mp hmap).2.1
  refine
    { window := h.window
      regions := hregions
      coalesced := isChain_coalesce _
      inWindow := ?_
      identityRegions := hids
      identities_isSome := ?_
      identities_le := ?_
      shared := hshared
      sharing_mapped := ?_ }
  · intro a p hp
    rw [protections, GuestMemory.withMapping, hprot, assign] at hp
    split_ifs at hp with ha
    · simp only [InWindow, InRange, GuestMemory.withMapping] at ha ⊢
      omega
    · exact h.inWindow a p hp
  · intro a
    rw [identities, protections, GuestMemory.withMapping, hprot, hidentities, assign, assign]
    split_ifs
    · rfl
    · exact h.identities_isSome a
  · intro a g hg
    rw [identities, GuestMemory.withMapping, hidentities, assign] at hg
    split_ifs at hg with ha
    · exact le_of_eq (Option.some.inj hg).symm
    · exact le_of_lt (lt_of_le_of_lt (h.identities_le a g hg) hlt)
  · intro a b hb
    rw [protections, GuestMemory.withMapping, hprot, assign]
    split_ifs with ha
    · rfl
    · exact h.sharing_mapped a b ((hshare a b hb).resolve_left ha)

end

theorem repaint_flatMap (address : ℕ) (hlen : length ≠ 0) (protection : GuestMemoryProtection) :
    Represents (coalesce (m.regions.flatMap
        (protectRegion address (address + length) protection)))
      (m.protections.repaint address length protection) := by
  have hlt : address < address + length := by omega
  have hmiddle : ∀ p : GuestMemoryRegion, 0 < size p → PiecesOf p [{ p with protection }] := by
    intro p hpos
    refine ⟨cons hpos (by simp) nil, fun q hq => ?_⟩
    obtain rfl := List.mem_singleton.mp hq
    exact ⟨le_rfl, le_rfl⟩
  have htable : m.regions.flatMap (protectRegion address (address + length) protection) =
      resectTable (fun p => [{ p with protection }]) address (address + length) m.regions := rfl
  rw [htable]
  refine .coalesce ⟨h.regions.resectTable hmiddle hlt, funext fun a => ?_⟩
  rw [denote_resectTable hmiddle (g := fun _ => some protection)
    (fun _ _ ha => by rw [denote_cons]; exact if_pos ha) h.regions hlt]
  rw [repaint]
  by_cases ha : InRange address length a
  · have ha' : address ≤ a ∧ a < address + length := ha
    rw [if_pos ha, if_pos ha', protections]
    cases denote m.regions a <;> rfl
  · have ha' : ¬ (address ≤ a ∧ a < address + length) := ha
    rw [if_neg ha, if_neg ha', protections]

end

/-! ## One call -/

/-- The three tables after a range is unmapped. -/
theorem unmap_tables (h : m.WellFormed) (address : ℕ) (hlen : length ≠ 0) :
    Represents (coalesce (m.regions.flatMap (unmapRegion address (address + length))))
      (m.protections.remove address length) ∧
    Represents (coalesce
        (m.mappingIdentityRegions.flatMap (unmapIdentity address (address + length))))
      (m.identities.remove address length) ∧
    Represents (m.sharedMappings.flatMap (unmapSharedMapping address (address + length)))
      (m.sharing.remove address length) := by
  have hlt : address < address + length := by omega
  refine ⟨.coalesce (remove_flatMap h.regions _ hlen fun r _ => unmapRegion_eq_resect _ _ r),
    .coalesce (remove_flatMap h.identityRegions _ hlen fun r hr => ?_),
    remove_flatMap h.shared _ hlen fun r hr => ?_⟩
  · exact (unmapIdentity_eq_cut _ _ r).trans (cut_eq_resect hlt (h.identityRegions.size_pos r hr))
  · exact (unmapSharedMapping_eq_cut _ _ r).trans (cut_eq_resect hlt (h.shared.size_pos r hr))

/-- What holds after a failed call: every table and every byte is as before. -/
structure Unchanged (m m' : GuestMemory) : Prop where
  baseAddress : m'.baseAddress = m.baseAddress
  storageSize : m'.storageSize = m.storageSize
  bytes : m'.bytes = m.bytes
  regions : m'.regions = m.regions
  mappingIdentityRegions : m'.mappingIdentityRegions = m.mappingIdentityRegions
  sharedMappings : m'.sharedMappings = m.sharedMappings
  generation_le : m.nextMappingGeneration ≤ m'.nextMappingGeneration
  exhausted : m.mappingGenerationExhausted = true → m'.mappingGenerationExhausted = true

/-- What holds after a successful call. -/
structure Performed (m : GuestMemory) (call : MappingCall) (m' : GuestMemory) : Prop where
  baseAddress : m'.baseAddress = m.baseAddress
  storageSize : m'.storageSize = m.storageSize
  space : m'.space = call.effect m'.nextMappingGeneration m.space
  /-- A call that creates a mapping needs a free range, the others a mapped one. -/
  range : ∀ a, InRange call.address call.length a →
    m.InWindow a ∧ ((m.protections a).isSome = !call.isMap)
  /-- Only a new mapping advances the generation. -/
  generation : if call.isMap then m.nextMappingGeneration < m'.nextMappingGeneration
    else m'.nextMappingGeneration = m.nextMappingGeneration
  exhausted : m'.mappingGenerationExhausted = m.mappingGenerationExhausted
  /-- Only unmapping touches the private bytes. -/
  bytes : ∀ a, m.InWindow a → m'.bytes (m.offsetOf a) =
    if call.isUnmap = true ∧ InRange call.address call.length a then 0
    else m.bytes (m.offsetOf a)

theorem Unchanged.refl (m : GuestMemory) : m.Unchanged m :=
  ⟨rfl, rfl, rfl, rfl, rfl, rfl, le_rfl, id⟩

theorem WellFormed.of_unchanged (h : m.WellFormed) {m' : GuestMemory} (hm : m.Unchanged m') :
    m'.WellFormed := by
  obtain ⟨hbase, hsize, -, hregions, hids, hshared, hle, -⟩ := hm
  cases m'
  cases hbase
  cases hsize
  cases hregions
  cases hids
  cases hshared
  exact { h with identities_le := fun a g hg => (h.identities_le a g hg).trans hle }

theorem range_of_canMapLocked (h : m.WellFormed) (hmap : m.canMapLocked address length = true)
    {a : ℕ} (ha : InRange address length a) : m.InWindow a ∧ (m.protections a).isSome = false := by
  have hwin := contains_iff.mp ((canMapLocked_iff h).mp hmap).2.1
  refine ⟨?_, by rw [(h.free_of_canMapLocked hmap ha).1]; rfl⟩
  simp only [InWindow, InRange] at ha ⊢
  omega

theorem range_of_isMappedLocked (h : m.WellFormed) (hlen : length ≠ 0)
    (hmapped : m.isMappedLocked address length = true) {a : ℕ} (ha : InRange address length a) :
    m.InWindow a ∧ (m.protections a).isSome = true := by
  have hsome := (isMappedLocked_iff h hlen).mp hmapped a ha
  obtain ⟨p, hp⟩ := Option.isSome_iff_exists.mp hsome
  exact ⟨h.inWindow a p hp, hsome⟩

/-- A call either fails without a trace or does what it says to every byte, and
in both cases leaves a well-formed memory. -/
structure Outcome (m : GuestMemory) (call : MappingCall) (result : Bool × GuestMemory) : Prop where
  wellFormed : result.2.WellFormed
  cases : (result.1 = false ∧ m.Unchanged result.2) ∨ (result.1 = true ∧ m.Performed call result.2)

section

variable (address length) (h : m.WellFormed) (alloc : MapAllocations)
  (protection : GuestMemoryProtection)
include h

/-- A failed attempt to map. -/
theorem Outcome.spend {call : MappingCall} {generation : GuestMemoryGeneration}
    {exhausted : Bool} (hle : m.nextMappingGeneration ≤ generation)
    (hmono : m.mappingGenerationExhausted = true → exhausted = true) :
    m.Outcome call (false, m.spend generation exhausted) := by
  have hsame : m.Unchanged (m.spend generation exhausted) :=
    ⟨rfl, rfl, rfl, rfl, rfl, rfl, hle, hmono⟩
  exact ⟨h.of_unchanged hsame, .inl ⟨rfl, hsame⟩⟩

theorem mapLocked_outcome : m.Outcome (.map alloc address length protection)
      (m.mapLocked alloc address length protection) := by
  rcases mapLocked_cases m alloc address length protection with
    ⟨generation, exhausted, hle, hmono, heq⟩ | ⟨hmap, -, generation, hlt, heq⟩
  · rw [heq]
    exact .spend h hle hmono
  rw [heq]
  refine ⟨h.withMapping hmap hlt h.shared fun a b hb => .inr hb, .inr ⟨rfl, ?_⟩⟩
  exact
    { baseAddress := rfl
      storageSize := rfl
      space := AddressSpace.ext (regions_withMapping h hmap protection).2
        (identityRegions_withMapping h hmap generation).2 rfl
      range := fun a ha => range_of_canMapLocked h hmap ha
      generation := hlt
      exhausted := rfl
      bytes := fun a _ => rfl }

theorem mapShared_outcome (backing : Option BackingId) (backingOffset : ℕ) :
    m.Outcome (.mapShared alloc address length protection backing backingOffset)
      (m.mapShared backings alloc address length protection backing backingOffset) := by
  rcases mapShared_cases backings m alloc address length protection backing backingOffset with
    ⟨generation, exhausted, hle, hmono, heq⟩ |
      ⟨backing, rfl, -, hmap, -, generation, hlt, heq⟩
  · rw [heq]
    exact .spend h hle hmono
  rw [heq]
  obtain ⟨hshared, hshare⟩ := sharedMappings_withSharedMapping h hmap backingOffset backing
  refine ⟨h.withMapping hmap hlt hshared fun a b hb => ?_, .inr ⟨rfl, ?_⟩⟩
  · rw [hshare, assign] at hb
    split_ifs at hb with ha
    · exact .inl ha
    · exact .inr hb
  · exact
      { baseAddress := rfl
        storageSize := rfl
        space := AddressSpace.ext (regions_withMapping h hmap protection).2
          (identityRegions_withMapping h hmap generation).2 hshare
        range := fun a ha => range_of_canMapLocked h hmap ha
        generation := hlt
        exhausted := rfl
        bytes := fun a _ => rfl }

theorem protect_outcome :
    m.Outcome (.protect address length protection) (m.protect address length protection) := by
  rcases protect_cases m address length protection with heq | ⟨hlen, hmapped, heq⟩
  · rw [heq]
    exact ⟨h, .inl ⟨rfl, Unchanged.refl m⟩⟩
  rw [heq]
  obtain ⟨hregions, hprot⟩ := repaint_flatMap h _ hlen protection
  have hsome : ∀ a, (m.protections.repaint address length protection a).isSome =
      (m.protections a).isSome := by
    intro a
    rw [repaint]
    split_ifs <;> simp
  refine ⟨?_, .inr ⟨rfl, ?_⟩⟩
  · exact
      { h with
        regions := hregions
        coalesced := isChain_coalesce _
        inWindow := fun a p hp => by
          rw [protections, hprot] at hp
          have hold := hsome a
          rw [hp] at hold
          obtain ⟨q, hq⟩ := Option.isSome_iff_exists.mp hold.symm
          exact h.inWindow a q hq
        identities_isSome := fun a => by
          rw [protections, hprot, hsome]
          exact h.identities_isSome a
        sharing_mapped := fun a b hb => by
          rw [protections, hprot, hsome]
          exact h.sharing_mapped a b hb }
  · exact
      { baseAddress := rfl
        storageSize := rfl
        space := AddressSpace.ext hprot rfl rfl
        range := fun a ha => range_of_isMappedLocked h hlen hmapped ha
        generation := rfl
        exhausted := rfl
        bytes := fun a _ => rfl }

theorem unmap_outcome : m.Outcome (.unmap address length) (m.unmap address length) := by
  rcases unmap_cases m address length with heq | ⟨hlen, hmapped, heq⟩
  · rw [heq]
    exact ⟨h, .inl ⟨rfl, Unchanged.refl m⟩⟩
  rw [heq]
  obtain ⟨⟨hregions, hprot⟩, ⟨hids, hidentities⟩, hshared, hshare⟩ := unmap_tables h _ hlen
  refine ⟨?_, .inr ⟨rfl, ?_⟩⟩
  · exact
      { window := h.window
        regions := hregions
        coalesced := isChain_coalesce _
        inWindow := fun a p hp => by
          rw [protections, hprot, remove] at hp
          split_ifs at hp with ha
          exact h.inWindow a p hp
        identityRegions := hids
        identities_isSome := fun a => by
          rw [identities, protections, hprot, hidentities, remove, remove]
          split_ifs
          · rfl
          · exact h.identities_isSome a
        identities_le := fun a g hg => by
          rw [identities, hidentities, remove] at hg
          split_ifs at hg with ha
          exact h.identities_le a g hg
        shared := hshared
        sharing_mapped := fun a b hb => by
          rw [sharing, hshare, remove] at hb
          split_ifs at hb with ha
          rw [protections, hprot, remove, if_neg ha]
          exact h.sharing_mapped a b hb }
  · exact
      { baseAddress := rfl
        storageSize := rfl
        space := AddressSpace.ext hprot hidentities hshare
        range := fun a ha => range_of_isMappedLocked h hlen hmapped ha
        generation := rfl
        exhausted := rfl
        bytes := fun a ha => by
          have hfirst := (range_of_isMappedLocked h hlen hmapped
            (inRange_self (Nat.pos_of_ne_zero hlen))).1
          simp only [MappingCall.isUnmap, MappingCall.address, MappingCall.length, true_and,
            InWindow, InRange, offsetOf] at ha hfirst ⊢
          congr 1
          exact propext ⟨fun _ => by omega, fun _ => by omega⟩ }

end

theorem perform_outcome (h : m.WellFormed) (call : MappingCall) : m.Outcome call
    (m.perform backings call) := by
  cases call with
  | map alloc address length protection => exact mapLocked_outcome _ _ h _ _
  | mapShared alloc address length protection backing backingOffset =>
    exact mapShared_outcome _ _ _ h _ _ _ _
  | protect address length protection => exact protect_outcome _ _ h _
  | unmap address length => exact unmap_outcome _ _ h

/-- Mapping calls leave the window and the write generations alone. -/
theorem perform_frame (m : GuestMemory) (call : MappingCall) :
    (m.perform backings call).2.baseAddress = m.baseAddress ∧
      (m.perform backings call).2.storageSize = m.storageSize ∧
      (m.perform backings call).2.writeGeneration = m.writeGeneration := by
  cases call with
  | map alloc address length protection =>
    rw [perform]
    rcases mapLocked_cases m alloc address length protection with
      ⟨_, _, -, -, heq⟩ | ⟨-, -, _, -, heq⟩ <;> rw [heq] <;> exact ⟨rfl, rfl, rfl⟩
  | mapShared alloc address length protection backing backingOffset =>
    rw [perform]
    rcases mapShared_cases backings m alloc address length protection backing backingOffset with
      ⟨_, _, -, -, heq⟩ | ⟨_, -, -, -, -, _, -, heq⟩ <;> rw [heq] <;> exact ⟨rfl, rfl, rfl⟩
  | protect address length protection =>
    rw [perform]
    rcases protect_cases m address length protection with
      heq | ⟨-, -, heq⟩ <;> rw [heq] <;> exact ⟨rfl, rfl, rfl⟩
  | unmap address length =>
    rw [perform]
    rcases unmap_cases m address length with
      heq | ⟨-, -, heq⟩ <;> rw [heq] <;> exact ⟨rfl, rfl, rfl⟩

/-! ## Constructed memories and sequences of calls -/

/-- The address space of a memory as constructed. -/
def initialSpace (baseAddress size : ℕ) (initialProtection : GuestMemoryProtection) :
    AddressMap GuestMemoryProtection := fun a =>
  if initialProtection ≠ kNone ∧ InRange baseAddress size a then some initialProtection else none

theorem create_spec {baseAddress size : ℕ} {initialProtection : GuestMemoryProtection}
    (h : create baseAddress size initialProtection = some m) :
    m.WellFormed ∧ m.protections = initialSpace baseAddress size initialProtection ∧
      m.baseAddress = baseAddress ∧ m.storageSize = size ∧ m.sharedMappings = [] ∧
        ∀ o, m.bytes o = 0 := by
  rw [create] at h
  split_ifs at h with hwin hvalid hmapped
  · have hadvance : advanceGuestMemoryGeneration {} = some { epoch := 0, sequence := 1 } := rfl
    simp only [allocateMappingGenerationLocked, hadvance, Bool.false_eq_true, if_false,
      Option.some.injEq] at h
    subst h
    have hsize : 0 < size := Nat.pos_of_ne_zero hmapped.1
    have hregion : ∀ a, denote [(⟨baseAddress, size, initialProtection⟩ : GuestMemoryRegion)] a =
        if InRange baseAddress size a then some initialProtection else none :=
      fun a => denote_cons _ _ a
    have hidentity : ∀ a, denote [(⟨baseAddress, size, ⟨0, 1⟩⟩ : MappingIdentityRegion)] a =
        if InRange baseAddress size a then some ⟨0, 1⟩ else none :=
      fun a => denote_cons _ _ a
    have hprot : ∀ a, denote
        [(⟨baseAddress, size, initialProtection⟩ : GuestMemoryRegion)] a =
          initialSpace baseAddress size initialProtection a := by
      intro a
      simp [hregion, initialSpace, hmapped.2]
    refine ⟨?_, funext hprot, rfl, rfl, rfl, fun _ => rfl⟩
    exact
      { window := not_lt.mp hwin
        regions := cons hsize (by simp) nil
        coalesced := List.isChain_singleton _
        inWindow := fun a p hp => by
          rw [protections, hprot, initialSpace] at hp
          split_ifs at hp with ha
          exact ha.2
        identityRegions := cons hsize (by simp) nil
        identities_isSome := fun a => by
          rw [identities, protections, hregion, hidentity]
          split_ifs <;> rfl
        identities_le := fun a g hg => by
          rw [identities, hidentity] at hg
          split_ifs at hg
          exact le_of_eq (Option.some.inj hg).symm
        shared := nil
        sharing_mapped := fun a b hb => by simp [sharing] at hb }
  · simp only [Option.some.injEq] at h
    subst h
    refine ⟨?_, funext fun a => ?_, rfl, rfl, rfl, fun _ => rfl⟩
    · exact
        { window := not_lt.mp hwin
          regions := nil
          coalesced := List.isChain_nil
          inWindow := fun a p hp => by simp [protections] at hp
          identityRegions := nil
          identities_isSome := fun a => rfl
          identities_le := fun a g hg => by simp [identities] at hg
          shared := nil
          sharing_mapped := fun a b hb => by simp [sharing] at hb }
    · rw [initialSpace, if_neg]
      · rfl
      · rintro ⟨hprotection, ha⟩
        refine hmapped ⟨?_, hprotection⟩
        simp only [InRange] at ha
        omega

/-- The memory after a call. -/
def step (backings : Backings) (m : GuestMemory) (call : MappingCall) : GuestMemory :=
  (m.perform backings call).2

/-- The memory after a sequence of calls. -/
def run (backings : Backings) (m : GuestMemory) (calls : List MappingCall) : GuestMemory :=
  StepRuns.run (step backings) m calls

/-- The calls of a sequence with their answers. -/
def answers (backings : Backings) : GuestMemory → List MappingCall → List (MappingCall × Bool)
  | _, [] => []
  | m, call :: calls =>
    (call, (m.perform backings call).1) :: answers backings (m.perform backings call).2 calls

theorem run_wellFormed (backings : Backings) (h : m.WellFormed) (calls : List MappingCall) :
    (m.run backings calls).WellFormed :=
  StepRuns.run_induction (P := WellFormed) _
    (fun _ call h => (perform_outcome _ h call).wellFormed) h calls

end GuestMemory

end KajPS5.Memory
