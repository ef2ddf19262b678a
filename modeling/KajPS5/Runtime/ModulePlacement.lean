/-
# Where adjacent modules are placed

`LoadAdjacent` lays the modules of a title out one after another. A module starts
at the next multiple of the largest alignment among a page and its load segments,
and its load bias is the distance of that start from the lowest address the
module asks for. The pages of two modules never meet. A segment keeps its residue
modulo its alignment only if the alignment divides that lowest address.
-/

import KajPS5.Loader.ElfLoader
import KajPS5.Math.Postconditions
import Mathlib.Data.Nat.ModEq

namespace KajPS5.Runtime

open Loader Math Memory DefinedRuns List
open Math.Postconditions (exists_of_bind_eq_ok)

def kHleDataPageSize : ℕ := 0x4000

/-- `ElfLoadRangeResult`; an error is the result's error. -/
structure ElfLoadRange where
  (baseAddress size loadSegmentCount : ℕ := 0)
  deriving DecidableEq, Repr

/-- One iteration of `CalculateElfLoadRange` over the least and the greatest
address and the count. -/
def extendRange (bounds : ℕ × ℕ × ℕ) (header : ElfProgramHeader) : Except ElfError (ℕ × ℕ × ℕ) :=
  if !header.isLoaded then .ok bounds
  else if header.memorySize > uint64Max - header.virtualAddress then
    .error .kSegmentAddressRangeOverflow
  else .ok (min bounds.1 header.virtualAddress,
    max bounds.2.1 (header.virtualAddress + header.memorySize), bounds.2.2 + 1)

variable (metadata : ElfMetadata)

def calculateElfLoadRange : Except ElfError ElfLoadRange := do
  let bounds ← metadata.programHeaders.foldlM extendRange (uint64Max, 0, 0)
  pure (if bounds.2.2 = 0 then {} else ⟨bounds.1, bounds.2.1 - bounds.1, bounds.2.2⟩)

/-- A parsed module: its headers have passed the check of the parser. -/
structure AdjacentModuleImage where
  guestPath : String
  metadata : ElfMetadata
  checked : ∀ header ∈ metadata.programHeaders, checkProgramHeader header = pure ()

inductive ModuleRuntimeStatus
  | kLoadRangeFailed | kLayoutOverflow | kMemoryRangeExceeded
  deriving DecidableEq, Repr

structure ModuleRuntimeFailure where
  status : ModuleRuntimeStatus
  programIndex : ℕ
  failurePath : String
  elfError : Option ElfError := none
  deriving DecidableEq, Repr

structure Placement where
  range : ElfLoadRange
  (loadAddress loadBias : ℕ)
  deriving DecidableEq, Repr

def alignUp (value alignment : ℕ) : Option ℕ :=
  if alignment = 0 ∨ alignment &&& (alignment - 1) ≠ 0 then none
  else if value > uint64Max - (alignment - 1) then none
  else some (clearMask (value + (alignment - 1)) (alignment - 1))

def requiredAlignment : ℕ :=
  metadata.programHeaders.foldl
    (fun alignment header => if header.isLoaded then max alignment header.alignment else alignment)
    kHleDataPageSize

/-- One iteration of the placement loop. -/
def placeModule (memory : GuestMemory) (index cursor : ℕ) (m : AdjacentModuleImage) :
    Except ModuleRuntimeFailure Placement := match calculateElfLoadRange m.metadata with
  | .error e => .error ⟨.kLoadRangeFailed, index + 1, m.guestPath, some e⟩
  | .ok range =>
    if range.loadSegmentCount = 0 then .error ⟨.kLoadRangeFailed, index + 1, m.guestPath, none⟩
    else match alignUp cursor (requiredAlignment m.metadata) with
      | none => .error ⟨.kLayoutOverflow, index + 1, m.guestPath, none⟩
      | some loadAddress =>
        if loadAddress < range.baseAddress ∨ range.size > uint64Max - loadAddress then
          .error ⟨.kLayoutOverflow, index + 1, m.guestPath, none⟩
        else if !memory.contains loadAddress range.size then
          .error ⟨.kMemoryRangeExceeded, index + 1, m.guestPath, none⟩
        else .ok ⟨range, loadAddress, loadAddress - range.baseAddress⟩

/-- The placement loop of `LoadAdjacent`, from its index and cursor. -/
def placeModules (memory : GuestMemory) : ℕ → ℕ → List AdjacentModuleImage →
    Except ModuleRuntimeFailure (List Placement)
  | _, _, [] => .ok []
  | index, cursor, m :: rest => do
    let placement ← placeModule memory index cursor m
    let placed ← placeModules memory (index + 1) (placement.loadAddress + placement.range.size) rest
    pure (placement :: placed)

/-! ## One module -/

/-- The lowest address a load segment asks for. -/
def lowestAddress (headers : List ElfProgramHeader) : ℕ :=
  ((headers.filter (·.isLoaded)).map (·.virtualAddress)).foldl min uint64Max

/-- Every alignment of the module divides its lowest address. -/
def AdjacentModuleImage.BaseAligned (m : AdjacentModuleImage) : Prop :=
  ∀ header ∈ m.metadata.programHeaders, header.isLoaded → 1 < header.alignment →
    header.alignment ∣ lowestAddress m.metadata.programHeaders

/-- Every segment keeps its residue modulo its alignment. -/
def Placement.Congruent (p : Placement) (m : AdjacentModuleImage) : Prop :=
  ∀ header ∈ m.metadata.programHeaders, header.isLoaded → 1 < header.alignment →
    (p.loadBias + header.virtualAddress) % header.alignment =
      header.virtualAddress % header.alignment

variable {memory : GuestMemory} {index cursor : ℕ} {m : AdjacentModuleImage} {p : Placement}

theorem foldlM_extendRange (headers : List ElfProgramHeader) {bounds bounds' : ℕ × ℕ × ℕ}
    (h : headers.foldlM extendRange bounds = .ok bounds') :
    bounds'.1 = ((headers.filter (·.isLoaded)).map (·.virtualAddress)).foldl min bounds.1 := by
  induction headers generalizing bounds with
  | nil => cases h; rfl
  | cons header headers ih =>
    rw [foldlM_cons, extendRange] at h
    cases hload : header.isLoaded with
    | false =>
      rw [hload] at h
      rw [filter_cons_of_neg (by simp [hload])]
      exact ih h
    | true =>
      rw [hload, Bool.not_true, if_neg Bool.false_ne_true] at h
      rw [filter_cons_of_pos hload]
      split_ifs at h
      · cases h
      · exact ih h

/-- An accepted range starts at the lowest address of its module. -/
theorem baseAddress_calculateElfLoadRange {metadata : ElfMetadata} {range : ElfLoadRange}
    (h : calculateElfLoadRange metadata = .ok range) (hcount : range.loadSegmentCount ≠ 0) :
    range.baseAddress = lowestAddress metadata.programHeaders := by
  obtain ⟨bounds, hbounds, h⟩ := exists_of_bind_eq_ok h
  cases h
  split_ifs at hcount ⊢ with hzero
  · exact absurd rfl hcount
  · exact foldlM_extendRange _ hbounds

theorem alignUp_eq_some {value alignment result : ℕ} (h : alignUp value alignment = some result) :
    ∃ k, alignment = 2 ^ k ∧ result = roundUp alignment value := by
  rw [alignUp] at h
  split_ifs at h with hbits
  rw [not_or, not_not] at hbits
  obtain ⟨k, rfl⟩ := exists_eq_two_pow hbits.1 hbits.2
  rw [clearMask_two_pow] at h
  exact ⟨k, rfl, (Option.some.inj h).symm⟩

/-- The required alignment is at least that of a page and of every load segment. -/
theorem le_requiredAlignment :
    kHleDataPageSize ≤ requiredAlignment metadata ∧ ∀ header ∈ metadata.programHeaders,
      header.isLoaded → header.alignment ≤ requiredAlignment metadata := by
  rw [requiredAlignment]
  generalize kHleDataPageSize = start
  induction metadata.programHeaders generalizing start with
  | nil => exact ⟨Nat.le_refl _, fun _ h => absurd h not_mem_nil⟩
  | cons first headers ih =>
    rw [foldl_cons]
    obtain ⟨hstart, hheaders⟩ := ih (if first.isLoaded then max start first.alignment else start)
    refine ⟨Nat.le_trans ?_ hstart, forall_mem_cons.mpr ⟨fun hfirst => ?_, hheaders⟩⟩
    · split_ifs <;> omega
    · rw [if_pos hfirst] at hstart ⊢
      omega

/-- What an accepted module is given. -/
theorem placeModule_eq_ok (h : placeModule memory index cursor m = .ok p) :
    ∃ k, requiredAlignment m.metadata = 2 ^ k ∧ p.loadAddress = roundUp (2 ^ k) cursor ∧
      p.loadBias + lowestAddress m.metadata.programHeaders = p.loadAddress := by
  rw [placeModule] at h
  split at h
  · cases h
  next range hrange =>
  split_ifs at h with hcount
  split at h
  · cases h
  next loadAddress halign =>
  split_ifs at h with hspace hmemory
  cases h
  obtain ⟨k, hk, rfl⟩ := alignUp_eq_some halign
  refine ⟨k, hk, by rw [hk], ?_⟩
  rw [← baseAddress_calculateElfLoadRange hrange hcount]
  exact Nat.sub_add_cancel (by omega)

/-- A single-bit number divides every power of two that is not below it. -/
theorem dvd_two_pow_of_hasSingleBit {alignment k : ℕ} (h : hasSingleBit alignment)
    (hle : alignment ≤ 2 ^ k) : alignment ∣ 2 ^ k := by
  simp only [hasSingleBit, Bool.and_eq_true, decide_eq_true_eq] at h
  obtain ⟨j, rfl⟩ := exists_eq_two_pow h.1 h.2
  exact Nat.pow_dvd_pow 2 ((Nat.pow_le_pow_iff_right (by decide)).mp hle)

theorem hasSingleBit_of_checked {header : ElfProgramHeader}
    (h : checkProgramHeader header = pure ()) (hload : header.isLoaded)
    (halignment : 1 < header.alignment) : hasSingleBit header.alignment := by
  simp only [ElfProgramHeader.isLoaded, Bool.and_eq_true, decide_eq_true_eq] at hload
  have hchecked : Ensures (fun _ => hasSingleBit header.alignment) (checkProgramHeader header) := by
    rw [checkProgramHeader, if_pos hload.1]
    refine (Ensures.rejectIf _ _).bind fun _ _ => (Ensures.rejectIf _ _).bind fun _ _ => ?_
    refine (Ensures.rejectIf _ _).mono fun _ hreject => ?_
    simp_all
  exact hchecked.of_ok (congrArg _ h)

theorem congruent_iff (h : placeModule memory index cursor m = .ok p) :
    p.Congruent m ↔ m.BaseAligned := by
  obtain ⟨k, hk, haddr, hbias⟩ := placeModule_eq_ok h
  refine forall_congr' fun header => forall_congr' fun hmem => forall_congr' fun hload =>
    forall_congr' fun halignment => ?_
  have hdvd : header.alignment ∣ p.loadBias + lowestAddress m.metadata.programHeaders := by
    have hle := (le_requiredAlignment m.metadata).2 header hmem hload
    have hbit := hasSingleBit_of_checked (m.checked _ hmem) hload halignment
    rw [hbias, haddr]
    exact (dvd_two_pow_of_hasSingleBit hbit (hk ▸ hle)).trans dvd_roundUp
  exact Nat.add_modEq_right_iff.trans ⟨fun h => (Nat.dvd_add_right h).mp hdvd,
    fun h => (Nat.dvd_add_left h).mp hdvd⟩

/-! ## All modules -/

/-- The pages of the first placement end before those of the second. -/
def Placement.PagesBefore (page : ℕ) (first second : Placement) : Prop :=
  roundUp page (first.loadAddress + first.range.size) ≤ roundDown page second.loadAddress

/-- Every placement starts on a page at or after the cursor. -/
theorem start_of_mem_placeModules {modules : List AdjacentModuleImage} {placements : List Placement}
    (h : placeModules memory index cursor modules = .ok placements) :
    ∀ p ∈ placements, cursor ≤ p.loadAddress ∧ kHleDataPageSize ∣ p.loadAddress := by
  induction modules generalizing index cursor placements with
  | nil => cases h; exact fun _ h => absurd h not_mem_nil
  | cons m rest ih =>
    obtain ⟨p, hp, h⟩ := exists_of_bind_eq_ok h
    obtain ⟨placed, hplaced, h⟩ := exists_of_bind_eq_ok h
    cases h
    obtain ⟨k, hk, haddr, -⟩ := placeModule_eq_ok hp
    have hcursor : cursor ≤ p.loadAddress := haddr ▸ le_roundUp (Nat.two_pow_pos k)
    have hpage : kHleDataPageSize ∣ 2 ^ k :=
      dvd_two_pow_of_hasSingleBit (by decide) (hk ▸ (le_requiredAlignment m.metadata).1)
    refine forall_mem_cons.mpr ⟨⟨hcursor, haddr ▸ hpage.trans dvd_roundUp⟩, ?_⟩
    intro q hq
    obtain ⟨hstart, hdvd⟩ := ih hplaced q hq
    exact ⟨by omega, hdvd⟩

/-- For every page size up to that of the guest, the pages of different modules are
disjoint. The segments keep their residues exactly if the alignments of each module
divide its lowest address. -/
theorem placed_congruent_and_apart (memory : GuestMemory) (index cursor : ℕ)
    (modules : List AdjacentModuleImage) (placements : List Placement)
    (h : placeModules memory index cursor modules = .ok placements) :
    (List.Forall₂ Placement.Congruent placements modules ↔ ∀ m ∈ modules, m.BaseAligned) ∧
      ∀ page, page ∣ kHleDataPageSize → placements.Pairwise (Placement.PagesBefore page) := by
  induction modules generalizing index cursor placements with
  | nil =>
    cases h
    exact ⟨by simp, fun _ _ => .nil⟩
  | cons m rest ih =>
    obtain ⟨p, hp, h⟩ := exists_of_bind_eq_ok h
    obtain ⟨placed, hplaced, h⟩ := exists_of_bind_eq_ok h
    cases h
    obtain ⟨hiff, hpages⟩ := ih _ _ _ hplaced
    refine ⟨?_, fun page hpage => pairwise_cons.mpr ⟨fun q hq => ?_, hpages _ hpage⟩⟩
    · rw [forall₂_cons, forall_mem_cons, congruent_iff hp, hiff]
    · obtain ⟨hstart, hdvd⟩ := start_of_mem_placeModules hplaced q hq
      rw [Placement.PagesBefore, roundDown_of_dvd (hpage.trans hdvd)]
      exact roundUp_le_of_dvd (Nat.pos_of_dvd_of_pos hpage (by decide)) (hpage.trans hdvd) hstart

/-- A page-aligned segment of one page. -/
def pageHeader (address : ℕ) : ElfProgramHeader :=
  ⟨1, 4, address, address, address, address, 0, 0x4000, 0x4000⟩

def pageModule (address : ℕ) (h : checkProgramHeader (pageHeader address) = pure ()) :
    AdjacentModuleImage where
  guestPath := ""
  metadata := { programHeaders := [pageHeader address] }
  checked := List.forall_mem_singleton.mpr h

def emptyWindow : GuestMemory := ⟨0, 0x100000, fun _ => 0, [], [], [], {}, false, {}, false⟩

def pageAt (base address : ℕ) : Placement := ⟨⟨base, 0x4000, 1⟩, address, address - base⟩

theorem two_modules_placed :
    List.Forall₂ Placement.Congruent [pageAt 0x4000 0x8000, pageAt 0 0xc000]
        [pageModule 0x4000 rfl, pageModule 0 rfl] ∧
      [pageAt 0x4000 0x8000, pageAt 0 0xc000].Pairwise (Placement.PagesBefore 0x1000) := by
  obtain ⟨hiff, hpages⟩ := placed_congruent_and_apart emptyWindow 0 0x7fff
    [pageModule 0x4000 rfl, pageModule 0 rfl] [pageAt 0x4000 0x8000, pageAt 0 0xc000] rfl
  refine ⟨hiff.mpr ?_, hpages 0x1000 (by decide)⟩
  unfold AdjacentModuleImage.BaseAligned
  decide

/-- A segment at a quarter of a page is moved to the start of one. -/
theorem residue_lost_below_page :
    placeModules emptyWindow 0 0x8000 [pageModule 0x1000 rfl] = .ok [pageAt 0x1000 0x8000] ∧
      ¬List.Forall₂ Placement.Congruent [pageAt 0x1000 0x8000] [pageModule 0x1000 rfl] := by
  refine ⟨rfl, fun h => ?_⟩
  have hcongruent := (forall₂_cons.mp h).1
  unfold Placement.Congruent at hcongruent
  revert hcongruent
  decide

end KajPS5.Runtime
