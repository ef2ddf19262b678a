/-
# The plan of a load

A page gets the protections of the load segments whose rounded ranges it lies in.
The loader finds them piece by piece between the ends of the rounded ranges, and
merges neighbours of equal protection; the mappings it plans denote exactly this
map from addresses to protections.
-/

import KajPS5.Loader.ElfLoader

namespace KajPS5.Loader

open Math Memory GuestMemoryProtection ElfProgramHeader List

/-! ## What a load should map -/

/-- The first address of the pages of a segment. -/
def ElfProgramHeader.mappingStart (header : ElfProgramHeader) (granularity loadBias : ℕ) : ℕ :=
  roundDown granularity (loadBias + header.virtualAddress)

/-- The first address after them. -/
def ElfProgramHeader.mappingStop (header : ElfProgramHeader) (granularity loadBias : ℕ) : ℕ :=
  roundUp granularity (loadBias + header.virtualAddress + header.memorySize)

/-- The segment is loaded and one of its pages holds the address. -/
def ElfProgramHeader.pagesHold (header : ElfProgramHeader) (granularity loadBias a : ℕ) : Bool :=
  header.isLoaded && header.mappingStart granularity loadBias ≤ a &&
    a < header.mappingStop granularity loadBias

/-- The protections of the segments around an address. -/
def protectionsAt (granularity loadBias : ℕ) (headers : List ElfProgramHeader) (a : ℕ) :
    List GuestMemoryProtection :=
  (headers.filter (·.pagesHold granularity loadBias a)).map (protectionFromFlags ·.flags)

/-- The protection a load gives an address: none outside the pages of the segments,
the union of the protections around it inside. -/
def loadProtection (granularity loadBias : ℕ) (headers : List ElfProgramHeader) :
    AddressMap GuestMemoryProtection := fun a =>
  match protectionsAt granularity loadBias headers a with
  | [] => none
  | protections => some (unionOfProtections protections)

section

variable {granularity loadBias : ℕ} {headers : List ElfProgramHeader} {a : ℕ}

theorem loadProtection_eq_some_iff {protection : GuestMemoryProtection} :
    loadProtection granularity loadBias headers a = some protection ↔
      protectionsAt granularity loadBias headers a ≠ [] ∧
        unionOfProtections (protectionsAt granularity loadBias headers a) = protection := by
  rw [loadProtection]
  cases protectionsAt granularity loadBias headers a with
  | nil => simp
  | cons first rest => simp

theorem protectionsAt_ne_nil_iff : protectionsAt granularity loadBias headers a ≠ [] ↔
    ∃ header ∈ headers, header.pagesHold granularity loadBias a = true := by
  rw [protectionsAt, ne_eq]
  simp

end

/-! ## The ranges -/

/-- The range planned for a segment. -/
def plannedRange (granularity loadBias : ℕ) (header : ElfProgramHeader) : PlannedLoadRange where
  header := header
  address := loadBias + header.virtualAddress
  mappingAddress := header.mappingStart granularity loadBias
  mappingSize := header.mappingStop granularity loadBias -
    header.mappingStart granularity loadBias
  protection := protectionFromFlags header.flags

/-- The end of a segment, rounded up, still is an address. -/
def ElfProgramHeader.InSpace (header : ElfProgramHeader) (granularity loadBias : ℕ) : Prop :=
  loadBias + header.virtualAddress + header.memorySize + (granularity - 1) ≤ uint64Max

variable {header : ElfProgramHeader} {plan' : LoadPlan} {planned : List PlannedMappingRange}

variable {loadBias granularity k : ℕ} {plan : LoadPlan}

theorem ElfProgramHeader.mappingStart_le_stop (hgran : 0 < granularity) :
    header.mappingStart granularity loadBias ≤ header.mappingStop granularity loadBias := by
  have hstart : header.mappingStart granularity loadBias ≤ loadBias + header.virtualAddress :=
    roundDown_le
  have hstop : loadBias + header.virtualAddress + header.memorySize ≤
    header.mappingStop granularity loadBias := le_roundUp hgran
  omega

/-- The last page of a segment ends in the address space, too. -/
theorem ElfProgramHeader.mappingStop_le (h : header.InSpace (2 ^ k) loadBias) :
    header.mappingStop (2 ^ k) loadBias + (2 ^ k - 1) ≤ uint64Max := by
  have hle : header.mappingStop (2 ^ k) loadBias ≤
      loadBias + header.virtualAddress + header.memorySize + (2 ^ k - 1) := roundUp_le
  rw [InSpace] at h
  have hmax : uint64Max + 1 = 2 ^ 64 := rfl
  have hk : k ≤ 64 := (Nat.pow_le_pow_iff_right (by decide : 1 < 2)).mp (by omega)
  -- Both the end and the size of the address space are multiples of the page.
  obtain ⟨pages, hpages⟩ : 2 ^ k ∣ header.mappingStop (2 ^ k) loadBias := dvd_roundUp
  obtain ⟨total, htotal⟩ : 2 ^ k ∣ 2 ^ 64 := Nat.pow_dvd_pow 2 hk
  have hlt : pages < total := by
    apply Nat.lt_of_mul_lt_mul_left
    rw [← htotal]
    omega
  have hmul : 2 ^ k * (pages + 1) ≤ 2 ^ k * total := Nat.mul_le_mul_left _ hlt
  rw [Nat.mul_add] at hmul
  omega

/-- What the loop over the headers adds to the plan. -/
structure PlanExtends (granularity loadBias : ℕ) (headers : List ElfProgramHeader)
    (plan plan' : LoadPlan) : Prop where
  ranges : plan'.ranges = plan.ranges ++
    (headers.filter (·.isLoaded)).map (plannedRange granularity loadBias)
  boundaries : plan'.boundaries = plan.boundaries ++
    (headers.filter (·.isLoaded)).flatMap fun header =>
      [header.mappingStart granularity loadBias, header.mappingStop granularity loadBias]
  inSpace : ∀ header ∈ headers, header.isLoaded = true → header.InSpace granularity loadBias

variable {memory : GuestMemory} {mapping : PlannedMappingRange}

theorem planExtends_addHeader (h : plan.addHeader memory (2 ^ k) loadBias header = .ok plan') :
    PlanExtends (2 ^ k) loadBias [header] plan plan' := by
  rw [LoadPlan.addHeader] at h
  by_cases hload : header.isLoaded = true
  · simp only [hload, Bool.not_true, Bool.false_eq_true, if_false, clearMask_two_pow] at h
    split_ifs at h with hbias hsize hend hin hcounters
    obtain rfl := Except.ok.inj h
    have hfilter : [header].filter (·.isLoaded) = [header] := by simp [hload]
    refine ⟨?_, ?_, ?_⟩
    · rw [hfilter]
      rfl
    · rw [hfilter]
      rfl
    intro other hmem _
    obtain rfl := mem_singleton.mp hmem
    have hsome : other.memorySize ≠ 0 := by
      simp only [isLoaded, Bool.and_eq_true, decide_eq_true_eq] at hload
      exact hload.2
    rw [ElfProgramHeader.InSpace]
    omega
  · rw [Bool.not_eq_true] at hload
    simp only [hload] at h
    obtain rfl := Except.ok.inj h
    have hfilter : [header].filter (·.isLoaded) = [] := by simp [hload]
    refine ⟨?_, ?_, ?_⟩
    · rw [hfilter, map_nil, append_nil]
    · rw [hfilter, flatMap_nil, append_nil]
    · intro other hmem hother
      obtain rfl := mem_singleton.mp hmem
      rw [hload] at hother
      cases hother

theorem PlanExtends.trans {first second : List ElfProgramHeader}
    {plan'' : LoadPlan} (h : PlanExtends granularity loadBias first plan plan')
    (h' : PlanExtends granularity loadBias second plan' plan'') :
    PlanExtends granularity loadBias (first ++ second) plan plan'' where
  ranges := by rw [h'.ranges, h.ranges, filter_append, map_append, append_assoc]
  boundaries := by
    rw [h'.boundaries, h.boundaries, filter_append, flatMap_append, append_assoc]
  inSpace := forall_mem_append.mpr ⟨h.inSpace, h'.inSpace⟩

theorem planExtends_addHeaders {headers : List ElfProgramHeader}
    (h : LoadPlan.addHeaders memory (2 ^ k) loadBias plan headers = (none, plan')) :
    PlanExtends (2 ^ k) loadBias headers plan plan' := by
  induction headers generalizing plan with
  | nil =>
    obtain rfl := congrArg Prod.snd h
    exact ⟨(append_nil _).symm, (append_nil _).symm, forall_mem_nil _⟩
  | cons header headers ih =>
    rw [LoadPlan.addHeaders] at h
    cases hadd : plan.addHeader memory (2 ^ k) loadBias header with
    | error error =>
      rw [hadd] at h
      exact absurd (congrArg Prod.fst h) (Option.some_ne_none _)
    | ok middle =>
      rw [hadd] at h
      exact (planExtends_addHeader hadd).trans (ih h)

/-! ## The mappings -/

/-- The mapping holds the address. -/
def PlannedMappingRange.Holds (mapping : PlannedMappingRange) (a : ℕ) : Prop :=
  InRange mapping.address mapping.size a

/-- Some mapping of the plan gives the address the protection. -/
def PlannedAt (planned : List PlannedMappingRange) (a : ℕ)
    (protection : GuestMemoryProtection) : Prop :=
  ∃ mapping ∈ planned, mapping.Holds a ∧ mapping.protection = protection

/-- Appending adds the addresses of the new mapping, whether or not it is merged. -/
theorem plannedAt_appendMapping {a : ℕ} {protection : GuestMemoryProtection} :
    PlannedAt (appendMapping planned mapping) a protection ↔
      PlannedAt planned a protection ∨ (mapping.Holds a ∧ mapping.protection = protection) := by
  cases planned with
  | nil => simp [appendMapping, PlannedAt]
  | cons last rest =>
    rw [appendMapping]
    split_ifs with hmerge
    · have hholds : ({ last with size := last.size + mapping.size } :
          PlannedMappingRange).Holds a ↔ last.Holds a ∨ mapping.Holds a := by
        simp only [PlannedMappingRange.Holds, InRange]
        omega
      simp only [PlannedAt, mem_cons, exists_eq_or_imp, hholds, ← hmerge.2]
      rw [or_and_right, or_right_comm]
    · simp only [PlannedAt, mem_cons, exists_eq_or_imp]
      exact or_comm

/-- A mapping of whole pages that ends in the address space. -/
structure PlannedMappingRange.WholePages (mapping : PlannedMappingRange) (granularity : ℕ) :
    Prop where
  address : granularity ∣ mapping.address
  size : granularity ∣ mapping.size
  size_pos : 0 < mapping.size
  stop_le : mapping.address + mapping.size + (granularity - 1) ≤ uint64Max

theorem wholePages_appendMapping (h : mapping.WholePages granularity)
    (hplan : ∀ m ∈ planned, m.WholePages granularity) :
    ∀ m ∈ appendMapping planned mapping, m.WholePages granularity := by
  cases planned with
  | nil => exact forall_mem_singleton.mpr h
  | cons last rest =>
    rw [forall_mem_cons] at hplan
    rw [appendMapping]
    split_ifs with hmerge
    · refine forall_mem_cons.mpr ⟨?_, hplan.2⟩
      refine ⟨hplan.1.address, Nat.dvd_add hplan.1.size h.size, ?_, ?_⟩
      · exact Nat.add_pos_left hplan.1.size_pos _
      · have hstop := h.stop_le
        rw [← hmerge.1] at hstop
        simpa [Nat.add_assoc] using hstop
    · exact forall_mem_cons.mpr ⟨h, forall_mem_cons.mpr hplan⟩

theorem PlannedLoadRange.covers_iff {range : PlannedLoadRange} {piece : ℕ × ℕ} :
    range.covers piece = true ↔ range.mappingAddress ≤ piece.1 ∧
      piece.2 ≤ range.mappingAddress + range.mappingSize := by
  simp [covers]

/-- The protections of the ranges around a piece. -/
def protectionsAround (ranges : List PlannedLoadRange) (piece : ℕ × ℕ) :
    List GuestMemoryProtection :=
  (ranges.filter (·.covers piece)).map PlannedLoadRange.protection

/-- The loop over the pieces: the plan gives the addresses of each covered piece the
union around it, and no union allows writing and executing unless one range does. -/
theorem planMappings_spec {s : GuestStorage} {ranges : List PlannedLoadRange}
    {pieces : List (ℕ × ℕ)} {planned' : List PlannedMappingRange}
    (hpieces : ∀ piece ∈ pieces, piece.1 < piece.2 ∧ granularity ∣ piece.1 ∧
      granularity ∣ piece.2 ∧ piece.2 + (granularity - 1) ≤ uint64Max)
    (hplan : ∀ m ∈ planned, m.WholePages granularity)
    (h : planMappings s ranges planned pieces = .ok planned') :
    (∀ a protection, PlannedAt planned' a protection ↔ PlannedAt planned a protection ∨
      ∃ piece ∈ pieces, (piece.1 ≤ a ∧ a < piece.2) ∧ protectionsAround ranges piece ≠ [] ∧
        unionOfProtections (protectionsAround ranges piece) = protection) ∧
      (∀ m ∈ planned', m.WholePages granularity) ∧
      ∀ piece ∈ pieces, protectionsAround ranges piece ≠ [] →
        writesAndExecutes (unionOfProtections (protectionsAround ranges piece)) = true →
          (protectionsAround ranges piece).any writesAndExecutes = true := by
  induction pieces generalizing planned with
  | nil =>
    obtain rfl := Except.ok.inj h
    exact ⟨by simp, hplan, forall_mem_nil _⟩
  | cons piece pieces ih =>
    rw [forall_mem_cons] at hpieces
    obtain ⟨⟨hlt, hlo, hhi, hstop⟩, hpieces⟩ := hpieces
    rw [planMappings, planPiece, ← protectionsAround] at h
    split_ifs at h with hnone hconflict
    · obtain ⟨hat, hwhole, hstrict⟩ := ih hpieces hplan h
      refine ⟨fun a protection => ?_, hwhole, forall_mem_cons.mpr ⟨?_, hstrict⟩⟩
      · rw [hat]
        simp [hnone]
      · exact fun hsome => absurd hnone hsome
    · have hsize : piece.1 + (piece.2 - piece.1) = piece.2 := by omega
      have hmap : (⟨piece.1, piece.2 - piece.1,
          unionOfProtections (protectionsAround ranges piece)⟩ :
            PlannedMappingRange).WholePages granularity :=
        ⟨hlo, Nat.dvd_sub hhi hlo, Nat.sub_pos_of_lt hlt, by
          rw [hsize]
          exact hstop⟩
      obtain ⟨hat, hwhole, hstrict⟩ := ih hpieces (wholePages_appendMapping hmap hplan) h
      refine ⟨fun a protection => ?_, hwhole, forall_mem_cons.mpr ⟨?_, hstrict⟩⟩
      · rw [hat, plannedAt_appendMapping]
        simp [PlannedMappingRange.Holds, InRange, hsize, hnone, or_assoc]
      · intro _ hwx
        simpa [hwx] using hconflict

/-! ## The plan denotes the protections -/

section

variable {headers : List ElfProgramHeader}

section

variable (h : PlanExtends (2 ^ k) loadBias headers {} plan)
include h

/-- The marks of a plan are the ends of the rounded ranges. -/
theorem PlanExtends.mem_boundaries (hhead : header ∈ headers) (hload : header.isLoaded = true) :
    header.mappingStart (2 ^ k) loadBias ∈ plan.boundaries ∧
      header.mappingStop (2 ^ k) loadBias ∈ plan.boundaries := by
  rw [h.boundaries]
  have hmem : header ∈ headers.filter (·.isLoaded) := mem_filter.mpr ⟨hhead, hload⟩
  constructor
  · exact mem_flatMap.mpr ⟨header, hmem, mem_cons_self⟩
  · exact mem_flatMap.mpr ⟨header, hmem, mem_cons_of_mem _ mem_cons_self⟩

theorem PlanExtends.boundary {mark : ℕ}
    (hmark : mark ∈ plan.boundaries) : 2 ^ k ∣ mark ∧ mark + (2 ^ k - 1) ≤ uint64Max := by
  rw [h.boundaries] at hmark
  obtain ⟨header, hhead, hmark⟩ := mem_flatMap.mp
    ((mem_append.mp hmark).resolve_left not_mem_nil)
  obtain ⟨hmem, hload⟩ := mem_filter.mp hhead
  have hstop := mappingStop_le (h.inSpace _ hmem hload)
  have hle : header.mappingStart (2 ^ k) loadBias ≤ header.mappingStop (2 ^ k) loadBias :=
    mappingStart_le_stop (Nat.two_pow_pos k)
  rcases mem_cons.mp hmark with rfl | hmark
  · exact ⟨dvd_roundDown, by omega⟩
  · obtain rfl := mem_singleton.mp hmark
    exact ⟨dvd_roundUp, hstop⟩

/-- Around a piece lie the ranges that hold any one of its addresses. -/
theorem PlanExtends.protectionsAround {piece : ℕ × ℕ} (hpiece : piece ∈ cuts plan.boundaries)
    {a : ℕ} (hlo : piece.1 ≤ a) (hhi : a < piece.2) :
    protectionsAround plan.ranges piece = protectionsAt (2 ^ k) loadBias headers a := by
  rw [Loader.protectionsAround, h.ranges, protectionsAt]
  change (((headers.filter _).map _).filter _).map _ = _
  rw [filter_map, filter_filter, map_map]
  have hfilter : headers.filter (fun header => ((fun range : PlannedLoadRange =>
      range.covers piece) ∘ plannedRange (2 ^ k) loadBias) header && header.isLoaded) =
      headers.filter (·.pagesHold (2 ^ k) loadBias a) := by
    apply filter_congr
    intro header hhead
    rw [pagesHold, Bool.and_comm, Bool.and_assoc]
    cases hload : header.isLoaded with
    | false => rfl
    | true =>
      obtain ⟨hstart, hstop⟩ := h.mem_boundaries hhead hload
      have hwithin := within_iff_of_cut hpiece hstart hstop hlo hhi
      have hle : header.mappingStart (2 ^ k) loadBias ≤ header.mappingStop (2 ^ k) loadBias :=
          mappingStart_le_stop (Nat.two_pow_pos k)
      have hend : (plannedRange (2 ^ k) loadBias header).mappingAddress +
          (plannedRange (2 ^ k) loadBias header).mappingSize =
        header.mappingStop (2 ^ k) loadBias := Nat.add_sub_cancel' hle
      rw [Bool.true_and, Bool.true_and, Bool.eq_iff_iff, Function.comp_apply,
        PlannedLoadRange.covers_iff, hend, Bool.and_eq_true, decide_eq_true_iff, decide_eq_true_iff]
      exact hwithin.symm
  rw [hfilter]
  rfl

end

/-- What the plan is for. -/
structure PlanDenotes (granularity loadBias : ℕ) (headers : List ElfProgramHeader)
    (planned : List PlannedMappingRange) : Prop where
  plannedAt : ∀ a protection, PlannedAt planned a protection ↔
    loadProtection granularity loadBias headers a = some protection
  wholePages : ∀ mapping ∈ planned, mapping.WholePages granularity
  strict : ∀ a protection, loadProtection granularity loadBias headers a = some protection →
    writesAndExecutes protection = true →
      ∃ header ∈ headers, header.pagesHold granularity loadBias a = true ∧
        writesAndExecutes (protectionFromFlags header.flags) = true

theorem PlanExtends.planDenotes (h : PlanExtends (2 ^ k) loadBias headers {} plan)
    {s : GuestStorage}
    (hplan : planMappings s plan.ranges [] (cuts plan.boundaries) = .ok planned) :
    PlanDenotes (2 ^ k) loadBias headers planned := by
  have hpieces : ∀ piece ∈ cuts plan.boundaries, piece.1 < piece.2 ∧ 2 ^ k ∣ piece.1 ∧
      2 ^ k ∣ piece.2 ∧ piece.2 + (2 ^ k - 1) ≤ uint64Max := by
    intro piece hpiece
    obtain ⟨hlt, hfirst, hsecond, -⟩ := mem_cuts hpiece
    exact ⟨hlt, (h.boundary hfirst).1, h.boundary hsecond⟩
  obtain ⟨hat, hwhole, hstrict⟩ := planMappings_spec hpieces (forall_mem_nil _) hplan
  -- Every address some segment covers lies in a piece.
  have hcut : ∀ a, protectionsAt (2 ^ k) loadBias headers a ≠ [] →
      ∃ piece ∈ cuts plan.boundaries, piece.1 ≤ a ∧ a < piece.2 := by
    intro a ha
    obtain ⟨header, hhead, hholds⟩ := protectionsAt_ne_nil_iff.mp ha
    simp only [pagesHold, Bool.and_eq_true, decide_eq_true_eq] at hholds
    obtain ⟨hstart, hstop⟩ := h.mem_boundaries hhead hholds.1.1
    exact exists_cut hstart hstop hholds.1.2 hholds.2
  refine ⟨fun a protection => ?_, hwhole, ?_⟩
  · rw [hat, loadProtection_eq_some_iff]
    constructor
    · rintro (⟨_, hmem, -⟩ | ⟨piece, hpiece, ⟨hlo, hhi⟩, hsome, hunion⟩)
      · exact absurd hmem not_mem_nil
      · rw [h.protectionsAround hpiece hlo hhi] at hsome hunion
        exact ⟨hsome, hunion⟩
    · rintro ⟨hsome, hunion⟩
      obtain ⟨piece, hpiece, hlo, hhi⟩ := hcut a hsome
      refine .inr ⟨piece, hpiece, ⟨hlo, hhi⟩, ?_⟩
      rw [h.protectionsAround hpiece hlo hhi]
      exact ⟨hsome, hunion⟩
  · intro a protection hprot hwx
    obtain ⟨hsome, rfl⟩ := loadProtection_eq_some_iff.mp hprot
    obtain ⟨piece, hpiece, hlo, hhi⟩ := hcut a hsome
    have hany := hstrict _ hpiece
    rw [h.protectionsAround hpiece hlo hhi] at hany
    obtain ⟨one, hone, hdeclared⟩ := any_eq_true.mp (hany hsome hwx)
    obtain ⟨header, hhead, rfl⟩ := mem_map.mp hone
    obtain ⟨hmem, hholds⟩ := mem_filter.mp hhead
    exact ⟨header, hmem, hholds, hdeclared⟩

end

end KajPS5.Loader
