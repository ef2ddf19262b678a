/-
# What a load leaves behind

A load that answers no error has mapped the pages of the load segments, each with
the union of the protections around it, and stored every segment: the file data
and zeros after it. A load that fails undoes its mappings. The parser has checked
what this needs of the headers: the file data lies in the image, a segment is no
smaller than its file data, and no two segments meet.
-/

import KajPS5.Loader.ElfMappings
import KajPS5.Loader.ElfTables

namespace KajPS5.Loader

open Math Memory GuestMemoryProtection List Option

/-! ## One segment -/

/-- The byte of a segment: from the file, or a zero after the file data. -/
def segmentByte (image : List UInt8) (header : ElfProgramHeader) (i : ℕ) : UInt8 :=
  if i < header.fileSize then image.getD (header.fileOffset + i) 0 else 0

section

variable {image : List UInt8} {header : ElfProgramHeader} {s : GuestStorage}

/-- The addresses of a range are mapped and private. -/
def PrivatelyMapped (space : AddressSpace) (address length : ℕ) : Prop :=
  ∀ a, InRange address length a → (space.protections a).isSome = true ∧ space.sharing a = none

theorem filled_fillFile (hs : s.world.WellFormed) (hdata : header.DataWithin image)
    (hle : header.fileSize ≤ header.memorySize) (host : HostCall) (granularity loadBias : ℕ)
    (hmap : PrivatelyMapped s.world.memory.space (loadBias + header.virtualAddress)
      header.memorySize) :
    ∃ result, fillFile image host s (plannedRange granularity loadBias header) = some result ∧
      s.StorageFilled (loadBias + header.virtualAddress) header.fileSize
        (fun a => segmentByte image header (a - (loadBias + header.virtualAddress))) result := by
  by_cases hempty : header.fileSize = 0
  · refine ⟨(true, s), if_pos hempty, rfl, ?_⟩
    rw [hempty]
    exact .refl hs _ _
  have hlen : ((image.drop header.fileOffset).take header.fileSize).length = header.fileSize := by
    rw [ElfProgramHeader.DataWithin] at hdata
    rw [length_take, length_drop]
    omega
  refine ⟨_, (if_neg hempty).trans (congrArg _ (if_pos hdata)), ?_⟩
  have hisMapped : s.world.memory.isMappedLocked (loadBias + header.virtualAddress)
      ((image.drop header.fileOffset).take header.fileSize).length = true := by
    rw [hlen, GuestMemory.isMappedLocked_iff hs.tables hempty]
    exact fun a ha => (hmap a ⟨ha.1, lt_of_lt_of_le ha.2 (by omega)⟩).1
  have hfilled := GuestStorage.filled_initializeBytes hs host hisMapped (by
    exact fun a ha => (hmap a ⟨ha.1, lt_of_lt_of_le ha.2 (by omega)⟩).2)
  rw [hlen] at hfilled
  refine ⟨hfilled.mode, hfilled.filled.congr fun a ha => ?_⟩
  have hin : a - (loadBias + header.virtualAddress) < header.fileSize := by
    have := ha.2
    omega
  rw [segmentByte, if_pos hin, getD_eq_getElem?_getD, getElem?_take, if_pos hin,
    getElem?_drop, getD_eq_getElem?_getD]

variable {range : PlannedLoadRange}

theorem fillZero_of_eq {host : HostCall} (h : range.header.memorySize - range.header.fileSize = 0) :
    fillZero host range (true, s) = (true, s) := by
  simp [fillZero, h]

theorem fillZero_of_ne {host : HostCall} (h : range.header.memorySize - range.header.fileSize ≠ 0) :
    fillZero host range (true, s) = s.initializeFill host (range.address + range.header.fileSize)
        (range.header.memorySize - range.header.fileSize) 0 := by
  simp [fillZero, h]

theorem filled_range (hs : s.world.WellFormed) (hdata : header.DataWithin image)
    (hle : header.fileSize ≤ header.memorySize) (file zero : HostCall)
    (granularity loadBias : ℕ)
    (hmap : PrivatelyMapped s.world.memory.space (loadBias + header.virtualAddress)
      header.memorySize) :
    ∃ result, (fillFile image file s (plannedRange granularity loadBias header)).map
        (fillZero zero (plannedRange granularity loadBias header)) = some result ∧
      s.StorageFilled (loadBias + header.virtualAddress) header.memorySize
        (fun a => segmentByte image header (a - (loadBias + header.virtualAddress))) result := by
  obtain ⟨first, hfirst, hmode, hfilled⟩ := filled_fillFile hs hdata hle _ _ _ hmap
  refine ⟨fillZero _ (plannedRange granularity loadBias header) first, by rw [hfirst]; rfl, ?_⟩
  obtain ⟨ok, s'⟩ := first
  cases ok with
  | false => exact ⟨hmode, hfilled.widen hle⟩
  | true =>
    by_cases hzero : header.memorySize - header.fileSize = 0
    · rw [fillZero_of_eq hzero]
      have hsize : header.memorySize = header.fileSize := by omega
      rw [hsize]
      exact ⟨hmode, hfilled⟩
    · rw [fillZero_of_ne hzero]
      have hspace : s'.world.memory.space = s.world.memory.space := hfilled.space
      have hrest : ∀ a, InRange (loadBias + header.virtualAddress + header.fileSize)
          (header.memorySize - header.fileSize) a → (s'.world.memory.protections a).isSome = true ∧
              s'.world.memory.sharing a = none := by
        intro a ha
        have hat := hmap a ⟨by have := ha.1; omega, by have := ha.2; omega⟩
        rw [← hspace] at hat
        exact hat
      have hfill := GuestStorage.filled_initializeFill hfilled.wellFormed zero
        ((GuestMemory.isMappedLocked_iff hfilled.wellFormed.tables hzero).mpr
          fun a ha => (hrest a ha).1) 0 fun a ha => (hrest a ha).2
      refine ⟨hfill.mode.trans hmode, ?_⟩
      have happend := hfilled.append (hfill.filled.congr fun a ha => ?_)
      · rwa [Nat.add_sub_cancel' hle] at happend
      · have hout : ¬a - (loadBias + header.virtualAddress) < header.fileSize := by
          have := ha.1
          omega
        rw [segmentByte, if_neg hout]

end

/-! ## All segments -/

/-- The address holds a byte of the segment. -/
def ElfProgramHeader.loadsAt (header : ElfProgramHeader) (loadBias a : ℕ) : Prop :=
  InRange (loadBias + header.virtualAddress) header.memorySize a

/-- What the filling loop has done. -/
structure SegmentsFilled (image : List UInt8) (loadBias : ℕ) (headers : List ElfProgramHeader)
    (s : GuestStorage) (result : Bool × GuestStorage) : Prop where
  mode : result.2.mode = s.mode
  wellFormed : result.2.world.WellFormed
  space : result.2.world.memory.space = s.world.memory.space
  frame : ∀ cell, (∀ header ∈ headers, ∀ a, header.loadsAt loadBias a → cell ≠ .own a) →
    result.2.world.contents cell = s.world.contents cell
  contents : result.1 = true → ∀ header ∈ headers, ∀ a, header.loadsAt loadBias a →
    result.2.world.contents (.own a) =
      segmentByte image header (a - (loadBias + header.virtualAddress))

theorem segmentsFilled_fillRanges {image : List UInt8} {loadBias : ℕ}
    {headers : List ElfProgramHeader} {s : GuestStorage} (hs : s.world.WellFormed)
    (hdata : ∀ header ∈ headers, header.DataWithin image)
    (hle : ∀ header ∈ headers, header.fileSize ≤ header.memorySize)
    (hapart : headers.Pairwise fun first second =>
      ∀ a, first.loadsAt loadBias a → ¬second.loadsAt loadBias a)
    (hmap : ∀ header ∈ headers, PrivatelyMapped s.world.memory.space
      (loadBias + header.virtualAddress) header.memorySize)
    (host : LoadHost) (granularity index : ℕ) :
    ∃ result, fillRanges image host index s (headers.map (plannedRange granularity loadBias)) =
        some result ∧ SegmentsFilled image loadBias headers s result := by
  induction headers generalizing s index with
  | nil => exact ⟨(true, s), rfl, rfl, hs, rfl, fun _ _ => rfl, fun _ => forall_mem_nil _⟩
  | cons header headers ih =>
    rw [forall_mem_cons] at hdata hle hmap
    rw [pairwise_cons] at hapart
    obtain ⟨⟨ok, s'⟩, hrange, hmode, hfilled⟩ := filled_range hs hdata.1 hle.1
      (host.file index) (host.zero index) _ _ hmap.1
    rw [map_cons, fillRanges, hrange]
    have hframe : ∀ cell, (∀ other ∈ header :: headers, ∀ a, other.loadsAt loadBias a →
        cell ≠ .own a) → s'.world.contents cell = s.world.contents cell :=
      fun cell hcell => hfilled.frame _ (hcell header mem_cons_self)
    cases ok with
    | false =>
      exact ⟨(false, s'), rfl, hmode, hfilled.wellFormed, hfilled.space, hframe,
        fun hdone => absurd hdone Bool.false_ne_true⟩
    | true =>
      have hspace : s'.world.memory.space = s.world.memory.space := hfilled.space
      obtain ⟨result, hres, hrest⟩ := ih hfilled.wellFormed hdata.2 hle.2 hapart.2
        (hspace ▸ hmap.2) (index + 1)
      refine ⟨result, hres, hrest.mode.trans hmode, hrest.wellFormed,
        hrest.space.trans hspace, fun cell hcell => ?_, fun hdone => ?_⟩
      · rw [hrest.frame _ (forall_mem_cons.mp hcell).2, hframe _ hcell]
      refine forall_mem_cons.mpr ⟨fun a ha => ?_, hrest.contents hdone⟩
      -- The later segments lie elsewhere.
      have hkeep := hrest.frame (.own a) fun other hother b hb heq => by
        obtain rfl := Cell.own.inj heq
        exact hapart.1 _ hother a ha hb
      rw [hkeep]
      exact hfilled.contents rfl a ha

/-! ## The whole load -/

/-- What a successful load has done to the guest memory. -/
structure Loaded (image : List UInt8) (headers : List ElfProgramHeader)
    (granularity loadBias : ℕ) (w w' : MemoryWorld) : Prop where
  /-- The pages of the segments are mapped as their protections say, and no others. -/
  protections : ∀ a, w'.memory.protections a =
    (loadProtection granularity loadBias headers a).or (w.memory.protections a)
  fresh : ∀ a, (loadProtection granularity loadBias headers a).isSome = true →
    w.memory.protections a = none
  sharing : w'.memory.sharing = w.memory.sharing
  /-- Only a segment that declares both makes a page writable and executable. -/
  strict : ∀ a protection, loadProtection granularity loadBias headers a = some protection →
    writesAndExecutes protection = true →
      ∃ header ∈ headers, header.pagesHold granularity loadBias a = true ∧
        writesAndExecutes (protectionFromFlags header.flags) = true
  segments : ∀ header ∈ headers, header.isLoaded = true → ∀ i < header.memorySize,
    w'.byteAt (loadBias + header.virtualAddress + i) = segmentByte image header i
  /-- Every other byte is unchanged. -/
  frame : ∀ cell, (∀ header ∈ headers, header.isLoaded = true →
    ∀ a, header.loadsAt loadBias a → cell ≠ .own a) → w'.contents cell = w.contents cell

/-- A load is defined; it has loaded, or it failed and, where the host lets the
pages go again, left the mappings as they were. -/
def LoadOutcome (image : List UInt8) (host : LoadHost) (s : GuestStorage) (loadBias : ℕ)
    (outcome : Option (ElfLoadResult × GuestStorage)) : Prop :=
  ∃ result s', outcome = some (result, s') ∧
    (result.error = none → Loaded image result.metadata.programHeaders s.mappingGranularity
      loadBias s.world s'.world) ∧
    (result.error ≠ none → host.Releases s → s'.world.memory.space = s.world.memory.space)

section

variable {image : List UInt8} {host : LoadHost} {s : GuestStorage} {k loadBias : ℕ}
  {metadata : ElfMetadata} {plan : LoadPlan} {planned : List PlannedMappingRange}

/-- A load that ends before it maps anything. -/
theorem LoadOutcome.of_error {result : ElfLoadResult} (h : result.error ≠ none) :
    LoadOutcome image host s loadBias (some (result, s)) :=
  ⟨result, s, rfl, fun hnone => absurd hnone h, fun _ _ => rfl⟩

/-- A byte of a segment lies in one of its pages. -/
theorem pagesHold_of_loadsAt {header : ElfProgramHeader} (hload : header.isLoaded = true)
    {a : ℕ} (ha : header.loadsAt loadBias a) : header.pagesHold (2 ^ k) loadBias a = true := by
  have hstart : header.mappingStart (2 ^ k) loadBias ≤ loadBias + header.virtualAddress :=
    roundDown_le
  have hstop : loadBias + header.virtualAddress + header.memorySize ≤
    header.mappingStop (2 ^ k) loadBias := le_roundUp (Nat.two_pow_pos k)
  have hlo := ha.1
  have hhi := ha.2
  simp only [ElfProgramHeader.pagesHold, hload, Bool.true_and, Bool.and_eq_true, decide_eq_true_eq]
  omega

/-- Once the plan is mapped, the segments can be filled. -/
theorem privatelyMapped_of_overlay (hdenotes : PlanDenotes (2 ^ k) loadBias
      metadata.programHeaders planned) {base laid : AddressSpace}
    (hover : Overlay base laid planned) {header : ElfProgramHeader}
    (hhead : header ∈ metadata.programHeaders) (hload : header.isLoaded = true) :
    PrivatelyMapped laid (loadBias + header.virtualAddress) header.memorySize := by
  intro a ha
  have hsome : protectionsAt (2 ^ k) loadBias metadata.programHeaders a ≠ [] :=
    protectionsAt_ne_nil_iff.mpr ⟨header, hhead, pagesHold_of_loadsAt hload ha⟩
  obtain ⟨mapping, hmap, hholds, -⟩ :=
    (hdenotes.plannedAt a _).mpr (loadProtection_eq_some_iff.mpr ⟨hsome, rfl⟩)
  rw [hover.inside _ hmap a hholds, hover.sharing]
  exact ⟨rfl, (hover.free _ hmap a hholds).2.2⟩

/-- The mapped and filled plan is the load. -/
theorem loaded_of_segmentsFilled (hdenotes : PlanDenotes (2 ^ k) loadBias
      metadata.programHeaders planned) {s₁ : GuestStorage} {result : Bool × GuestStorage}
    (hover : Overlay s.world.memory.space s₁.world.memory.space planned)
    (hcont : s₁.world.contents = s.world.contents)
    (hfilled : SegmentsFilled image loadBias (metadata.programHeaders.filter (·.isLoaded)) s₁
      result) (hdone : result.1 = true) :
    Loaded image metadata.programHeaders (2 ^ k) loadBias s.world result.2.world := by
  have hspace : result.2.world.memory.space = s₁.world.memory.space := hfilled.space
  have hprot : result.2.world.memory.protections = s₁.world.memory.protections :=
    congrArg AddressSpace.protections hspace
  have hshare : result.2.world.memory.sharing = s.world.memory.sharing :=
    (congrArg _ hspace).trans hover.sharing
  refine ⟨fun a => ?_, fun a ha => ?_, hshare, hdenotes.strict, ?_, fun cell hcell => ?_⟩
  · rw [hprot]
    cases hload : loadProtection (2 ^ k) loadBias metadata.programHeaders a with
    | some protection =>
      obtain ⟨mapping, hmap, hholds, rfl⟩ := (hdenotes.plannedAt a protection).mpr hload
      exact hover.inside _ hmap a hholds
    | none =>
      refine (hover.outside a fun mapping hmap hholds => ?_).1
      have hsome := (hdenotes.plannedAt a _).mp ⟨mapping, hmap, hholds, rfl⟩
      rw [hload] at hsome
      cases hsome
  · obtain ⟨protection, hload⟩ := isSome_iff_exists.mp ha
    obtain ⟨mapping, hmap, hholds, -⟩ := (hdenotes.plannedAt a protection).mpr hload
    exact (hover.free _ hmap a hholds).1
  · intro header hhead hloaded i hi
    have hat : header.loadsAt loadBias (loadBias + header.virtualAddress + i) :=
      ⟨Nat.le_add_right _ _, Nat.add_lt_add_left hi _⟩
    have hprivate := (privatelyMapped_of_overlay hdenotes hover hhead hloaded _ hat).2
    rw [← hspace] at hprivate
    rw [MemoryWorld.byteAt, GuestMemory.cellOf_of_none hprivate,
      hfilled.contents hdone _ (mem_filter.mpr ⟨hhead, hloaded⟩) _ hat,
      Nat.add_sub_cancel_left]
  · rw [hfilled.frame cell, hcont]
    intro header hhead a ha
    obtain ⟨hmem, hloaded⟩ := mem_filter.mp hhead
    exact hcell _ hmem hloaded a ha

theorem loadOutcome_loadPlanned (hs : s.world.WellFormed)
    (hgran : s.mappingGranularity = 2 ^ k) (hfit : HeadersFit image metadata.programHeaders)
    (hplan : PlanExtends (2 ^ k) loadBias metadata.programHeaders {} plan)
    (hdenotes : PlanDenotes (2 ^ k) loadBias metadata.programHeaders planned) :
    LoadOutcome image host s loadBias (loadPlanned image host s metadata plan planned) := by
  have hmap : PlanMapped s.world.memory.space host s (planned.reverse.reverse ++ [])
      (mapPlanned host s [] planned.reverse) :=
    planMapped_mapPlanned hs hgran (forall_mem_nil _)
      (fun mapping hmapping => hdenotes.wholePages _ (mem_reverse.mp hmapping))
      (Overlay.nil _)
  rw [reverse_reverse, append_nil] at hmap
  rw [loadPlanned]
  generalize mapPlanned host s [] planned.reverse = mapped at hmap
  obtain ⟨ok, s₁⟩ := mapped
  have hmode : s₁.mode = s.mode := hmap.mode
  cases ok with
  | false =>
    exact ⟨_, _, rfl, fun hnone => absurd hnone (some_ne_none _), fun _ => hmap.undone rfl⟩
  | true =>
    obtain ⟨hwf, hover, hcont⟩ := hmap.mapped rfl
    have hload : ∀ header ∈ metadata.programHeaders.filter (·.isLoaded),
        header ∈ metadata.programHeaders ∧ header.isLoaded = true ∧
          header.type = kProgramTypeLoad := by
      intro header hhead
      obtain ⟨hmem, hload⟩ := mem_filter.mp hhead
      refine ⟨hmem, hload, ?_⟩
      simp only [ElfProgramHeader.isLoaded, Bool.and_eq_true, decide_eq_true_eq] at hload
      exact hload.1
    have hapart : (metadata.programHeaders.filter (·.isLoaded)).Pairwise fun first second =>
        ∀ a, first.loadsAt loadBias a → ¬second.loadsAt loadBias a := by
      have hpairwise := hfit.apart.sublist
        (filter_sublist (p := fun header => header.isLoaded))
      refine hpairwise.imp_of_mem fun {first second} hfirst hsecond hab a ha ha' => ?_
      have := ha.1
      have := ha.2
      have := ha'.1
      have := ha'.2
      exact hab (hload first hfirst).2.2 (hload _ hsecond).2.2 (a - loadBias)
        ⟨by omega, by omega⟩ ⟨by omega, by omega⟩
    obtain ⟨result, hres, hfilled⟩ := segmentsFilled_fillRanges hwf
      (fun header hhead => hfit.load _ (hload _ hhead).1
        (hload _ hhead).2.2)
      (fun header hhead => (hfit.sized _ (hload _ hhead).1
        (hload _ hhead).2.2).1) hapart
      (fun header hhead => privatelyMapped_of_overlay hdenotes hover
        (hload _ hhead).1 (hload _ hhead).2.1) _ (2 ^ k) 0
    have hranges : plan.ranges = (metadata.programHeaders.filter (·.isLoaded)).map
      (plannedRange (2 ^ k) loadBias) := hplan.ranges
    simp only
    rw [hranges, hres]
    obtain ⟨done, s₂⟩ := result
    cases done with
    | true =>
      refine ⟨_, _, rfl, fun _ => ?_, fun herror => absurd rfl herror⟩
      rw [hgran]
      exact loaded_of_segmentsFilled hdenotes hover hcont hfilled rfl
    | false =>
      refine ⟨_, _, rfl, fun hnone => absurd hnone (some_ne_none _), fun _ hreleases => ?_⟩
      have hmode₂ : s₂.mode = s.mode := hfilled.mode.trans hmode
      have hspace : s₂.world.memory.space = s₁.world.memory.space := hfilled.space
      apply space_unmapPlanned hfilled.wellFormed
        ((mappingGranularity_of_mode hmode₂).trans hgran) hdenotes.wholePages
        (hreleases.of_mode hmode₂)
      rw [hspace]
      exact hover

theorem loadOutcome_loadMetadata (hs : s.world.WellFormed)
    (hfit : HeadersFit image metadata.programHeaders) :
    LoadOutcome image host s loadBias (loadMetadata image host s metadata loadBias) := by
  rw [loadMetadata]
  split_ifs with hbits
  · exact .of_error (some_ne_none _)
  rw [not_or, not_not] at hbits
  obtain ⟨k, hk⟩ := exists_eq_two_pow hbits.1 hbits.2
  rw [hk]
  cases hadd : LoadPlan.addHeaders s.world.memory (2 ^ k) loadBias {} metadata.programHeaders with
  | mk error plan =>
    cases error with
    | some error => exact .of_error (some_ne_none _)
    | none =>
      simp only
      cases hplanned : planMappings s plan.ranges [] (cuts plan.boundaries) with
      | error error => exact .of_error (some_ne_none _)
      | ok planned =>
        have hplan := planExtends_addHeaders hadd
        exact loadOutcome_loadPlanned hs hk hfit hplan (hplan.planDenotes hplanned)

theorem loadOutcome_loadParsedElf64 (hs : s.world.WellFormed) {parsed : Parse ElfMetadata}
    (hparsed : DefinedRuns.Ensures (fun metadata => metadata.WithinImage image 0) parsed) :
    LoadOutcome image host s loadBias (loadParsedElf64 image parsed host s loadBias) := by
  obtain ⟨outcome, hrun, hwithin⟩ := hparsed
  rw [loadParsedElf64, hrun]
  cases outcome with
  | error error => exact .of_error (some_ne_none _)
  | ok metadata => exact loadOutcome_loadMetadata hs (hwithin _ rfl).headers

end

/-- Both loaders, for every image, bias, host and guest memory. -/
theorem loaders_load_or_undo (image : List UInt8) (host : LoadHost) (s : GuestStorage)
    (hs : s.Reachable) (loadBias : ℕ) :
    LoadOutcome image host s loadBias (loadElf64 image host s loadBias) ∧
      LoadOutcome image host s loadBias (loadExecutable64 image host s loadBias) :=
  ⟨loadOutcome_loadParsedElf64 hs.wellFormed (ensures_parseElf64WithLayout image {}),
    loadOutcome_loadParsedElf64 hs.wellFormed (ensures_parseExecutable64 image)⟩

/-- A new guest memory over host pages of sixteen bytes. -/
def pagedStorage : GuestStorage where
  mode := .hostMapped 16
  world :=
    { memory :=
        { baseAddress := 4096, storageSize := 4096, bytes := fun _ => 0, regions := []
          mappingIdentityRegions := [], sharedMappings := [], nextMappingGeneration := {}
          mappingGenerationExhausted := false, writeGeneration := {}
          writeGenerationExhausted := false }
      backings := fun _ => .create 0 }

theorem reachable_pagedStorage : pagedStorage.Reachable := by
  have hcreate : GuestStorage.createHostMapped 16 4096 4096 true {} kNone
    (fun _ => .create 0) = some pagedStorage := rfl
  exact .hostMapped hcreate

theorem loaders_load_or_undo_tight :
    (loadElf64 tightImage {} pagedStorage 4096).map (·.1.error) = some none ∧
      LoadOutcome tightImage {} pagedStorage 4096 (loadElf64 tightImage {} pagedStorage 4096) ∧
        LoadOutcome tightImage {} pagedStorage 4096
          (loadExecutable64 tightImage {} pagedStorage 4096) :=
  ⟨by decide +kernel, loaders_load_or_undo tightImage {} pagedStorage reachable_pagedStorage 4096⟩

/-- A host that changes the protection of pages for a mapping and never again. -/
def stubbornHost : LoadHost where
  file _ := { protects := fun _ => false }
  unmap _ := { protects := fun _ => false }

/-- With such a host the load fails at the file data of its segment, and so does the
undoing: the pages stay mapped. -/
theorem failed_load_leaves_mapping : pagedStorage.world.memory.protections 4096 = none ∧
      (loadElf64 tightImage stubbornHost pagedStorage 4096).map
          (fun r => (r.1.error, r.2.world.memory.protections 4096)) =
        some (some .kGuestRangeOutOfRange, some (kRead ||| kWrite)) := by
  decide +kernel

end KajPS5.Loader
