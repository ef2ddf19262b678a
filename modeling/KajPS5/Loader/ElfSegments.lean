/-
# The segments of a parsed executable

The reads of the file header, the container and the program headers stay inside
the image, and the headers that come out fit it: the file data of a load segment
lies in the image and is no larger than the segment, segments do not run over the
end of the address space, and no two of them share an address.
-/

import KajPS5.Loader.ElfReads

namespace KajPS5.Loader

open Math.DefinedRuns Ensures List

variable {image : List UInt8}

variable (header : ElfProgramHeader)

/-- The segment occupies the address. -/
def ElfProgramHeader.Covers (address : ℕ) : Prop :=
  header.virtualAddress ≤ address ∧ address < header.virtualAddress + header.memorySize

/-- The file data of the header lies in the image. -/
def ElfProgramHeader.DataWithin (image : List UInt8) : Prop :=
  header.fileOffset + header.fileSize ≤ image.length

/-- A load segment that is no smaller than its file data and ends in the address
space. -/
def ElfProgramHeader.Sized : Prop :=
  header.type = kProgramTypeLoad →
    header.fileSize ≤ header.memorySize ∧ header.virtualAddress + header.memorySize < 2 ^ 64

/-- No address lies in both segments. -/
def ElfProgramHeader.Apart (first second : ElfProgramHeader) : Prop :=
  first.type = kProgramTypeLoad → second.type = kProgramTypeLoad →
    ∀ address, first.Covers address → ¬second.Covers address

/-- What the parser has checked about the program headers. -/
structure HeadersFit (image : List UInt8) (headers : List ElfProgramHeader) : Prop where
  sized : ∀ header ∈ headers, header.Sized
  load : ∀ header ∈ headers, header.type = kProgramTypeLoad → header.DataWithin image
  dynlib : ∀ header ∈ headers, header.type = kProgramTypeSceDynlibData → header.DataWithin image
  apart : headers.Pairwise ElfProgramHeader.Apart

/-! ## The container -/

theorem ensures_isSelfMagic (image : List UInt8) :
    Ensures (fun magic => magic = true → 4 ≤ image.length) (isSelfMagic image) := by
  refine .ite (fun _ => .pure fun h => absurd h Bool.false_ne_true) fun hlen => ?_
  refine bind (mapM fun i hi => ensures_read8 ?_) fun magic _ => .pure fun _ => by omega
  rw [mem_range] at hi
  omega

theorem ensures_hasKnownSelfLayout (h : kSelfHeaderSize ≤ image.length) :
    Ensures (fun _ => True) (hasKnownSelfLayout image) := by
  rw [kSelfHeaderSize] at h
  refine (ensures_isSelfMagic image).bind fun magic _ => ?_
  refine .ite (fun _ => ?_) fun _ => .pure trivial
  simp (disch := omega) only [read8_eq]
  exact .pure trivial

theorem ensures_parseSelfLayout (image : List UInt8) :
    Ensures (fun _ => True) (parseSelfLayout image) := by
  refine .check fun hhead => ?_
  rw [decide_eq_false_iff_not, not_lt] at hhead
  refine (ensures_hasKnownSelfLayout hhead).bind fun known _ => ?_
  refine .check fun _ => ?_
  have hlen : 32 ≤ image.length := hhead
  simp (disch := omega) only [read16_eq, read64_eq, pure_bind]
  generalize wordAt image 24 2 = segmentCount
  cases hsum : addWithoutOverflow kSelfHeaderSize (segmentCount * kSelfSegmentSize) with
  | none => exact .throw _
  | some elfOffset =>
    refine ensures_checkRange fun hrange => ?_
    rw [addWithoutOverflow] at hsum
    split_ifs at hsum
    have helf := Option.some.inj hsum
    refine bind (mapM fun index hindex => ensures_readSelfSegment ?_)
      fun segments _ => .pure trivial
    rw [mem_range] at hindex
    simp only [kSelfSegmentSize] at helf ⊢
    omega

theorem ensures_parseExecutableLayout (image : List UInt8) :
    Ensures (fun _ => True) (parseExecutableLayout image) := by
  refine (ensures_isSelfMagic image).bind fun magic _ => ?_
  exact .ite (fun _ => ensures_parseSelfLayout _) fun _ => .pure trivial

/-- The search for the data of a header reads nothing. -/
theorem ensures_resolveSelfFileOffset (imageSize : ℕ) (layout : ExecutableLayout)
    (programHeaders : List ElfProgramHeader) (targetIndex : ℕ) (target : ElfProgramHeader) :
    Ensures (fun _ => True)
      (resolveSelfFileOffset imageSize layout programHeaders targetIndex target) := by
  refine .ite (fun _ => .throw _) fun _ => .ite (fun _ => .pure trivial) fun _ => ?_
  rw [resolveUnmappedSelf]
  generalize Option.filter _ _ = candidate
  cases candidate with
  | some offset => exact .pure trivial
  | none =>
    refine .ite (fun _ => .pure trivial) fun _ => .ite (fun _ => .pure trivial) fun _ => ?_
    exact .ite (fun _ => .throw _) fun _ => .ite (fun _ => .throw _) fun _ =>
      .ite (fun _ => .throw _) fun _ => .throw _

/-! ## The file header -/

theorem ensures_checkIdent {elfOffset : ℕ} (h : elfOffset + kElfHeaderSize ≤ image.length) :
    Ensures (fun _ => True) (checkIdent image elfOffset) := by
  rw [kElfHeaderSize] at h
  refine bind (mapM fun i hi => ensures_read8 (by
    rw [mem_range] at hi
    omega)) fun magic _ => ?_
  refine .check fun _ => ?_
  simp (disch := omega) only [read8_eq]
  refine .check fun _ => ?_
  refine .check fun _ => ?_
  exact (Ensures.rejectIf _ _).mono fun _ _ => trivial

/-- The table of program headers lies in the image, and nothing is decoded yet. -/
theorem ensures_readElfHeader (image : List UInt8) (layout : ExecutableLayout) : Ensures
      (fun header => header.programHeaderFileOffset +
        header.programHeaderCount * kProgramHeaderSize ≤ image.length ∧
          header.metadata.dynamicInfo = {})
      (readElfHeader image layout) := by
  refine ensures_checkRange fun hrange => ?_
  refine (ensures_checkIdent hrange).bind fun _ _ => ?_
  rw [kElfHeaderSize] at hrange
  simp (disch := omega) only [read8_eq, read16_eq, read32_eq, read64_eq]
  iterate 5 refine .check fun _ => ?_
  refine .check fun hsize => ?_
  rw [decide_eq_false_iff_not, not_not] at hsize
  cases addWithoutOverflow layout.elfOffset _ with
  | none => exact .throw _
  | some programHeaderFileOffset =>
    refine .check fun htable => ?_
    rw [Bool.not_eq_false', rangeWithin_iff, hsize] at htable
    exact .pure ⟨htable, rfl⟩

/-! ## Program headers -/

theorem ensures_checkProgramHeader {header : ElfProgramHeader}
    (haddr : header.virtualAddress < 2 ^ 64) :
    Ensures (fun _ => header.Sized) (checkProgramHeader header) := by
  refine .ite (fun _ => ?_) fun hload => .pure fun h => absurd h hload
  refine .check fun hsize => ?_
  refine .check fun hend => ?_
  refine (Ensures.rejectIf _ _).mono fun _ _ _ => ?_
  rw [decide_eq_false_iff_not] at hsize hend
  rw [Memory.uint64Max] at hend
  omega

theorem ensures_parseProgramHeader {offset : ℕ} (h : offset + kProgramHeaderSize ≤ image.length) :
    Ensures ElfProgramHeader.Sized (parseProgramHeader image offset) := by
  refine (ensures_readProgramHeader h).bind fun header hhead => ?_
  exact (ensures_checkProgramHeader hhead.1).bind fun _ hsized => .pure hsized

/-- Finding its data changes the file offset of a header only. -/
theorem ensures_locateFileData (layout : ExecutableLayout)
    (programHeaders : List ElfProgramHeader) (indexed : ElfProgramHeader × ℕ) :
    Ensures
      (fun header => header = { indexed.1 with fileOffset := header.fileOffset } ∧
        (header.type = kProgramTypeLoad → header.DataWithin image))
      (locateFileData image layout programHeaders indexed) := by
  have hoff : Ensures (fun _ => True)
      (locateFileOffset image.length layout programHeaders indexed.1 indexed.2) :=
    .ite (fun _ => ensures_resolveSelfFileOffset _ _ _ _ _) fun _ => .pure trivial
  refine hoff.bind fun fileOffset _ => ?_
  refine .check fun hrange => .pure ⟨rfl, fun hload => ?_⟩
  have hload : indexed.1.type = kProgramTypeLoad := hload
  simp only [hload, decide_true, Bool.true_and, Bool.not_eq_false', rangeWithin_iff] at hrange
  exact hrange

/-! ## Disjointness -/

/-- Ranges that are not empty and do not overlap their neighbour in a list do not
overlap any later one. -/
theorem pairwise_of_not_anyOverlap {ranges : List (ℕ × ℕ)}
    (hnonempty : ∀ range ∈ ranges, range.1 < range.2) (h : anyOverlap ranges = false) :
    ranges.Pairwise fun first second => first.2 ≤ second.1 := by
  induction ranges with
  | nil => exact .nil
  | cons first ranges ih =>
    rw [forall_mem_cons] at hnonempty
    cases ranges with
    | nil => exact pairwise_singleton _ _
    | cons second rest =>
      rw [anyOverlap, Bool.or_eq_false_iff, decide_eq_false_iff_not, not_lt] at h
      have hrest := ih hnonempty.2 h.2
      refine pairwise_cons.mpr ⟨fun range hrange => ?_, hrest⟩
      rcases mem_cons.mp hrange with rfl | hrange
      · exact h.1
      · have hsecond := (forall_mem_cons.mp hnonempty.2).1
        have hnext := (pairwise_cons.mp hrest).1 range hrange
        omega

theorem pairwise_apart {headers : List ElfProgramHeader}
    (h : anyOverlap ((loadRanges headers).insertionSort rangeLE) = false) :
    headers.Pairwise ElfProgramHeader.Apart := by
  have hnonempty : ∀ range ∈ loadRanges headers, range.1 < range.2 := by
    intro range hrange
    obtain ⟨header, -, heq⟩ := mem_filterMap.mp hrange
    split_ifs at heq with hload
    cases heq
    exact Nat.lt_add_of_pos_right (Nat.pos_of_ne_zero hload.2)
  have hperm := perm_insertionSort rangeLE (loadRanges headers)
  have hsorted := pairwise_of_not_anyOverlap
    (fun range hrange => hnonempty _ (hperm.mem_iff.mp hrange)) h
  -- Being apart is symmetric, so the order of the sorted list does not matter.
  have hapart : (loadRanges headers).Pairwise
      fun first second => first.2 ≤ second.1 ∨ second.2 ≤ first.1 :=
    (hperm.pairwise_iff fun hab => hab.symm).mp (hsorted.imp fun hab => .inl hab)
  rw [loadRanges, pairwise_filterMap] at hapart
  refine hapart.imp fun {first second} hab hfirst hsecond address hcovers hcovers' => ?_
  simp only [ElfProgramHeader.Covers] at hcovers hcovers'
  have hsizes : first.memorySize ≠ 0 ∧ second.memorySize ≠ 0 := by omega
  have hranges := hab _ (if_pos ⟨hfirst, hsizes.1⟩) _ (if_pos ⟨hsecond, hsizes.2⟩)
  omega

theorem ensures_checkSceDynlibData (found : Bool) (headers : List ElfProgramHeader) : Ensures
      (fun _ => ∀ header ∈ headers, header.type = kProgramTypeSceDynlibData →
        header.DataWithin image)
      (checkSceDynlibData image found headers) := by
  induction headers generalizing found with
  | nil => exact .pure (forall_mem_nil _)
  | cons header headers ih =>
    refine .ite (fun hother => ?_) fun _ => ?_
    · refine (ih found).mono fun _ hrest => ?_
      exact forall_mem_cons.mpr ⟨fun h => absurd h hother, hrest⟩
    refine .check fun _ => ?_
    refine ensures_checkRange fun hrange => ?_
    refine (ih true).mono fun _ hrest => ?_
    exact forall_mem_cons.mpr ⟨fun _ => hrange, hrest⟩

theorem ensures_parseProgramHeaders (layout : ExecutableLayout) {header : ElfHeader}
    (h : header.programHeaderFileOffset + header.programHeaderCount * kProgramHeaderSize ≤
      image.length) :
    Ensures (HeadersFit image) (parseProgramHeaders image layout header) := by
  refine bind (mapM_mem fun index hindex => ensures_parseProgramHeader ?_) fun read hread => ?_
  · rw [mem_range] at hindex
    rw [kProgramHeaderSize] at *
    omega
  refine bind (mapM_mem fun indexed _ => ensures_locateFileData layout read indexed)
    fun located hlocated => ?_
  refine .check fun hover => ?_
  refine (ensures_checkSceDynlibData false located).bind fun _ hdynlib => .pure ?_
  refine ⟨fun header hhead => ?_, fun header hhead hload => ?_, hdynlib, pairwise_apart hover⟩
  · obtain ⟨indexed, hindexed, heq, -⟩ := hlocated _ hhead
    obtain ⟨_, -, hsized⟩ := hread _ (fst_mem_of_mem_zipIdx hindexed)
    rw [heq]
    exact hsized
  · obtain ⟨_, -, -, hwithin⟩ := hlocated _ hhead
    exact hwithin hload

end KajPS5.Loader
