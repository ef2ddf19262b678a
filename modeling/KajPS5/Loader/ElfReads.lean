/-
# Reads of an executable image stay inside it

One lemma per reading function: inside the image it is defined and returns the
little-endian value of the bytes there. A record of fixed size is then a function
of the image and its offset, and a table is a sequence of records that lies inside
the image as a whole.
-/

import KajPS5.Loader.ElfParser

namespace KajPS5.Loader

open Math.DefinedRuns List

variable {image : List UInt8} {offset : ℕ}

/-- The little-endian value of some bytes of the image. -/
def wordAt (image : List UInt8) (offset count : ℕ) : ℕ :=
  (List.range count).foldl
    (fun value index => value ||| (image.getD (offset + index) 0).toNat <<< (index * 8)) 0

theorem read8_eq (h : offset < image.length) :
    read8 image offset = pure (image.getD offset 0).toNat := by
  rw [read8, getD_eq_getElem?_getD, getElem?_eq_getElem h]
  rfl

variable {count : ℕ}

theorem readBytes_eq (h : offset + count ≤ image.length) :
    readBytes image offset count = pure (wordAt image offset count) := by
  rw [readBytes, wordAt]
  have hindex : ∀ i ∈ List.range count, offset + i < image.length := by
    intro i hi
    rw [mem_range] at hi
    omega
  generalize List.range count = indices at hindex
  generalize 0 = value
  induction indices generalizing value with
  | nil => rfl
  | cons i indices ih =>
    rw [forall_mem_cons] at hindex
    rw [foldlM_cons, read8_eq hindex.1, foldl_cons, ← ih hindex.2]
    rfl

theorem wordAt_lt (image : List UInt8) (offset count : ℕ) :
    wordAt image offset count < 2 ^ (8 * count) := by
  induction count with
  | zero => exact Nat.one_pos
  | succ count ih =>
    rw [wordAt, range_succ, foldl_append, ← wordAt]
    have hpow : 2 ^ (8 * (count + 1)) = 2 ^ 8 * 2 ^ (8 * count) := by
      rw [← pow_add]
      congr 1
      omega
    apply Nat.or_lt_two_pow
    · omega
    · have hbyte : (image.getD (offset + count) 0).toNat < 2 ^ 8 := UInt8.toNat_lt _
      rw [hpow, Nat.shiftLeft_eq, Nat.mul_comm count 8]
      exact Nat.mul_lt_mul_of_pos_right hbyte (Nat.two_pow_pos _)

theorem ensures_read8 (h : offset + 1 ≤ image.length) :
    Ensures (fun value => value = (image.getD offset 0).toNat) (read8 image offset) := by
  rw [read8_eq h]
  exact .pure rfl

theorem read16_eq (h : offset + 2 ≤ image.length) :
    read16 image offset = pure (wordAt image offset 2) := by
  simp (disch := omega) [read16, read8_eq, wordAt, range_succ]

theorem read32_eq (h : offset + 4 ≤ image.length) :
    read32 image offset = pure (wordAt image offset 4) := readBytes_eq h

theorem read64_eq (h : offset + 8 ≤ image.length) :
    read64 image offset = pure (wordAt image offset 8) := readBytes_eq h

theorem ensures_subspan (h : offset + count ≤ image.length) :
    Ensures (fun _ => True) (subspan image offset count) := by
  rw [subspan, if_pos h]
  exact .pure trivial

theorem rangeWithin_iff (totalSize offset length : ℕ) :
    rangeWithin totalSize offset length = true ↔ offset + length ≤ totalSize := by
  simp only [rangeWithin, Bool.and_eq_true, decide_eq_true_eq]
  omega

theorem ensures_checkRange {α : Type} {totalSize offset length : ℕ} {error : ElfError}
    {post : α → Prop} {rest : Unit → Parse α}
    (h : offset + length ≤ totalSize → Ensures post (rest ())) :
    Ensures post (rejectIf (!rangeWithin totalSize offset length) error >>= rest) := by
  refine .check fun hrange => h ?_
  rwa [Bool.not_eq_false', rangeWithin_iff] at hrange

/-! ## Records -/

/-- The relocation entry at an offset of the image. -/
def relaEntryAt (image : List UInt8) (offset : ℕ) : ElfRelaEntry where
  offset := BitVec.ofNat 64 (wordAt image offset 8)
  info := BitVec.ofNat 64 (wordAt image (offset + 8) 8)
  addend := BitVec.ofNat 64 (wordAt image (offset + 16) 8)

/-- The symbol at an offset of the image, apart from its name. -/
def symbolAt (image : List UInt8) (offset : ℕ) : ElfSymbol where
  nameOffset := wordAt image offset 4
  info := BitVec.ofNat 8 (image.getD (offset + 4) 0).toNat
  other := BitVec.ofNat 8 (image.getD (offset + 5) 0).toNat
  sectionIndex := BitVec.ofNat 16 (wordAt image (offset + 6) 2)
  value := BitVec.ofNat 64 (wordAt image (offset + 8) 8)
  size := BitVec.ofNat 64 (wordAt image (offset + 16) 8)
  name := []

theorem ensures_readRelaEntry (h : offset + kRelaEntrySize ≤ image.length) :
    Ensures (fun entry => entry = relaEntryAt image offset) (readRelaEntry image offset) := by
  rw [kRelaEntrySize] at h
  simp (disch := omega) only [readRelaEntry, read64_eq]
  exact .pure rfl

theorem ensures_readSymbol (h : offset + kSymbolEntrySize ≤ image.length) :
    Ensures (fun symbol => symbol = symbolAt image offset) (readSymbol image offset) := by
  rw [kSymbolEntrySize] at h
  simp (disch := omega) only [readSymbol, read8_eq, read16_eq, read32_eq, read64_eq]
  exact .pure rfl

/-- The fields of a program header are words. -/
theorem ensures_readProgramHeader (h : offset + kProgramHeaderSize ≤ image.length) :
    Ensures (fun header => header.virtualAddress < 2 ^ 64 ∧ header.fileOffset = header.offset)
      (readProgramHeader image offset) := by
  rw [kProgramHeaderSize] at h
  simp (disch := omega) only [readProgramHeader, read32_eq, read64_eq]
  exact .pure ⟨wordAt_lt _ (offset + 16) 8, rfl⟩

theorem ensures_readSelfSegment (h : offset + kSelfSegmentSize ≤ image.length) :
    Ensures (fun _ => True) (readSelfSegment image offset) := by
  rw [kSelfSegmentSize] at h
  simp (disch := omega) only [readSelfSegment, read64_eq]
  exact .pure trivial

/-! ## Tables -/

/-- The entries are the records of a table that lies inside the image. -/
def TableWithin {α : Type} (image : List UInt8) (recordSize : ℕ) (recordAt : ℕ → α)
    (entries : List α) : Prop :=
  ∃ offset, offset + entries.length * recordSize ≤ image.length ∧
    entries = (List.range entries.length).map fun i => recordAt (offset + i * recordSize)

theorem tableWithin_nil {α : Type} (image : List UInt8) (recordSize : ℕ) (recordAt : ℕ → α) :
    TableWithin image recordSize recordAt [] :=
  ⟨0, by simp, rfl⟩

theorem eq_map_of_forall₂ {α : Type} {f : ℕ → α} {indices : List ℕ} {entries : List α}
    (h : List.Forall₂ (fun i entry => entry = f i) indices entries) : entries = indices.map f := by
  induction h with
  | nil => rfl
  | cons hentry _ ih => rw [map_cons, hentry, ih]

theorem tableWithin_of_forall₂ {α : Type} {recordSize : ℕ} {recordAt : ℕ → α} {entries : List α}
    (h : offset + count * recordSize ≤ image.length)
    (hentries : List.Forall₂ (fun i entry => entry = recordAt (offset + i * recordSize))
      (List.range count) entries) : TableWithin image recordSize recordAt entries := by
  have hlen : entries.length = count := by rw [← hentries.length_eq, length_range]
  refine ⟨offset, by rwa [hlen], ?_⟩
  rw [hlen]
  exact eq_map_of_forall₂ hentries

end KajPS5.Loader
