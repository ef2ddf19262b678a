/-
# The tables of a parsed executable

Every table the dynamic section leads to is looked up in the file data of a
segment, so it lies inside the image with all its records; the strings that are
decoded are paid for from one budget. The stages of the parser all keep one
invariant, `WithinImage`, and the parser as a whole is defined on every byte
string and establishes it.
-/

import KajPS5.Loader.ElfSegments
import KajPS5.Loader.Relocator

namespace KajPS5.Loader

open Math.DefinedRuns ElfDynamicInfo List

variable {image : List UInt8}

/-- The size of some strings, with a terminator for each. -/
def stringSizes (strings : List ByteString) : ℕ := (strings.map fun string => string.length + 1).sum

/-- All strings that have been decoded. -/
def ElfDynamicInfo.decodedStrings (info : ElfDynamicInfo) : List ByteString :=
  info.neededLibraries ++ info.sharedObjectName.toList ++
    (info.importModules ++ info.exportModules).map ElfModuleIdentity.name ++
    (info.importLibraries ++ info.exportLibraries).map ElfLibraryIdentity.name ++
    info.symbols.map ElfSymbol.name

def ElfDynamicInfo.decodedSize (info : ElfDynamicInfo) : ℕ := stringSizes info.decodedStrings

/-- What the parser has established, with what is left of its budget. -/
structure ElfMetadata.WithinImage (metadata : ElfMetadata) (image : List UInt8) (budget : ℕ) :
    Prop where
  headers : HeadersFit image metadata.programHeaders
  stringTable : ∀ offset size, metadata.dynamicInfo.stringTableFileOffset = some offset →
    metadata.dynamicInfo.stringTableSize = some size → offset + size ≤ image.length
  relocations : TableWithin image kRelaEntrySize (relaEntryAt image)
    metadata.dynamicInfo.relocations
  pltRelocations : TableWithin image kRelaEntrySize (relaEntryAt image)
    metadata.dynamicInfo.pltRelocations
  /-- A relocation that does anything starts inside a load segment. -/
  targets : ∀ entry ∈ metadata.dynamicInfo.relocations ++ metadata.dynamicInfo.pltRelocations,
    entry.type ≠ 0 → ∃ header ∈ metadata.programHeaders,
      header.type = kProgramTypeLoad ∧ header.Covers entry.offset.toNat
  symbols : TableWithin image kSymbolEntrySize (symbolAt image)
    (metadata.dynamicInfo.symbols.map fun symbol => { symbol with name := [] })
  budget : metadata.dynamicInfo.decodedSize + budget ≤ calculateDecodedStringBudget image.length

namespace ElfMetadata

variable {metadata : ElfMetadata} {budget : ℕ}

/-! ## Offsets -/

variable {size offset address : ℕ}

theorem within_of_resolveInHeader {header : ElfProgramHeader}
    (hdata : header.type = kProgramTypeLoad → header.DataWithin image)
    (h : resolveInHeader address size header = some offset) : offset + size ≤ image.length := by
  rw [resolveInHeader] at h
  simp only [Bool.or_eq_true, decide_eq_true_eq, Bool.and_eq_true] at h
  split_ifs at h with hother hrange
  simp only [not_or, not_not] at hother
  have hwithin : header.fileOffset + header.fileSize ≤ image.length := hdata hother.1
  have hoff := Option.some.inj h
  omega

section

variable (hfit : HeadersFit image metadata.programHeaders)
include hfit

theorem within_of_findSome
    (h : metadata.programHeaders.findSome? (resolveInHeader address size) = some offset) :
    offset + size ≤ image.length := by
  obtain ⟨header, hmem, heq⟩ := exists_of_findSome?_eq_some h
  exact within_of_resolveInHeader (hfit.load _ hmem) heq

theorem within_of_resolveFileOffset
    (h : metadata.resolveFileOffset address size = some offset) : offset + size ≤ image.length := by
  rw [resolveFileOffset] at h
  split at h
  next hdirect =>
    cases h
    exact within_of_findSome hfit hdirect
  · split_ifs at h
    split at h
    · exact within_of_findSome hfit h
    · cases h

/-- Wherever a table is looked up, it lies inside the image. -/
theorem within_of_resolveDynamicFileOffset {selection : DynamicEntrySelection}
    (h : metadata.resolveDynamicFileOffset selection size = some offset) :
    offset + size ≤ image.length := by
  rw [resolveDynamicFileOffset] at h
  split at h
  · cases h
  split at h
  · exact within_of_resolveFileOffset hfit h
  · cases h
  split at h
  · cases h
  next header hhead =>
    split_ifs at h with hrange
    rw [rangeWithin_iff] at hrange
    have htype : header.type = kProgramTypeSceDynlibData := by
      have := find?_some hhead
      simpa using this
    have hwithin : header.fileOffset + header.fileSize ≤ image.length :=
      hfit.dynlib _ (mem_of_find?_eq_some hhead) htype
    have hoff := Option.some.inj h
    omega

end

end ElfMetadata

/-! ## Strings -/

theorem stringSizes_append (first second : List ByteString) :
    stringSizes (first ++ second) = stringSizes first + stringSizes second := by
  rw [stringSizes, map_append, sum_append]
  rfl

theorem stringSizes_singleton (string : ByteString) : stringSizes [string] = string.length + 1 :=
  rfl

namespace ElfDynamicInfo

variable (info : ElfDynamicInfo)

theorem decodedSize_eq :
    info.decodedSize = stringSizes info.neededLibraries + stringSizes info.sharedObjectName.toList +
      (stringSizes (info.importModules.map ElfModuleIdentity.name) +
        stringSizes (info.exportModules.map ElfModuleIdentity.name)) +
      (stringSizes (info.importLibraries.map ElfLibraryIdentity.name) +
        stringSizes (info.exportLibraries.map ElfLibraryIdentity.name)) +
      stringSizes (info.symbols.map ElfSymbol.name) := by
  simp only [decodedSize, decodedStrings, map_append, stringSizes_append]

theorem decodedSize_addIdentity (entry : ElfDynamicEntry) (name : ByteString) :
    (info.addIdentity entry name).decodedSize = info.decodedSize + (name.length + 1) := by
  rw [addIdentity]
  split_ifs <;>
    simp only [decodedSize_eq, map_append, stringSizes_append, map_cons, map_nil,
      ElfModuleIdentity.ofValue, ElfLibraryIdentity.ofValue, stringSizes_singleton] <;>
    omega

/-- An identity leaves the tables alone. -/
theorem addIdentity_tables (entry : ElfDynamicEntry) (name : ByteString) :
    (info.addIdentity entry name).stringTableFileOffset = info.stringTableFileOffset ∧
      (info.addIdentity entry name).stringTableSize = info.stringTableSize ∧
      (info.addIdentity entry name).relocations = info.relocations ∧
      (info.addIdentity entry name).pltRelocations = info.pltRelocations ∧
      (info.addIdentity entry name).symbols = info.symbols := by
  rw [addIdentity]
  split_ifs <;> exact ⟨rfl, rfl, rfl, rfl, rfl⟩

end ElfDynamicInfo

theorem readStringBytes_ok {budget remaining : ℕ} {rest : List UInt8} {prior value : ByteString}
    (h : readStringBytes budget rest prior = .ok value remaining) :
    value.length + 1 + remaining = budget := by
  induction rest generalizing prior with
  | nil => simp [readStringBytes] at h
  | cons byte rest ih =>
    rw [readStringBytes] at h
    split_ifs at h with hzero hover hover
    · obtain ⟨rfl, rfl⟩ := h
      omega
    · exact ih h

/-- A decoded string is paid for, with its terminator. -/
theorem ensures_readString (outOfRange unterminated : ElfError) (stringTable : List UInt8)
    (offset budget : ℕ) :
    Ensures (fun s => s.1.length + 1 + s.2 = budget)
      (readString outOfRange unterminated stringTable offset budget) := by
  refine .ite (fun _ => .throw _) fun hoff => ?_
  cases hread : readDynamicString stringTable offset budget with
  | budgetExceeded => exact .throw _
  | unterminated => exact .throw _
  | ok value remaining =>
    rw [readDynamicString, if_neg hoff] at hread
    exact .pure (readStringBytes_ok hread)

theorem ensures_parseNeededLibraries (bytes : List UInt8) (entries : List ElfDynamicEntry)
    (state : List ByteString × ℕ) :
    Ensures
      (fun s => stringSizes s.1 + s.2 = stringSizes state.1 + state.2)
      (parseNeededLibraries bytes entries state) := by
  induction entries generalizing state with
  | nil => exact .pure rfl
  | cons entry entries ih =>
    obtain ⟨libraries, budget⟩ := state
    refine .ite (fun _ => ih _) fun _ => ?_
    refine (ensures_readString _ _ _ _ _).bind fun s hs => ?_
    refine (ih (libraries ++ [s.1], s.2)).mono fun s' hs' => ?_
    simp only [stringSizes_append, stringSizes_singleton] at hs' ⊢
    omega

/-! ## The stages -/

namespace ElfMetadata.WithinImage

variable {metadata : ElfMetadata} {budget : ℕ}

section

variable (h : metadata.WithinImage image budget)
include h

/-- Less of the budget may be left. -/
theorem weaken {less : ℕ} (hless : less ≤ budget) : metadata.WithinImage image less where
  __ := h
  budget := (Nat.add_le_add_left hless _).trans h.budget

/-- The lifecycle entries concern no table. -/
theorem lifecycle : (parseDynamicLifecycleMetadata metadata).WithinImage image budget :=
  { h with }

theorem ensures_parseStringTable
    (stringTable : DynamicEntrySelection) (stringTableSize : ElfDynamicEntry) :
    Ensures
      (fun s => s.1.WithinImage image s.2 ∧ s.1.dynamicInfo.symbols = metadata.dynamicInfo.symbols)
      (parseStringTable image metadata budget stringTable stringTableSize) := by
  rw [parseStringTable]
  cases hoff : metadata.resolveDynamicFileOffset stringTable stringTableSize.value with
  | none => exact .throw _
  | some fileOffset =>
    have hwithin := within_of_resolveDynamicFileOffset h.headers hoff
    refine (ensures_subspan hwithin).bind fun bytes _ => ?_
    refine (ensures_parseNeededLibraries _ _ _).bind fun s hs => ?_
    have hbudget := h.budget
    rw [decodedSize_eq] at hbudget
    have hstring : ∀ offset size, some fileOffset = some offset →
        some stringTableSize.value = some size → offset + size ≤ image.length := by
      rintro offset size ⟨⟩ ⟨⟩
      exact hwithin
    cases metadata.findDynamicEntry kDynamicTagSharedObjectName with
    | none =>
      refine .pure ⟨{ h with stringTable := hstring, budget := ?_ }, rfl⟩
      rw [decodedSize_eq]
      simp only at hs ⊢
      omega
    | some sharedObjectName =>
      refine (ensures_readString _ _ _ _ _).bind fun s' hs' => ?_
      refine .pure ⟨{ h with stringTable := hstring, budget := ?_ }, rfl⟩
      rw [decodedSize_eq]
      simp only [Option.toList_some, stringSizes_singleton] at hs hs' ⊢
      omega

theorem ensures_parseDynamicStrings : Ensures
      (fun s => s.1.WithinImage image s.2 ∧ s.1.dynamicInfo.symbols = metadata.dynamicInfo.symbols)
      (parseDynamicStrings image metadata budget) := by
  refine .check fun _ => ?_
  split
  · exact h.ensures_parseStringTable _ _
  · exact .pure ⟨h, rfl⟩

end

theorem ensures_readMetadataString (image : List UInt8) (metadata : ElfMetadata)
    (offset budget : ℕ) :
    Ensures (fun s => s.1.length + 1 + s.2 = budget)
      (readMetadataString image metadata offset budget) := by
  rw [readMetadataString]
  split
  · refine ensures_checkRange fun hrange => ?_
    exact (ensures_subspan hrange).bind fun bytes _ => ensures_readString _ _ _ _ _
  · exact .throw _

theorem ensures_parseSceIdentities (h : metadata.WithinImage image budget) : Ensures
      (fun s => s.1.WithinImage image s.2 ∧ s.1.dynamicInfo.symbols = metadata.dynamicInfo.symbols)
      (parseSceIdentities image metadata budget) := by
  refine Ensures.foldlM ⟨h, rfl⟩ fun s hs entry _ => ?_
  refine .ite (fun _ => .pure hs) fun _ => ?_
  refine (ensures_readMetadataString image s.1 _ s.2).bind fun read hread => ?_
  obtain ⟨hoff, hsize, hrelocations, hplt, hsyms⟩ := s.1.dynamicInfo.addIdentity_tables entry read.1
  have hbudget := hs.1.budget
  have hadded := s.1.dynamicInfo.decodedSize_addIdentity entry read.1
  refine .pure ⟨⟨hs.1.headers, ?_, ?_, ?_, ?_, ?_, ?_⟩, hsyms.trans hs.2⟩
  · rw [hoff, hsize]
    exact hs.1.stringTable
  · rw [hrelocations]
    exact hs.1.relocations
  · rw [hplt]
    exact hs.1.pltRelocations
  · rw [hrelocations, hplt]
    exact hs.1.targets
  · rw [hsyms]
    exact hs.1.symbols
  · simp only
    omega

end ElfMetadata.WithinImage

/-! ## Relocations -/

/-- A relocation table: inside the image, with targets that start inside load
segments. -/
def RelaTable (image : List UInt8) (metadata : ElfMetadata) (entries : List ElfRelaEntry) :
    Prop :=
  TableWithin image kRelaEntrySize (relaEntryAt image) entries ∧
    ∀ entry ∈ entries, entry.type ≠ 0 → ∃ header ∈ metadata.programHeaders,
      header.type = kProgramTypeLoad ∧ header.Covers entry.offset.toNat

variable {metadata : ElfMetadata} {budget : ℕ}

theorem covers_of_isGuestRangeMapped {address : ℕ}
    (h : isGuestRangeMapped metadata address 1 = true) :
    ∃ header ∈ metadata.programHeaders, header.type = kProgramTypeLoad ∧ header.Covers address := by
  rw [isGuestRangeMapped, any_eq_true] at h
  obtain ⟨header, hmem, hcovers⟩ := h
  simp only [Bool.and_eq_true, decide_eq_true_eq, Bool.not_eq_true', decide_eq_false_iff_not]
    at hcovers
  refine ⟨header, hmem, hcovers.1.1.1, ?_⟩
  rw [ElfProgramHeader.Covers]
  omega

theorem ensures_parseRelaEntry (metadata : ElfMetadata) {offset : ℕ}
    (h : offset + kRelaEntrySize ≤ image.length) :
    Ensures
      (fun entry => entry = relaEntryAt image offset ∧
        (entry.type ≠ 0 → ∃ header ∈ metadata.programHeaders,
          header.type = kProgramTypeLoad ∧ header.Covers entry.offset.toNat))
      (parseRelaEntry image metadata offset) := by
  refine (ensures_readRelaEntry h).bind fun entry hentry => ?_
  refine .check fun htarget => .pure ⟨hentry, fun htype => ?_⟩
  simp only [htype, ne_eq, not_false_eq_true, decide_true, Bool.true_and,
    Bool.not_eq_false'] at htarget
  exact covers_of_isGuestRangeMapped htarget

theorem ensures_parseRelaTable (hfit : HeadersFit image metadata.programHeaders)
    (table : DynamicEntrySelection) (size : ℕ) :
    Ensures (RelaTable image metadata) (parseRelaTable image metadata table size) := by
  refine .check fun hsize => ?_
  cases hoff : metadata.resolveDynamicFileOffset table size with
  | none => exact .throw _
  | some fileOffset =>
    have hwithin := ElfMetadata.within_of_resolveDynamicFileOffset hfit hoff
    have hcount : fileOffset + size / kRelaEntrySize * kRelaEntrySize ≤ image.length := by
      have := Nat.div_mul_le_self size kRelaEntrySize
      omega
    have hrec : ∀ index ∈ List.range (size / kRelaEntrySize),
        fileOffset + index * kRelaEntrySize + kRelaEntrySize ≤ image.length := by
      intro index hindex
      rw [mem_range] at hindex
      rw [kRelaEntrySize] at *
      omega
    have hmap := Ensures.mapM fun index hindex => ensures_parseRelaEntry metadata (hrec _ hindex)
    refine hmap.mono fun entries hentries => ?_
    refine ⟨tableWithin_of_forall₂ hcount (hentries.imp fun _ _ h => h.1), fun entry hentry => ?_⟩
    obtain ⟨_, -, -, htarget⟩ := exists_of_forall₂ hentries hentry
    exact htarget

theorem ensures_parseRelocationTable (sce standard : RelocationTags) (format : ℕ)
    (unsupported : ElfError) (hfit : HeadersFit image metadata.programHeaders) :
    Ensures (RelaTable image metadata)
      (parseRelocationTable sce standard format unsupported image metadata) := by
  refine .check fun _ => ?_
  split
  · refine .check fun _ => ?_
    exact ensures_parseRelaTable hfit _ _
  · exact .pure ⟨tableWithin_nil _ _ _, forall_mem_nil _⟩

namespace ElfMetadata.WithinImage

theorem ensures_parseDynamicRelocations (h : metadata.WithinImage image budget) : Ensures
      (fun m => m.WithinImage image budget ∧ m.dynamicInfo.symbols = metadata.dynamicInfo.symbols)
      (parseDynamicRelocations image metadata) := by
  refine (ensures_parseRelocationTable _ _ _ _ h.headers).bind fun relocations hrela => ?_
  refine (ensures_parseRelocationTable _ _ _ _ h.headers).bind fun plt hplt => ?_
  exact .pure ⟨{ h with
    relocations := hrela.1
    pltRelocations := hplt.1
    targets := forall_mem_append.mpr ⟨hrela.2, hplt.2⟩ }, rfl⟩

end ElfMetadata.WithinImage

/-! ## Symbols -/

/-- The loop over the symbol records: the records are those of the table, and
their names are paid for. -/
theorem ensures_parseSymbolRecord (strings : List UInt8) (symbolFileOffset budget : ℕ)
    {count : ℕ} (h : symbolFileOffset + count * kSymbolEntrySize ≤ image.length) :
    Ensures
      (fun s => (s.1.map fun symbol => { symbol with name := [] }) = (List.range count).map
          (fun i => symbolAt image (symbolFileOffset + i * kSymbolEntrySize)) ∧
        stringSizes (s.1.map ElfSymbol.name) + s.2 = budget)
      ((List.range count).foldlM (parseSymbolRecord image strings symbolFileOffset)
        ([], budget)) := by
  induction count with
  | zero => exact .pure ⟨rfl, Nat.zero_add _⟩
  | succ count ih =>
    rw [range_succ, foldlM_append]
    rw [Nat.succ_mul] at h
    refine (ih (by omega)).bind fun s hs => ?_
    simp only [foldlM_cons, foldlM_nil, bind_pure]
    refine (ensures_readSymbol (by omega)).bind fun symbol hsym => ?_
    refine (ensures_readString _ _ _ _ _).bind fun read hread => .pure ⟨?_, ?_⟩
    · rw [map_append, hs.1, map_append, hsym]
      rfl
    · rw [map_append, stringSizes_append]
      simp only [map_cons, map_nil, stringSizes_singleton]
      omega

namespace ElfMetadata.WithinImage

section

variable (h : metadata.WithinImage image budget)
include h

section

variable (hsyms : metadata.dynamicInfo.symbols = [])
include hsyms

theorem ensures_parseSymbolRecords {symbolFileOffset symbolCount : ℕ}
    (hwithin : symbolFileOffset + symbolCount * kSymbolEntrySize ≤ image.length) :
    Ensures (fun s => s.1.WithinImage image s.2)
      (parseSymbolRecords image metadata symbolFileOffset symbolCount budget) := by
  rw [parseSymbolRecords]
  split
  · refine ensures_checkRange fun hrange => ?_
    refine (ensures_subspan hrange).bind fun strings _ => ?_
    rw [hsyms]
    refine (ensures_parseSymbolRecord _ _ _ hwithin).bind fun s hs => .pure ?_
    have hlen : (s.1.map fun symbol => ({ symbol with name := [] } : ElfSymbol)).length =
        symbolCount := by
      rw [hs.1, length_map, length_range]
    refine { h with symbols := ⟨symbolFileOffset, by rwa [hlen], ?_⟩, budget := ?_ }
    · rw [hlen]
      exact hs.1
    have hbudget := h.budget
    rw [decodedSize_eq] at hbudget
    rw [decodedSize_eq]
    simp only at hs ⊢
    omega
  · exact .throw _

theorem ensures_parseSceSymbols :
    Ensures (fun s => s.1.WithinImage image s.2) (parseSceSymbols image metadata budget) := by
  refine .check fun _ => ?_
  refine .check fun _ => ?_
  cases metadata.sceSymbolTableBytes with
  | none => exact .pure h
  | some symbolTableBytes =>
    refine .check fun _ => ?_
    split
    · exact .throw _
    rename_i hoff
    have hwithin := within_of_resolveDynamicFileOffset h.headers hoff
    refine h.ensures_parseSymbolRecords hsyms ?_
    have := Nat.div_mul_le_self symbolTableBytes kSymbolEntrySize
    omega

theorem ensures_parseHashedSymbols (hash : ElfDynamicEntry) :
    Ensures (fun s => s.1.WithinImage image s.2)
      (parseHashedSymbols image metadata budget hash) := by
  rw [parseHashedSymbols]
  split
  · refine .check fun _ => ?_
    refine .check fun _ => ?_
    cases hhead : metadata.resolveFileOffset hash.value 8 with
    | none => exact .throw _
    | some hashHeaderOffset =>
      have hwithin := within_of_resolveFileOffset h.headers hhead
      simp (disch := omega) only [read32_eq]
      refine .check fun _ => ?_
      split
      · exact .throw _
      · rename_i hoff
        exact h.ensures_parseSymbolRecords hsyms (within_of_resolveFileOffset h.headers hoff)
  · exact .throw _

theorem ensures_parseDynamicSymbols :
    Ensures (fun s => s.1.WithinImage image s.2) (parseDynamicSymbols image metadata budget) := by
  refine .ite (fun _ => h.ensures_parseSceSymbols hsyms) fun _ => ?_
  split
  · exact .pure h
  · exact h.ensures_parseHashedSymbols hsyms _

end

end

end ElfMetadata.WithinImage

/-! ## The parser -/

theorem ensures_readDynamicEntries {entryOffset count : ℕ}
    (h : entryOffset + count * kDynamicEntrySize ≤ image.length) :
    Ensures (fun _ => True) (readDynamicEntries image entryOffset count) := by
  induction count generalizing entryOffset with
  | zero => exact .throw _
  | succ count ih =>
    rw [kDynamicEntrySize] at h
    simp (disch := omega) only [readDynamicEntries, read64_eq]
    refine .ite (fun _ => .pure trivial) fun _ => ?_
    refine (ih ?_).bind fun rest _ => .pure trivial
    rw [kDynamicEntrySize]
    omega

section

variable (hfit : HeadersFit image metadata.programHeaders) (hinfo : metadata.dynamicInfo = {})
include hfit hinfo

/-- Headers that fit are all there is to check before the dynamic segment. -/
theorem withinImage_of_headersFit :
    metadata.WithinImage image (calculateDecodedStringBudget image.length) := by
  refine ⟨hfit, ?_, ?_, ?_, ?_, ?_, ?_⟩ <;> rw [hinfo]
  · exact nofun
  · exact tableWithin_nil _ _ _
  · exact tableWithin_nil _ _ _
  · exact forall_mem_nil _
  · exact tableWithin_nil _ _ _
  · exact le_of_eq (Nat.zero_add _)

theorem ensures_parseDynamicSegment (dynamicHeader : ElfProgramHeader) :
    Ensures (fun m => m.WithinImage image 0)
      (parseDynamicSegment image metadata dynamicHeader) := by
  refine .check fun _ => ?_
  refine ensures_checkRange fun hrange => ?_
  have hentries : dynamicHeader.fileOffset +
      dynamicHeader.fileSize / kDynamicEntrySize * kDynamicEntrySize ≤ image.length := by
    have := Nat.div_mul_le_self dynamicHeader.fileSize kDynamicEntrySize
    omega
  refine (ensures_readDynamicEntries hentries).bind fun dynamicEntries _ => ?_
  have hstart : ({ metadata with dynamicEntries } : ElfMetadata).WithinImage image
      (calculateDecodedStringBudget image.length) := withinImage_of_headersFit hfit hinfo
  have hnone : (ElfMetadata.parseDynamicLifecycleMetadata
    { metadata with dynamicEntries }).dynamicInfo.symbols = [] := by
    rw [show (ElfMetadata.parseDynamicLifecycleMetadata
      { metadata with dynamicEntries }).dynamicInfo.symbols = metadata.dynamicInfo.symbols from rfl,
      hinfo]
  refine hstart.lifecycle.ensures_parseDynamicStrings.bind fun s hs => ?_
  refine hs.1.ensures_parseSceIdentities.bind fun s' hs' => ?_
  refine hs'.1.ensures_parseDynamicRelocations.bind fun m hm => ?_
  have hsyms : m.dynamicInfo.symbols = [] := by rw [hm.2, hs'.2, hs.2, hnone]
  refine (hm.1.ensures_parseDynamicSymbols hsyms).bind fun s'' hs'' => .pure ?_
  exact hs''.weaken (Nat.zero_le _)

end

theorem ensures_findDynamicHeader (found : Option ElfProgramHeader)
    (headers : List ElfProgramHeader) :
    Ensures (fun _ => True) (findDynamicHeader found headers) := by
  induction headers generalizing found with
  | nil => exact .pure trivial
  | cons header headers ih =>
    refine .ite (fun _ => ih found) fun _ => ?_
    exact .check fun _ => ih _

theorem ensures_parseElf64WithLayout (image : List UInt8) (layout : ExecutableLayout) :
    Ensures (fun metadata => metadata.WithinImage image 0) (parseElf64WithLayout image layout) := by
  refine (ensures_readElfHeader image layout).bind fun header hhead => ?_
  refine (ensures_parseProgramHeaders _ hhead.1).bind fun programHeaders hfit => ?_
  refine (ensures_findDynamicHeader none programHeaders).bind fun dynamicHeader _ => ?_
  have hstart : ({ header.metadata with programHeaders } : ElfMetadata).dynamicInfo = {} := hhead.2
  cases dynamicHeader with
  | none => exact .pure ((withinImage_of_headersFit hfit hstart).weaken (Nat.zero_le _))
  | some dynamicHeader => exact ensures_parseDynamicSegment hfit hstart _

theorem ensures_parseExecutable64 (image : List UInt8) :
    Ensures (fun metadata => metadata.WithinImage image 0) (parseExecutable64 image) :=
  (ensures_parseExecutableLayout image).bind fun layout _ =>
    ensures_parseElf64WithLayout image layout

/-- The two parsers, on every byte string: no access leaves the image, and what
they accept lies within it. -/
theorem parsers_stay_within_image (image : List UInt8) : ((parseElf64 image).run ≠ none ∧
      ∀ metadata, (parseElf64 image).run = some (.ok metadata) → metadata.WithinImage image 0) ∧
    ((parseExecutable64 image).run ≠ none ∧
      ∀ metadata, (parseExecutable64 image).run = some (.ok metadata) →
        metadata.WithinImage image 0) := by
  have helf := ensures_parseElf64WithLayout image {}
  have hexecutable := ensures_parseExecutable64 image
  exact ⟨⟨helf.ne_undefined, fun metadata => helf.of_ok⟩,
    hexecutable.ne_undefined, fun metadata => hexecutable.of_ok⟩

/-- A load segment over the whole file and a dynamic segment with one relocation
table, whose only entry is an eight-byte relocation at the last byte of the file. -/
def tightImage : List UInt8 :=
  [0x7f, 0x45, 0x4c, 0x46, 2, 1, 1] ++ List.replicate 9 0 ++
    encodeLittleEndian 3 2 ++ encodeLittleEndian 62 2 ++ encodeLittleEndian 1 4 ++
    encodeLittleEndian 0 8 ++ encodeLittleEndian 64 8 ++ encodeLittleEndian 0 8 ++
    encodeLittleEndian 0 4 ++ encodeLittleEndian 64 2 ++ encodeLittleEndian 56 2 ++
    encodeLittleEndian 2 2 ++ List.replicate 6 0 ++
    encodeLittleEndian 1 4 ++ encodeLittleEndian 6 4 ++
    [0, 0, 0, 264, 264, 0].flatMap (encodeLittleEndian · 8) ++
    encodeLittleEndian 2 4 ++ encodeLittleEndian 6 4 ++
    [176, 176, 0, 64, 64, 0].flatMap (encodeLittleEndian · 8) ++
    [7, 240, 8, 24, 9, 24, 0, 0].flatMap (encodeLittleEndian · 8) ++
    [263, 1, 0].flatMap (encodeLittleEndian · 8)

/-- What the parser makes of it. -/
def tightMetadata : ElfMetadata where
  type := 3
  machine := 62
  version := 1
  programHeaders :=
    [{ type := 1, flags := 6, offset := 0, fileOffset := 0, virtualAddress := 0,
       physicalAddress := 0, fileSize := 264, memorySize := 264, alignment := 0 },
      { type := 2, flags := 6, offset := 176, fileOffset := 176, virtualAddress := 176,
        physicalAddress := 0, fileSize := 64, memorySize := 64, alignment := 0 }]
  dynamicEntries := [⟨7, 240⟩, ⟨8, 24⟩, ⟨9, 24⟩]
  dynamicInfo := { relocations := [{ offset := 263, info := 1, addend := 0 }] }

theorem parsers_stay_within_tight : tightMetadata.WithinImage tightImage 0 :=
  (parsers_stay_within_image tightImage).1.2 tightMetadata (by decide +kernel)

/-- The parser accepts a relocation of eight bytes of which only the first lies in
a load segment. -/
theorem parseElf64_accepts_overhang : (parseElf64 tightImage).run = some (.ok tightMetadata) ∧
      ∃ entry ∈ tightMetadata.dynamicInfo.relocations,
        RelocationKind.ofType entry.type = some .absolute64 ∧
        RelocationKind.writeSize .absolute64 = 8 ∧
        ∀ header ∈ tightMetadata.programHeaders,
          ¬ ∀ i < 8, header.Covers (entry.offset.toNat + i) := by
  have hends : ∀ header ∈ tightMetadata.programHeaders,
      header.virtualAddress + header.memorySize ≤ 264 := by decide
  refine ⟨by decide +kernel, _, mem_cons_self, by decide, rfl,
    fun header hheader hcovers => ?_⟩
  have hend := hends _ hheader
  have hlast : 263 + 7 < header.virtualAddress + header.memorySize := (hcovers 7 (by decide)).2
  omega

end KajPS5.Loader
