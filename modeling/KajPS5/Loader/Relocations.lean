/-
# What a relocation pass leaves in memory

A relocation stores a word that its type's formula gives from the address `S` of
its symbol, its addend `A`, its place `P`, the load bias `B`, the size `Z` of its
symbol and the placement of the module's thread-local storage. This module states
the formulas and the conditions an entry has to meet, without reference to the
order in which the relocator checks them, and shows that the two passes implement
them: the first pass accepts the tables exactly when every entry meets its
conditions, a rejected plan leaves the memory alone, and an accepted one stores
the words of the formulas one entry after the other.
-/

import KajPS5.Loader.Relocator

namespace KajPS5.Loader

open Memory GuestMemoryProtection List Option

/-- The words a relocation formula speaks about. -/
structure RelocationTerms where
  /-- `S`, the address of the symbol. -/
  symbol : BitVec 64
  /-- `Z`, the size of the symbol. -/
  size : BitVec 64
  /-- `A`. -/
  addend : BitVec 64
  /-- `P`, the address of the target. -/
  place : BitVec 64
  /-- `B`, the load bias. -/
  base : BitVec 64
  /-- The offset of the symbol in the thread-local storage of the module. -/
  tlsSymbol : BitVec 64
  /-- The number of the module among those with thread-local storage. -/
  tlsModule : BitVec 64
  /-- How far before the thread pointer the storage of the module starts. -/
  tlsStatic : BitVec 64

namespace RelocationKind

/-- The word a relocation stores. -/
def formula (kind : RelocationKind) (t : RelocationTerms) : BitVec 64 :=
  match kind with
  | none => 0
  | absolute64 | unsigned32 | signed32 => t.symbol + t.addend
  | pc32 | plt32 | pc64 => t.symbol + t.addend - t.place
  | globDat | jumpSlot => t.symbol
  | relative | relative64 => t.base + t.addend
  | size32 | size64 => t.size + t.addend
  | tlsModuleId => t.tlsModule
  | tlsDtpOffset => t.tlsSymbol + t.addend
  | tlsTpOffset => t.tlsSymbol + t.addend - t.tlsStatic

/-- How a stored half word stands for a word. -/
def extend (kind : RelocationKind) (low : BitVec 32) : BitVec 64 :=
  match kind with
  | unsigned32 | size32 => low.setWidth 64
  | _ => low.signExtend 64

/-- The target can hold the value: a four-byte target when its bytes extend back
to the value. -/
def Fits (kind : RelocationKind) (value : BitVec 64) : Prop :=
  kind.writeSize = 4 → kind.extend (value.setWidth 32) = value

theorem writeSize_ne_zero (kind : RelocationKind) : kind.writeSize ≠ 0 := by cases kind <;> decide

end RelocationKind

namespace RelocationRequest

variable (request : RelocationRequest)

/-- The address the resolver has for an imported name. -/
def importAddress (name : ByteString) : Option (BitVec 64) :=
  match request.resolver with
  | none => none
  | some resolver =>
    let reference := resolveElfImportReference request.metadata name
    if reference.valid then request.resolvedAddress resolver reference else none

/-- The address and the size of an entry's symbol: nothing for an import that
nobody provides. -/
def symbolTerms (entry : ElfRelaEntry) : Option (BitVec 64 × BitVec 64) :=
  if entry.symbol = 0 then some (0, 0)
  else match request.metadata.dynamicInfo.symbols[entry.symbol.toNat]? with
    | none => none
    | some symbol =>
      if symbol.sectionIndex ≠ 0 then some (request.loadBias + symbol.value, symbol.size)
      else if symbol.binding = 2 then some (0, symbol.size)
      else (request.importAddress symbol.name).map fun address => (address, symbol.size)

/-- The offset of an entry's symbol in thread-local storage. -/
def tlsSymbol (entry : ElfRelaEntry) : BitVec 64 :=
  if entry.symbol = 0 then 0
  else (request.metadata.dynamicInfo.symbols[entry.symbol.toNat]?).elim 0 ElfSymbol.value

/-- The place of an entry. -/
def place (entry : ElfRelaEntry) : BitVec 64 := request.loadBias + entry.offset

/-- The terms of an entry, given those of its symbol. -/
def terms (entry : ElfRelaEntry) (symbol : BitVec 64 × BitVec 64) : RelocationTerms where
  symbol := symbol.1
  size := symbol.2
  addend := entry.addend
  place := request.place entry
  base := request.loadBias
  tlsSymbol := request.tlsSymbol entry
  tlsModule := request.tlsModuleId
  tlsStatic := request.tlsStaticOffset

/-- The value of an entry of the given kind, if it is resolved. -/
def relocationValue (kind : RelocationKind) (entry : ElfRelaEntry) : Option (BitVec 64) :=
  if kind.isSymbolRelocation then
    (request.symbolTerms entry).map fun symbol => kind.formula (request.terms entry symbol)
  else some (kind.formula (request.terms entry (0, 0)))

/-- What an entry stores, if anything: its kind and its value. -/
def relocation (entry : ElfRelaEntry) : Option (RelocationKind × BitVec 64) :=
  match RelocationKind.ofType entry.type with
  | none => none
  | some kind =>
    if kind = .none then none else (request.relocationValue kind entry).map fun v => (kind, v)

/-- The memory after one more entry: the cells behind its target hold the
little-endian bytes of its value. -/
def relocate (cellOf : ℕ → Cell) (contents : Cell → UInt8) (entry : ElfRelaEntry) :
    Cell → UInt8 := match request.relocation entry with
  | none => contents
  | some (kind, value) =>
    let address := (request.place entry).toNat
    storeCells cellOf
      (fun a => UInt8.ofBitVec (value.extractLsb' (8 * (a - address)) 8))
      (List.range' address kind.writeSize) contents

/-! ## The conditions on an entry -/

/-- The symbol of a relocation against it: a defined one has an address, an import
has a name and no null address. -/
def UsableSymbol (kind : RelocationKind) (symbol : ElfSymbol) : Prop :=
  if symbol.sectionIndex ≠ 0 then
    kind.isSizeRelocation = false → request.loadBias.toNat + symbol.value.toNat < 2 ^ 64
  else
    symbol.binding ≠ 2 → request.resolver.isSome = true →
      symbol.name.takeWhile (· != separator) ≠ [] ∧ request.importAddress symbol.name ≠ some 0

/-- The entry names no symbol or one with the given property. -/
def SymbolHas (entry : ElfRelaEntry) (P : ElfSymbol → Prop) : Prop :=
  entry.symbol ≠ 0 →
    ∃ symbol, request.metadata.dynamicInfo.symbols[entry.symbol.toNat]? = some symbol ∧ P symbol

/-- What a kind asks of its entry and of the placement of the module. -/
def Admissible (kind : RelocationKind) (entry : ElfRelaEntry) : Prop :=
  match kind with
  | .none => True
  | .relative | .relative64 => entry.symbol = 0
  | .tlsModuleId => request.tlsModuleId ≠ 0
  | .tlsDtpOffset =>
    request.tlsModuleId ≠ 0 ∧ request.SymbolHas entry fun symbol => symbol.sectionIndex ≠ 0
  | .tlsTpOffset =>
    request.tlsModuleId ≠ 0 ∧ request.tlsStaticOffset ≠ 0 ∧
      request.SymbolHas entry fun symbol => symbol.sectionIndex ≠ 0
  | kind => request.SymbolHas entry (request.UsableSymbol kind)

/-- An entry of the given kind that the first pass has to accept. -/
structure Accepts (memory : GuestMemory) (kind : RelocationKind) (entry : ElfRelaEntry) :
    Prop where
  noOverflow : request.loadBias.toNat + entry.offset.toNat < 2 ^ 64
  mapped : memory.Mapped (request.place entry).toNat kind.writeSize
  admissible : request.Admissible kind entry
  fits : ∀ value, request.relocationValue kind entry = some value → kind.Fits value

/-- The condition on an entry of any type: known, and to be accepted if it asks
for anything. -/
def AcceptsEntry (memory : GuestMemory) (entry : ElfRelaEntry) : Prop :=
  ∃ kind, RelocationKind.ofType entry.type = some kind ∧
    (kind ≠ .none → request.Accepts memory kind entry)

end RelocationRequest

/-! ## Words -/

theorem signExtend_setWidth_iff (v : BitVec 64) :
    (v.setWidth 32).signExtend 64 = v ↔ -2 ^ 31 ≤ v.toInt ∧ v.toInt ≤ 2 ^ 31 - 1 := by
  rw [← BitVec.toInt_inj, BitVec.toInt_signExtend_of_le (by decide), BitVec.toInt_setWidth]
  constructor
  · have hlt := @Int.bmod_lt v.toNat (2 ^ 32) (by decide)
    have hle := @Int.le_bmod v.toNat (2 ^ 32) (by decide)
    omega
  · have hint := BitVec.toInt_eq_toNat_bmod v
    rw [Int.bmod] at *
    omega

theorem setWidth_setWidth_iff (v : BitVec 64) :
    (v.setWidth 32).setWidth 64 = v ↔ v.toNat ≤ 2 ^ 32 - 1 := by
  rw [← BitVec.toNat_inj, BitVec.toNat_setWidth, BitVec.toNat_setWidth]
  omega

/-- The range checks of the relocator ask for what extends back. -/
theorem overflows_eq_false_iff (kind : RelocationKind) (value : BitVec 64) :
    RelocationRequest.overflows kind value = false ↔ kind.Fits value := by
  have hsigned := signExtend_setWidth_iff value
  have hunsigned := setWidth_setWidth_iff value
  cases kind <;>
    simp [RelocationRequest.overflows, RelocationKind.Fits, RelocationKind.writeSize,
      RelocationKind.extend, hsigned, hunsigned]

/-- The check for a sum that stays below `2 ^ 64`. -/
theorem not_gt_allOnes_sub_iff (a b : BitVec 64) :
    ¬b > BitVec.allOnes 64 - a ↔ a.toNat + b.toNat < 2 ^ 64 := by
  rw [gt_iff_lt, BitVec.lt_def, BitVec.toNat_sub, BitVec.toNat_allOnes]
  omega

theorem length_encodeLittleEndian (value : BitVec 64) (size : ℕ) :
    (encodeLittleEndian value size).length = size := by
  rw [encodeLittleEndian, length_map, length_range]

theorem getD_encodeLittleEndian (value : BitVec 64) {size i : ℕ} (hi : i < size) :
    (encodeLittleEndian value size).getD i 0 = UInt8.ofBitVec (value.extractLsb' (8 * i) 8) := by
  rw [encodeLittleEndian, getD_eq_getElem?_getD, getElem?_map, getElem?_range hi,
    Nat.mul_comm]
  rfl

namespace RelocationRequest

variable {request : RelocationRequest} {memory : GuestMemory} {kind : RelocationKind}
  {entry : ElfRelaEntry}

/-! ## One entry -/

/-- What can come of looking for a symbol. -/
inductive LookedUp (request : RelocationRequest) (kind : RelocationKind) (entry : ElfRelaEntry) :
    SymbolOutcome → Prop
  | found {symbol : BitVec 64 × BitVec 64} (resolvedImport : Bool)
      (husable : request.SymbolHas entry (request.UsableSymbol kind))
      (hsymbol : request.symbolTerms entry = some symbol) :
      LookedUp request kind entry
        (.found (if kind.isSizeRelocation then symbol.2 else symbol.1) resolvedImport)
  | missing (name : ByteString)
      (husable : request.SymbolHas entry (request.UsableSymbol kind))
      (hsymbol : request.symbolTerms entry = none) : LookedUp request kind entry (.missing name)
  | invalid {status : RelocationStatus} (hstatus : status ≠ .kOk)
      (hunusable : ¬request.SymbolHas entry (request.UsableSymbol kind)) :
      LookedUp request kind entry (.invalid status)

variable {symbol : ElfSymbol} {w : MemoryWorld}

theorem isSome_resolver_of_importAddress {name : ByteString} {address : BitVec 64}
    (h : request.importAddress name = some address) : request.resolver.isSome = true := by
  rw [importAddress] at h
  cases hresolver : request.resolver with
  | none =>
    rw [hresolver] at h
    cases h
  | some resolver => rfl

/-- An import is refused for its empty name or settled by its address. -/
theorem lookUpImport_cases (request : RelocationRequest) (kind : RelocationKind)
    (symbol : ElfSymbol) :
    symbol.name.takeWhile (· != separator) = [] ∧ request.resolver.isSome = true ∧
        request.lookUpImport kind symbol = .invalid .kEmptyImportSymbol ∨
      (request.resolver.isSome = true → symbol.name.takeWhile (· != separator) ≠ []) ∧
        request.lookUpImport kind symbol =
          importOutcome kind symbol (request.importAddress symbol.name) := by
  have hnid := nid_resolveElfImportReference request.metadata symbol.name
  cases hresolver : request.resolver with
  | none =>
    simp only [lookUpImport, importAddress, hresolver, importOutcome]
    simp
  | some resolver =>
    simp only [lookUpImport, importAddress, hresolver, hnid, List.isEmpty_iff, isSome_some,
      true_and, forall_const]
    by_cases hempty : symbol.name.takeWhile (· != separator) = []
    · exact .inl ⟨hempty, if_pos hempty⟩
    · refine .inr ⟨hempty, ?_⟩
      rw [if_neg hempty]
      cases (resolveElfImportReference request.metadata symbol.name).valid <;> rfl

section

variable (hzero : entry.symbol ≠ 0)
  (hsymbol : request.metadata.dynamicInfo.symbols[entry.symbol.toNat]? = some symbol)
include hzero hsymbol

theorem symbolHas_iff (P : ElfSymbol → Prop) : request.SymbolHas entry P ↔ P symbol := by
  simp only [SymbolHas, hsymbol, ne_eq, hzero, not_false_eq_true, forall_const, Option.some.injEq,
    exists_eq_left']

/-- A symbol the module defines. -/
theorem lookedUp_defined (hsec : symbol.sectionIndex ≠ 0) :
    LookedUp request kind entry (request.lookUpSymbol kind entry) := by
  have hterms : request.symbolTerms entry =
      some (request.loadBias + symbol.value, symbol.size) := by
    rw [symbolTerms, if_neg hzero, hsymbol]
    exact if_pos hsec
  have husable := symbolHas_iff hzero hsymbol (request.UsableSymbol kind)
  rw [UsableSymbol, if_pos hsec] at husable
  simp only [lookUpSymbol, hzero, hsymbol, hsec, ne_eq, not_false_eq_true, if_true]
  cases hsize : kind.isSizeRelocation with
  | true =>
    have hfound := LookedUp.found false (husable.mpr fun h => by simp [hsize] at h) hterms
    rwa [hsize] at hfound
  | false =>
    simp only [Bool.false_eq_true, if_false]
    split_ifs with hover
    · refine .invalid (by decide) fun h => ?_
      exact (not_gt_allOnes_sub_iff _ _).mpr (husable.mp h hsize) hover
    · have hfound := LookedUp.found false
        (husable.mpr fun _ => (not_gt_allOnes_sub_iff _ _).mp hover) hterms
      rwa [hsize] at hfound

/-- A symbol the module imports. -/
theorem lookedUp_imported (hsec : symbol.sectionIndex = 0) (hweak : symbol.binding ≠ 2) :
    LookedUp request kind entry (request.lookUpSymbol kind entry) := by
  have hterms : request.symbolTerms entry =
      (request.importAddress symbol.name).map fun address => (address, symbol.size) := by
    rw [symbolTerms, if_neg hzero, hsymbol]
    simp only [hsec, hweak, ne_eq, not_true_eq_false, if_false]
  have husable := symbolHas_iff hzero hsymbol (request.UsableSymbol kind)
  rw [UsableSymbol, if_neg (not_not.mpr hsec)] at husable
  simp only [lookUpSymbol, hzero, hsymbol, hsec, hweak]
  rcases lookUpImport_cases request kind symbol with ⟨hempty, hresolver, heq⟩ | ⟨hname, heq⟩
  · rw [heq]
    exact .invalid (by decide) fun h => (husable.mp h hweak hresolver).1 hempty
  rw [heq]
  cases haddr : request.importAddress symbol.name with
  | none =>
    rw [haddr] at hterms husable
    exact .missing _ (husable.mpr fun _ h => ⟨hname h, (some_ne_none _).symm⟩) hterms
  | some address =>
    rw [haddr] at hterms husable
    by_cases hnull : address = 0
    · rw [importOutcome, if_pos hnull]
      have hresolver := isSome_resolver_of_importAddress haddr
      exact .invalid (by decide) fun h => (husable.mp h hweak hresolver).2 (congrArg _ hnull)
    · rw [importOutcome, if_neg hnull]
      exact .found _ (husable.mpr fun _ h => ⟨hname h, fun h => hnull (Option.some.inj h)⟩) hterms

end

theorem lookedUp_lookUpSymbol (request : RelocationRequest) (kind : RelocationKind)
    (entry : ElfRelaEntry) : LookedUp request kind entry (request.lookUpSymbol kind entry) := by
  by_cases hzero : entry.symbol = 0
  · have hterms : request.symbolTerms entry = some (0, 0) := if_pos hzero
    have hfound : LookedUp request kind entry (.found (if kind.isSizeRelocation then 0 else 0)
        false) := LookedUp.found _ (fun h => absurd hzero h) hterms
    rw [lookUpSymbol, if_pos hzero]
    rwa [ite_self] at hfound
  · cases hsymbol : request.metadata.dynamicInfo.symbols[entry.symbol.toNat]? with
    | none =>
      simp only [lookUpSymbol, hzero, hsymbol]
      refine .invalid (by decide) fun h => ?_
      obtain ⟨symbol, hsome, -⟩ := h hzero
      rw [hsymbol] at hsome
      cases hsome
    | some symbol =>
      by_cases hsec : symbol.sectionIndex = 0
      · by_cases hweak : symbol.binding = 2
        · have hterms : request.symbolTerms entry = some (0, symbol.size) := by
            simp only [symbolTerms, hzero, hsymbol, hsec, hweak, ne_eq, not_true_eq_false, if_true,
              if_false]
          have husable := symbolHas_iff hzero hsymbol (request.UsableSymbol kind)
          rw [UsableSymbol, if_neg (not_not.mpr hsec)] at husable
          simp only [lookUpSymbol, hzero, hsymbol, hsec, hweak, ne_eq]
          exact .found _ (husable.mpr fun h => absurd hweak h) hterms
        · exact lookedUp_imported hzero hsymbol hsec hweak
      · exact lookedUp_defined hzero hsymbol hsec

/-- What can come of planning an entry, from the condition on it and what it has to store. -/
inductive Planned (accepts : Prop) (planned : Option PlannedRelocation) : EntryPlan → Prop
  | skip (haccepts : accepts) (hnone : planned = none) : Planned accepts planned .skip
  | store {relocation : PlannedRelocation} (resolvedImport : Bool) (haccepts : accepts)
      (hplanned : planned = some relocation) :
      Planned accepts planned (.store relocation resolvedImport)
  | unresolved (import_ : UnresolvedImport) (haccepts : accepts) (hnone : planned = none) :
      Planned accepts planned (.unresolved import_)
  | reject {status : RelocationStatus} (unsupported : Option (BitVec 32)) (hstatus : status ≠ .kOk)
      (hrefused : ¬accepts) : Planned accepts planned (.reject status unsupported)

/-- What the second pass has to store for an entry of the given kind. -/
def plannedAs (request : RelocationRequest) (kind : RelocationKind) (entry : ElfRelaEntry) :
    Option PlannedRelocation :=
  (request.relocationValue kind entry).map fun value =>
    ⟨request.place entry, encodeLittleEndian value kind.writeSize⟩

/-- The conditions of its kind decide what comes of planning an entry. -/
abbrev KindPlanned (request : RelocationRequest) (memory : GuestMemory) (kind : RelocationKind)
    (entry : ElfRelaEntry) : EntryPlan → Prop :=
  Planned (request.Accepts memory kind entry) (request.plannedAs kind entry)

/-- The value of a relocation against a symbol, as the relocator adds it up. -/
theorem formula_of_isSymbolRelocation (hsymbol : kind.isSymbolRelocation = true)
    (t : RelocationTerms) :
    (let value := (if kind.isSizeRelocation then t.size else t.symbol) +
        if kind = .globDat ∨ kind = .jumpSlot then 0 else t.addend
      if kind.isPcRelativeRelocation then value - t.place else value) = kind.formula t := by
  cases kind <;> first
    | exact absurd hsymbol Bool.false_ne_true
    | simp [RelocationKind.formula, RelocationKind.isSizeRelocation,
        RelocationKind.isPcRelativeRelocation]

section Target

variable (hover : request.loadBias.toNat + entry.offset.toNat < 2 ^ 64)
  (hmap : memory.Mapped (request.place entry).toNat kind.writeSize)

include hover hmap

theorem kindPlanned_planSymbol (hsymbol : kind.isSymbolRelocation = true) :
    KindPlanned request memory kind entry
      (request.planSymbol kind entry (request.place entry)) := by
  have hadmissible : request.Admissible kind entry ↔
      request.SymbolHas entry (request.UsableSymbol kind) := by
    cases kind <;> first | rfl | cases hsymbol
  have hvalue : request.relocationValue kind entry = (request.symbolTerms entry).map
      fun symbol => kind.formula (request.terms entry symbol) := if_pos hsymbol
  have hlooked := lookedUp_lookUpSymbol request kind entry
  rw [planSymbol]
  generalize request.lookUpSymbol kind entry = outcome at hlooked
  cases hlooked with
  | invalid hstat hunusable =>
    exact .reject _ hstat fun h => hunusable (hadmissible.mp h.admissible)
  | missing name husable hnone =>
    rw [hnone] at hvalue
    exact .unresolved _ ⟨hover, hmap, hadmissible.mpr husable, fun v hv => by
      rw [hvalue] at hv
      exact absurd hv.symm (some_ne_none _)⟩ (congrArg (Option.map _) hvalue)
  | @found symbol resolvedImport husable hterms =>
    rw [hterms] at hvalue
    have hsum := formula_of_isSymbolRelocation hsymbol (request.terms entry symbol)
    simp only [terms] at hsum hvalue
    simp only [hsum]
    split_ifs with hoverflow
    · refine .reject _ (by decide) fun h => ?_
      have hfits := h.fits _ hvalue
      rw [← overflows_eq_false_iff] at hfits
      exact Bool.false_ne_true (hfits.symm.trans hoverflow)
    · refine .store _ ⟨hover, hmap, hadmissible.mpr husable, fun v hv => ?_⟩
        (congrArg (Option.map _) hvalue)
      rw [hvalue] at hv
      rw [← Option.some.inj hv, ← overflows_eq_false_iff]
      exact Bool.eq_false_iff.mpr hoverflow

/-- A kind with an eight-byte target and no symbol to look for stores its value
once it is admissible. -/
theorem kindPlanned_store (hsymbol : kind.isSymbolRelocation = false)
    (hadmissible : request.Admissible kind entry) {value : BitVec 64}
    (hvalue : kind.formula (request.terms entry (0, 0)) = value) :
    KindPlanned request memory kind entry
      (.store ⟨request.place entry, encodeLittleEndian value 8⟩ false) := by
  have hsize : kind.writeSize = 8 := by
    cases kind <;> first | rfl | exact absurd hsymbol.symm Bool.false_ne_true
  have hrel : request.relocationValue kind entry = some value := by
    rw [relocationValue, hsymbol, hvalue]
    rfl
  refine .store _ ⟨hover, hmap, hadmissible, fun v _ h => ?_⟩ ?_
  · rw [hsize] at h
    exact absurd h (by decide)
  · rw [plannedAs, hrel, hsize]
    rfl

/-- The two kinds of offsets into thread-local storage share their checks. -/
theorem kindPlanned_planTlsOffset (hkind : kind = .tlsDtpOffset ∨ kind = .tlsTpOffset) :
    KindPlanned request memory kind entry
      (request.planTlsOffset kind entry (request.place entry)) := by
  have hadmissible : request.Admissible kind entry ↔
      request.tlsModuleId ≠ 0 ∧ (kind = .tlsTpOffset → request.tlsStaticOffset ≠ 0) ∧
        request.SymbolHas entry fun symbol => symbol.sectionIndex ≠ 0 := by
    rcases hkind with rfl | rfl <;> simp [Admissible]
  have hsymbol : kind.isSymbolRelocation = false := by rcases hkind with rfl | rfl <;> rfl
  have hvalue : (let value := request.tlsSymbol entry + entry.addend
      if kind = .tlsTpOffset then value - request.tlsStaticOffset else value) =
      kind.formula (request.terms entry (0, 0)) := by
    rcases hkind with rfl | rfl <;> rfl
  rw [planTlsOffset]
  split
  next hmodule => exact .reject _ (by decide) fun h => (hadmissible.mp h.admissible).1 hmodule
  rename_i hmodule
  split
  next hstatic =>
    exact .reject _ (by decide) fun h => (hadmissible.mp h.admissible).2.1 hstatic.1 hstatic.2
  rename_i hstatic
  split
  next hzero =>
    rw [tlsSymbol, if_pos hzero] at hvalue
    exact kindPlanned_store hover hmap hsymbol
      (hadmissible.mpr ⟨hmodule, not_and.mp hstatic, fun h => absurd hzero h⟩) hvalue.symm
  rename_i hzero
  rw [tlsSymbol, if_neg hzero] at hvalue
  cases hentry : request.metadata.dynamicInfo.symbols[entry.symbol.toNat]? with
  | none =>
    refine .reject _ (by decide) fun h => ?_
    obtain ⟨symbol, hsome, -⟩ := (hadmissible.mp h.admissible).2.2 hzero
    cases hsome.symm.trans hentry
  | some symbol =>
    have hhas := symbolHas_iff hzero hentry fun symbol => symbol.sectionIndex ≠ 0
    rw [hentry] at hvalue
    dsimp only
    split
    next hsec =>
      exact .reject _ (by decide) fun h => hhas.mp (hadmissible.mp h.admissible).2.2 hsec
    next hsec =>
      exact kindPlanned_store hover hmap hsymbol
        (hadmissible.mpr ⟨hmodule, not_and.mp hstatic, hhas.mpr hsec⟩) hvalue.symm

end Target

theorem kindPlanned_planKind (request : RelocationRequest) (entry : ElfRelaEntry)
    (hw : memory.WellFormed) (hkind : kind ≠ .none) :
    KindPlanned request memory kind entry (request.planKind memory kind entry) := by
  have hmapped_iff : memory.isMappedLocked (request.place entry).toNat kind.writeSize = true ↔
      memory.Mapped (request.place entry).toNat kind.writeSize :=
    GuestMemory.isMappedLocked_iff hw kind.writeSize_ne_zero
  rw [planKind]
  dsimp only
  rw [← place]
  split_ifs with hrelative hover hfree hmodule hzero hoff hsymbol
  · simp only [Bool.and_eq_true, decide_eq_true_eq] at hrelative
    refine .reject _ (by decide) fun h => hrelative.2 ?_
    have hadmissible := h.admissible
    cases kind <;> first | exact hadmissible | exact absurd hrelative.1 Bool.false_ne_true
  · exact .reject _ (by decide) fun h => (not_gt_allOnes_sub_iff _ _).mpr h.noOverflow hover
  · exact .reject _ (by decide) fun h => by simp [hmapped_iff.mpr h.mapped] at hfree
  all_goals
    rw [not_gt_allOnes_sub_iff] at hover
    rw [Bool.not_eq_true', Bool.not_eq_false, hmapped_iff] at hfree
  · subst hmodule
    exact .reject _ (by decide) fun h => h.admissible hzero
  · subst hmodule
    exact kindPlanned_store hover hfree rfl hzero rfl
  · exact kindPlanned_planTlsOffset hover hfree hoff
  · exact kindPlanned_planSymbol hover hfree hsymbol
  -- Only the two relative kinds are left.
  have hrest : kind = .relative ∨ kind = .relative64 := by
    cases kind <;> simp_all [RelocationKind.isSymbolRelocation]
  have hadmissible : request.Admissible kind entry := by
    rcases hrest with rfl | rfl <;> simpa [RelocationKind.isRelative, Admissible] using hrelative
  refine kindPlanned_store hover hfree (by simpa using hsymbol) hadmissible ?_
  rcases hrest with rfl | rfl <;> rfl

/-! ## The first pass -/

/-- What the second pass has to store for an entry. -/
def plannedOf (request : RelocationRequest) (entry : ElfRelaEntry) : Option PlannedRelocation :=
  (request.relocation entry).map fun r =>
    ⟨request.place entry, encodeLittleEndian r.2 r.1.writeSize⟩

theorem planned_planEntry (request : RelocationRequest) (hw : memory.WellFormed)
    (entry : ElfRelaEntry) :
    Planned (request.AcceptsEntry memory entry) (request.plannedOf entry)
      (request.planEntry memory entry) := by
  rw [planEntry]
  cases htype : RelocationKind.ofType entry.type with
  | none =>
    refine .reject _ (by decide) ?_
    rintro ⟨kind, hkind, -⟩
    cases hkind.symm.trans htype
  | some kind =>
    have haccepts : request.AcceptsEntry memory entry ↔
        (kind ≠ .none → request.Accepts memory kind entry) := by
      simp [AcceptsEntry, htype]
    by_cases hnone : kind = .none
    · simp only [hnone]
      refine .skip (haccepts.mpr fun h => absurd hnone h) ?_
      simp [plannedOf, relocation, htype, hnone]
    · have hplanned : request.plannedOf entry = request.plannedAs kind entry := by
        simp [plannedOf, relocation, htype, hnone, plannedAs, Function.comp_def]
      simpa [hplanned, haccepts, hnone] using kindPlanned_planKind request entry hw hnone

/-- The loop over a table succeeds exactly when every entry meets its conditions,
and has then planned the entries that store something. -/
theorem planTable_spec (request : RelocationRequest) (hw : memory.WellFormed) (plan : Plan)
    (entries : List ElfRelaEntry) :
    ((request.planTable memory plan entries).1 = .kOk ↔
        ∀ entry ∈ entries, request.AcceptsEntry memory entry) ∧
      ((request.planTable memory plan entries).1 = .kOk →
        (request.planTable memory plan entries).2.planned =
          plan.planned ++ entries.filterMap request.plannedOf) := by
  induction entries generalizing plan with
  | nil => simp [planTable]
  | cons entry entries ih =>
    have hentry := planned_planEntry request hw entry
    rw [planTable]
    generalize request.planEntry memory entry = outcome at hentry
    cases hentry with
    | skip haccepts hnone | unresolved import_ haccepts hnone =>
      simp only [forall_mem_cons, haccepts, true_and, filterMap_cons, hnone]
      exact ih _
    | store resolvedImport haccepts hplan =>
      simp only [forall_mem_cons, haccepts, true_and, filterMap_cons, hplan]
      refine ⟨(ih _).1, fun hok => ?_⟩
      rw [(ih _).2 hok, append_assoc, singleton_append]
    | reject unsupported hstat hno => simp [hno, hstat]

/-- The two tables of a module, in the order they are applied. -/
def tables (request : RelocationRequest) : List ElfRelaEntry :=
  request.metadata.dynamicInfo.relocations ++ request.metadata.dynamicInfo.pltRelocations

theorem planTables_spec (request : RelocationRequest) (hw : memory.WellFormed) :
    ((request.planTables memory).1 = .kOk ↔
        ∀ entry ∈ request.tables, request.AcceptsEntry memory entry) ∧
      ((request.planTables memory).1 = .kOk →
        (request.planTables memory).2.planned = request.tables.filterMap request.plannedOf) := by
  obtain ⟨hfirst, hplan⟩ := planTable_spec _ hw {} request.metadata.dynamicInfo.relocations
  rw [planTables, tables]
  rcases htable : request.planTable memory {} request.metadata.dynamicInfo.relocations with
    ⟨status, plan⟩
  rw [htable] at hfirst hplan
  simp only [forall_mem_append, ← hfirst, filterMap_append]
  cases status with
  | kOk =>
    obtain ⟨hsecond, hrest⟩ := planTable_spec _ hw plan request.metadata.dynamicInfo.pltRelocations
    refine ⟨by rw [← hsecond]; simp, fun hok => ?_⟩
    rw [hrest hok, hplan rfl]
    rfl
  | _ => simp

/-! ## The second pass -/

/-- The memory after one planned relocation. -/
def storePlanned (cellOf : ℕ → Cell) (contents : Cell → UInt8) (relocation : PlannedRelocation) :
    Cell → UInt8 :=
  storeCells cellOf (fun a => relocation.value.getD (a - relocation.address.toNat) 0)
    (List.range' relocation.address.toNat relocation.value.length) contents

/-- What a run of the second pass has done. -/
structure Applied (host : ℕ → HostAnswers) (w : MemoryWorld) (planned : List PlannedRelocation)
    (result : RelocationStatus × ℕ × MemoryWorld) : Prop where
  space : w.SameSpace result.2.2
  /-- It completes unless one of its stores is stopped. -/
  status : result.1 = .kOk ∨ result.1 = .kWriteFailed ∧ ∃ relocation ∈ planned, ∃ count,
    w.MayStop (host count) relocation.address.toNat relocation.value.length
  contents : result.1 = .kOk →
    result.2.2.contents = planned.foldl (storePlanned w.memory.cellOf) w.contents
  frame : ∀ cell, (∀ relocation ∈ planned, ∀ a,
      InRange relocation.address.toNat relocation.value.length a → cell ≠ w.memory.cellOf a) →
    result.2.2.contents cell = w.contents cell

theorem applied_applyPlanned (host : ℕ → HostAnswers) (hw : w.WellFormed) (appliedCount : ℕ)
    {planned : List PlannedRelocation}
    (hmap : ∀ relocation ∈ planned, relocation.value.length ≠ 0 ∧
      w.memory.isMappedLocked relocation.address.toNat relocation.value.length = true) :
    Applied host w planned (applyPlanned host appliedCount w planned) := by
  induction planned generalizing w appliedCount with
  | nil => exact ⟨.refl hw, .inl rfl, fun _ => rfl, fun _ _ => rfl⟩
  | cons relocation planned ih =>
    rw [forall_mem_cons] at hmap
    have hfirst := MemoryWorld.initialization_initialized hw (host appliedCount) hmap.1.2
    rw [applyPlanned]
    rcases hres : w.initialized (host appliedCount) relocation.address.toNat
      relocation.value with ⟨ok, w'⟩
    rw [hres] at hfirst
    have hspace : w.SameSpace w' := hfirst.space
    cases ok with
    | false =>
      exact
        { space := hspace
          status := .inr ⟨rfl, relocation, mem_cons_self, appliedCount, hfirst.stopped rfl⟩
          contents := nofun
          frame := fun cell hcell => hfirst.frame _ (hcell relocation mem_cons_self) }
    | true =>
      have hrest := ih hspace.wellFormed (appliedCount + 1) fun r hr => by
        rw [hspace.isMappedLocked hw (hmap.2 r hr).1]
        exact hmap.2 r hr
      refine
        { space := hspace.trans hrest.space
          status := hrest.status.imp_right ?_
          contents := fun h => ?_
          frame := fun cell hcell => ?_ }
      · rintro ⟨hfail, r, hr, count, hstop⟩
        exact ⟨hfail, r, mem_cons_of_mem _ hr, count, hspace.mayStop.mp hstop⟩
      · rw [hrest.contents h, hspace.cellOf, hfirst.contents rfl]
        rfl
      · rw [hrest.frame cell fun r hr a ha => by
          rw [hspace.cellOf]
          exact hcell r (mem_cons_of_mem _ hr) a ha]
        exact hfirst.frame _ (hcell _ mem_cons_self)

/-! ## Both passes -/

/-- A planned relocation stores to a mapped target. -/
theorem mapped_of_plannedOf {relocation : PlannedRelocation} (hw : memory.WellFormed)
    (haccepts : request.AcceptsEntry memory entry)
    (hplan : request.plannedOf entry = some relocation) :
    relocation.value.length ≠ 0 ∧
      memory.isMappedLocked relocation.address.toNat relocation.value.length = true := by
  obtain ⟨⟨kind, value⟩, hrel, rfl⟩ := map_eq_some_iff.mp hplan
  obtain ⟨kind', htype, haccepts⟩ := haccepts
  rw [relocation, htype] at hrel
  by_cases hnone : kind' = .none
  · simp [hnone] at hrel
  simp only [hnone, if_false, map_eq_some_iff, Prod.mk.injEq] at hrel
  obtain ⟨-, -, rfl, -⟩ := hrel
  simp only [length_encodeLittleEndian]
  exact ⟨kind'.writeSize_ne_zero,
    (GuestMemory.isMappedLocked_iff hw kind'.writeSize_ne_zero).mpr (haccepts hnone).mapped⟩

/-- Storing the planned bytes is storing the little-endian bytes of the value. -/
theorem storePlanned_plannedOf (cellOf : ℕ → Cell) (contents : Cell → UInt8)
    (entry : ElfRelaEntry) :
    ((request.plannedOf entry).elim contents (storePlanned cellOf contents)) =
      request.relocate cellOf contents entry := by
  rw [plannedOf, relocate]
  cases request.relocation entry with
  | none => rfl
  | some r =>
    simp only [map_some, elim_some, storePlanned, length_encodeLittleEndian]
    refine storeCells_congr contents fun a ha => ?_
    rw [mem_range'_1] at ha
    exact getD_encodeLittleEndian _ (by omega)

theorem foldl_storePlanned (cellOf : ℕ → Cell) (contents : Cell → UInt8)
    (entries : List ElfRelaEntry) :
    (entries.filterMap request.plannedOf).foldl (storePlanned cellOf) contents =
      entries.foldl (request.relocate cellOf) contents := by
  induction entries generalizing contents with
  | nil => rfl
  | cons entry entries ih =>
    rw [foldl_cons, ← storePlanned_plannedOf, ← ih, filterMap_cons]
    cases request.plannedOf entry <;> rfl

theorem applyRelocationsInternal_of_rejected (host : ℕ → HostAnswers)
    (h : (request.planTables w.memory).1 ≠ .kOk) :
    (request.applyRelocationsInternal host w).1.status = (request.planTables w.memory).1 ∧
      (request.applyRelocationsInternal host w).2 = w := by
  rw [applyRelocationsInternal]
  rcases hplan : request.planTables w.memory with ⟨status, plan⟩
  rw [hplan] at h
  cases status with
  | kOk => exact absurd rfl h
  | _ => exact ⟨rfl, rfl⟩

theorem applyRelocationsInternal_of_planned (host : ℕ → HostAnswers)
    (h : (request.planTables w.memory).1 = .kOk) :
    (request.applyRelocationsInternal host w).1.status =
        (applyPlanned host 0 w (request.planTables w.memory).2.planned).1 ∧
      (request.applyRelocationsInternal host w).2 =
        (applyPlanned host 0 w (request.planTables w.memory).2.planned).2.2 := by
  rw [applyRelocationsInternal]
  rcases hplan : request.planTables w.memory with ⟨status, plan⟩
  rw [hplan] at h
  obtain rfl : status = .kOk := h
  exact ⟨rfl, rfl⟩

/-- An entry against an imported symbol, not a weak one, for which there is no
address. -/
def Unresolved (request : RelocationRequest) (entry : ElfRelaEntry) : Prop :=
  ∃ kind symbol, RelocationKind.ofType entry.type = some kind ∧ kind.isSymbolRelocation = true ∧
    entry.symbol ≠ 0 ∧
    request.metadata.dynamicInfo.symbols[entry.symbol.toNat]? = some symbol ∧
    symbol.sectionIndex = 0 ∧ symbol.binding ≠ 2 ∧ request.importAddress symbol.name = none

theorem relocation_of_unresolved (h : request.Unresolved entry) :
    request.relocation entry = none := by
  obtain ⟨kind, symbol, htype, hsymbolic, hzero, hsymbol, hsec, hweak, hnone⟩ := h
  have hterms : request.symbolTerms entry = none := by
    simp only [symbolTerms, hzero, hsymbol, hsec, hweak, hnone, ne_eq, not_true_eq_false, if_false,
      map_none]
  simp [relocation, htype, relocationValue, hsymbolic, hterms]

/-- The relocator over every module, placement, resolver and reachable memory. The
first pass accepts the tables exactly when every entry meets its conditions, among
them that a four-byte value extends back. A rejected plan changes nothing. After an
accepted one the mappings are the same, only a stopped store can fail, and a
completed pass has stored the words of the formulas in table order. Whatever
happens, only cells behind resolved targets change; unresolved imports have none. -/
theorem applyRelocationsInternal_spec (request : RelocationRequest) (host : ℕ → HostAnswers)
    {w : MemoryWorld} (hw : w.Reachable) :
    let plan := request.planTables w.memory
    let outcome := request.applyRelocationsInternal host w
    (plan.1 = .kOk ↔ ∀ entry ∈ request.tables, request.AcceptsEntry w.memory entry) ∧
    (plan.1 ≠ .kOk → outcome.1.status = plan.1 ∧ outcome.2 = w) ∧
    (plan.1 = .kOk → w.SameSpace outcome.2 ∧
      (outcome.1.status = .kOk ∨ outcome.1.status = .kWriteFailed ∧
        ∃ entry ∈ request.tables, ∃ kind value, request.relocation entry = some (kind, value) ∧
          ∃ count, w.MayStop (host count) (request.place entry).toNat kind.writeSize) ∧
      (outcome.1.status = .kOk → outcome.2.contents =
          request.tables.foldl (request.relocate w.memory.cellOf) w.contents)) ∧
    (∀ cell, (∀ entry ∈ request.tables, ∀ kind value,
        request.relocation entry = some (kind, value) → ∀ a,
          InRange (request.place entry).toNat kind.writeSize a → cell ≠ w.memory.cellOf a) →
      outcome.2.contents cell = w.contents cell) ∧
    ∀ entry, request.Unresolved entry → request.relocation entry = none := by
  intro plan outcome
  obtain ⟨hplan, hplanned⟩ := planTables_spec _ hw.wellFormed.tables
  -- What the second pass does, for an accepted plan.
  have happlied : plan.1 = .kOk →
      Applied host w plan.2.planned (applyPlanned host 0 w plan.2.planned) := by
    intro hok
    refine applied_applyPlanned _ hw.wellFormed 0 fun relocation hmem => ?_
    rw [hplanned hok, mem_filterMap] at hmem
    obtain ⟨entry, hentry, heq⟩ := hmem
    exact mapped_of_plannedOf hw.wellFormed.tables (hplan.mp hok _ hentry) heq
  have hresolved : ∀ relocation ∈ request.tables.filterMap request.plannedOf,
      ∃ entry ∈ request.tables, ∃ kind value, request.relocation entry = some (kind, value) ∧
        relocation.address = request.place entry ∧ relocation.value.length = kind.writeSize := by
    intro relocation hmem
    obtain ⟨entry, hentry, heq⟩ := mem_filterMap.mp hmem
    obtain ⟨⟨kind, value⟩, hrelocation, rfl⟩ := Option.map_eq_some_iff.mp heq
    exact ⟨entry, hentry, kind, value, hrelocation, rfl, length_encodeLittleEndian _ _⟩
  refine ⟨hplan, applyRelocationsInternal_of_rejected host, fun hok => ?_, fun cell hcell => ?_,
    fun entry => relocation_of_unresolved⟩
  · obtain ⟨hstatus, hworld⟩ := applyRelocationsInternal_of_planned host hok
    have happlied := happlied hok
    simp only [outcome, hstatus, hworld]
    refine ⟨happlied.space, happlied.status.imp_right ?_, fun h => ?_⟩
    · rintro ⟨hfailed, relocation, hmem, count, hstop⟩
      rw [hplanned hok] at hmem
      obtain ⟨entry, hentry, kind, value, hrelocation, haddress, hlength⟩ := hresolved _ hmem
      rw [haddress, hlength] at hstop
      exact ⟨hfailed, entry, hentry, kind, value, hrelocation, count, hstop⟩
    · rw [happlied.contents h, hplanned hok]
      exact foldl_storePlanned _ _ _
  · by_cases hok : plan.1 = .kOk
    · simp only [outcome, (applyRelocationsInternal_of_planned _ hok).2]
      refine (happlied hok).frame cell fun relocation hmem a ha => ?_
      rw [hplanned hok] at hmem
      obtain ⟨entry, hentry, kind, value, hrelocation, haddress, hlength⟩ := hresolved _ hmem
      rw [haddress, hlength] at ha
      exact hcell _ hentry _ _ hrelocation a ha
    · simp [outcome, (applyRelocationsInternal_of_rejected _ hok).2]

/-- A module with one symbol at offset 0x40 and one relocation of the given type
and addend against it, for the address 0x1100. -/
def oneSymbol (type addend : BitVec 64) : RelocationRequest where
  metadata :=
    { dynamicInfo :=
        { relocations := [{ offset := 0x100, info := 1 <<< 32 ||| type, addend }]
          symbols := [{ info := 0, sectionIndex := 0, value := 0, size := 0, name := [] },
            { info := 0x11, sectionIndex := 1, value := 0x40, size := 4, name := [] }] } }
  resolver := none
  loadBias := 0x1000
  tlsModuleId := 1
  tlsStaticOffset := 0x10

/-- The mapping under the module. -/
def moduleMapping : MemoryCall := .mapping (.map {} 0x1000 0x1000 kRead)

/-- The same range, showing a backing. -/
def sharedMapping : MemoryCall := .mapping (.mapShared {} 0x1000 0x1000 kRead (some 0) 0)

/-- A PC-relative word, `S + A - P`, and a jump slot that overlaps its second half. The table of
the jump slots comes second, so that the slot stays whole. -/
theorem applyRelocations_overlapping : ∃ m, GuestMemory.create 0x1000 0x1000 kNone = some m ∧
      let w := (⟨m, fun _ => .create 0⟩ : MemoryWorld).step moduleMapping
      let resolver : ImportResolver := ⟨fun _ _ => none, fun _ _ _ => none⟩
      let metadata : ElfMetadata := { dynamicInfo := { (oneSymbol 24 8).metadata.dynamicInfo with
        pltRelocations := [{ offset := 0x104, info := 1 <<< 32 ||| 7, addend := 0 }] } }
      let request := { oneSymbol 24 8 with metadata, resolver := some resolver }
      let outcome := applyRelocations metadata resolver 0x1000 1 0x10 (fun _ => {}) w
      (List.range' 0x1100 12).map outcome.2.byteAt =
        [0x48, 0xff, 0xff, 0xff, 0x40, 0x10, 0, 0, 0, 0, 0, 0] ∧
      outcome.2.contents = request.tables.foldl (request.relocate w.memory.cellOf) w.contents := by
  have hcreate : GuestMemory.create 0x1000 0x1000 kNone = some _ := rfl
  refine ⟨_, hcreate, ?_⟩
  intro w resolver metadata request outcome
  have hw : w.Reachable := (MemoryWorld.Reachable.create hcreate _).step moduleMapping
  have hplan : (request.planTables w.memory).1 = .kOk := by decide +kernel
  have houtcome : outcome = request.applyRelocationsInternal (fun _ => {}) w := rfl
  have hdone : (request.applyRelocationsInternal (fun _ => {}) w).1.status = .kOk := by
    decide +kernel
  refine ⟨by decide +kernel, ?_⟩
  rw [houtcome]
  exact ((applyRelocationsInternal_spec request (fun _ => {}) hw).2.2.1 hplan).2.2 hdone

/-- A jump slot holds `S` alone: with an addend of 5 the stored word is none of
`S + A`, `S + A - P`, `B + A` and `Z + A`. And an accepted plan can still fail, when
the host has no page for the backing under its target. -/
theorem applyRelocationsInternal_deviates : ∃ m, GuestMemory.create 0x1000 0x1000 kNone = some m ∧
      let w := (⟨m, fun _ => .create 0x4000⟩ : MemoryWorld).step moduleMapping
      let shared := (⟨m, fun _ => .create 0x4000⟩ : MemoryWorld).step sharedMapping
      let slot := oneSymbol 7 5
      let outcome := slot.applyRelocationsInternal (fun _ => {}) w
      outcome.1.status = .kOk ∧
      (List.range' 0x1100 8).map outcome.2.byteAt = encodeLittleEndian 0x1040 8 ∧
      (0x1040 : BitVec 64) ∉ [0x1040 + 5, 0x1040 + 5 - 0x1100, 0x1000 + 5, 4 + 5] ∧
      (slot.planTables shared.memory).1 = .kOk ∧
      (slot.applyRelocationsInternal (fun _ => { alloc := fun _ _ => false }) shared).1.status =
        .kWriteFailed := by
  decide +kernel

end RelocationRequest

end KajPS5.Loader
