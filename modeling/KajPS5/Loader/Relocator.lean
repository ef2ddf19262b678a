/-
# Relocating a loaded module

The relocator goes over the two tables of a module twice: a first pass checks
every entry and computes the bytes to store, a second one stores them. Only the
second pass touches memory. An entry that needs an import nobody provides is
listed and otherwise skipped; any other problem ends the first pass with a
status of its own.

The module translates both passes. The words of an entry are machine words and
the sums are taken modulo `2 ^ 64`, as in the source; the memory is the buffered
guest memory with everything it does on `Initialize`.
-/

import KajPS5.Memory.Initialization
import KajPS5.Loader.SceSymbol

namespace KajPS5.Loader

open Memory

/-- The relocation types the relocator knows, under the names of its constants. -/
inductive RelocationKind
  | none | absolute64 | pc32 | plt32 | globDat | jumpSlot | relative | unsigned32 | signed32
  | tlsModuleId | tlsDtpOffset | tlsTpOffset | pc64 | size32 | size64 | relative64
  deriving DecidableEq, Repr

namespace RelocationKind

/-- The kind of a type code. -/
def ofType (type : BitVec 32) : Option RelocationKind :=
  match type.toNat with
  | 0 => some .none
  | 1 => some .absolute64
  | 2 => some .pc32
  | 4 => some .plt32
  | 6 => some .globDat
  | 7 => some .jumpSlot
  | 8 => some .relative
  | 10 => some .unsigned32
  | 11 => some .signed32
  | 16 => some .tlsModuleId
  | 17 => some .tlsDtpOffset
  | 18 => some .tlsTpOffset
  | 24 => some .pc64
  | 32 => some .size32
  | 33 => some .size64
  | 38 => some .relative64
  | _ => Option.none

/-- The types whose entry may not name a symbol. -/
def isRelative : RelocationKind → Bool
  | relative | relative64 => true
  | _ => false

def isSymbolRelocation : RelocationKind → Bool
  | absolute64 | pc32 | plt32 | globDat | jumpSlot | unsigned32 | signed32 | pc64 | size32
  | size64 => true
  | _ => false

def isPcRelativeRelocation : RelocationKind → Bool
  | pc32 | plt32 | pc64 => true
  | _ => false

def isSizeRelocation : RelocationKind → Bool
  | size32 | size64 => true
  | _ => false

/-- `RelocationWriteSize`. -/
def writeSize : RelocationKind → ℕ
  | pc32 | plt32 | unsigned32 | signed32 | size32 => 4
  | _ => 8

end RelocationKind

inductive RelocationStatus
  | kOk | kUnsupportedRelocation | kInvalidRelativeSymbol | kTargetAddressOverflow
  | kTargetNotMapped | kWriteFailed | kInvalidSymbolIndex | kEmptyImportSymbol
  | kInvalidResolvedAddress | kMissingTlsModuleId | kMissingTlsStaticOffset | kInvalidTlsSymbol
  | kRelocationValueOverflow
  deriving DecidableEq, Repr

structure UnresolvedImport where
  (symbolIndex relocationType : BitVec 32)
  targetAddress : BitVec 64
  symbol : ByteString
  deriving DecidableEq, Repr

structure RelocationResult where
  status : RelocationStatus
  (appliedCount unresolvedImportCount resolvedImportCount : ℕ)
  unresolvedImports : List UnresolvedImport
  unsupportedRelocationType : Option (BitVec 32)
  deriving DecidableEq, Repr

/-- The virtual calls of an import resolver. -/
structure ImportResolver where
  resolveImport : ByteString → List ByteString → Option (BitVec 64)
  resolveScopedImport : ByteString → ElfLibraryIdentity → ElfModuleIdentity → Option (BitVec 64)

structure PlannedRelocation where
  address : BitVec 64
  /-- The bytes to store, as many as the entry's size. -/
  value : List UInt8
  deriving DecidableEq, Repr

/-- `EncodeLittleEndian`. -/
def encodeLittleEndian (value : BitVec 64) (size : ℕ) : List UInt8 :=
  (List.range size).map fun index => UInt8.ofBitVec ((value >>> (index * 8)).setWidth 8)

/-- The arguments of a relocation pass apart from the memory. -/
structure RelocationRequest where
  metadata : ElfMetadata
  resolver : Option ImportResolver
  (loadBias tlsModuleId tlsStaticOffset : BitVec 64)

/-- How the loop over a table goes on after an entry. -/
inductive EntryPlan
  | skip
  | store (relocation : PlannedRelocation) (resolvedImport : Bool)
  | unresolved (import_ : UnresolvedImport)
  | reject (status : RelocationStatus) (unsupportedType : Option (BitVec 32))
  deriving DecidableEq, Repr

/-- What is known of a symbol once the relocator has looked for it. -/
inductive SymbolOutcome
  | found (value : BitVec 64) (resolvedImport : Bool)
  | missing (name : ByteString)
  | invalid (status : RelocationStatus)
  deriving DecidableEq, Repr

namespace RelocationRequest

variable (request : RelocationRequest)

/-- The address an import resolver has for a usable reference. -/
def resolvedAddress (resolver : ImportResolver) (reference : ElfImportReference) : Option
    (BitVec 64) := match reference.library, reference.module with
  | some library, some module => resolver.resolveScopedImport reference.nid library module
  | _, _ => resolver.resolveImport reference.nid request.metadata.dynamicInfo.neededLibraries

/-- What the relocator makes of the answer of an import resolver. -/
def importOutcome (kind : RelocationKind) (symbol : ElfSymbol) : Option (BitVec 64) → SymbolOutcome
  | none => .missing symbol.name
  | some address =>
    if address = 0 then .invalid .kInvalidResolvedAddress
    else .found (if kind.isSizeRelocation then symbol.size else address) true

/-- The part of `PlanTable` that looks for an imported symbol. -/
def lookUpImport (kind : RelocationKind) (symbol : ElfSymbol) : SymbolOutcome :=
  match request.resolver with
  | none => .missing symbol.name
  | some resolver =>
    let reference := resolveElfImportReference request.metadata symbol.name
    if reference.nid.isEmpty then .invalid .kEmptyImportSymbol
    else if !reference.valid then .missing symbol.name
    else importOutcome kind symbol (request.resolvedAddress resolver reference)

/-- The part of `PlanTable` that looks for the symbol of an entry. -/
def lookUpSymbol (kind : RelocationKind) (entry : ElfRelaEntry) : SymbolOutcome :=
  if entry.symbol = 0 then .found 0 false
  else match request.metadata.dynamicInfo.symbols[entry.symbol.toNat]? with
    | none => .invalid .kInvalidSymbolIndex
    | some symbol =>
      if symbol.sectionIndex ≠ 0 then
        if kind.isSizeRelocation then .found symbol.size false
        else if symbol.value > BitVec.allOnes 64 - request.loadBias then
          .invalid .kInvalidResolvedAddress
        else .found (request.loadBias + symbol.value) false
      else if symbol.binding = 2 then
        .found (if kind.isSizeRelocation then symbol.size else 0) false
      else request.lookUpImport kind symbol

/-- Whether a value is outside what a four-byte target of the kind can hold. -/
def overflows (kind : RelocationKind) (value : BitVec 64) : Bool :=
  match kind with
  | .pc32 | .plt32 | .signed32 => value.toInt < -2 ^ 31 || value.toInt > 2 ^ 31 - 1
  | .unsigned32 | .size32 => value.toNat > 2 ^ 32 - 1
  | _ => false

/-- The branch of `PlanTable` for relocations against a symbol. -/
def planSymbol (kind : RelocationKind) (entry : ElfRelaEntry) (target : BitVec 64) : EntryPlan :=
  match request.lookUpSymbol kind entry with
  | .invalid status => .reject status none
  | .missing name =>
    .unresolved
      { symbolIndex := entry.symbol
        relocationType := entry.type
        targetAddress := target
        symbol := name }
  | .found resolved resolvedImport =>
    let addend := if kind = .globDat ∨ kind = .jumpSlot then 0 else entry.addend
    let value := resolved + addend
    let value := if kind.isPcRelativeRelocation then value - target else value
    if overflows kind value then .reject .kRelocationValueOverflow none
    else .store ⟨target, encodeLittleEndian value kind.writeSize⟩ resolvedImport

/-- The branch of `PlanTable` for offsets into thread-local storage. -/
def planTlsOffset (kind : RelocationKind) (entry : ElfRelaEntry) (target : BitVec 64) : EntryPlan :=
  let store (symbolValue : BitVec 64) : EntryPlan :=
    let value := symbolValue + entry.addend
    let value := if kind = .tlsTpOffset then value - request.tlsStaticOffset else value
    .store ⟨target, encodeLittleEndian value 8⟩ false
  if request.tlsModuleId = 0 then .reject .kMissingTlsModuleId none
  else if kind = .tlsTpOffset ∧ request.tlsStaticOffset = 0 then
    .reject .kMissingTlsStaticOffset none
  else if entry.symbol = 0 then store 0
  else match request.metadata.dynamicInfo.symbols[entry.symbol.toNat]? with
    | none => .reject .kInvalidSymbolIndex none
    | some symbol =>
      if symbol.sectionIndex = 0 then .reject .kInvalidTlsSymbol none else store symbol.value

/-- What one iteration of `PlanTable` does about a relocation it has to apply. -/
def planKind (memory : GuestMemory) (kind : RelocationKind) (entry : ElfRelaEntry) : EntryPlan :=
  if kind.isRelative && entry.symbol ≠ 0 then .reject .kInvalidRelativeSymbol none
  else if entry.offset > BitVec.allOnes 64 - request.loadBias then
    .reject .kTargetAddressOverflow none
  else
    let target := request.loadBias + entry.offset
    if !memory.isMappedLocked target.toNat kind.writeSize then .reject .kTargetNotMapped none
    else if kind = .tlsModuleId then
      if request.tlsModuleId = 0 then .reject .kMissingTlsModuleId none
      else .store ⟨target, encodeLittleEndian request.tlsModuleId 8⟩ false
    else if kind = .tlsDtpOffset ∨ kind = .tlsTpOffset then request.planTlsOffset kind entry target
    else if kind.isSymbolRelocation then request.planSymbol kind entry target
    else .store ⟨target, encodeLittleEndian (request.loadBias + entry.addend) 8⟩ false

/-- One iteration of `PlanTable`. -/
def planEntry (memory : GuestMemory) (entry : ElfRelaEntry) : EntryPlan :=
  match RelocationKind.ofType entry.type with
  | none => .reject .kUnsupportedRelocation (some entry.type)
  | some kind => if kind = .none then .skip else request.planKind memory kind entry

/-- What the first pass has gathered. -/
structure Plan where
  planned : List PlannedRelocation := []
  resolvedImportCount : ℕ := 0
  unresolvedImports : List UnresolvedImport := []
  unsupportedType : Option (BitVec 32) := none
  deriving DecidableEq, Repr

/-- `PlanTable`. -/
def planTable (request : RelocationRequest) (memory : GuestMemory) :
    Plan → List ElfRelaEntry → RelocationStatus × Plan
  | plan, [] => (.kOk, plan)
  | plan, entry :: rest => match request.planEntry memory entry with
    | .skip => planTable request memory plan rest
    | .store relocation resolvedImport =>
      planTable request memory
        { plan with
          planned := plan.planned ++ [relocation]
          resolvedImportCount := plan.resolvedImportCount + if resolvedImport then 1 else 0 }
        rest
    | .unresolved import_ =>
      planTable request memory
        { plan with unresolvedImports := plan.unresolvedImports ++ [import_] } rest
    | .reject status unsupportedType =>
      (status, { plan with unsupportedType := unsupportedType.or plan.unsupportedType })

/-- The first pass over both tables. -/
def planTables (memory : GuestMemory) : RelocationStatus × Plan :=
  match request.planTable memory {} request.metadata.dynamicInfo.relocations with
  | (.kOk, plan) => request.planTable memory plan request.metadata.dynamicInfo.pltRelocations
  | (status, plan) => (status, plan)

/-- The second pass, with the number of relocations applied before. `host` gives
the answers of the host for each of them. -/
def applyPlanned (host : ℕ → HostAnswers) :
    ℕ → MemoryWorld → List PlannedRelocation → RelocationStatus × ℕ × MemoryWorld
  | appliedCount, w, [] => (.kOk, appliedCount, w)
  | appliedCount, w, relocation :: rest =>
    match w.initialized (host appliedCount) relocation.address.toNat relocation.value with
    | (false, w) => (.kWriteFailed, appliedCount, w)
    | (true, w) => applyPlanned host (appliedCount + 1) w rest

/-- `ApplyRelocationsInternal`. -/
def applyRelocationsInternal (host : ℕ → HostAnswers) (w : MemoryWorld) : RelocationResult ×
    MemoryWorld := match request.planTables w.memory with
  | (.kOk, plan) => match applyPlanned host 0 w plan.planned with
    | (status, appliedCount, w) =>
      ({ status
         appliedCount
         unresolvedImportCount := plan.unresolvedImports.length
         resolvedImportCount := plan.resolvedImportCount
         unresolvedImports := plan.unresolvedImports
         unsupportedRelocationType := none }, w)
  | (status, plan) =>
    ({ status
       appliedCount := 0
       unresolvedImportCount := plan.unresolvedImports.length
       resolvedImportCount := plan.resolvedImportCount
       unresolvedImports := plan.unresolvedImports
       unsupportedRelocationType := plan.unsupportedType }, w)

end RelocationRequest

/-- `ApplyRelocations`. -/
def applyRelocations (metadata : ElfMetadata) (resolver : ImportResolver)
    (loadBias tlsModuleId tlsStaticOffset : BitVec 64) (host : ℕ → HostAnswers)
    (w : MemoryWorld) : RelocationResult × MemoryWorld :=
  RelocationRequest.applyRelocationsInternal
    { metadata, resolver := some resolver, loadBias, tlsModuleId, tlsStaticOffset } host w

end KajPS5.Loader
