/-
# References to imported symbols

An imported symbol is named either by plain text or as `nid#library#module`,
where the two suffixes are identifiers in a base-64 alphabet that are looked up
among the libraries and modules the importing file declares. The module
translates the decoding with its error paths; in every case the first component
is the part of the name before the first separator.
-/

import KajPS5.Loader.ElfMetadata
import Mathlib.Data.List.TakeWhile

namespace KajPS5.Loader

/-- The character `#`. -/
def separator : UInt8 := 0x23

/-- `std::string_view::find` for one character, from a position on. -/
def findFrom (symbol : ByteString) (character : UInt8) (start : ℕ) : Option ℕ :=
  ((symbol.drop start).findIdx? (· == character)).map (start + ·)

/-- The alphabet of encoded identifiers. -/
def sceIdAlphabet : ByteString :=
  "ABCDEFGHIJKLMNOPQRSTUVWXYZabcdefghijklmnopqrstuvwxyz0123456789+-".toList.map
    fun c => UInt8.ofNat c.toNat

/-- `DecodeSceId`: one to three digits, in the shortest form. -/
def decodeSceId (value : ByteString) : Option (BitVec 16) :=
  if value.isEmpty || value.length > 3 then none
  else
    match value.foldlM
      (fun decoded character =>
        (sceIdAlphabet.findIdx? (· == character)).map fun digit => decoded <<< 6 ||| digit)
      (0 : ℕ) with
    | none => none
    | some decoded =>
      if decoded > 0xffff || (value.length = 2 && decoded < 0x40) ||
          (value.length = 3 && decoded < 0x1000) then none
      else some (BitVec.ofNat 16 decoded)

structure SceSymbolReference where
  nid : ByteString
  (libraryId moduleId : BitVec 16)
  deriving DecidableEq, Repr

/-- `ParseSceSymbolReference`. -/
def parseSceSymbolReference (symbol : ByteString) : Option SceSymbolReference :=
  match findFrom symbol separator 0 with
  | none => none
  | some first =>
    if first = 0 then none
    else match findFrom symbol separator (first + 1) with
      | none => none
      | some second =>
        if (findFrom symbol separator (second + 1)).isSome then none
        else
          match decodeSceId ((symbol.drop (first + 1)).take (second - first - 1)),
            decodeSceId (symbol.drop (second + 1)) with
          | some libraryId, some moduleId => some { nid := symbol.take first, libraryId, moduleId }
          | _, _ => none

/-- `FindIdentity`: among the imports first. -/
def findIdentity {α : Type*} (idOf : α → BitVec 16) (id : BitVec 16) (imports exports : List α) :
    Option α := match imports.find? (idOf · == id) with
  | some identity => some identity
  | none => exports.find? (idOf · == id)

structure ElfImportReference where
  nid : ByteString
  library : Option ElfLibraryIdentity
  module : Option ElfModuleIdentity
  valid : Bool
  deriving DecidableEq, Repr

/-- `ResolveElfImportReference`. -/
def resolveElfImportReference (metadata : ElfMetadata) (symbol : ByteString) :
    ElfImportReference := match findFrom symbol separator 0 with
  | none => { nid := symbol, library := none, module := none, valid := !symbol.isEmpty }
  | some first => match parseSceSymbolReference symbol with
    | none => { nid := symbol.take first, library := none, module := none, valid := false }
    | some parsed =>
      let library := findIdentity ElfLibraryIdentity.id parsed.libraryId
        metadata.dynamicInfo.importLibraries metadata.dynamicInfo.exportLibraries
      let module := findIdentity ElfModuleIdentity.id parsed.moduleId
        metadata.dynamicInfo.importModules metadata.dynamicInfo.exportModules
      { nid := parsed.nid, library, module, valid := library.isSome && module.isSome }

/-! ## The name before the first separator -/

theorem findFrom_zero (symbol : ByteString) (character : UInt8) :
    findFrom symbol character 0 = symbol.findIdx? (· == character) := by
  simp [findFrom]

variable {symbol : ByteString} {first : ℕ}

theorem takeWhile_of_findIdx? (h : symbol.findIdx? (· == separator) = some first) :
    symbol.take first = symbol.takeWhile (· != separator) := by
  induction symbol generalizing first with
  | nil => cases h
  | cons c symbol ih =>
    rw [List.findIdx?_cons] at h
    by_cases hc : c == separator
    · simp only [hc, if_true, Option.some.injEq] at h
      simp [← h, bne, hc]
    · simp only [hc] at h
      obtain ⟨first, hfirst, rfl⟩ := Option.map_eq_some_iff.mp h
      simp [bne, hc, ih hfirst]

theorem takeWhile_of_findIdx?_none (h : symbol.findIdx? (· == separator) = none) :
    symbol.takeWhile (· != separator) = symbol := by
  rw [List.takeWhile_eq_self_iff]
  intro c hc
  have := List.findIdx?_eq_none_iff.mp h c hc
  simp [bne, this]

theorem nid_parseSceSymbolReference {reference : SceSymbolReference}
    (hfirst : findFrom symbol separator 0 = some first)
    (h : parseSceSymbolReference symbol = some reference) : reference.nid = symbol.take first := by
  simp only [parseSceSymbolReference, hfirst] at h
  split_ifs at h
  split at h
  · cases h
  · split_ifs at h
    split at h
    · rw [← Option.some.inj h]
    · cases h

/-- Whatever becomes of its suffixes, a name refers to its part before the first
separator. -/
theorem nid_resolveElfImportReference (metadata : ElfMetadata) (symbol : ByteString) :
    (resolveElfImportReference metadata symbol).nid = symbol.takeWhile (· != separator) := by
  rw [resolveElfImportReference]
  cases hfirst : findFrom symbol separator 0 with
  | none => exact (takeWhile_of_findIdx?_none (by rwa [findFrom_zero] at hfirst)).symm
  | some first =>
    have htake := takeWhile_of_findIdx? (by rwa [findFrom_zero] at hfirst)
    cases hparsed : parseSceSymbolReference symbol with
    | none => exact htake
    | some parsed => exact (nid_parseSceSymbolReference hfirst hparsed).trans htake

end KajPS5.Loader
