/-
# What the loader knows about a module

The parsed form of an executable: its program headers, and from its dynamic
section the names it needs, the identities of modules and libraries it imports or
exports, the two relocation tables and the symbols. Names are byte strings as
they stand in the file. Relocation entries and symbols keep the machine words of
the file, since relocations compute with them modulo their width; everything else
is only compared and added under a check, and is a natural number.
-/

import Mathlib.Algebra.Order.Ring.Nat

namespace KajPS5.Loader

/-- The bytes of a `std::string`. -/
abbrev ByteString := List UInt8

inductive ElfContainerKind
  | kElf
  | kSelf
  deriving DecidableEq, Repr

structure ElfProgramHeader where
  (type flags offset : ℕ)
  /-- Where the file data is in the image; the offset unless a SELF moved it. -/
  (fileOffset virtualAddress physicalAddress fileSize memorySize alignment : ℕ)
  deriving DecidableEq, Repr

structure ElfDynamicEntry where
  /-- A signed word, given by its bits. -/
  (tag value : ℕ)
  deriving DecidableEq, Repr

structure ElfRelaEntry where
  (offset info : BitVec 64)
  /-- A signed word, given by its bits. -/
  addend : BitVec 64
  deriving DecidableEq, Repr

namespace ElfRelaEntry

def symbol (e : ElfRelaEntry) : BitVec 32 := (e.info >>> 32).setWidth 32

def type (e : ElfRelaEntry) : BitVec 32 := e.info.setWidth 32

end ElfRelaEntry

structure ElfSymbol where
  nameOffset : ℕ := 0
  info : BitVec 8
  other : BitVec 8 := 0
  sectionIndex : BitVec 16
  (value size : BitVec 64)
  name : ByteString
  deriving DecidableEq, Repr

namespace ElfSymbol

def binding (s : ElfSymbol) : BitVec 8 := s.info >>> 4

end ElfSymbol

inductive ElfDynamicDataSource
  | kNone | kLoadSegment | kSceDynlibData
  deriving DecidableEq, Repr

structure ElfModuleIdentity where
  id : BitVec 16
  (versionMajor versionMinor : BitVec 8)
  name : ByteString
  deriving DecidableEq, Repr

structure ElfLibraryIdentity where
  (id version : BitVec 16)
  name : ByteString
  deriving DecidableEq, Repr

structure ElfDynamicInfo where
  stringTableSource : ElfDynamicDataSource := .kNone
  (stringTableFileOffset stringTableSize : Option ℕ := none)
  neededLibraries : List ByteString := []
  sharedObjectName : Option ByteString := none
  (importModules exportModules : List ElfModuleIdentity := [])
  (importLibraries exportLibraries : List ElfLibraryIdentity := [])
  (relocations pltRelocations : List ElfRelaEntry := [])
  symbols : List ElfSymbol := []
  (initFunction finiFunction preinitArrayAddress preinitArraySize : Option ℕ := none)
  (initArrayAddress initArraySize finiArrayAddress finiArraySize : Option ℕ := none)
  deriving DecidableEq, Repr

structure ElfMetadata where
  container : ElfContainerKind := .kElf
  (elfFileOffset selfSegmentCount osAbi abiVersion type machine version entryPoint : ℕ := 0)
  programHeaders : List ElfProgramHeader := []
  dynamicEntries : List ElfDynamicEntry := []
  dynamicInfo : ElfDynamicInfo := {}
  deriving DecidableEq, Repr

end KajPS5.Loader
