/-
# Cells behind addresses

A mapped address denotes a cell: a byte of a backing if it lies in a shared
mapping, a private byte of its own otherwise. Reading a range reads the cells of
its addresses in order; a storing loop writes the cells of the chunks it gets
through and leaves every other cell alone. Two addresses may denote one backing
byte, so a store is a sequence of cell updates and not a function on addresses.
-/

import KajPS5.Memory.Access
import KajPS5.Memory.Tables

namespace KajPS5.Memory

open Math Spanned GuestMemoryProtection GuestMemory List

/-- The byte behind an address. -/
inductive Cell
  | own (address : ℕ)
  | backing (id : BackingId) (offset : ℕ)
  deriving DecidableEq, Repr

namespace GuestMemory

variable {m : GuestMemory}

/-- The cell an address denotes. -/
def cellOf (m : GuestMemory) (a : ℕ) : Cell :=
  match m.sharing a with
  | none => .own a
  | some (id, offset) => .backing id offset

variable {a : ℕ}

theorem cellOf_of_none (h : m.sharing a = none) : m.cellOf a = .own a := by rw [cellOf, h]

theorem cellOf_of_some {b : BackingByte} (h : m.sharing a = some b) :
    m.cellOf a = .backing b.1 b.2 := by
  rw [cellOf, h]

/-- Only the address itself denotes its private cell. -/
theorem cellOf_eq_own_iff {a' : ℕ} : m.cellOf a = .own a' ↔ a = a' ∧ m.sharing a = none := by
  rw [cellOf]
  cases h : m.sharing a with
  | none => simp
  | some b => simp

theorem cellOf_eq_backing_iff {id : BackingId} {offset : ℕ} :
    m.cellOf a = .backing id offset ↔ m.sharing a = some (id, offset) := by
  rw [cellOf]
  cases h : m.sharing a with
  | none => simp
  | some b => simp [Prod.ext_iff]

/-! ## Chunks lie behind one mapping -/

section

variable (h : IsOrdered m.sharedMappings)
include h

theorem sharedMappingAt_eq (a : ℕ) : m.sharedMappingAt a = entryAt m.sharedMappings a :=
  getElem?_locate h a

/-- The step of the chunk loops, by what is found at the current address. -/
theorem chunkStep_spec (current : ℕ) {remaining : ℕ} (hpos : 0 < remaining) :
    0 < m.chunkStep current remaining ∧ m.chunkStep current remaining ≤ remaining ∧
      ∀ a, current ≤ a → a < current + m.chunkStep current remaining →
        m.sharing a = (m.sharedMappingAt current).map fun mapping =>
          (mapping.backing, mapping.backingOffset + (a - mapping.address)) := by
  have hat := sharedMappingAt_eq h current
  rw [chunkStep]
  cases hfound : m.sharedMappingAt current with
  | some mapping =>
    rw [hfound] at hat
    obtain ⟨hmem, hcov⟩ := mem_of_entryAt hat.symm
    have hlo : mapping.address ≤ current := hcov.1
    have hhi : current < mapping.address + mapping.size := hcov.2
    refine ⟨by simp only; omega, by simp only; omega, fun a hca hac => ?_⟩
    have hcova : Covers mapping a := by
      refine ⟨le_trans hcov.1 hca, ?_⟩
      change a < mapping.address + mapping.size
      simp only at hac
      omega
    exact denote_of_mem h hmem hcova
  | none =>
    rw [hfound] at hat
    have hfree := entryAt_eq_none_iff.mp hat.symm
    -- Mappings before the address end before it, those after it start at the next one.
    have hnone : ∀ a, current ≤ a → (∀ next,
        m.sharedMappings[lowerBound m.sharedMappings current]? = some next → a < start next) →
        m.sharing a = none := by
      intro a hca hpre
      rw [sharing, denote_eq_none_iff]
      intro s hs hsa
      have hout := not_covers_iff.mp (hfree s hs)
      rcases lt_or_ge (start s) current with hlt | hge
      · exact absurd hsa.2 (by omega)
      obtain ⟨n, hn, hget, hns⟩ := h.exists_next hs hge
      have han := hpre n hget
      have hnn := start_lt_stop_of_mem h hn
      have hstart := hsa.1
      rcases hns with rfl | hns <;> omega
    cases hnext : m.sharedMappings[lowerBound m.sharedMappings current]? with
    | none => exact ⟨hpos, le_rfl, fun a hca _ => hnone a hca (by simp [hnext])⟩
    | some next =>
      have hge : current ≤ next.address := le_start_of_next hnext
      have hmem := mem_of_getElem? hnext
      have hgap : current < next.address := lt_of_le_of_ne hge fun heq =>
        hfree next hmem (heq ▸ covers_start h hmem)
      refine ⟨by simp only; omega, by simp only; omega, fun a hca hac => hnone a hca ?_⟩
      rw [hnext]
      rintro _ ⟨⟩
      change a < next.address
      simp only at hac
      omega

theorem advances_chunkStep : Advances m.chunkStep :=
  fun _ _ hpos => ⟨(chunkStep_spec h _ hpos).1, (chunkStep_spec h _ hpos).2.1⟩

end

/-- A chunk that lies in one shared mapping or in none. -/
structure IsChunk (m : GuestMemory) (chunk : ℕ × ℕ) : Prop where
  size_pos : 0 < chunk.2
  sharing : ∀ a ∈ chunkAddresses chunk, m.sharing a = (m.sharedMappingAt chunk.1).map fun mapping =>
      (mapping.backing, mapping.backingOffset + (a - mapping.address))

section

variable {chunk : ℕ × ℕ} (hchunk : m.IsChunk chunk) (ha : a ∈ chunkAddresses chunk)
include hchunk ha

theorem IsChunk.cellOf_of_none (hat : m.sharedMappingAt chunk.1 = none) :
    m.cellOf a = .own a := by
  have hshare := hchunk.sharing a ha
  rw [hat] at hshare
  exact GuestMemory.cellOf_of_none hshare

theorem IsChunk.cellOf_of_some {mapping : SharedMapping}
    (hat : m.sharedMappingAt chunk.1 = some mapping) :
    m.cellOf a = .backing mapping.backing (mapping.backingOffset + (a - mapping.address)) := by
  have hshare := hchunk.sharing a ha
  rw [hat] at hshare
  exact GuestMemory.cellOf_of_some hshare

end

theorem isChunk_of_mem (h : IsOrdered m.sharedMappings) {address length : ℕ} {chunk : ℕ × ℕ}
    (hmem : chunk ∈ m.rangeChunks address length) : m.IsChunk chunk := by
  obtain ⟨hlo, hpos, hhi, hlen⟩ := mem_chunksOf (advances_chunkStep h) hmem
  refine ⟨hpos, fun a ha => ?_⟩
  rw [mem_chunkAddresses] at ha
  have hstep := (chunkStep_spec h chunk.1 (show 0 < address + length - chunk.1 by omega)).2.2
  exact hstep a ha.1 (hlen ▸ ha.2)

theorem rangeChunks_addresses (h : IsOrdered m.sharedMappings) (address length : ℕ) :
    (m.rangeChunks address length).flatMap chunkAddresses = List.range' address length :=
  flatMap_chunksOf (advances_chunkStep h) address length

end GuestMemory

namespace MemoryWorld

variable {w : MemoryWorld}

/-- The content of a cell. Nothing lies below the window. -/
def contents (w : MemoryWorld) : Cell → UInt8
  | .own a => if w.memory.baseAddress ≤ a then w.memory.bytes (w.memory.offsetOf a) else 0
  | .backing id offset => (w.backings id).byteAt offset

/-- The byte a guest sees at an address. -/
def byteAt (w : MemoryWorld) (a : ℕ) : UInt8 := w.contents (w.memory.cellOf a)

/-- Well-formed tables whose shared mappings lie inside their backings. -/
structure WellFormed (w : MemoryWorld) : Prop where
  tables : w.memory.WellFormed
  backed : ∀ a id offset, w.memory.sharing a = some (id, offset) → offset < (w.backings id).size

/-! ## Reading -/

variable {chunk : ℕ × ℕ}

/-- The backing range behind a chunk lies in the backing. -/
theorem WellFormed.contains_chunk (h : w.WellFormed) (hchunk : w.memory.IsChunk chunk)
    {mapping : SharedMapping} (hat : w.memory.sharedMappingAt chunk.1 = some mapping) :
    mapping.address ≤ chunk.1 ∧ (w.backings mapping.backing).contains
      (mapping.backingOffset + (chunk.1 - mapping.address)) chunk.2 = true := by
  rw [sharedMappingAt_eq h.tables.shared] at hat
  have hlo : mapping.address ≤ chunk.1 := (mem_of_entryAt hat).2.1
  have hpos := hchunk.size_pos
  have hlast := hchunk.sharing (chunk.1 + (chunk.2 - 1))
    (mem_chunkAddresses.mpr ⟨by omega, by omega⟩)
  rw [sharedMappingAt_eq h.tables.shared, hat] at hlast
  have hbacked := h.backed _ _ _ hlast
  simp only [SharedMemoryBacking.contains, Bool.and_eq_true, decide_eq_true_eq]
  omega

theorem readChunk_eq (h : w.WellFormed) (hchunk : w.memory.IsChunk chunk)
    (hbase : w.memory.baseAddress ≤ chunk.1) :
    w.readChunk chunk = some ((chunkAddresses chunk).map w.byteAt) := by
  have hmem := fun i (hi : i ∈ List.range chunk.2) => show chunk.1 + i ∈ chunkAddresses chunk from
    mem_chunkAddresses.mpr ⟨by omega, by have := mem_range.mp hi; omega⟩
  rw [readChunk]
  cases hat : w.memory.sharedMappingAt chunk.1 with
  | some mapping =>
    obtain ⟨hlo, hin⟩ := h.contains_chunk hchunk hat
    simp only [SharedMemoryBacking.read_eq _ hin, chunkAddresses, range'_eq_map_range,
      map_map]
    refine congrArg some (map_congr_left fun i hi => ?_)
    have hoff : mapping.backingOffset + (chunk.1 - mapping.address) + i =
        mapping.backingOffset + (chunk.1 + i - mapping.address) := by omega
    simp [byteAt, hchunk.cellOf_of_some (hmem i hi) hat, contents, hoff]
  | none =>
    simp only [chunkAddresses, range'_eq_map_range, map_map]
    refine congrArg some (map_congr_left fun i hi => ?_)
    have hoff : w.memory.offsetOf chunk.1 + i = w.memory.offsetOf (chunk.1 + i) := by
      simp only [offsetOf]
      omega
    simp [byteAt, hchunk.cellOf_of_none (hmem i hi) hat, contents, hoff,
      hbase.trans (Nat.le_add_right _ i)]

theorem mapM_eq_some_map {α β : Type*} {f : α → Option β} {g : α → β} {l : List α}
    (h : ∀ x ∈ l, f x = some (g x)) : l.mapM f = some (l.map g) := by
  induction l with
  | nil => rfl
  | cons x l ih =>
    rw [mapM_cons, h x mem_cons_self, ih fun y hy => h y (mem_cons_of_mem x hy)]
    rfl

/-- Inside the window, `ReadBytes` returns the byte of every address. -/
theorem readBytes_eq (h : w.WellFormed) {address length : ℕ}
    (hbase : w.memory.baseAddress ≤ address) :
    w.readBytes address length = some ((List.range' address length).map w.byteAt) := by
  have hchunks : ∀ chunk ∈ w.memory.rangeChunks address length,
      w.readChunk chunk = some ((chunkAddresses chunk).map w.byteAt) := by
    intro chunk hmem
    have hlo := (mem_chunksOf (advances_chunkStep h.tables.shared) hmem).1
    exact readChunk_eq h (isChunk_of_mem h.tables.shared hmem) (le_trans hbase hlo)
  rw [readBytes, mapM_eq_some_map hchunks, Option.map_some, ← flatMap_def, ← map_flatMap,
    rangeChunks_addresses h.tables.shared]

/-- A read succeeds exactly on readable ranges and returns the byte of every
address. -/
theorem read_eq (h : w.WellFormed) (address length : ℕ) : w.read address length =
      if w.memory.canAccessLocked address length kRead then
        some ((List.range' address length).map w.byteAt)
      else none := by
  rw [read]
  split_ifs with hacc
  · have hmap := (canAccessLocked_iff h.tables).mp hacc
    obtain ⟨p, hp, -⟩ := hmap _ ⟨le_rfl, by omega⟩
    exact readBytes_eq h (h.tables.inWindow _ p hp).1
  · rfl

end MemoryWorld

end KajPS5.Memory
