/-
# The sparse backing of shared mappings

A backing is a byte space of fixed size whose pages are allocated on first
write; a missing page reads as zero. Reads, writes and fills walk over the pages
a range meets, and clearing a range drops the pages it contains entirely.

The module reduces all of them to one byte at a time: `byteAt` is the content of
a backing, and each operation is an equation about it. A page allocation may
fail, so writing takes the outcome of each allocation as an argument; a failed
write has allocated some zero pages but stored nothing.
-/

import KajPS5.Math.Chunks

namespace KajPS5.Memory

open Math Option

/-- `kSharedMemoryBackingPageSize`. -/
def sharedMemoryBackingPageSize : ℕ := 0x4000

/-- A page, as its bytes by offset. -/
abbrev Page := ℕ → UInt8

structure SharedMemoryBacking where
  size : ℕ
  pages : ℕ → Option Page

namespace SharedMemoryBacking

/-- A backing as constructed: no page is allocated yet. -/
def create (size : ℕ) : SharedMemoryBacking where
  size := size
  pages _ := none

/-- The content of one byte. -/
def byteAt (b : SharedMemoryBacking) (offset : ℕ) : UInt8 :=
  match b.pages (offset / sharedMemoryBackingPageSize) with
  | none => 0
  | some page => page (offset % sharedMemoryBackingPageSize)

/-- `Contains`, written so that no sum can overflow. -/
def contains (b : SharedMemoryBacking) (offset length : ℕ) : Bool :=
  offset ≤ b.size && length ≤ b.size - offset

/-- How far one iteration of a page loop gets. -/
def pageChunk (current remaining : ℕ) : ℕ :=
  min remaining (sharedMemoryBackingPageSize - current % sharedMemoryBackingPageSize)

/-- The bytes one iteration of `Read` copies out. -/
def readChunk (b : SharedMemoryBacking) (chunk : ℕ × ℕ) : List UInt8 :=
  match b.pages (chunk.1 / sharedMemoryBackingPageSize) with
  | none => List.replicate chunk.2 0
  | some page => (List.range' (chunk.1 % sharedMemoryBackingPageSize) chunk.2).map page

/-- `Read`: the bytes of the range, or `none` when it is outside the backing. -/
def read (b : SharedMemoryBacking) (offset length : ℕ) : Option (List UInt8) :=
  if b.contains offset length then some ((chunksOf pageChunk offset length).flatMap b.readChunk)
  else none

/-- The loop of `EnsurePagesLocked` over the page indices still to visit.
`alloc` says which allocations succeed. -/
def ensurePagesFrom (alloc : ℕ → Bool) : SharedMemoryBacking → List ℕ →
    Bool × SharedMemoryBacking
  | b, [] => (true, b)
  | b, page :: rest =>
    if (b.pages page).isSome then ensurePagesFrom alloc b rest
    else if alloc page then
      ensurePagesFrom alloc { b with pages := Function.update b.pages page (some fun _ => 0) } rest
    else (false, b)

def ensurePagesLocked (b : SharedMemoryBacking) (alloc : ℕ → Bool) (offset length : ℕ) :
    Bool × SharedMemoryBacking :=
  if length = 0 then (true, b)
  else
    let firstPage := offset / sharedMemoryBackingPageSize
    let lastPage := (offset + length - 1) / sharedMemoryBackingPageSize
    ensurePagesFrom alloc b (List.range' firstPage (lastPage + 1 - firstPage))

/-- One iteration of the page loops of `Write` and `Fill`: overwrite the bytes
of the chunk, taken from `value` by their offset in the backing. -/
def storeChunk (value : ℕ → UInt8) (b : SharedMemoryBacking) (chunk : ℕ × ℕ) :
    SharedMemoryBacking :=
  let pageIndex := chunk.1 / sharedMemoryBackingPageSize
  let pageOffset := chunk.1 % sharedMemoryBackingPageSize
  { b with
    pages := Function.update b.pages pageIndex
      ((b.pages pageIndex).map fun page i =>
        if pageOffset ≤ i ∧ i < pageOffset + chunk.2 then value (chunk.1 + (i - pageOffset))
        else page i) }

/-- `Write`. -/
def write (b : SharedMemoryBacking) (alloc : ℕ → Bool) (offset : ℕ) (source : List UInt8) :
    Bool × SharedMemoryBacking :=
  if b.contains offset source.length then match b.ensurePagesLocked alloc offset source.length with
    | (false, b) => (false, b)
    | (true, b) =>
      (true, (chunksOf pageChunk offset source.length).foldl
        (storeChunk fun o => source.getD (o - offset) 0) b)
  else (false, b)

/-- `Clear`: pages inside the range are dropped, pages it only meets are zeroed
where it meets them. The end of a page is a 64-bit sum, which is zero for the
last page of the offset space. -/
def clear (b : SharedMemoryBacking) (offset length : ℕ) : SharedMemoryBacking :=
  if !b.contains offset length || length = 0 then b
  else
    { b with
      pages := fun index =>
        let pageStart := index * sharedMemoryBackingPageSize
        let pageEnd := (pageStart + sharedMemoryBackingPageSize) % 2 ^ 64
        let overlapStart := max offset pageStart
        let overlapEnd := min (offset + length) pageEnd
        if overlapStart ≥ overlapEnd then b.pages index
        else if overlapStart = pageStart ∧ overlapEnd = pageEnd then none
        else (b.pages index).map fun page i =>
          if overlapStart - pageStart ≤ i ∧ i < overlapEnd - pageStart then 0 else page i }

/-- `Fill`: zero is written by clearing, which needs no allocation. -/
def fill (b : SharedMemoryBacking) (alloc : ℕ → Bool) (offset length : ℕ) (value : UInt8) :
    Bool × SharedMemoryBacking :=
  if b.contains offset length then
    if value = 0 then (true, b.clear offset length)
    else match b.ensurePagesLocked alloc offset length with
      | (false, b) => (false, b)
      | (true, b) => (true, (chunksOf pageChunk offset length).foldl (storeChunk fun _ => value) b)
  else (false, b)

/-! ## Page arithmetic -/

theorem advances_pageChunk : Advances pageChunk := by
  intro current remaining hpos
  have hmod := Nat.mod_lt current (show 0 < sharedMemoryBackingPageSize by decide)
  simp only [pageChunk]
  omega

variable {length offset : ℕ} {chunk : ℕ × ℕ} {b : SharedMemoryBacking}

/-- An address of a page chunk lies on the chunk's page, at the corresponding
offset. -/
theorem div_mod_of_mem_pageChunk {current a : ℕ}
    (hlen : current % sharedMemoryBackingPageSize + length ≤ sharedMemoryBackingPageSize)
    (ha : current ≤ a ∧ a < current + length) :
    a / sharedMemoryBackingPageSize = current / sharedMemoryBackingPageSize ∧
      a % sharedMemoryBackingPageSize = current % sharedMemoryBackingPageSize + (a - current) := by
  simp only [sharedMemoryBackingPageSize] at *
  omega

theorem pageChunk_fits {address : ℕ} (hmem : chunk ∈ chunksOf pageChunk address length) :
    chunk.1 % sharedMemoryBackingPageSize + chunk.2 ≤ sharedMemoryBackingPageSize := by
  obtain ⟨_, _, _, hlen⟩ := mem_chunksOf advances_pageChunk hmem
  simp only [pageChunk] at hlen
  omega

/-! ## Reading -/

variable (b)

theorem readChunk_eq
    (hfits : chunk.1 % sharedMemoryBackingPageSize + chunk.2 ≤ sharedMemoryBackingPageSize) :
    b.readChunk chunk = (chunkAddresses chunk).map b.byteAt := by
  apply List.ext_getElem?
  intro i
  by_cases hi : i < chunk.2
  · obtain ⟨hdiv, hmod⟩ := div_mod_of_mem_pageChunk hfits (a := chunk.1 + i) ⟨by omega, by omega⟩
    cases hpage : b.pages (chunk.1 / sharedMemoryBackingPageSize) with
    | none => simp [readChunk, chunkAddresses, byteAt, hpage, hi, hdiv]
    | some page => simp [readChunk, chunkAddresses, byteAt, hpage, hi, hdiv, hmod]
  · cases hpage : b.pages (chunk.1 / sharedMemoryBackingPageSize) <;>
      simp [readChunk, chunkAddresses, hpage, hi]

/-- A successful read returns the content of every byte of the range. -/
theorem read_eq (h : b.contains offset length = true) : b.read offset length = some
    ((List.range' offset length).map b.byteAt) := by
  rw [read, if_pos h, flatMap_chunksOf_map advances_pageChunk]
  intro chunk hchunk
  exact b.readChunk_eq (pageChunk_fits hchunk)

variable {b}

/-! ## Allocating pages -/

/-- A fresh page reads like the missing one it replaces. -/
theorem byteAt_update_zero (b : SharedMemoryBacking) {page : ℕ} (h : (b.pages page).isSome = false)
    (o : ℕ) :
    byteAt { b with pages := Function.update b.pages page (some fun _ => 0) } o = b.byteAt o := by
  rw [isSome_eq_false_iff, isNone_iff_eq_none] at h
  by_cases hpage : o / sharedMemoryBackingPageSize = page
  · simp [byteAt, hpage, h]
  · simp [byteAt, Function.update_of_ne hpage]

/-- Allocation never changes the content, whether or not it succeeds. -/
theorem ensurePagesFrom_spec (alloc : ℕ → Bool) (b : SharedMemoryBacking) (l : List ℕ) :
    (ensurePagesFrom alloc b l).2.size = b.size ∧
      ∀ o, (ensurePagesFrom alloc b l).2.byteAt o = b.byteAt o := by
  induction l generalizing b with
  | nil => exact ⟨rfl, fun _ => rfl⟩
  | cons page rest ih =>
    rw [ensurePagesFrom]
    split_ifs with hsome halloc
    · exact ih b
    · refine ⟨(ih _).1, fun o => ?_⟩
      rw [(ih _).2, byteAt_update_zero b (by simpa using hsome)]
    · exact ⟨rfl, fun _ => rfl⟩

/-- After a successful allocation every visited page is present, and so is every
page that was present before. -/
theorem isSome_pages_ensurePagesFrom {alloc : ℕ → Bool} {l : List ℕ}
    (h : (ensurePagesFrom alloc b l).1 = true) {index : ℕ}
    (hindex : index ∈ l ∨ (b.pages index).isSome = true) :
    ((ensurePagesFrom alloc b l).2.pages index).isSome = true := by
  induction l generalizing b with
  | nil => simpa [ensurePagesFrom] using hindex
  | cons page rest ih =>
    rw [ensurePagesFrom] at h ⊢
    split_ifs at h ⊢ with hsome halloc
    · refine ih h ?_
      rcases hindex with hmem | hold
      · rcases List.mem_cons.mp hmem with rfl | hmem
        · exact .inr hsome
        · exact .inl hmem
      · exact .inr hold
    · refine ih h ?_
      by_cases heq : index = page
      · subst heq
        simp
      · rcases hindex with hmem | hold
        · exact .inl ((List.mem_cons.mp hmem).resolve_left heq)
        · right
          simpa [Function.update_of_ne heq] using hold

variable (b)

/-- A range has all its pages. -/
def HasPages (offset length : ℕ) : Prop :=
  ∀ o, offset ≤ o → o < offset + length → (b.pages (o / sharedMemoryBackingPageSize)).isSome = true

variable {b}

theorem ensurePagesLocked_spec {alloc : ℕ → Bool} {ok : Bool} {b' : SharedMemoryBacking}
    (h : b.ensurePagesLocked alloc offset length = (ok, b')) :
    b'.size = b.size ∧ (∀ o, b'.byteAt o = b.byteAt o) ∧
      (ok = true → b'.HasPages offset length) := by
  rw [ensurePagesLocked] at h
  split_ifs at h with hlen
  · cases h
    exact ⟨rfl, fun _ => rfl, fun _ o hlo hhi => by omega⟩
  obtain ⟨rfl, rfl⟩ := Prod.mk.inj h
  obtain ⟨hsize, hbytes⟩ := ensurePagesFrom_spec alloc b _
  refine ⟨hsize, hbytes, fun hok o hlo hhi => isSome_pages_ensurePagesFrom hok (.inl ?_)⟩
  have hfirst : offset / sharedMemoryBackingPageSize ≤ o / sharedMemoryBackingPageSize :=
    Nat.div_le_div_right hlo
  have hlast : o / sharedMemoryBackingPageSize ≤
      (offset + length - 1) / sharedMemoryBackingPageSize :=
    Nat.div_le_div_right (by omega)
  rw [List.mem_range'_1]
  omega

/-! ## Storing -/

@[simp]
theorem storeChunk_size (value : ℕ → UInt8) (b : SharedMemoryBacking) (chunk : ℕ × ℕ) :
    (storeChunk value b chunk).size = b.size := rfl

/-- One iteration overwrites the bytes of its chunk and keeps all pages. -/
theorem storeChunk_spec {value : ℕ → UInt8}
    (hfits : chunk.1 % sharedMemoryBackingPageSize + chunk.2 ≤ sharedMemoryBackingPageSize)
    (hpage : (b.pages (chunk.1 / sharedMemoryBackingPageSize)).isSome = true) (o : ℕ) :
    (storeChunk value b chunk).byteAt o =
      if o ∈ chunkAddresses chunk then value o else b.byteAt o := by
  obtain ⟨page, hpage⟩ := isSome_iff_exists.mp hpage
  simp only [mem_chunkAddresses]
  by_cases hsame : o / sharedMemoryBackingPageSize = chunk.1 / sharedMemoryBackingPageSize
  · simp only [byteAt, storeChunk, hsame, Function.update_self, hpage, map_some]
    by_cases hin : chunk.1 ≤ o ∧ o < chunk.1 + chunk.2
    · obtain ⟨-, hmod⟩ := div_mod_of_mem_pageChunk hfits hin
      rw [if_pos (by omega), if_pos hin]
      congr 1
      omega
    · rw [if_neg hin, if_neg]
      have hdivmod := Nat.div_add_mod o sharedMemoryBackingPageSize
      have hdivmod' := Nat.div_add_mod chunk.1 sharedMemoryBackingPageSize
      rw [hsame] at hdivmod
      omega
  · have hout : ¬ (chunk.1 ≤ o ∧ o < chunk.1 + chunk.2) := fun hin =>
      hsame (div_mod_of_mem_pageChunk hfits hin).1
    simp [byteAt, storeChunk, Function.update_of_ne hsame, if_neg hout]

theorem isSome_pages_storeChunk (value : ℕ → UInt8) (b : SharedMemoryBacking) (chunk : ℕ × ℕ)
    (index : ℕ) : ((storeChunk value b chunk).pages index).isSome = (b.pages index).isSome := by
  by_cases heq : index = chunk.1 / sharedMemoryBackingPageSize
  · subst heq
    simp [storeChunk]
  · simp [storeChunk, Function.update_of_ne heq]

/-- The page loop overwrites exactly the range. -/
theorem byteAt_foldl_storeChunk (value : ℕ → UInt8) (hpages : b.HasPages offset length) (o : ℕ) :
    ((chunksOf pageChunk offset length).foldl (storeChunk value) b).byteAt o =
      if offset ≤ o ∧ o < offset + length then value o else b.byteAt o := by
  have hloop := (foldl_overwrite _ (storeChunk value) _
    (fun b => b.HasPages offset length) (l := chunksOf pageChunk offset length)
    (by
      intro s chunk hchunk hs
      obtain ⟨hlo, hpos, hhi, -⟩ := mem_chunksOf advances_pageChunk hchunk
      refine ⟨fun x hx hx' => ?_, fun a => ?_⟩
      · rw [isSome_pages_storeChunk]
        exact hs x hx hx'
      · exact storeChunk_spec (pageChunk_fits hchunk) (hs _ hlo (by omega)) a)
    b hpages).2 o
  simp [hloop, flatMap_chunksOf advances_pageChunk]

theorem foldl_storeChunk_size (value : ℕ → UInt8) (b : SharedMemoryBacking)
    (l : List (ℕ × ℕ)) : (l.foldl (storeChunk value) b).size = b.size := by
  induction l generalizing b with
  | nil => rfl
  | cons chunk l ih => rw [List.foldl_cons, ih, storeChunk_size]

variable (b)

/-- A write either stores every byte of the source or leaves the content as it
was. -/
theorem write_spec (alloc : ℕ → Bool) (offset : ℕ) (source : List UInt8) (o : ℕ) :
    (b.write alloc offset source).2.byteAt o =
      if (b.write alloc offset source).1 = true ∧ offset ≤ o ∧ o < offset + source.length then
        source.getD (o - offset) 0
      else b.byteAt o := by
  rw [write]
  by_cases hin : b.contains offset source.length = true
  · rw [if_pos hin]
    rcases hensure : b.ensurePagesLocked alloc offset source.length with ⟨ok, b'⟩
    obtain ⟨-, hbytes, hpages⟩ := ensurePagesLocked_spec hensure
    cases ok with
    | false => simp [hbytes]
    | true =>
      simp only [true_and]
      rw [byteAt_foldl_storeChunk _ (hpages rfl), hbytes]
  · simp [hin]

@[simp]
theorem write_size (alloc : ℕ → Bool) (offset : ℕ) (source : List UInt8) :
    (b.write alloc offset source).2.size = b.size := by
  rw [write]
  split_ifs
  · rcases hensure : b.ensurePagesLocked alloc offset source.length with ⟨ok, b'⟩
    have hsize := (ensurePagesLocked_spec hensure).1
    cases ok with
    | false => exact hsize
    | true => exact (foldl_storeChunk_size _ _ _).trans hsize
  · rfl

/-- Where `Clear` works: below the last page of the 64-bit offset space. The end
of that page wraps to zero and the page is skipped. -/
def clearLimit : ℕ := 2 ^ 64 - sharedMemoryBackingPageSize

theorem clear_spec (h : b.contains offset length = true) (o : ℕ) :
    (b.clear offset length).byteAt o =
      if offset ≤ o ∧ o < offset + length ∧ o < clearLimit then 0 else b.byteAt o := by
  rw [clear]
  by_cases hlen : length = 0
  · simp only [hlen, decide_true, Bool.or_true, if_true]
    rw [if_neg (by omega)]
  simp only [h, hlen, Bool.not_true, decide_false, Bool.or_self, Bool.false_eq_true, if_false]
  have hdivmod := Nat.div_add_mod o sharedMemoryBackingPageSize
  have hmod := Nat.mod_lt o (show 0 < sharedMemoryBackingPageSize by decide)
  rw [Nat.mul_comm] at hdivmod
  simp only [byteAt]
  generalize hindex : o / sharedMemoryBackingPageSize = index at *
  by_cases hwrap : index * sharedMemoryBackingPageSize + sharedMemoryBackingPageSize < 2 ^ 64
  · by_cases hin : offset ≤ o ∧ o < offset + length ∧ o < clearLimit
    · rw [if_neg (by omega)]
      split_ifs with hwhole
      · rfl
      cases b.pages index with
      | none => rfl
      | some page =>
        simp only [map_some]
        rw [if_pos (by omega)]
    · have hlimit : o < clearLimit ∨ o ≥ offset + length := by
        simp only [clearLimit, sharedMemoryBackingPageSize] at *
        omega
      split_ifs with hmiss hwhole
      · rfl
      · omega
      cases b.pages index with
      | none => rfl
      | some page =>
        simp only [map_some]
        rw [if_neg (by omega)]
  · have hge : clearLimit ≤ o := by
      simp only [clearLimit] at *
      omega
    have hend : (index * sharedMemoryBackingPageSize + sharedMemoryBackingPageSize) % 2 ^ 64 ≤
        max offset (index * sharedMemoryBackingPageSize) := by
      simp only [sharedMemoryBackingPageSize] at *
      omega
    have hmiss : min (offset + length)
        ((index * sharedMemoryBackingPageSize + sharedMemoryBackingPageSize) % 2 ^ 64) ≤
          max offset (index * sharedMemoryBackingPageSize) := by
      omega
    rw [if_pos hmiss, if_neg (by omega)]

@[simp]
theorem clear_size (offset length : ℕ) : (b.clear offset length).size = b.size := by
  rw [clear]
  split_ifs <;> rfl

/-- The bytes a successful fill gives the filled value. -/
def FillReaches (value : UInt8) (o : ℕ) : Prop := value = 0 → o < clearLimit

instance (value : UInt8) (o : ℕ) : Decidable (FillReaches value o) :=
  inferInstanceAs (Decidable (_ → _))

/-- A fill either gives its value to every byte it reaches or leaves the content
as it was. -/
theorem fill_spec (alloc : ℕ → Bool) (offset length : ℕ) (value : UInt8) (o : ℕ) :
    (b.fill alloc offset length value).2.byteAt o =
      if (b.fill alloc offset length value).1 = true ∧ offset ≤ o ∧ o < offset + length ∧
          FillReaches value o then value
      else b.byteAt o := by
  rw [fill]
  by_cases hin : b.contains offset length = true
  · rw [if_pos hin]
    by_cases hzero : value = 0
    · subst hzero
      simp only [if_true, true_and, FillReaches, forall_const]
      exact clear_spec b hin o
    rw [if_neg hzero]
    have hreach : FillReaches value o := fun h => absurd h hzero
    rcases hensure : b.ensurePagesLocked alloc offset length with ⟨ok, b'⟩
    obtain ⟨-, hbytes, hpages⟩ := ensurePagesLocked_spec hensure
    cases ok with
    | false => simp [hbytes]
    | true =>
      simp only [true_and, hreach, and_true]
      rw [byteAt_foldl_storeChunk _ (hpages rfl), hbytes]
  · simp [hin]

@[simp]
theorem fill_size (alloc : ℕ → Bool) (offset length : ℕ) (value : UInt8) :
    (b.fill alloc offset length value).2.size = b.size := by
  rw [fill]
  split_ifs
  · exact clear_size b _ _
  · rcases hensure : b.ensurePagesLocked alloc offset length with ⟨ok, b'⟩
    have hsize := (ensurePagesLocked_spec hensure).1
    cases ok with
    | false => exact hsize
    | true => exact (foldl_storeChunk_size _ _ _).trans hsize
  · rfl

variable {b}

end SharedMemoryBacking

end KajPS5.Memory
