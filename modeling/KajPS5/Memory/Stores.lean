/-
# What a storing call stores

A chunk goes through completely or not at all, and it touches no cell but those
of its own addresses. The loops of the storing calls run over a list of chunks
and may stop early, so a call stores the chunks of an initial part of the list.
From the two facts follows what such a loop leaves behind: the cells of its
stored addresses, one update after the other, and otherwise the world it started
from.

Filling with zero has an exception. It clears the backing, and clearing does not
reach the last page of the 64-bit offset space; the statements about values carry
the condition that a store reaches its cell.
-/

import KajPS5.Memory.Cells

namespace KajPS5.Memory

open Math GuestMemoryProtection GuestMemory SharedMemoryBacking List Function

/-- One update after the other, over the cells of a list of addresses. -/
def storeCells (cellOf : ℕ → Cell) (value : ℕ → UInt8) (addresses : List ℕ)
    (contents : Cell → UInt8) : Cell → UInt8 :=
  addresses.foldl (fun contents a => Function.update contents (cellOf a) (value a)) contents

section StoreCells

variable {cellOf : ℕ → Cell} {value : ℕ → UInt8}

theorem storeCells_append (first second : List ℕ) (contents : Cell → UInt8) :
    storeCells cellOf value (first ++ second) contents =
      storeCells cellOf value second (storeCells cellOf value first contents) :=
  foldl_append

variable {addresses : List ℕ}

/-- Only the values behind the stored addresses matter. -/
theorem storeCells_congr {value' : ℕ → UInt8} (contents : Cell → UInt8)
    (h : ∀ a ∈ addresses, value a = value' a) :
    storeCells cellOf value addresses contents = storeCells cellOf value' addresses contents := by
  induction addresses generalizing contents with
  | nil => rfl
  | cons a addresses ih =>
    rw [forall_mem_cons] at h
    rw [storeCells, foldl_cons, h.1]
    exact ih _ h.2

theorem storeCells_of_notMem {cell : Cell} (h : ∀ a ∈ addresses, cell ≠ cellOf a)
    (contents : Cell → UInt8) :
    storeCells cellOf value addresses contents cell = contents cell := by
  induction addresses generalizing contents with
  | nil => rfl
  | cons a addresses ih =>
    rw [storeCells, foldl_cons, ← storeCells,
      ih fun b hb => h b (mem_cons_of_mem a hb), update_of_ne]
    exact h a mem_cons_self

/-- When no two of the addresses share a cell, each cell holds its own value. -/
theorem storeCells_of_injective (hnodup : addresses.Nodup)
    (hinj : ∀ a ∈ addresses, ∀ b ∈ addresses, cellOf a = cellOf b → a = b) (contents : Cell → UInt8)
    {a : ℕ} (ha : a ∈ addresses) :
    storeCells cellOf value addresses contents (cellOf a) = value a := by
  induction addresses generalizing contents with
  | nil => simp at ha
  | cons b addresses ih =>
    rw [storeCells, foldl_cons, ← storeCells]
    obtain ⟨hnotMem, hnodup⟩ := nodup_cons.mp hnodup
    rcases mem_cons.mp ha with rfl | ha
    · rw [storeCells_of_notMem, update_self]
      intro c hc heq
      exact hnotMem (hinj a mem_cons_self c (mem_cons_of_mem a hc) heq ▸ hc)
    · exact ih hnodup (fun c hc d hd => hinj c (mem_cons_of_mem b hc) d
        (mem_cons_of_mem b hd)) _ ha

end StoreCells

namespace MemoryWorld

/-- Only bytes and backing contents may differ. -/
structure SameTables (w w' : MemoryWorld) : Prop where
  memory : w'.memory = { w.memory with bytes := w'.memory.bytes }
  size : ∀ id, (w'.backings id).size = (w.backings id).size

namespace SameTables

variable {w w' w'' : MemoryWorld}

theorem refl (w : MemoryWorld) : SameTables w w := ⟨rfl, fun _ => rfl⟩

section

variable (h : SameTables w w')
include h

theorem trans (h' : SameTables w' w'') : SameTables w w'' := by
  refine ⟨?_, fun id => (h'.size id).trans (h.size id)⟩
  rw [h'.memory, h.memory]

theorem baseAddress : w'.memory.baseAddress = w.memory.baseAddress := by rw [h.memory]

theorem sharedMappings : w'.memory.sharedMappings = w.memory.sharedMappings := by rw [h.memory]

theorem sharing : w'.memory.sharing = w.memory.sharing := by
  rw [h.memory]
  rfl

theorem protections : w'.memory.protections = w.memory.protections := by
  rw [h.memory]
  rfl

theorem cellOf : w'.memory.cellOf = w.memory.cellOf := by
  rw [h.memory]
  rfl

theorem sharedMappingAt : w'.memory.sharedMappingAt = w.memory.sharedMappingAt := by
  rw [h.memory]
  rfl

theorem isChunk {chunk : ℕ × ℕ} (hchunk : w.memory.IsChunk chunk) : w'.memory.IsChunk chunk := by
  refine ⟨hchunk.size_pos, ?_⟩
  rw [h.sharing, h.sharedMappingAt]
  exact hchunk.sharing

theorem wellFormed (hw : w.WellFormed) : w'.WellFormed where
  tables := by
    rw [h.memory]
    exact { hw.tables with }
  backed a id offset ha := by
    rw [h.sharing] at ha
    rw [h.size]
    exact hw.backed a _ _ ha

end

end SameTables

/-! ## One chunk -/

/-- The outcome of storing one chunk: all its cells, or none. -/
structure ChunkStored (w : MemoryWorld) (chunk : ℕ × ℕ) (value : ℕ → UInt8) (reaches : ℕ → Prop)
    (result : Bool × MemoryWorld) : Prop where
  same : SameTables w result.2
  frame : ∀ cell, (result.1 = true → ∀ a ∈ chunkAddresses chunk, cell ≠ w.memory.cellOf a) →
    result.2.contents cell = w.contents cell
  value : result.1 = true → ∀ a ∈ chunkAddresses chunk, reaches a →
    result.2.contents (w.memory.cellOf a) = value a

variable {w : MemoryWorld}

theorem sameTables_setBytes (w : MemoryWorld) (offset length : ℕ) (value : ℕ → UInt8) :
    SameTables w (w.setBytes offset length value) :=
  ⟨rfl, fun _ => rfl⟩

variable {address length destination source : ℕ} {reaches : ℕ → Prop} {chunk : ℕ × ℕ}
  {result piece : StoreResult} {passed : List (ℕ × ℕ)}

variable {value : ℕ → UInt8}

theorem contents_setBytes (hbase : w.memory.baseAddress ≤ address) (length : ℕ) (f : ℕ → UInt8)
    (a : ℕ) : (w.setBytes (w.memory.offsetOf address) length f).contents (.own a) =
      if InRange address length a then f (a - address) else w.contents (.own a) := by
  have hoff : w.memory.baseAddress ≤ a → (w.memory.offsetOf address ≤ w.memory.offsetOf a ∧
      w.memory.offsetOf a < w.memory.offsetOf address + length ↔ InRange address length a) := by
    simp only [offsetOf, InRange]
    omega
  by_cases hin : InRange address length a
  · have hle := hbase.trans hin.1
    rw [if_pos hin]
    exact (if_pos hle).trans ((if_pos ((hoff hle).mpr hin)).trans
      (congrArg f (Nat.sub_sub_sub_cancel_right hbase)))
  · rw [if_neg hin]
    exact ite_congr rfl (fun hle => if_neg (mt (hoff hle).mp hin)) fun _ => rfl

/-- Storing a chunk that no shared mapping covers. -/
theorem chunkStored_setBytes (hchunk : w.memory.IsChunk chunk)
    (hbase : w.memory.baseAddress ≤ chunk.1) (hat : w.memory.sharedMappingAt chunk.1 = none)
    {f : ℕ → UInt8} (hf : ∀ i, i < chunk.2 → f i = value (chunk.1 + i)) :
    ChunkStored w chunk value reaches
      (true, w.setBytes (w.memory.offsetOf chunk.1) chunk.2 f) := by
  have hown := fun a ha => hchunk.cellOf_of_none (a := a) ha hat
  refine ⟨sameTables_setBytes w _ _ _, ?_, ?_⟩
  · intro cell hframe
    cases cell with
    | backing id offset => rfl
    | own a =>
      rw [contents_setBytes hbase, if_neg]
      intro hin
      have ha := mem_chunkAddresses.mpr hin
      exact hframe rfl a ha (hown a ha).symm
  · intro _ a ha _
    have hin := mem_chunkAddresses.mp ha
    rw [hown a ha, contents_setBytes hbase, if_pos ⟨hin.1, hin.2⟩, hf _ (by omega),
      Nat.add_sub_cancel' hin.1]

/-- Storing a chunk of a shared mapping through its backing. -/
theorem chunkStored_setBacking (hchunk : w.memory.IsChunk chunk) {mapping : SharedMapping}
    (hat : w.memory.sharedMappingAt chunk.1 = some mapping) (hlo : mapping.address ≤ chunk.1)
    {result : Bool × SharedMemoryBacking} (f : ℕ → UInt8)
    (reachesOffset : ℕ → Prop) [DecidablePred reachesOffset]
    (hsize : result.2.size = (w.backings mapping.backing).size) (hbytes : ∀ o, result.2.byteAt o =
      if result.1 = true ∧ mapping.backingOffset + (chunk.1 - mapping.address) ≤ o ∧
          o < mapping.backingOffset + (chunk.1 - mapping.address) + chunk.2 ∧ reachesOffset o then
        f o
      else (w.backings mapping.backing).byteAt o)
    (hreaches : ∀ a ∈ chunkAddresses chunk, reaches a →
      reachesOffset (mapping.backingOffset + (a - mapping.address)) ∧
        f (mapping.backingOffset + (a - mapping.address)) = value a) :
    ChunkStored w chunk value reaches (w.setBacking mapping.backing result) := by
  have hcell := fun a ha => hchunk.cellOf_of_some (a := a) ha hat
  refine ⟨⟨rfl, fun id => ?_⟩, ?_, ?_⟩
  · by_cases hid : id = mapping.backing
    · subst hid
      simpa [setBacking] using hsize
    · simp [setBacking, update_of_ne hid]
  · intro cell hframe
    cases cell with
    | own a => rfl
    | backing id offset =>
      by_cases hid : id = mapping.backing
      · subst hid
        simp only [contents, setBacking, update_self, hbytes offset]
        split_ifs with hin
        · -- The offset belongs to the address as far into the chunk.
          obtain ⟨hok, hfirst, hlast, -⟩ := hin
          have ha : chunk.1 + (offset - (mapping.backingOffset + (chunk.1 - mapping.address))) ∈
              chunkAddresses chunk := mem_chunkAddresses.mpr ⟨by omega, by omega⟩
          refine absurd ?_ (hframe hok _ ha)
          rw [hcell _ ha]
          congr 1
          omega
        · rfl
      · simp [contents, setBacking, update_of_ne hid]
  · intro hok a ha hreach
    obtain ⟨hoff, hvalue⟩ := hreaches a ha hreach
    have ha' := mem_chunkAddresses.mp ha
    rw [hcell a ha]
    simp only [contents, setBacking, update_self, hbytes]
    rw [if_pos ⟨hok, by omega, by omega, hoff⟩, hvalue]

/-- A fill of the given value reaches the cell behind the address. -/
def FillReaches (w : MemoryWorld) (value : UInt8) (a : ℕ) : Prop :=
  ∀ id offset, w.memory.sharing a = some (id, offset) → SharedMemoryBacking.FillReaches value offset

theorem chunkStored_writeChunk (h : w.WellFormed) (alloc : ℕ → ℕ → Bool) {source : List UInt8}
    (hchunk : w.memory.IsChunk chunk) (hbase : w.memory.baseAddress ≤ chunk.1)
    (hlo : address ≤ chunk.1) (hhi : chunk.1 + chunk.2 ≤ address + source.length) :
    ChunkStored w chunk (fun a => source.getD (a - address) 0) (fun _ => True)
      (writeChunk alloc address source w chunk) := by
  have hview : ∀ i, i < chunk.2 → ((source.drop (chunk.1 - address)).take chunk.2).getD i 0 =
        source.getD (chunk.1 + i - address) 0 := by
    intro i hi
    have hindex : chunk.1 - address + i = chunk.1 + i - address := by omega
    simp [getElem?_take, if_pos hi, hindex]
  have hlen : ((source.drop (chunk.1 - address)).take chunk.2).length = chunk.2 := by
    rw [length_take, length_drop]
    omega
  simp only [writeChunk]
  cases hat : w.memory.sharedMappingAt chunk.1 with
  | none => exact chunkStored_setBytes hchunk hbase hat hview
  | some mapping =>
    obtain ⟨hmap, -⟩ := h.contains_chunk hchunk hat
    refine chunkStored_setBacking hchunk hat hmap
      (fun o => ((source.drop (chunk.1 - address)).take chunk.2).getD
        (o - (mapping.backingOffset + (chunk.1 - mapping.address))) 0)
      (fun _ => True) (write_size _ _ _ _) (fun o => ?_)
      (fun a ha _ => ⟨trivial, ?_⟩)
    · rw [write_spec, hlen]
      simp
    · have ha' := mem_chunkAddresses.mp ha
      rw [hview _ (by omega)]
      congr 1
      omega

theorem chunkStored_fillChunk (h : w.WellFormed) (alloc : ℕ → ℕ → Bool) (value : UInt8)
    (hchunk : w.memory.IsChunk chunk) (hbase : w.memory.baseAddress ≤ chunk.1) :
    ChunkStored w chunk (fun _ => value) (w.FillReaches value)
      (fillChunk alloc value w chunk) := by
  rw [fillChunk]
  cases hat : w.memory.sharedMappingAt chunk.1 with
  | none => exact chunkStored_setBytes hchunk hbase hat fun _ _ => rfl
  | some mapping =>
    obtain ⟨hmap, -⟩ := h.contains_chunk hchunk hat
    refine chunkStored_setBacking hchunk hat hmap (fun _ => value)
      (SharedMemoryBacking.FillReaches value) (fill_size _ _ _ _ _)
      (fun o => fill_spec _ _ _ _ _ o)
      (fun a ha hreach => ⟨?_, rfl⟩)
    have hshare := hchunk.sharing a ha
    rw [hat] at hshare
    exact hreach _ _ hshare

/-- No two addresses of a chunk share a cell. -/
theorem cellOf_injective_of_isChunk (h : w.WellFormed) (hchunk : w.memory.IsChunk chunk) {a b : ℕ}
    (ha : a ∈ chunkAddresses chunk) (hb : b ∈ chunkAddresses chunk)
    (heq : w.memory.cellOf a = w.memory.cellOf b) : a = b := by
  cases hat : w.memory.sharedMappingAt chunk.1 with
  | none =>
    rw [hchunk.cellOf_of_none ha hat, hchunk.cellOf_of_none hb hat] at heq
    exact Cell.own.inj heq
  | some mapping =>
    obtain ⟨hlo, -⟩ := h.contains_chunk hchunk hat
    rw [hchunk.cellOf_of_some ha hat, hchunk.cellOf_of_some hb hat] at heq
    have hoff := (Cell.backing.inj heq).2
    have ha' := mem_chunkAddresses.mp ha
    have hb' := mem_chunkAddresses.mp hb
    omega

/-- A chunk that goes through and reaches its cells is one pass over them. -/
theorem ChunkStored.contents_eq (h : w.WellFormed) (hchunk : w.memory.IsChunk chunk)
    {result : Bool × MemoryWorld} (hstore : ChunkStored w chunk value reaches result)
    (hok : result.1 = true) (hreach : ∀ a ∈ chunkAddresses chunk, reaches a) :
    result.2.contents = storeCells w.memory.cellOf value (chunkAddresses chunk) w.contents := by
  funext cell
  by_cases hcell : ∃ a ∈ chunkAddresses chunk, cell = w.memory.cellOf a
  · obtain ⟨a, ha, rfl⟩ := hcell
    have hnodup : (chunkAddresses chunk).Nodup := nodup_range'
    rw [hstore.value hok a ha (hreach a ha)]
    exact (storeCells_of_injective hnodup
      (fun b hb c hc => cellOf_injective_of_isChunk h hchunk hb hc) _ ha).symm
  · have hout : ∀ a ∈ chunkAddresses chunk, cell ≠ w.memory.cellOf a :=
      fun a ha heq => hcell ⟨a, ha, heq⟩
    rw [storeCells_of_notMem hout, hstore.frame cell fun _ => hout]

/-! ## The loop -/

/-- The report after recording a list of ranges. -/
def recordAll (m : GuestMemory) (report : MutationReport) (chunks : List (ℕ × ℕ)) :
    MutationReport :=
  chunks.foldl (fun report chunk => m.recordActualWriteRangeLocked report chunk.1 chunk.2) report

/-- What a loop has done after getting through some chunks. -/
structure Stored (before after : StoreResult) (chunks : List (ℕ × ℕ)) (value : ℕ → UInt8)
    (reaches : ℕ → Prop) : Prop where
  same : SameTables before.world after.world
  stored : after.stored = before.stored ++ chunks
  mutations : after.mutations = recordAll before.world.memory before.mutations chunks
  frame : ∀ cell, (∀ a ∈ chunks.flatMap chunkAddresses, cell ≠ before.world.memory.cellOf a) →
    after.world.contents cell = before.world.contents cell
  contents : (∀ a ∈ chunks.flatMap chunkAddresses, reaches a) →
    after.world.contents = storeCells before.world.memory.cellOf value
      (chunks.flatMap chunkAddresses) before.world.contents

theorem Stored.nil (before : StoreResult) (completed : Bool) {world : MemoryWorld}
    (hworld : SameTables before.world world) (hcont : world.contents = before.world.contents) :
    Stored before { before with completed, world } [] value reaches where
  same := hworld
  stored := (append_nil _).symm
  mutations := rfl
  frame cell _ := by rw [hcont]
  contents _ := hcont

theorem recordAll_congr {m m' : GuestMemory} (h : m'.sharedMappings = m.sharedMappings)
    (report : MutationReport) (chunks : List (ℕ × ℕ)) :
    recordAll m' report chunks = recordAll m report chunks := by
  have hat : m'.sharedMappingAt = m.sharedMappingAt := by
    funext a
    simp [sharedMappingAt, findSharedMapping, h]
  have hstep : m'.chunkStep = m.chunkStep := by
    funext current remaining
    simp [chunkStep, hat, h]
  have hrec : m'.recordChunk = m.recordChunk := by
    funext report chunk
    simp [recordChunk, hat, h]
  simp [recordAll, recordActualWriteRangeLocked, rangeChunks, hstep, hrec]

variable {chunks rest : List (ℕ × ℕ)}

theorem Stored.trans {first second third : StoreResult} {chunks' : List (ℕ × ℕ)}
    (h : Stored first second chunks value reaches)
    (h' : Stored second third chunks' value reaches) :
    Stored first third (chunks ++ chunks') value reaches where
  same := h.same.trans h'.same
  stored := by rw [h'.stored, h.stored, append_assoc]
  mutations := by
    rw [h'.mutations, h.mutations, recordAll_congr h.same.sharedMappings, recordAll, recordAll,
      recordAll, foldl_append]
  frame cell hcell := by
    rw [flatMap_append] at hcell
    rw [h'.frame cell, h.frame cell fun a ha => hcell a (mem_append_left _ ha)]
    rw [h.same.cellOf]
    exact fun a ha => hcell a (mem_append_right _ ha)
  contents hreach := by
    rw [flatMap_append] at hreach ⊢
    rw [h'.contents fun a ha => hreach a (mem_append_right _ ha),
      h.contents fun a ha => hreach a (mem_append_left _ ha), h.same.cellOf, storeCells_append]

/-- The loop gets through an initial part of the chunks, all of them if it
completes. -/
theorem storeChunks_spec (before : StoreResult) (fault : Bool)
    {store : MemoryWorld → ℕ × ℕ → Bool × MemoryWorld}
    (hw : before.world.WellFormed) (hchunks : ∀ chunk ∈ chunks, before.world.memory.IsChunk chunk)
    (hstore : ∀ w, SameTables before.world w → ∀ chunk ∈ chunks,
      ChunkStored w chunk value reaches (store w chunk)) :
    ∃ passed rest, chunks = passed ++ rest ∧
      Stored before (storeChunks fault store before chunks) passed value reaches ∧
        ((storeChunks fault store before chunks).completed = true → rest = []) := by
  induction chunks generalizing before with
  | nil =>
    exact ⟨[], [], rfl, .nil before true (SameTables.refl _) rfl, fun _ => rfl⟩
  | cons chunk chunks ih =>
    have hchunk := hchunks chunk mem_cons_self
    have hfirst := hstore _ (SameTables.refl _) chunk mem_cons_self
    rw [storeChunks]
    rcases hres : store before.world chunk with ⟨ok, world⟩
    rw [hres] at hfirst
    cases ok with
    | false =>
      exact ⟨[], chunk :: chunks, rfl, .nil _ false hfirst.same
        (funext fun cell => hfirst.frame cell (by simp)), by simp⟩
    | true =>
      simp only
      generalize hmid : (⟨false, world, world.memory.recordActualWriteRangeLocked
        before.mutations chunk.1 chunk.2, before.bytesWritten + chunk.2,
        before.stored ++ [chunk]⟩ : StoreResult) = middle
      have hone : Stored before middle [chunk] value reaches := by
        subst hmid
        exact
          { same := hfirst.same
            stored := rfl
            mutations := recordAll_congr hfirst.same.sharedMappings before.mutations [chunk]
            frame := fun cell hcell => hfirst.frame cell fun _ => by simpa using hcell
            contents := fun hreach => by
              simpa using hfirst.contents_eq hw hchunk rfl (by simpa using hreach) }
      cases fault with
      | true => exact ⟨[chunk], chunks, rfl, hone, by subst hmid; simp⟩
      | false =>
        obtain ⟨passed, rest, hsplit, hrest, hdone⟩ := ih _ (hone.same.wellFormed hw)
          (fun c hc => hone.same.isChunk (hchunks c (mem_cons_of_mem _ hc)))
          (fun w hsame c hc => hstore w (hone.same.trans hsame) c (mem_cons_of_mem _ hc))
        exact ⟨chunk :: passed, rest, by rw [hsplit]; rfl, hone.trans hrest, hdone⟩

/-! ## The two loops -/

section

variable (h : w.WellFormed) (fault : Bool) (alloc : ℕ → ℕ → Bool)
  (hbase : w.memory.baseAddress ≤ address)
include h hbase

theorem writeBytes_spec (source : List UInt8) (mutations : MutationReport) :
    ∃ passed rest, w.memory.rangeChunks address source.length = passed ++ rest ∧
      Stored (w.begin mutations) (w.writeBytes fault alloc address source mutations) passed
        (fun a => source.getD (a - address) 0) (fun _ => True) ∧
      ((w.writeBytes fault alloc address source mutations).completed = true → rest = []) := by
  refine storeChunks_spec (w.begin mutations) _ h
    (fun chunk hmem => isChunk_of_mem h.tables.shared hmem) ?_
  intro w' hsame chunk hmem
  obtain ⟨hlo, -, hhi, -⟩ := mem_chunksOf (advances_chunkStep h.tables.shared) hmem
  refine chunkStored_writeChunk (hsame.wellFormed h) _
    (hsame.isChunk (isChunk_of_mem h.tables.shared hmem)) ?_ hlo hhi
  rw [hsame.baseAddress]
  exact le_trans hbase hlo

theorem fillBytes_spec (length : ℕ) (value : UInt8) (mutations : MutationReport) :
    ∃ passed rest, w.memory.rangeChunks address length = passed ++ rest ∧
      Stored (w.begin mutations) (w.fillBytes fault alloc address length value mutations) passed
        (fun _ => value) (w.FillReaches value) ∧
      ((w.fillBytes fault alloc address length value mutations).completed = true → rest = []) := by
  refine storeChunks_spec (w.begin mutations) _ h
    (fun chunk hmem => isChunk_of_mem h.tables.shared hmem) ?_
  intro w' hsame chunk hmem
  obtain ⟨hlo, -⟩ := mem_chunksOf (advances_chunkStep h.tables.shared) hmem
  have hreach : w.FillReaches value = w'.FillReaches value := by
    have hshare : w'.memory.sharing = w.memory.sharing := hsame.sharing
    unfold FillReaches
    rw [hshare]
  rw [hreach]
  refine chunkStored_fillChunk (hsame.wellFormed h) _ _
    (hsame.isChunk (isChunk_of_mem h.tables.shared hmem)) ?_
  rw [hsame.baseAddress]
  exact le_trans hbase hlo

end

/-- The addresses of an initial part of the chunks are an initial part of the
range. -/
theorem passed_addresses (h : w.WellFormed)
    (hsplit : w.memory.rangeChunks address length = passed ++ rest) :
    passed.flatMap chunkAddresses = List.range' address (passed.map Prod.snd).sum ∧
      (passed.map Prod.snd).sum ≤ length ∧ (rest = [] → (passed.map Prod.snd).sum = length) := by
  have hall := rangeChunks_addresses h.tables.shared address length
  rw [hsplit, flatMap_append] at hall
  have hsize : ∀ l : List (ℕ × ℕ), (l.flatMap chunkAddresses).length = (l.map Prod.snd).sum := by
    simp [chunkAddresses]
  have hlen : (passed.map Prod.snd).sum + (rest.map Prod.snd).sum = length := by
    have := congrArg List.length hall
    rwa [length_append, hsize, hsize, length_range'] at this
  refine ⟨?_, by omega, ?_⟩
  · rw [← hlen, ← range'_append_1] at hall
    exact append_inj_left hall (by rw [hsize, length_range'])
  · rintro rfl
    simpa using hlen

theorem inRange_of_passed (h : w.WellFormed)
    (hsplit : w.memory.rangeChunks address length = passed ++ rest) :
    ∀ a ∈ passed.flatMap chunkAddresses, InRange address length a := by
  intro a ha
  obtain ⟨haddrs, hle, -⟩ := passed_addresses h hsplit
  rw [haddrs, mem_range'_1] at ha
  exact ⟨ha.1, by omega⟩

/-! ## Every storing call -/

/-- What a storing call leaves behind: the chunks it stored are mapped and
recorded, and no other cell has changed. -/
structure CallStored (w : MemoryWorld) (result : StoreResult) : Prop where
  same : SameTables w result.world
  mapped : ∀ a ∈ result.stored.flatMap chunkAddresses, (w.memory.protections a).isSome = true
  mutations : result.mutations = recordAll w.memory {} result.stored
  frame : ∀ cell, (∀ a ∈ result.stored.flatMap chunkAddresses, cell ≠ w.memory.cellOf a) →
    result.world.contents cell = w.contents cell

theorem callStored_begin (w : MemoryWorld) : CallStored w (w.begin {}) :=
  ⟨SameTables.refl w, by simp [begin], rfl, fun _ _ => rfl⟩

/-- A further loop over mapped addresses keeps the account of a call. -/
theorem CallStored.append (h : CallStored w result)
    (hpiece : Stored (result.world.begin result.mutations) piece passed value reaches)
    (hmap : ∀ a ∈ passed.flatMap chunkAddresses, (w.memory.protections a).isSome = true) :
    CallStored w { piece with stored := result.stored ++ piece.stored } := by
  have hstore : piece.stored = passed := hpiece.stored
  refine ⟨h.same.trans hpiece.same, ?_, ?_, ?_⟩
  · intro a ha
    simp only [hstore, flatMap_append] at ha
    exact (mem_append.mp ha).elim (h.mapped a) (hmap a)
  · simp only [hpiece.mutations, hstore, begin]
    rw [h.mutations, recordAll_congr h.same.sharedMappings, recordAll, recordAll, recordAll,
      foldl_append]
  · intro cell hcell
    simp only [hstore, flatMap_append] at hcell
    rw [← h.frame cell fun a ha => hcell a (mem_append_left _ ha)]
    refine hpiece.frame cell fun a ha => ?_
    change cell ≠ result.world.memory.cellOf a
    rw [h.same.cellOf]
    exact hcell a (mem_append_right _ ha)

theorem CallStored.of_stored (hpiece : Stored (w.begin {}) piece passed value reaches)
    (hmap : ∀ a ∈ passed.flatMap chunkAddresses, (w.memory.protections a).isSome = true) :
    CallStored w piece :=
  (callStored_begin w).append hpiece hmap

/-- The stored part of a mapped range is mapped. -/
theorem mapped_of_passed (h : w.WellFormed)
    (hmap : ∀ a, InRange address length a → (w.memory.protections a).isSome = true)
    (hsplit : w.memory.rangeChunks address length = passed ++ rest) :
    ∀ a ∈ passed.flatMap chunkAddresses, (w.memory.protections a).isSome = true :=
  fun a ha => hmap a (inRange_of_passed h hsplit a ha)

theorem mapped_of_canAccessLocked (h : w.WellFormed) {required : GuestMemoryProtection}
    (hacc : w.memory.canAccessLocked address length required = true) :
    w.memory.baseAddress ≤ address ∧
      ∀ a, InRange address length a → (w.memory.protections a).isSome = true := by
  have hbytes := (canAccessLocked_iff h.tables).mp hacc
  refine ⟨?_, fun a ha => ?_⟩
  · obtain ⟨p, hp, -⟩ := hbytes _ ⟨le_rfl, by omega⟩
    exact (h.tables.inWindow _ p hp).1
  · obtain ⟨p, hp, -⟩ := hbytes a ⟨ha.1, lt_of_lt_of_le ha.2 (by omega)⟩
    rw [hp]
    rfl

theorem CallStored.completed (h : CallStored w result) (completed : Bool) :
    CallStored w { result with completed } :=
  ⟨h.same, h.mapped, h.mutations, h.frame⟩

/-- A call that is no copy is refused, or it runs one of the two loops over a mapped range. -/
theorem store_cases (h : w.WellFormed) (fault : Bool) (alloc : ℕ → ℕ → Bool) (call : StoreCall) :
    w.store fault alloc call = w.begin {} ∨
      (∃ destination source length, call = .copy destination source length) ∨
      (∃ address source, (call = .write address source ∨ call = .initializeBytes address source) ∧
        w.memory.isMappedLocked address source.length = true ∧
        w.store fault alloc call = w.writeBytes fault alloc address source {}) ∨
      ∃ address length value,
        (call = .fill address length value ∨ call = .initializeFill address length value) ∧
        w.memory.isMappedLocked address length = true ∧
        w.store fault alloc call = w.fillBytes fault alloc address length value {} := by
  have hrefuse {address length : ℕ} (required : GuestMemoryProtection) {result : StoreResult} :
      (if !w.memory.canAccessLocked address length required then w.begin {} else result) =
          w.begin {} ∨ w.memory.isMappedLocked address length = true ∧
        (if !w.memory.canAccessLocked address length required then w.begin {} else result) =
          result := by
    split_ifs with hacc
    · exact .inl rfl
    · rw [Bool.not_eq_true', Bool.not_eq_false, canAccessLocked_iff h.tables] at hacc
      refine .inr ⟨(canAccessLocked_iff h.tables).mpr fun a ha => ?_, rfl⟩
      obtain ⟨p, hp, -⟩ := hacc a ha
      exact ⟨p, hp, hasProtection_kNone p⟩
  cases call with
  | copy destination source length => exact .inr (.inl ⟨_, _, _, rfl⟩)
  | write address source => exact (hrefuse _).imp_right fun h => .inr (.inl ⟨_, _, .inl rfl, h⟩)
  | initializeBytes address source =>
    exact (hrefuse _).imp_right fun h => .inr (.inl ⟨_, _, .inr rfl, h⟩)
  | fill address length value =>
    exact (hrefuse _).imp_right fun h => .inr (.inr ⟨_, _, _, .inl rfl, h⟩)
  | initializeFill address length value =>
    exact (hrefuse _).imp_right fun h => .inr (.inr ⟨_, _, _, .inr rfl, h⟩)

end MemoryWorld

end KajPS5.Memory
