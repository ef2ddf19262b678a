/-
# Reading strings from guest memory

`ReadNullTerminatedString` reads chunk by chunk and falls back to single bytes where a
chunk cannot be read as a whole. Both ways through a chunk are the same walk over its
addresses, so the call is one walk over the addresses of the limit: it ends at the
first zero byte, fails at the first byte that cannot be read, and is through when
there is neither.
-/

import KajPS5.Memory.Reachable

namespace KajPS5.Hle

open Math Memory GuestMemoryProtection List

inductive HleContextStatus
  | kOk | kInvalidArgument | kMemoryFault | kUnterminatedString | kBlocked | kFatalGuestError
  | kResourceLimit | kGuestExit
  deriving DecidableEq

structure HleStringResult where
  status : HleContextStatus
  value : List UInt8
  deriving DecidableEq

def kMaximumHleStringBytes : ℕ := 1024 * 1024

def kStringReadChunkBytes : ℕ := 128

def addAddressOffset (address offset : ℕ) : Option ℕ :=
  if uint64Max - address < offset then none else some (address + offset)

/-- The answer of a call that cannot read a byte. -/
def memoryFault : HleStringResult := ⟨.kMemoryFault, []⟩

/-- The answer of the call when its loop is through or was left. -/
def stringResult : Except HleStringResult (List UInt8) → HleStringResult
  | .ok value => ⟨.kUnterminatedString, value⟩
  | .error result => result

section

variable (w : MemoryWorld) (address : ℕ)

/-- The loop over the single bytes of a chunk. It goes on with the string so far or
leaves the call with an answer. -/
def readSingly : List ℕ → List UInt8 → Except HleStringResult (List UInt8)
  | [], value => .ok value
  | index :: rest, value => match (addAddressOffset address index).bind (w.read · 1) with
    | none => .error memoryFault
    | some byte =>
      if byte.headD 0 = 0 then .error ⟨.kOk, value⟩
      else readSingly rest (value ++ [byte.headD 0])

/-- The body of the loop over the chunks. -/
def readChunk (value : List UInt8) (chunk : ℕ × ℕ) : Except HleStringResult (List UInt8) :=
  match addAddressOffset address chunk.1 with
  | none => .error memoryFault
  | some chunkAddress => match w.read chunkAddress chunk.2 with
    | some bytes =>
      let actual := bytes.takeWhile (· ≠ 0)
      if actual.length < bytes.length then .error ⟨.kOk, value ++ actual⟩ else .ok (value ++ actual)
    | none => readSingly w chunkAddress (List.range chunk.2) value

def readNullTerminatedString (maximumBytes : ℕ) : HleStringResult :=
  if address = 0 ∨ maximumBytes = 0 ∨ kMaximumHleStringBytes < maximumBytes then
    ⟨.kInvalidArgument, []⟩
  else
    stringResult ((chunksOf (fun _ remaining => min kStringReadChunkBytes remaining) 0
      maximumBytes).foldlM (readChunk w address) [])

/-! ## The walk over the addresses -/

/-- The byte can be read. -/
def Readable : Prop := w.memory.canAccessLocked address 1 kRead = true

instance : Decidable (Readable w address) := inferInstanceAs (Decidable (_ = true))

def walk : List ℕ → List UInt8 → Except HleStringResult (List UInt8)
  | [], value => .ok value
  | a :: rest, value =>
    if Readable w a then
      if w.byteAt a = 0 then .error ⟨.kOk, value⟩ else walk rest (value ++ [w.byteAt a])
    else .error memoryFault

/-- The string goes on after this byte. -/
def GoesOn : Prop := Readable w address ∧ w.byteAt address ≠ 0

/-- So many bytes from the address on can be read and are not zero. -/
def Runs (k : ℕ) : Prop := ∀ i < k, GoesOn w (address + i)

/-- The first zero byte is that far behind the address, and the bytes up to it can be read. -/
def Ends (k : ℕ) : Prop := Runs w address k ∧ Readable w (address + k) ∧ w.byteAt (address + k) = 0

/-- The bytes from the address on. -/
def bytesFrom (k : ℕ) : List UInt8 := (List.range' address k).map w.byteAt

end

variable {w : MemoryWorld} {address k : ℕ}

theorem walk_append (first second : List ℕ) (value : List UInt8) :
    walk w (first ++ second) value = walk w first value >>= walk w second := by
  induction first generalizing value with
  | nil => rfl
  | cons a rest ih =>
    simp only [cons_append, walk]
    split
    · split
      · rfl
      · exact ih _
    · rfl

/-- A walk over bytes that can be read looks for the zero byte among them. -/
theorem walk_of_readable {addresses : List ℕ} (h : ∀ a ∈ addresses, Readable w a)
    (value : List UInt8) :
    let actual := (addresses.map w.byteAt).takeWhile (· ≠ 0)
    walk w addresses value = if actual.length < addresses.length then
      .error ⟨.kOk, value ++ actual⟩ else .ok (value ++ actual) := by
  induction addresses generalizing value with
  | nil => simp [walk]
  | cons a rest ih =>
    obtain ⟨ha, hrest⟩ := forall_mem_cons.mp h
    rw [walk, if_pos ha]
    by_cases hzero : w.byteAt a = 0
    · simp [hzero]
    · simp [hzero, ih hrest]

theorem Runs.zero : Runs w address 0 := fun _ hi => absurd hi (Nat.not_lt_zero _)

theorem Runs.succ (h : Runs w (address + 1) k) (ha : GoesOn w address) :
    Runs w address (k + 1) := by
  rintro (_ | i) hi
  · exact ha
  · rw [← Nat.add_assoc, Nat.add_right_comm]
    exact h i (Nat.lt_of_succ_lt_succ hi)

theorem Ends.not_goesOn (h : Ends w address k) : ¬ GoesOn w (address + k) := fun hon => hon.2 h.2.2

/-- The bytes go on up to one place only. -/
theorem Runs.unique {k' : ℕ} (h : Runs w address k) (hstop : ¬ GoesOn w (address + k))
    (h' : Runs w address k') (hstop' : ¬ GoesOn w (address + k')) : k = k' :=
  le_antisymm (not_lt.mp fun hlt => hstop' (h k' hlt)) (not_lt.mp fun hlt => hstop (h' k hlt))

/-- How a walk ends. -/
theorem walk_cases (n : ℕ) (value : List UInt8) :
    (∃ k < n, Ends w address k ∧ walk w (List.range' address n) value =
      .error ⟨.kOk, value ++ bytesFrom w address k⟩) ∨
    (Runs w address n ∧ walk w (List.range' address n) value =
      .ok (value ++ bytesFrom w address n)) ∨
    (∃ k < n, Runs w address k ∧ ¬ Readable w (address + k) ∧
      walk w (List.range' address n) value = .error memoryFault) := by
  induction n generalizing address value with
  | zero => exact .inr (.inl ⟨.zero, by simp [walk, bytesFrom]⟩)
  | succ n ih =>
    rw [range'_succ, walk]
    split_ifs with ha hzero
    · exact .inl ⟨0, n.succ_pos, ⟨.zero, ha, hzero⟩, by simp [bytesFrom]⟩
    · have hbytes : ∀ k, value ++ [w.byteAt address] ++ bytesFrom w (address + 1) k =
          value ++ bytesFrom w address (k + 1) := by
        simp [bytesFrom, range'_succ]
      have hshift : ∀ k, address + 1 + k = address + (k + 1) := by omega
      rcases ih (value ++ [w.byteAt address]) with
        ⟨k, hk, ⟨hruns, hends⟩, heq⟩ | ⟨hruns, heq⟩ | ⟨k, hk, hruns, hends, heq⟩
      · rw [hshift] at hends
        exact .inl ⟨k + 1, Nat.succ_lt_succ hk, ⟨hruns.succ ⟨ha, hzero⟩, hends⟩, hbytes k ▸ heq⟩
      · exact .inr (.inl ⟨hruns.succ ⟨ha, hzero⟩, hbytes n ▸ heq⟩)
      · rw [hshift] at hends
        exact .inr (.inr ⟨k + 1, Nat.succ_lt_succ hk, hruns.succ ⟨ha, hzero⟩, hends, heq⟩)
    · exact .inr (.inr ⟨0, n.succ_pos, .zero, ha, rfl⟩)

/-! ## The code walks -/

section

variable (hw : w.WellFormed)
include hw

theorem read_one (a : ℕ) : w.read a 1 = if Readable w a then some [w.byteAt a] else none := by
  rw [MemoryWorld.read_eq hw]
  rfl

/-- A range can be read if each of its bytes can. -/
theorem canAccessLocked_iff_readable {length : ℕ} (hlen : 0 < length) :
    w.memory.canAccessLocked address length kRead = true ↔
      ∀ a ∈ List.range' address length, Readable w a := by
  simp only [Readable, GuestMemory.canAccessLocked_iff hw.tables, GuestMemory.Accessible,
    mem_range'_1, InRange]
  constructor
  · intro h a ha b hb
    exact h b (by omega)
  · intro h a ha
    exact h a (by omega) a (by omega)

theorem not_readable (h : uint64Max < address) : ¬ Readable w address := by
  intro hread
  rw [Readable, GuestMemory.canAccessLocked_iff hw.tables] at hread
  obtain ⟨p, hp, -⟩ := hread address ⟨le_rfl, by omega⟩
  have hin : _ ∧ _ := hw.tables.inWindow address p hp
  have hwin := hw.tables.window
  omega

theorem readSingly_eq (index n : ℕ) (value : List UInt8) :
    readSingly w address (List.range' index n) value =
      walk w (List.range' (address + index) n) value := by
  induction n generalizing index value with
  | zero => rfl
  | succ n ih =>
    rw [range'_succ, range'_succ, readSingly, walk, addAddressOffset]
    by_cases hover : uint64Max - address < index
    · rw [if_pos hover, if_neg (not_readable hw (by omega))]
      rfl
    · rw [if_neg hover, Option.bind_some, read_one hw]
      by_cases hread : Readable w (address + index)
      · simp only [if_pos hread, headD_cons, ih, Nat.add_assoc]
      · simp only [if_neg hread]

theorem readChunk_eq (value : List UInt8) {chunk : ℕ × ℕ} (hchunk : 0 < chunk.2) :
    readChunk w address value chunk = walk w ((chunkAddresses chunk).map (address + ·)) value := by
  rw [chunkAddresses, map_add_range', readChunk, addAddressOffset]
  by_cases hover : uint64Max - address < chunk.1
  · obtain ⟨n, hn⟩ := Nat.exists_eq_succ_of_ne_zero hchunk.ne'
    rw [if_pos hover, hn, range'_succ, walk, if_neg (not_readable hw (by omega))]
  simp only [if_neg hover, MemoryWorld.read_eq hw]
  by_cases haccess : w.memory.canAccessLocked (address + chunk.1) chunk.2 kRead = true
  · rw [walk_of_readable ((canAccessLocked_iff_readable hw hchunk).mp haccess)]
    simp only [if_pos haccess, length_map]
  · simp only [if_neg haccess]
    rw [range_eq_range', readSingly_eq hw]
    rfl

theorem foldlM_readChunk {chunks : List (ℕ × ℕ)} (hchunks : ∀ chunk ∈ chunks, 0 < chunk.2)
    (value : List UInt8) :
    chunks.foldlM (readChunk w address) value =
      walk w (chunks.flatMap fun chunk => (chunkAddresses chunk).map (address + ·)) value := by
  induction chunks generalizing value with
  | nil => rfl
  | cons chunk rest ih =>
    obtain ⟨hchunk, hrest⟩ := forall_mem_cons.mp hchunks
    rw [foldlM_cons, flatMap_cons, walk_append, readChunk_eq hw value hchunk]
    simp only [ih hrest]

/-- The call is one walk over the addresses of the limit. -/
theorem readNullTerminatedString_eq {maximumBytes : ℕ}
    (hvalid : ¬ (address = 0 ∨ maximumBytes = 0 ∨ kMaximumHleStringBytes < maximumBytes)) :
    readNullTerminatedString w address maximumBytes =
      stringResult (walk w (List.range' address maximumBytes) []) := by
  have hadvances : Advances fun _ remaining => min kStringReadChunkBytes remaining := by
    intro _ remaining hpos
    exact ⟨lt_min (by decide) hpos, min_le_right _ _⟩
  rw [readNullTerminatedString, if_neg hvalid,
    foldlM_readChunk hw fun _ hchunk => (mem_chunksOf hadvances hchunk).2.1,
    flatMap_chunksOf_map hadvances fun _ _ => rfl, map_add_range', Nat.add_zero]

end

/-- Apart from arguments that are refused, the call answers as a search for the first zero
byte does. -/
theorem readNullTerminatedString_exact (w : MemoryWorld) (hw : w.WellFormed)
    (address maximumBytes : ℕ) :
    if address = 0 ∨ maximumBytes = 0 ∨ kMaximumHleStringBytes < maximumBytes then
      readNullTerminatedString w address maximumBytes = ⟨.kInvalidArgument, []⟩
    else
      (∀ value, readNullTerminatedString w address maximumBytes = ⟨.kOk, value⟩ ↔
        ∃ k < maximumBytes, Ends w address k ∧ value = bytesFrom w address k) ∧
      (∀ value, readNullTerminatedString w address maximumBytes = ⟨.kUnterminatedString, value⟩ ↔
        Runs w address maximumBytes ∧ value = bytesFrom w address maximumBytes) ∧
      (readNullTerminatedString w address maximumBytes = memoryFault ↔
        ¬ Runs w address maximumBytes ∧ ∀ k < maximumBytes, ¬ Ends w address k) := by
  split_ifs with hbad
  · rw [readNullTerminatedString, if_pos hbad]
  rw [readNullTerminatedString_eq hw hbad]
  rcases @walk_cases w address maximumBytes [] with
    ⟨k, hk, hends, heq⟩ | ⟨hruns, heq⟩ | ⟨k, hk, hruns, hunread, heq⟩
  · have hnot : ¬ Runs w address maximumBytes := fun h => hends.not_goesOn (h k hk)
    refine ⟨fun value => ?_, by simp [heq, stringResult, hnot], ?_⟩
    · simp only [heq, stringResult, nil_append, HleStringResult.mk.injEq, true_and]
      constructor
      · rintro rfl
        exact ⟨k, hk, hends, rfl⟩
      · rintro ⟨k', -, hends', rfl⟩
        rw [hends.1.unique hends.not_goesOn hends'.1 hends'.not_goesOn]
    · simpa [heq, stringResult, memoryFault] using fun _ => ⟨k, hk, hends⟩
  · have hnone : ∀ k < maximumBytes, ¬ Ends w address k := fun k hk h => h.not_goesOn (hruns k hk)
    refine ⟨fun value => ?_, ?_, by simp [heq, stringResult, memoryFault, hruns]⟩
    · simpa [heq, stringResult] using fun k hk h => absurd h (hnone k hk)
    · simp [heq, stringResult, hruns, eq_comm]
  · have hnot : ¬ Runs w address maximumBytes := fun h => hunread (h k hk).1
    have hnone : ∀ k' < maximumBytes, ¬ Ends w address k' := by
      intro k' _ h
      obtain rfl := hruns.unique (fun hon => hunread hon.1) h.1 h.not_goesOn
      exact hunread h.2.1
    refine ⟨fun value => ?_, by simp [heq, stringResult, memoryFault, hnot], ?_⟩
    · simpa [heq, stringResult, memoryFault] using fun k hk h => absurd h (hnone k hk)
    · simpa [heq, stringResult, hnot] using hnone

/-- A string over the boundary of two regions of different protections. Its chunk does not end
in mapped memory, so that the bytes are read one by one. -/
theorem string_read_over_boundary : ∃ m, GuestMemory.create 20 64 0 = some m ∧
    let w := (((⟨m, fun _ => .create 0⟩ : MemoryWorld).step
      (.mapping (.map {} 24 8 (kRead ||| kWrite)))).step (.mapping (.map {} 32 4 kRead))).step
        (.store false (fun _ _ => true) (.initializeBytes 30 [97, 98, 99]))
    w.read 30 16 = none ∧ ∃ k < 16, Ends w 30 k ∧ [97, 98, 99] = bytesFrom w 30 k := by
  have hw := (((@MemoryWorld.Reachable.create 20 64 0 _ rfl fun _ => .create 0).step
    (.mapping (.map {} 24 8 (kRead ||| kWrite)))).step (.mapping (.map {} 32 4 kRead))).step
      (.store false (fun _ _ => true) (.initializeBytes 30 [97, 98, 99]))
  exact ⟨_, rfl, rfl,
    ((readNullTerminatedString_exact _ hw.wellFormed 30 16).1 [97, 98, 99]).mp rfl⟩

/-- All bytes within a limit of zero can be read, yet the call does not answer that the string
is unterminated. -/
theorem string_limit_refused : ∃ m, GuestMemory.create 20 64 kRead = some m ∧
    Runs ⟨m, fun _ => .create 0⟩ 22 0 ∧
      readNullTerminatedString ⟨m, fun _ => .create 0⟩ 22 0 = ⟨.kInvalidArgument, []⟩ :=
  ⟨_, rfl, .zero, rfl⟩

end KajPS5.Hle
