/-
# A submission in one pass

What a command buffer means, told without a cursor: its packets take effect one
after the other, and an indirect buffer is played in full where its packet stands.
`Plays` is this reading of a buffer. A play may be taken up anew in another world
between two packets or while a wait lasts, and it may break off, in front of a packet
or inside one.

A cursor holds a stack of such buffers, each partly played. `StackPlays` reads it as
the rest of a play, and the lemmas here put one packet in front of it.
-/

import KajPS5.Gpu.CommandProcessor

namespace KajPS5.Gpu

open GpuCommandFrame List

variable {σ : Type}

/-- The words of a buffer that are still to be played, and where they stand. -/
structure CommandText where
  address : ℕ
  words : List (BitVec 32)

/-- A text without its first words. -/
def CommandText.advance (text : CommandText) (dwords : ℕ) : CommandText :=
  ⟨text.address + dwords * 4, text.words.drop dwords⟩

/-- A packet at the head of a text, decoded, and the text after it. -/
structure PacketHead where
  site : PacketSite
  packet : Packet
  rest : CommandText

/-- The packet that a text starts with. -/
def CommandText.head (text : CommandText) : Option PacketHead :=
  match text.words with
  | [] => none
  | header :: words =>
    if 2 ^ 64 ≤ text.address then none
    else
      let address := BitVec.ofNat 64 text.address
      if pm4Type header = pm4Type2 then
        let site : PacketSite := ⟨address, 1, 0, 0⟩
        some ⟨site, .emit (site.makeAction .kNop []), ⟨text.address + 4, words⟩⟩
      else if pm4Type header = pm4Type3 then match splitPacket address header (header :: words) with
        | .error _ => none
        | .ok split => match decodePacket split.site split.words with
          | .error _ => none
          | .ok packet =>
            some ⟨split.site, packet,
              ⟨text.address + split.site.packetDwords.toNat * 4, split.rest⟩⟩
      else none

namespace CommandText

variable {text : CommandText} {header : BitVec 32} {words : List (BitVec 32)}

theorem head_filler (hwords : text.words = header :: words) (hbound : ¬2 ^ 64 ≤ text.address)
    (hfiller : pm4Type header = pm4Type2) :
    text.head = some ⟨⟨BitVec.ofNat 64 text.address, 1, 0, 0⟩,
      .emit (PacketSite.makeAction ⟨BitVec.ofNat 64 text.address, 1, 0, 0⟩ .kNop []),
      ⟨text.address + 4, words⟩⟩ := by
  simp only [head, hwords, if_neg hbound, if_pos hfiller]

theorem head_packet {split : PacketSplit} {packet : Packet} (hwords : text.words = header :: words)
    (hbound : ¬2 ^ 64 ≤ text.address) (hfiller : pm4Type header ≠ pm4Type2)
    (hpacket : pm4Type header = pm4Type3)
    (hsplit : splitPacket (.ofNat 64 text.address) header (header :: words) = .ok split)
    (hdecode : decodePacket split.site split.words = .ok packet) :
    text.head = some ⟨split.site, packet,
      ⟨text.address + split.site.packetDwords.toNat * 4, split.rest⟩⟩ := by
  simp only [head, hwords, if_neg hbound, if_neg hfiller, if_pos hpacket, hsplit, hdecode]

/-- The head of a text is some words of it, and the rest follows them. -/
theorem head_rest {head : PacketHead} (h : text.head = some head) :
    0 < head.site.packetDwords.toNat ∧ head.rest = text.advance head.site.packetDwords.toNat := by
  obtain ⟨address, words⟩ := text
  unfold CommandText.head at h
  dsimp only at h
  split at h
  · cases h
  split_ifs at h with hbound hfiller hpacket
  · cases h
    exact ⟨Nat.one_pos, rfl⟩
  split at h
  · cases h
  rename_i split hsplit
  unfold splitPacket at hsplit
  dsimp only at hsplit
  split_ifs at hsplit
  cases hsplit
  split at h
  · cases h
  · cases h
    refine ⟨?_, rfl⟩
    rw [toNat_packetSize]
    split_ifs <;> omega

end CommandText

/-- The sink accepts some actions in turn. -/
def playEmissions (host : CommandHost σ) :
    List Emission → CommandWorld σ → Option (CommandWorld σ × List GpuAction)
  | [], world => some (world, [])
  | emission :: emissions, world => match enrich host world emission.action with
    | .error _ => none
    | .ok action =>
      let reply := host.submit action world.state
      if reply.1 = .kComplete then
        (playEmissions host emissions
          ({ world with state := reply.2 }.apply emission.write)).map
          fun played => (played.1, action :: played.2)
      else none

/-- A wait's condition holds in a world. -/
def GpuCommandPendingWait.satisfied (host : CommandHost σ) (wait : GpuCommandPendingWait)
    (world : CommandWorld σ) : Bool :=
  match readGuestValue host world.state wait.address wait.is64Bit with
  | none => false
  | some value => compareWait value wait.reference wait.mask wait.function

/-- The packet at the head of a text takes effect: the sink accepts all its actions, and the
packet ends as `finish` says. -/
def Opens (host : CommandHost σ) (limits : GpuCommandLimits) (depth : ℕ)
    (world : CommandWorld σ) (text rest : CommandText) (finish : PacketEnd)
    (after : CommandWorld σ) (actions : List GpuAction) : Prop :=
  ∃ head plan, text.head = some head ∧ head.rest = rest ∧
    planPacket host limits depth world.state head.site head.packet = .ok plan ∧
    plan.finish = finish ∧
    playEmissions host plan.emissions (world.apply plan.before) = some (after, actions)

section Plays

variable (host : CommandHost σ) (limits : GpuCommandLimits)

/-- `Plays depth resumed world text outcome actions`: from `world`, taken up anew in the
worlds of `resumed`, `text` is played and the sink accepts `actions`. The outcome is the
world in which the text ends, or none if the play broke off. -/
inductive Plays : ℕ → List (CommandWorld σ) → CommandWorld σ → CommandText →
    Option (CommandWorld σ) → List GpuAction → Prop
  /-- Nothing is left. -/
  | done {depth world address} : Plays depth [] world ⟨address, []⟩ (some world) []
  /-- The play breaks off in front of a packet. -/
  | stop {depth world text} : Plays depth [] world text none []
  /-- The play breaks off inside a packet, some of whose actions were accepted. -/
  | cut {depth world text head plan emissions rest after actions} :
      CommandText.head text = some head →
      planPacket host limits depth world.state head.site head.packet = .ok plan →
      plan.emissions = emissions ++ rest →
      playEmissions host emissions (world.apply plan.before) = some (after, actions) →
      Plays depth [] world text none actions
  /-- The play goes on in another world. -/
  | resumed {depth world world' worlds text outcome actions} :
      Plays depth worlds world' text outcome actions →
      Plays depth (world' :: worlds) world text outcome actions
  | packet {depth worlds world text rest after outcome own actions} :
      Opens host limits depth world text rest .next after own →
      Plays depth worlds after rest outcome actions →
      Plays depth worlds world text outcome (own ++ actions)
  /-- A wait is satisfied in a later world. -/
  | waited {depth world text rest wait after own unsatisfied world' worlds outcome actions} :
      Opens host limits depth world text rest (.wait wait) after own →
      (∀ w ∈ unsatisfied, wait.satisfied host w = false) → wait.satisfied host world' = true →
      Plays depth worlds world' rest outcome actions →
      Plays depth (unsatisfied ++ world' :: worlds) world text outcome (own ++ actions)
  /-- A wait is not satisfied yet. -/
  | waiting {depth world text rest wait after own unsatisfied} :
      Opens host limits depth world text rest (.wait wait) after own →
      (∀ w ∈ unsatisfied, wait.satisfied host w = false) →
      Plays depth unsatisfied world text none own
  /-- An indirect buffer is played in place of its packet. -/
  | called {depth world text rest target dwords after own words worlds returned inner worlds'
        outcome actions} :
      Opens host limits depth world text rest (.call target dwords) after own →
      readDwords host limits after.state target dwords = .ok words →
      Plays (depth + 1) worlds after ⟨target.toNat, words⟩ (some returned) inner →
      Plays depth worlds' returned rest outcome actions →
      Plays depth (worlds ++ worlds') world text outcome (own ++ inner ++ actions)
  /-- The play breaks off inside an indirect buffer. -/
  | inside {depth world text rest target dwords after own words worlds inner} :
      Opens host limits depth world text rest (.call target dwords) after own →
      readDwords host limits after.state target dwords = .ok words →
      Plays (depth + 1) worlds after ⟨target.toNat, words⟩ none inner →
      Plays depth worlds world text none (own ++ inner)

/-- The texts of a stack are played one after the other, the innermost first. -/
inductive StackPlays : List (CommandWorld σ) → CommandWorld σ → List CommandText →
    Option (CommandWorld σ) → List GpuAction → Prop
  | nil {world} : StackPlays [] world [] (some world) []
  | cut {worlds world text stack actions} :
      Plays host limits stack.length worlds world text none actions →
      StackPlays worlds world (text :: stack) none actions
  | cons {worlds worlds' world text stack after outcome own actions} :
      Plays host limits stack.length worlds world text (some after) own →
      StackPlays worlds' after stack outcome actions →
      StackPlays (worlds ++ worlds') world (text :: stack) outcome (own ++ actions)

/-- The rest of a submission that is not running, with the wait that holds it up if there
is one: it is taken up in some worlds, or never. -/
inductive Resumes : Option GpuCommandPendingWait → List CommandText → List (CommandWorld σ) →
    Option (CommandWorld σ) → List GpuAction → Prop
  | never {pending stack} : Resumes pending stack [] none []
  | again {stack world worlds outcome actions} :
      StackPlays host limits worlds world stack outcome actions →
      Resumes none stack (world :: worlds) outcome actions
  | unsatisfied {wait stack world worlds outcome actions} :
      GpuCommandPendingWait.satisfied host wait world = false →
      Resumes (some wait) stack worlds outcome actions →
      Resumes (some wait) stack (world :: worlds) outcome actions
  | satisfied {wait text stack world worlds outcome actions} :
      GpuCommandPendingWait.satisfied host wait world = true →
      StackPlays host limits worlds world (CommandText.advance text wait.packetDwords :: stack)
        outcome actions →
      Resumes (some wait) (text :: stack) (world :: worlds) outcome actions

end Plays

namespace StackPlays

variable {host : CommandHost σ} {limits : GpuCommandLimits} {worlds : List (CommandWorld σ)}
  {world after : CommandWorld σ} {text rest : CommandText} {stack : List CommandText}
  {outcome : Option (CommandWorld σ)} {own actions : List GpuAction}

variable {world' : CommandWorld σ} {wait : GpuCommandPendingWait}

theorem resumed (h : StackPlays host limits worlds world' (text :: stack) outcome actions) :
    StackPlays host limits (world' :: worlds) world (text :: stack) outcome actions := by
  cases h with
  | cut h => exact .cut (.resumed h)
  | cons h hrest => exact .cons (.resumed h) hrest

theorem packet (hopens : Opens host limits stack.length world text rest .next after own)
    (h : StackPlays host limits worlds after (rest :: stack) outcome actions) :
    StackPlays host limits worlds world (text :: stack) outcome (own ++ actions) := by
  cases h with
  | cut h => exact .cut (.packet hopens h)
  | cons h hrest =>
    rw [← append_assoc]
    exact .cons (.packet hopens h) hrest

theorem waited {unsatisfied : List (CommandWorld σ)}
    (hopens : Opens host limits stack.length world text rest (.wait wait) after own)
    (hwait : ∀ w ∈ unsatisfied, wait.satisfied host w = false)
    (hsat : wait.satisfied host world' = true)
    (h : StackPlays host limits worlds world' (rest :: stack) outcome actions) :
    StackPlays host limits (unsatisfied ++ world' :: worlds) world (text :: stack) outcome
      (own ++ actions) := by
  cases h with
  | cut h => exact .cut (.waited hopens hwait hsat h)
  | @cons worlds worlds' _ _ _ _ _ _ _ h hrest =>
    rw [← append_assoc, ← cons_append, ← append_assoc]
    exact .cons (.waited hopens hwait hsat h) hrest

/-- An indirect buffer goes on top of the stack. -/
theorem called {target : BitVec 64} {dwords : ℕ} {words : List (BitVec 32)}
    (hopens : Opens host limits stack.length world text rest (.call target dwords) after own)
    (hread : readDwords host limits after.state target dwords = .ok words)
    (h : StackPlays host limits worlds after (⟨target.toNat, words⟩ :: rest :: stack) outcome
      actions) :
    StackPlays host limits worlds world (text :: stack) outcome (own ++ actions) := by
  cases h with
  | cut h => exact .cut (.inside hopens hread h)
  | cons h hrest =>
    rw [← append_assoc]
    cases hrest with
    | cut hrest => exact .cut (.called hopens hread h hrest)
    | cons hrest hstack =>
      rw [← append_assoc, ← append_assoc]
      exact .cons (.called hopens hread h hrest) hstack

end StackPlays

/-! ## Frames as texts -/

variable (frame : GpuCommandFrame)

/-- The part of a frame that is still to be played. -/
def GpuCommandFrame.text : CommandText := ⟨frame.address.toNat + frame.offset * 4, frame.remaining⟩

/-- The stack of a submission as texts. -/
def CommandDecoder.texts (d : CommandDecoder σ) : List CommandText := d.cursor.frames.map text

theorem packetAddress_eq : frame.address + BitVec.ofNat 64 (frame.offset * 4) = BitVec.ofNat 64
    frame.text.address := by
  simp [text, BitVec.ofNat_add]

end KajPS5.Gpu
