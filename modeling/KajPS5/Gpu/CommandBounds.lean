/-
# The limits of a submission

What the guest puts in its command buffers decides where the processor goes: a buffer
may call itself, and two may call each other. The limits of a cursor hold it back
anyway. `Bounded` says what they come to in every decoder that is met: the counters are
below their limits, the stack is one frame deeper than the limit on calls at most, and
every frame has the words that it says it has, so that no subtraction of the source goes
below zero.

`loop` counts its rounds down from `rounds`, and the source's loop does not. `Loops` is
that loop without a count: it lists the decoders of the rounds and exists only if they
come to an end. A round that does not stop costs a word of the budget or takes a frame
off the stack, and the list is never longer than `rounds`.
-/

import KajPS5.Gpu.Submission

namespace KajPS5.Gpu

open List CommandDecoder Nat

variable {σ : Type}

/-! ## Packets stay inside their buffer -/

/-- The packet at the head of a text ends inside the text. -/
theorem CommandText.head_length {text : CommandText} {head : PacketHead}
    (h : text.head = some head) : head.site.packetDwords.toNat ≤ text.words.length := by
  unfold CommandText.head at h
  split at h
  · cases h
  rename_i header words hwords
  dsimp only at h
  split_ifs at h with hbound hfiller hpacket
  · cases h
    exact hwords ▸ succ_le_succ (zero_le _)
  split at h
  · cases h
  rename_i split hsplit
  unfold splitPacket at hsplit
  dsimp only at hsplit
  split_ifs at hsplit with hshort
  cases hsplit
  split at h
  · cases h
  · cases h
    rw [hwords]
    exact Nat.le_of_not_lt hshort

theorem length_readDwords {host : CommandHost σ} {limits : GpuCommandLimits} {state : σ}
    {address : BitVec 64} {dwordCount : ℕ} {words : List (BitVec 32)}
    (h : readDwords host limits state address dwordCount = .ok words) :
    words.length = dwordCount := by
  unfold readDwords at h
  split_ifs at h
  split at h
  · cases h
  · cases h
    simp

/-- A frame has the words that it says it has, and its next packet starts among them. -/
structure GpuCommandFrame.Fits (frame : GpuCommandFrame) : Prop where
  words : frame.words.length = frame.dwordCount
  offset : frame.offset ≤ frame.dwordCount

namespace GpuCommandFrame.Fits

variable {frame : GpuCommandFrame}

theorem head_le (hframe : frame.Fits) {head : PacketHead} (h : frame.text.head = some head) :
    frame.offset + head.site.packetDwords.toNat ≤ frame.dwordCount := by
  have hlen : head.site.packetDwords.toNat ≤ (frame.words.drop frame.offset).length :=
    CommandText.head_length h
  rw [length_drop, hframe.words] at hlen
  have hoff := hframe.offset
  omega

theorem advance (hframe : frame.Fits) {dwords : ℕ} (h : frame.offset + dwords ≤ frame.dwordCount) :
    GpuCommandFrame.Fits { frame with offset := frame.offset + dwords } := ⟨hframe.words, h⟩

end GpuCommandFrame.Fits

namespace CommandDecoder

/-- What the limits come to. -/
structure Bounded (limits : GpuCommandLimits) (d : CommandDecoder σ) : Prop where
  own : d.cursor.limits = limits
  dwords : d.cursor.result.processedDwords ≤ limits.maxProcessedDwords
  accepted : d.accepted.length = d.cursor.result.submittedActions
  actions : d.cursor.result.submittedActions ≤ limits.maxActions
  depth : d.cursor.frames.length ≤ limits.maxIndirectDepth + 1
  fits : ∀ frame ∈ d.cursor.frames, frame.Fits
  waits : ∀ wait, d.cursor.pendingWait = some wait → ∃ frame frames,
    d.cursor.frames = frame :: frames ∧ frame.offset + wait.packetDwords ≤ frame.dwordCount

variable {host : CommandHost σ} {limits : GpuCommandLimits} {d d' : CommandDecoder σ}
  {r : Option CommandStop}

namespace Bounded

section

variable (hd : d.Bounded limits)
include hd

theorem of_world (world : CommandWorld σ) : Bounded limits { d with world } :=
  { hd with }

theorem keepStop (stop : CommandStop) : (d.keepStop stop).Bounded limits :=
  { hd with }

theorem charge {dwords : ℕ}
    (h : dwords ≤ d.cursor.limits.maxProcessedDwords - d.cursor.result.processedDwords) :
    (d.charge dwords).Bounded limits where
  __ := hd
  dwords := by
    rw [hd.own] at h
    exact (Nat.add_le_add_left h _).trans_eq (Nat.add_sub_cancel' hd.dwords)

/-- The count of actions is compared before an action goes to the sink. -/
theorem emit {emission : Emission} (h : d.emit host emission = (r, d')) : d'.Bounded limits := by
  rcases emit_cases h with ⟨-, hroom, action, -, -, rfl⟩ | ⟨stop, -, hcursor, haccepted, -⟩
  · rw [hd.own] at hroom
    exact { hd with accepted := by simp [hd.accepted, GpuCommandCursor.counted], actions := hroom }
  · cases d'
    subst hcursor haccepted
    exact { hd with }

theorem emitAll {emissions : List Emission}
    (h : d.emitAll host emissions = (r, d')) : d'.Bounded limits := by
  induction emissions generalizing d with
  | nil =>
    cases h
    exact hd
  | cons emission emissions ih =>
    unfold emitAll at h
    split at h
    · rename_i d₁ hemit
      exact ih (hd.emit hemit) h
    · exact hd.emit h

section

variable (hpend : d.cursor.pendingWait = none)
include hpend

/-- A frame is pushed only onto a stack that is no deeper than the limit. -/
theorem snapshotFrame {address : BitVec 64} {dwordCount : ℕ}
    (h : d.snapshotFrame host address dwordCount = (r, d')) : d'.Bounded limits := by
  rcases snapshotFrame_cases h with ⟨words, -, hdepth, hread, rfl⟩ | ⟨stop, -, -, rfl⟩
  case inr => exact hd
  rw [hd.own] at hdepth
  refine { hd with depth := ?_, fits := ?_, waits := ?_ }
  · exact Nat.succ_le_succ hdepth
  · exact forall_mem_cons.mpr ⟨⟨length_readDwords hread, zero_le _⟩, hd.fits⟩
  · intro wait hwait
    cases hpend.symm.trans hwait

variable {dwords : ℕ} {frames : List GpuCommandFrame}

variable {frame : GpuCommandFrame}

/-- The frame of a packet moves past it. -/
theorem advance {index : ℕ} (hframe : d.cursor.frames[index]? = some frame)
    (hfit : frame.offset + dwords ≤ frame.dwordCount) :
    (d.advance index dwords).Bounded limits where
  __ := hd
  depth := by
    unfold CommandDecoder.advance
    rw [length_modify]
    exact hd.depth
  fits := by
    intro other hother
    obtain ⟨at', hat⟩ := mem_iff_getElem?.mp hother
    unfold CommandDecoder.advance at hat
    rw [getElem?_modify] at hat
    split at hat
    · rename_i hindex
      rw [← hindex, hframe] at hat
      cases hat
      exact (hd.fits _ (mem_of_getElem? hframe)).advance hfit
    · rw [id_map'] at hat
      exact hd.fits _ (mem_of_getElem? hat)
  waits := by
    intro wait hwait
    rw [CommandDecoder.advance, hpend] at hwait
    cases hwait

/-- The end of a packet: `frame` is its own, and `dwords` its length. -/
theorem finishPacket {finish : PacketEnd}
    (hframes : d.cursor.frames = frame :: frames) (hfit : frame.offset + dwords ≤ frame.dwordCount)
    (hwaits : ∀ wait, finish = .wait wait → wait.packetDwords = dwords)
    (h : d.finishPacket host dwords finish = (r, d')) :
    d'.Bounded limits ∧ (r = none → d'.cursor.pendingWait = none) := by
  cases finish with
  | next =>
    cases h
    exact ⟨hd.advance hpend (by rw [hframes]; rfl) hfit, fun _ => hpend⟩
  | wait wait =>
    cases h
    refine ⟨{ hd with waits := ?_ }, fun hnone => absurd hnone (Option.some_ne_none _)⟩
    rintro _ ⟨⟩
    exact ⟨frame, frames, hframes, hwaits _ rfl ▸ hfit⟩
  | call target targetDwords =>
    unfold CommandDecoder.finishPacket at h
    dsimp only at h
    split at h
    · rename_i d₁ hsnap
      cases h
      have hpushed := hd.snapshotFrame hpend hsnap
      rcases snapshotFrame_cases hsnap with ⟨words, -, -, -, rfl⟩ | ⟨stop, hstop, -⟩
      · refine ⟨hpushed.advance hpend ?_ hfit, fun _ => hpend⟩
        rw [hframes]
        rfl
      · cases hstop
    · rename_i hnot
      refine ⟨hd.snapshotFrame hpend h, fun hnone => absurd h ?_⟩
      rw [hnone]
      exact hnot _

theorem runPlan {site : PacketSite} {plan : PacketPlan}
    (hplan : plan.WellFormed site) (hframes : d.cursor.frames = frame :: frames)
    (hfit : frame.offset + site.packetDwords.toNat ≤ frame.dwordCount)
    (h : d.runPlan host site.packetDwords.toNat plan = (r, d')) :
    d'.Bounded limits ∧ (r = none → d'.cursor.pendingWait = none) := by
  unfold CommandDecoder.runPlan at h
  have hpre := hd.of_world (d.world.apply plan.before)
  split at h
  · rename_i d₁ hemit
    obtain ⟨-, -, -, -, count, -, -, hcursor, -⟩ := emitAll_cases hemit
    have hpend' : d₁.cursor.pendingWait = none := by rw [hcursor]; exact hpend
    have hframes' : d₁.cursor.frames = frame :: frames := by rw [hcursor]; exact hframes
    exact (hpre.emitAll hemit).finishPacket hpend' hframes' hfit hplan.waits h
  · rename_i hnot
    refine ⟨hpre.emitAll h, fun hnone => absurd h ?_⟩
    rw [hnone]
    exact hnot _

/-- One round. -/
theorem step (h : d.step host = (r, d')) :
    d'.Bounded limits ∧ (r = none → d'.cursor.pendingWait = none) := by
  rcases step_cases h with ⟨-, -, rfl⟩ | ⟨frame, frames, hframes, -, -, rfl⟩ |
    ⟨frame, frames, hframes, ⟨stop, dwords, -, -, hdwords, rfl⟩ |
      ⟨head, plan, hhead, hdwords, hplan, hrun⟩⟩
  · exact ⟨hd, fun _ => hpend⟩
  · have hdepth := hd.depth
    have hfits := hd.fits
    rw [hframes] at hdepth hfits
    refine ⟨{ hd with depth := ?_, fits := ?_, waits := ?_ }, fun _ => hpend⟩
    · exact (le_succ _).trans hdepth
    · exact (forall_mem_cons.mp hfits).2
    · intro wait hwait
      cases hpend.symm.trans hwait
  · exact ⟨hd.charge hdwords, fun _ => hpend⟩
  · have hframe : frame.Fits := hd.fits _ (by simp [hframes])
    have hformed := (plansWell_planPacket _ _ _ _ _ _).of_ok hplan
    exact (hd.charge hdwords).runPlan hpend hformed hframes (hframe.head_le hhead) hrun

end

/-- A wait that is over lets its packet's frame move on. -/
theorem resumePendingWait (h : d.resumePendingWait host = (r, d')) :
    d'.Bounded limits ∧ (r = none → d'.cursor.pendingWait = none) := by
  rcases resumePendingWait_cases h with ⟨hpend, -, rfl⟩ |
    ⟨wait, hpend, ⟨stop, rfl, -, -, rfl⟩ | ⟨stop, rfl, -, -, rfl⟩ |
      ⟨frame, frames, -, -, hframes, rfl⟩⟩
  · exact ⟨hd, fun _ => hpend⟩
  · exact ⟨hd, fun hnone => absurd hnone (Option.some_ne_none _)⟩
  · exact ⟨hd, fun hnone => absurd hnone (Option.some_ne_none _)⟩
  obtain ⟨own, rest, hown, hfit⟩ := hd.waits _ hpend
  have hcleared : Bounded limits { d with cursor := { d.cursor with pendingWait := none } } :=
    { hd with waits := fun _ hwait => absurd hwait.symm (Option.some_ne_none _) }
  refine ⟨hcleared.advance rfl ?_ hfit, fun _ => rfl⟩
  rw [hown]
  rfl

end

theorem beginCommandBuffer (host : CommandHost σ) (limits : GpuCommandLimits)
    (address : BitVec 64) (dwordCount : ℕ) (world : CommandWorld σ) :
    (CommandDecoder.beginCommandBuffer host limits address dwordCount world).Bounded limits := by
  have hempty : Bounded limits (⟨world, { limits }, []⟩ : CommandDecoder σ) :=
    ⟨rfl, zero_le _, rfl, zero_le _, zero_le _, forall_mem_nil _,
      fun _ hwait => absurd hwait.symm (Option.some_ne_none _)⟩
  unfold CommandDecoder.beginCommandBuffer
  dsimp only
  split_ifs
  · exact { hempty with }
  split
  · rename_i d hsnap
    exact hempty.snapshotFrame rfl hsnap
  · rename_i stop d hsnap
    have hd := hempty.snapshotFrame rfl hsnap
    exact { hd with }

end Bounded

/-! ## The loop without a count -/

/-- The loop of `ProcessFrames` goes from a decoder through the listed ones, one a round, and
the last round stops. -/
inductive Loops (host : CommandHost σ) (stop : CommandStop) :
    CommandDecoder σ → List (CommandDecoder σ) → Prop
  | stop {d last} : d.step host = (some stop, last) → Loops host stop d [last]
  | round {d next met} : d.step host = (none, next) → Loops host stop next met →
      Loops host stop d (next :: met)

/-- `ProcessFrames` goes from a decoder through the listed ones: the pending wait comes first,
then the loop. -/
inductive Processes (host : CommandHost σ) (stop : CommandStop) :
    CommandDecoder σ → List (CommandDecoder σ) → Prop
  | waiting {d last} : d.resumePendingWait host = (some stop, last) → Processes host stop d [last]
  | loops {d next met} : d.resumePendingWait host = (none, next) → Loops host stop next met →
      Processes host stop d (next :: met)

/-- The loop comes to an end by itself, where `loop` does, and within `rounds`. -/
theorem loops_loop {fuel : ℕ} (hfuel : d.rounds ≤ fuel) :
    ∃ met, Loops host (d.loop host fuel).1 d met ∧ met.getLast? = some (d.loop host fuel).2 ∧
      met.length ≤ fuel := by
  induction fuel generalizing d with
  | zero => cases hfuel
  | succ fuel ih =>
    unfold loop
    split
    · rename_i stop last hstep
      exact ⟨[last], .stop hstep, rfl, succ_le_succ (zero_le _)⟩
    rename_i next hstep
    have hrounds := step_rounds hstep
    obtain ⟨met, hmet, hlast, hlen⟩ := ih (d := next) (by omega)
    exact ⟨next :: met, .round hstep hmet, by simp [getLast?_cons, hlast],
      succ_le_succ hlen⟩

variable {stop : CommandStop} {met : List (CommandDecoder σ)}

theorem Loops.bounded (h : Loops host stop d met) (hd : d.Bounded limits)
    (hpend : d.cursor.pendingWait = none) : ∀ d' ∈ met, d'.Bounded limits := by
  induction h with
  | stop hstep => exact forall_mem_singleton.mpr (hd.step hpend hstep).1
  | round hstep _ ih =>
    have hnext := hd.step hpend hstep
    exact forall_mem_cons.mpr ⟨hnext.1, ih hnext.1 (hnext.2 rfl)⟩

theorem Processes.bounded (h : Processes host stop d met) (hd : d.Bounded limits) :
    ∀ d' ∈ met, d'.Bounded limits := by
  cases h with
  | waiting hwait => exact forall_mem_singleton.mpr (hd.resumePendingWait hwait).1
  | loops hwait hloops =>
    have hnext := hd.resumePendingWait hwait
    exact forall_mem_cons.mpr ⟨hnext.1, hloops.bounded hnext.1 (hnext.2 rfl)⟩

theorem resumePendingWait_rounds (h : d.resumePendingWait host = (none, d')) :
    d'.rounds = d.rounds := by
  rcases resumePendingWait_cases h with ⟨-, -, rfl⟩ |
    ⟨wait, -, ⟨stop, hstop, -⟩ | ⟨stop, hstop, -⟩ | ⟨frame, frames, -, -, -, rfl⟩⟩
  · rfl
  · cases hstop
  · cases hstop
  · simp [rounds, advance]

theorem processes_processFrames (host : CommandHost σ) (d : CommandDecoder σ) :
    ∃ met, Processes host (d.processFrames host).1 d met ∧
      met.getLast? = some (d.processFrames host).2 ∧ met.length ≤ d.rounds + 1 := by
  unfold processFrames
  split
  · rename_i stop last hwait
    exact ⟨[last], .waiting hwait, rfl, succ_le_succ (zero_le _)⟩
  rename_i next hwait
  obtain ⟨met, hmet, hlast, hlen⟩ := @loops_loop _ host next _ (le_refl next.rounds)
  refine ⟨next :: met, .loops hwait hmet, by simp [getLast?_cons, hlast], ?_⟩
  rw [← resumePendingWait_rounds hwait]
  exact succ_le_succ hlen

namespace Bounded

theorem resumeCommandBuffer (hd : d.Bounded limits) (host : CommandHost σ)
    (world : CommandWorld σ) : (d.resumeCommandBuffer host world).Bounded limits := by
  unfold CommandDecoder.resumeCommandBuffer
  split
  · exact hd.of_world _
  · obtain ⟨met, hmet, hlast, -⟩ := processes_processFrames host { d with world }
    have hbounded := hmet.bounded (hd.of_world world) _ (mem_of_getLast? hlast)
    exact hbounded.keepStop _

theorem resumeAll (hd : d.Bounded limits) (host : CommandHost σ)
    (worlds : List (CommandWorld σ)) : (d.resumeAll host worlds).Bounded limits :=
  List.foldlRecOn worlds _ hd fun _ hd world _ => hd.resumeCommandBuffer host world

theorem rounds_le (hd : d.Bounded limits) :
    d.rounds ≤ 2 * limits.maxProcessedDwords + limits.maxIndirectDepth + 2 := by
  have hdepth := hd.depth
  rw [rounds, hd.own]
  omega

end Bounded

/-- Taken up in any world after any submission so far, whatever the buffers hold, the processor
comes to an end after a number of rounds that the limits bound, and keeps to the limits in every
decoder on the way. -/
theorem resumeCommandBuffer_within_limits (host : CommandHost σ) (limits : GpuCommandLimits)
    (address : BitVec 64) (dwordCount : ℕ) (first : CommandWorld σ)
    (worlds : List (CommandWorld σ)) (world : CommandWorld σ) :
    let d := (beginCommandBuffer host limits address dwordCount first).resumeAll host worlds
    let start : CommandDecoder σ := { d with world }
    ∃ stop met last, Processes host stop start met ∧ met.getLast? = some last ∧
      d.resumeCommandBuffer host world = (if d.cursor.terminal then start else last.keepStop stop) ∧
      met.length ≤ 2 * limits.maxProcessedDwords + limits.maxIndirectDepth + 3 ∧
      ∀ d' ∈ start :: met, d'.Bounded limits := by
  intro d start
  have hd : d.Bounded limits :=
    (Bounded.beginCommandBuffer host limits address dwordCount first).resumeAll host worlds
  have hstart : start.Bounded limits := hd.of_world world
  obtain ⟨met, hmet, hlast, hlength⟩ := processes_processFrames host start
  refine ⟨_, met, _, hmet, hlast, rfl, hlength.trans (Nat.succ_le_succ hstart.rounds_le), ?_⟩
  exact forall_mem_cons.mpr ⟨hstart, hmet.bounded hstart⟩

end CommandDecoder

end KajPS5.Gpu
