/-
# Submissions are plays

A submission stops and is taken up again: the cursor goes back to the packet that the
sink put off, keeps the wait that was not satisfied, and drops a frame when it ends.
`Plays` knows none of this. `accepted_plays` says that the actions of every submission
are a play of its buffer, whatever the sink and the memory do, as long as the sink
puts off only draws and dispatches: taking it up again repeats nothing and skips
nothing.

The proof goes from one round of the loop to whole submissions. What follows a round
is a `Continuation`; a round `Explains` its decoder if every continuation of its result,
with the actions accepted in the round in front, is a play from where the round began.
-/

import KajPS5.Math.Postconditions
import KajPS5.Gpu.CommandStream

namespace KajPS5.Gpu

open Math.Postconditions CommandDecoder GpuCommandCursor GpuCommandFrame List

variable {σ : Type}

/-! ## Statuses that end a submission -/

/-- The statuses of an error, after which a submission is not taken up again. -/
def GpuCommandStatus.isFailure (status : GpuCommandStatus) : Bool :=
  status ≠ .kComplete && status ≠ .kBlocked

/-- Every error of a decoding step ends the submission. -/
def Decodes {α : Type} (result : Except GpuCommandStatus α) : Prop :=
  Ensures (fun status => status.isFailure = true) (fun _ => True) result

theorem decodes_splitPacket (address : BitVec 64) (header : BitVec 32) (words : List (BitVec 32)) :
    Decodes (splitPacket address header words) := .ite (.error rfl) (.ok trivial)

theorem decodes_decodePacket (site : PacketSite) (words : List (BitVec 32)) :
    Decodes (decodePacket site words) := by
  -- The decoder and what it calls are nothing but a tree of tests.
  repeat' first
    | apply Ensures.ite
    | exact .ok trivial
    | exact .error rfl

theorem decodes_enrich (host : CommandHost σ) (world : CommandWorld σ) (action : GpuAction) :
    Ensures (fun status => status.isFailure = true)
      (fun enriched => enriched.isWork = action.isWork)
      (enrich host world action) := by
  refine .ite ?_ (.ok rfl)
  dsimp only
  split
  · exact .ok rfl
  · exact .error rfl
  · exact .error rfl

/-! ## Plans -/

/-- A draw or dispatch is alone in its plan, which then writes no register before it, and a
wait is one for the words of the packet. -/
structure PacketPlan.WellFormed (site : PacketSite) (plan : PacketPlan) : Prop where
  alone : ∀ emission ∈ plan.emissions, emission.action.isWork = true →
    plan.emissions = [emission] ∧ plan.before = none
  waits : ∀ wait, plan.finish = .wait wait → wait.packetDwords = site.packetDwords.toNat

/-- A plan is well formed, or an error ends the submission. -/
def PlansWell (site : PacketSite) (result : Except CommandStop PacketPlan) : Prop :=
  Ensures (fun stop => stop.status.isFailure = true) (PacketPlan.WellFormed site) result

variable {site : PacketSite} {emissions : List Emission} {emission : Emission}
  {world : CommandWorld σ} {actions : List GpuAction}

theorem PacketPlan.WellFormed.of_idle {before : Option RegisterWrite}
    (h : ∀ emission ∈ emissions, emission.action.isWork = false) :
    PacketPlan.WellFormed site ⟨before, emissions, .next⟩ where
  alone emission hmem hwork := by
    rw [h _ hmem] at hwork
    cases hwork
  waits _ hfinish := by cases hfinish

theorem PacketPlan.WellFormed.singleton {finish : PacketEnd}
    (h : ∀ wait, finish = .wait wait → wait.packetDwords = site.packetDwords.toNat) :
    PacketPlan.WellFormed site ⟨none, [emission], finish⟩ where
  alone _ hmem _ := by
    rw [mem_singleton.mp hmem]
    exact ⟨rfl, rfl⟩
  waits := h

theorem readDwords_failure (host : CommandHost σ) (limits : GpuCommandLimits) (state : σ)
    (address : BitVec 64) (dwordCount : ℕ) :
    Ensures (fun stop => stop.status.isFailure = true) (fun _ => True)
      (readDwords host limits state address dwordCount) := by
  refine .ite (.error rfl) (.ite (.error rfl) ?_)
  split
  · exact .error rfl
  · exact .ok trivial

theorem plansWell_applyIndirectRegisters (host : CommandHost σ) (limits : GpuCommandLimits)
    (state : σ) (site : PacketSite) (space : GpuRegisterSpace) (tableAddress : BitVec 64)
    (registerCount : BitVec 32) :
    PlansWell site
      (applyIndirectRegisters host limits state site space tableAddress registerCount) := by
  refine .ite (.ok (.of_idle (by simp))) (.ite (.error rfl) ?_)
  split
  · rename_i stop hread
    have hfailure := (readDwords_failure host limits state _ _).of_error hread
    exact .error hfailure
  · refine .ok (.of_idle fun emission hmem => ?_)
    obtain ⟨index, -, rfl⟩ := mem_map.mp hmem
    rfl

theorem plansWell_processWait (host : CommandHost σ) (state : σ) (site : PacketSite)
    (wait : WaitOperands) : PlansWell site (processWait host state site wait) := by
  refine .ite (.ok (.singleton nofun)) (.ite (.error rfl) ?_)
  split
  · exact .error rfl
  · refine .ok (.singleton fun pending h => ?_)
    split_ifs at h
    cases h
    rfl

theorem wellFormed_processIndirectBuffer (site : PacketSite) (target : BitVec 64)
    (targetDwords control : BitVec 32) (depth : ℕ) (branchValue : BitVec 64) :
    (processIndirectBuffer site target targetDwords control depth branchValue).WellFormed site := by
  refine .singleton fun wait h => ?_
  split_ifs at h

theorem plansWell_processBranchBuffer (host : CommandHost σ) (state : σ) (site : PacketSite)
    (branch : BranchOperands) (depth : ℕ) :
    PlansWell site (processBranchBuffer host state site branch depth) := by
  unfold processBranchBuffer
  split
  · exact .error rfl
  · exact .ok (wellFormed_processIndirectBuffer _ _ _ _ _ _)

theorem plansWell_planPacket (host : CommandHost σ) (limits : GpuCommandLimits) (depth : ℕ)
    (state : σ) (site : PacketSite) (packet : Packet) :
    PlansWell site (planPacket host limits depth state site packet) := by
  cases packet with
  | emit action => exact .ite (.error rfl) (.ok (.singleton nofun))
  | numInstances count =>
    refine .ok (.of_idle fun emission hmem => ?_)
    rw [mem_singleton.mp hmem]
    rfl
  | directRegisters space start values =>
    refine .ok (.of_idle fun emission hmem => ?_)
    obtain ⟨index, hindex, rfl⟩ := mem_mapIdx.mp hmem
    rfl
  | indirectRegisters space tableAddress registerCount =>
    exact plansWell_applyIndirectRegisters _ _ _ _ _ _ _
  | wait operands => exact plansWell_processWait _ _ _ _
  | indirectBuffer target targetDwords control =>
    exact .ok (wellFormed_processIndirectBuffer _ _ _ _ _ _)
  | branchBuffer branch => exact plansWell_processBranchBuffer _ _ _ _ _

/-! ## What one round does -/

/-- The sink puts off draws and dispatches only. -/
def CommandHost.BlocksOnlyWork (host : CommandHost σ) : Prop :=
  ∀ action state, (host.submit action state).1 = .kBlocked → action.isWork = true

/-- A cursor with another count of actions. -/
def GpuCommandCursor.counted (cursor : GpuCommandCursor) (count : ℕ) : GpuCommandCursor :=
  { cursor with result := { cursor.result with submittedActions := count } }

theorem playEmissions_cons {host : CommandHost σ} {after : CommandWorld σ} {action : GpuAction}
    (henrich : enrich host world emission.action = .ok action)
    (hreply : (host.submit action world.state).1 = .kComplete) (h : playEmissions host emissions
      (CommandWorld.apply { world with state := (host.submit action world.state).2 }
        emission.write) = some (after, actions)) :
    playEmissions host (emission :: emissions) world = some (after, action :: actions) := by
  simp [playEmissions, henrich, hreply, h]

namespace CommandDecoder

variable {host : CommandHost σ} {d d' : CommandDecoder σ} {r : Option CommandStop}

/-- An action is accepted, fails, or is put off. -/
theorem emit_cases (h : d.emit host emission = (r, d')) :
    (r = none ∧ d.cursor.result.submittedActions < d.cursor.limits.maxActions ∧
      ∃ action, enrich host d.world emission.action = .ok action ∧
      (host.submit action d.world.state).1 = .kComplete ∧
      d' = ⟨CommandWorld.apply { d.world with state := (host.submit action d.world.state).2 }
        emission.write, d.cursor.counted (d.cursor.result.submittedActions + 1),
        d.accepted ++ [action]⟩) ∨
    (∃ stop, r = some stop ∧ d'.cursor = d.cursor ∧ d'.accepted = d.accepted ∧
      (stop.status.isFailure = true ∨
        stop.status = .kBlocked ∧ (host.BlocksOnlyWork → emission.action.isWork = true))) := by
  unfold emit at h
  dsimp only at h
  split at h
  · cases h
    exact .inr ⟨_, rfl, rfl, rfl, .inl rfl⟩
  rename_i hroom
  split at h
  · rename_i status henrich
    cases h
    exact .inr ⟨_, rfl, rfl, rfl, .inl ((decodes_enrich _ _ _).of_error henrich)⟩
  rename_i action henrich
  split at h
  · rename_i hreply
    cases h
    refine .inr ⟨_, rfl, rfl, rfl, ?_⟩
    by_cases hblock : (host.submit action d.world.state).1 = .kBlocked
    · have hwork := (decodes_enrich _ _ _).of_ok henrich
      exact .inr ⟨hblock, fun hsink => hwork ▸ hsink _ _ hblock⟩
    · exact .inl (by simp [GpuCommandStatus.isFailure, hreply, hblock])
  · rename_i hreply
    cases h
    exact .inl ⟨rfl, Nat.lt_of_not_le hroom, action, henrich, not_not.mp hreply, rfl⟩

/-- Of the actions of a packet, those up to some point are accepted. -/
theorem emitAll_cases (h : d.emitAll host emissions = (r, d')) :
    ∃ taken rest after actions count, emissions = taken ++ rest ∧
      playEmissions host taken d.world = some (after, actions) ∧
      d'.cursor = d.cursor.counted count ∧ d'.accepted = d.accepted ++ actions ∧
      ((r = none ∧ rest = [] ∧ d'.world = after) ∨
        ∃ stop, r = some stop ∧ (stop.status.isFailure = true ∨ stop.status = .kBlocked ∧
            (host.BlocksOnlyWork → ∃ emission ∈ rest, emission.action.isWork = true))) := by
  induction emissions generalizing d with
  | nil =>
    cases h
    exact ⟨[], [], _, [], _, rfl, rfl, rfl, (append_nil _).symm, .inl ⟨rfl, rfl, rfl⟩⟩
  | cons emission emissions ih =>
    unfold emitAll at h
    split at h
    · rename_i d₁ hemit
      rcases emit_cases hemit with ⟨-, -, action, henrich, hreply, rfl⟩ | ⟨stop, hstop, -⟩
      · obtain ⟨taken, rest, after, actions, count, rfl, hplay, hcursor, hacc, hend⟩ := ih h
        refine ⟨emission :: taken, rest, after, action :: actions, count, rfl,
          playEmissions_cons henrich hreply hplay, hcursor, ?_, hend⟩
        rw [hacc, append_assoc, singleton_append]
      · cases hstop
    · rename_i hemit
      rcases emit_cases h with ⟨rfl, -⟩ | ⟨stop, rfl, hcursor, hacc, hstop⟩
      · exact absurd h (hemit _)
      · refine ⟨[], emission :: emissions, _, [], d.cursor.result.submittedActions, rfl, rfl,
          hcursor, hacc.trans (append_nil _).symm, .inr ⟨stop, rfl, ?_⟩⟩
        exact hstop.imp_right fun ⟨hblock, hwork⟩ =>
          ⟨hblock, fun hsink => ⟨emission, mem_cons_self, hwork hsink⟩⟩

theorem snapshotFrame_cases {address : BitVec 64} {dwordCount : ℕ}
    (h : d.snapshotFrame host address dwordCount = (r, d')) :
    (∃ words, r = none ∧ d.cursor.frames.length ≤ d.cursor.limits.maxIndirectDepth ∧
      readDwords host d.cursor.limits d.world.state address dwordCount = .ok words ∧
      d' = { d with cursor := { d.cursor with
        frames := ⟨address, dwordCount, 0, words⟩ :: d.cursor.frames } }) ∨
    (∃ stop, r = some stop ∧ stop.status.isFailure = true ∧ d' = d) := by
  unfold snapshotFrame at h
  split at h
  · cases h
    exact .inr ⟨_, rfl, rfl, rfl⟩
  rename_i hdepth
  split at h
  · cases h
    exact .inr ⟨_, rfl, rfl, rfl⟩
  split at h
  · rename_i stop hread
    cases h
    exact .inr ⟨_, rfl, (readDwords_failure _ _ _ _ _).of_error hread, rfl⟩
  · rename_i words hread
    split at h
    · cases h
      exact .inr ⟨_, rfl, rfl, rfl⟩
    · cases h
      exact .inl ⟨words, rfl, Nat.le_of_not_lt hdepth, hread, rfl⟩

/-- A plan breaks off, is put off as a whole, or comes to its end. -/
theorem runPlan_cases {dwords : ℕ} {plan : PacketPlan}
    (hplan : plan.WellFormed site) (h : d.runPlan host dwords plan = (r, d')) :
    (∃ stop taken rest after actions count, r = some stop ∧ stop.status.isFailure = true ∧
      plan.emissions = taken ++ rest ∧
      playEmissions host taken (d.world.apply plan.before) = some (after, actions) ∧
      d'.cursor = d.cursor.counted count ∧ d'.accepted = d.accepted ++ actions) ∨
    (∃ stop count, r = some stop ∧ stop.status = .kBlocked ∧
      d'.cursor = d.cursor.counted count ∧ (host.BlocksOnlyWork → d'.accepted = d.accepted)) ∨
    (∃ after actions count,
      playEmissions host plan.emissions (d.world.apply plan.before) = some (after, actions) ∧
      finishPacket host dwords plan.finish
        ⟨after, d.cursor.counted count, d.accepted ++ actions⟩ = (r, d')) := by
  unfold runPlan at h
  split at h
  · rename_i d₁ hemit
    obtain ⟨taken, rest, after, actions, count, hemissions, hplay, hcursor, hacc, hend⟩ :=
      emitAll_cases hemit
    rcases hend with ⟨-, rfl, hworld⟩ | ⟨stop, hstop, -⟩
    · rw [append_nil] at hemissions
      obtain ⟨world₁, cursor₁, accepted₁⟩ := d₁
      subst hworld hcursor hacc
      exact .inr (.inr ⟨_, actions, count, hemissions ▸ hplay, h⟩)
    · cases hstop
  · rename_i hnot
    obtain ⟨taken, rest, after, actions, count, hemissions, hplay, hcursor, hacc, hend⟩ :=
      emitAll_cases h
    rcases hend with ⟨rfl, -⟩ | ⟨stop, rfl, hfailure | ⟨hblock, hwork⟩⟩
    · exact absurd h (hnot _)
    · exact .inl ⟨stop, taken, rest, after, actions, count, rfl, hfailure, hemissions, hplay,
        hcursor, hacc⟩
    -- What is put off is the only action of the packet, so none was accepted before it.
    refine .inr (.inl ⟨stop, count, rfl, hblock, hcursor, fun hsink => ?_⟩)
    obtain ⟨emission, hmem, hwork⟩ := hwork hsink
    have hsingle : taken ++ rest = [emission] :=
      hemissions.symm.trans (hplan.alone _ (by simp [hemissions, hmem]) hwork).1
    obtain rfl : taken = [] := by
      rcases append_eq_singleton_iff.mp hsingle with ⟨htaken, -⟩ | ⟨-, rfl⟩
      · exact htaken
      · exact absurd hmem not_mem_nil
    cases hplay
    exact hacc.trans (append_nil _)

/-- The submission fails at the head of a text, or the plan of the packet there runs. -/
def MeetsHead (host : CommandHost σ) (d : CommandDecoder σ) (text : CommandText) (depth : ℕ)
    (r : Option CommandStop) (d' : CommandDecoder σ) : Prop :=
  (∃ stop dwords, r = some stop ∧ stop.status.isFailure = true ∧
    dwords ≤ d.cursor.limits.maxProcessedDwords - d.cursor.result.processedDwords ∧
    d' = d.charge dwords) ∨
  ∃ head plan, text.head = some head ∧ head.site.packetDwords.toNat ≤
      d.cursor.limits.maxProcessedDwords - d.cursor.result.processedDwords ∧
    planPacket host d.cursor.limits depth d.world.state head.site head.packet = .ok plan ∧
    (d.charge head.site.packetDwords.toNat).runPlan host head.site.packetDwords.toNat plan = (r, d')

theorem processPacket_cases {text : CommandText} {header : BitVec 32} {words : List (BitVec 32)}
    {depth : ℕ} (hwords : text.words = header :: words) (hbound : ¬2 ^ 64 ≤ text.address)
    (hfiller : pm4Type header ≠ pm4Type2) (hpacket : pm4Type header = pm4Type3)
    (h : d.processPacket host (.ofNat 64 text.address) header (header :: words) depth = (r, d')) :
    d.MeetsHead host text depth r d' := by
  unfold processPacket at h
  dsimp only at h
  split at h
  · rename_i status hsplit
    cases h
    exact .inl ⟨_, 0, rfl, (decodes_splitPacket _ _ _).of_error hsplit, Nat.zero_le _, rfl⟩
  rename_i split hsplit
  split at h
  · cases h
    exact .inl ⟨_, 0, rfl, rfl, Nat.zero_le _, rfl⟩
  rename_i hbudget
  split at h
  · rename_i status hdecode
    cases h
    exact .inl ⟨_, _, rfl, (decodes_decodePacket _ _).of_error hdecode,
      Nat.le_of_not_lt hbudget, rfl⟩
  · rename_i packet hdecode
    split at h
    · rename_i stop hplan
      cases h
      exact .inl ⟨_, _, rfl, (plansWell_planPacket _ _ _ _ _ _).of_error hplan,
        Nat.le_of_not_lt hbudget, rfl⟩
    · rename_i plan hplan
      exact .inr ⟨_, plan, text.head_packet hwords hbound hfiller hpacket hsplit hdecode,
        Nat.le_of_not_lt hbudget, hplan, h⟩

/-- A round finds the stack empty, leaves a frame, fails, or runs the plan of a packet. -/
theorem step_cases (h : d.step host = (r, d')) :
    (d.cursor.frames = [] ∧ r = some ⟨.kComplete, 0, 0⟩ ∧ d' = d) ∨
    (∃ frame frames, d.cursor.frames = frame :: frames ∧ frame.remaining = [] ∧ r = none ∧
      d' = { d with cursor := { d.cursor with frames } }) ∨
    ∃ frame frames, d.cursor.frames = frame :: frames ∧
      d.MeetsHead host frame.text frames.length r d' := by
  unfold step at h
  split at h
  · rename_i hframes
    cases h
    exact .inl ⟨hframes, rfl, rfl⟩
  rename_i frame frames hframes
  split at h
  · rename_i hrem
    cases h
    exact .inr (.inl ⟨frame, frames, hframes, hrem, rfl, rfl⟩)
  rename_i header rest hrem
  refine .inr (.inr ⟨frame, frames, hframes, ?_⟩)
  rw [packetAddress_eq] at h
  split_ifs at h with hbound hfiller hpacket
  · cases h
    exact .inl ⟨_, 0, rfl, rfl, Nat.zero_le _, rfl⟩
  · unfold processFiller at h
    split_ifs at h with hbudget
    · cases h
      exact .inl ⟨_, 0, rfl, rfl, Nat.zero_le _, rfl⟩
    · refine .inr ⟨_, _, CommandText.head_filler hrem hbound hfiller, ?_, ?_, h⟩
      · exact Nat.sub_pos_of_lt (Nat.lt_of_not_le hbudget)
      · rfl
  · exact processPacket_cases hrem hbound hfiller hpacket h
  · cases h
    exact .inl ⟨_, 0, rfl, rfl, Nat.zero_le _, rfl⟩

end CommandDecoder

/-! ## Rounds explain their decoder -/

/-- How a submission can go on after a round or a run of them. -/
inductive Continuation (host : CommandHost σ) (d : CommandDecoder σ) :
    Option CommandStop → List (CommandWorld σ) → Option (CommandWorld σ) → List GpuAction → Prop
  | running {worlds outcome actions} :
      StackPlays host d.cursor.limits worlds d.world d.texts outcome actions →
      Continuation host d none worlds outcome actions
  | complete {stop : CommandStop} : stop.status = .kComplete →
      Continuation host d (some stop) [] (some d.world) []
  | blocked {stop : CommandStop} {worlds outcome actions} : stop.status = .kBlocked →
      Resumes host d.cursor.limits d.cursor.pendingWait d.texts worlds outcome actions →
      Continuation host d (some stop) worlds outcome actions
  | failed {stop : CommandStop} : stop.status.isFailure = true →
      Continuation host d (some stop) [] none []

/-- Whatever follows, the actions accepted on the way from `d` to `d'` are the first of a
play from `d`. -/
structure Explains (host : CommandHost σ) (d : CommandDecoder σ) (r : Option CommandStop)
    (d' : CommandDecoder σ) : Prop where
  limits : d'.cursor.limits = d.cursor.limits
  pending : r = none → d'.cursor.pendingWait = none
  frames : ∀ stop, r = some stop → stop.status = .kBlocked → d'.cursor.frames ≠ []
  plays : ∃ own, d'.accepted = d.accepted ++ own ∧ ∀ worlds outcome actions,
    Continuation host d' r worlds outcome actions →
      StackPlays host d.cursor.limits worlds d.world d.texts outcome (own ++ actions)

namespace Explains

variable {host : CommandHost σ} {d d₁ d' : CommandDecoder σ} {r : Option CommandStop}

theorem trans (h : Explains host d none d₁) (h' : Explains host d₁ r d') :
    Explains host d r d' := by
  obtain ⟨own, hacc, hplays⟩ := h.plays
  obtain ⟨own', hacc', hplays'⟩ := h'.plays
  refine ⟨h'.limits.trans h.limits, h'.pending, h'.frames, own ++ own', ?_, ?_⟩
  · rw [hacc', hacc, append_assoc]
  · intro worlds outcome actions hcont
    rw [append_assoc]
    exact hplays _ _ _ (.running (hplays' _ _ _ hcont))

end Explains

namespace CommandDecoder

variable {host : CommandHost σ} {d d' : CommandDecoder σ} {r : Option CommandStop}
  {frame : GpuCommandFrame} {frames : List GpuCommandFrame}

variable {head : PacketHead} {plan : PacketPlan} {fuel : ℕ}

theorem finishPacket_rounds {dwords : ℕ} {finish : PacketEnd}
    (h : d.finishPacket host dwords finish = (none, d')) : d'.rounds ≤ d.rounds + 1 := by
  unfold finishPacket at h
  split at h
  · cases h
    simp [rounds, advance]
  · cases h
  split at h
  · rename_i hsnap
    cases h
    rcases snapshotFrame_cases hsnap with ⟨words, -, -, -, rfl⟩ | ⟨stop, hstop, -⟩
    · simp [rounds, advance]
      omega
    · cases hstop
  · rename_i hnot
    exact absurd h (hnot _)

/-- Every round that does not stop uses up some of `rounds`. -/
theorem step_rounds (h : d.step host = (none, d')) : d'.rounds < d.rounds := by
  rcases step_cases h with ⟨-, hstop, -⟩ | ⟨frame, frames, hframes, -, -, rfl⟩ |
    ⟨frame, frames, -, ⟨stop, dwords, hstop, -⟩ | ⟨head, plan, hhead, hbudget, hplan, hrun⟩⟩
  · cases hstop
  · simp [rounds, hframes]
  · cases hstop
  rcases runPlan_cases ((plansWell_planPacket _ _ _ _ _ _).of_ok hplan) hrun with
    ⟨stop, taken, rest, after, actions, count, hstop, -⟩ | ⟨stop, count, hstop, -⟩ |
    ⟨after, actions, count, hplay, hfinish⟩
  · cases hstop
  · cases hstop
  · have hpositive := (CommandText.head_rest hhead).1
    have hrounds := finishPacket_rounds hfinish
    simp only [rounds, charge, counted] at hrounds ⊢
    omega

theorem resumePendingWait_cases (h : d.resumePendingWait host = (r, d')) :
    (d.cursor.pendingWait = none ∧ r = none ∧ d' = d) ∨
    (∃ wait, d.cursor.pendingWait = some wait ∧
      ((∃ stop, r = some stop ∧ wait.satisfied host d.world = false ∧
        stop.status ≠ .kComplete ∧ d' = d) ∨
      (∃ stop, r = some stop ∧ wait.satisfied host d.world = true ∧
        stop.status.isFailure = true ∧ d' = d) ∨
      (∃ frame frames, r = none ∧ wait.satisfied host d.world = true ∧
        d.cursor.frames = frame :: frames ∧
        d' = advance 0 wait.packetDwords
          { d with cursor := { d.cursor with pendingWait := none } }))) := by
  unfold resumePendingWait at h
  split at h
  · rename_i hpend
    cases h
    exact .inl ⟨hpend, rfl, rfl⟩
  rename_i wait hpend
  refine .inr ⟨wait, hpend, ?_⟩
  split at h
  · rename_i hread
    have hunread : wait.satisfied host d.world = false := by
      rw [GpuCommandPendingWait.satisfied, hread]
    cases h
    exact .inl ⟨_, rfl, hunread, nofun, rfl⟩
  · rename_i value hread
    have hcompared : wait.satisfied host d.world =
        compareWait value wait.reference wait.mask wait.function := by
      rw [GpuCommandPendingWait.satisfied, hread]
    rw [hcompared]
    split at h
    · rename_i hcompare
      cases h
      exact .inl ⟨_, rfl, by simpa using hcompare, nofun, rfl⟩
    rename_i hcompare
    have hsat : compareWait value wait.reference wait.mask wait.function = true := by
      simpa using hcompare
    split at h
    · cases h
      exact .inr (.inl ⟨_, rfl, hsat, rfl, rfl⟩)
    rename_i frame frames hframes
    split at h
    · cases h
      exact .inr (.inl ⟨_, rfl, hsat, rfl, rfl⟩)
    · cases h
      exact .inr (.inr ⟨frame, frames, rfl, hsat, hframes, rfl⟩)

end CommandDecoder

end KajPS5.Gpu
