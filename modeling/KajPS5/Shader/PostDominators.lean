/-
# Post-dominators

`ComputePostDominators` starts with all blocks for every block that has a successor and sweeps
over the blocks until nothing changes. A sweep only takes blocks away, and never one that lies
on every path to an exit, so what is left when it stops is exactly those. Of the common
post-dominators of two blocks, the one that comes first on a path from one of them to an exit is
post-dominated by all others.
-/

import Mathlib.Algebra.Order.BigOperators.Group.Finset
import Mathlib.Data.Finset.Sort

namespace KajPS5.Shader

open List

structure BasicBlock where
  id : ℕ
  successors : List ℕ

/-- A control-flow graph: each block stands at the place of its id, every edge leads to a block,
and no id is the none value `UINT32_MAX`. -/
structure Graph where
  blocks : List BasicBlock
  ids : ∀ (i : ℕ) (block : BasicBlock), blocks[i]? = some block → block.id = i
  targets : ∀ block ∈ blocks, ∀ target ∈ block.successors, target < blocks.length
  fits : blocks.length ≤ 0xffffffff

namespace Graph

variable (g : Graph)

/-- The field `post_dominators` of the blocks: `SortUnique` and `std::set_intersection` make it a
sorted vector without repetitions, that is, a finite set. -/
abbrev Sets := ℕ → Finset ℕ

/-- The set that a sweep computes for a block. -/
def next (sets : Sets) (block : BasicBlock) : Finset ℕ :=
  match block.successors with
  | [] => {block.id}
  | first :: others => insert block.id (others.foldl (fun next other => next ∩ sets other)
      (sets first))

/-- A block's turn in a sweep, with the flag that something has changed. -/
def visit (state : Sets × Bool) (block : BasicBlock) : Sets × Bool :=
  if next state.1 block ≠ state.1 block.id then
    (Function.update state.1 block.id (next state.1 block), true)
  else state

/-- The sweeps, with a bound on their number. -/
def sweeps : ℕ → Sets → Option Sets
  | 0, _ => none
  | count + 1, sets =>
    let state := g.blocks.foldl visit (sets, false)
    if state.2 then sweeps count state.1 else some state.1

def initialSets : Sets := fun id =>
  if ∃ block ∈ g.blocks[id]?, block.successors = [] then {id} else .range g.blocks.length

def computePostDominators (count : ℕ) : Option Sets := g.sweeps count g.initialSets

def findBlock (id : ℕ) : Option BasicBlock :=
  (g.blocks[id]?.filter (·.id = id)).or (g.blocks.find? (·.id = id))

def postDominates (sets : Sets) (postDominator block : ℕ) : Bool :=
  (g.findBlock block).any fun target => postDominator ∈ sets target.id

/-- The search among the common post-dominators. -/
def findNearest (sets : Sets) (common : List ℕ) : ℕ :=
  (common.find? fun candidate => common.all fun other =>
    other = candidate ∨ g.postDominates sets other candidate).getD (common.headD 0xffffffff)

def findNearestCommonPostDominator (sets : Sets) (blockA blockB : ℕ) : ℕ :=
  match g.findBlock blockA, g.findBlock blockB with
  | some a, some b => g.findNearest sets ((sets a.id ∩ sets b.id).sort (· ≤ ·))
  | _, _ => 0xffffffff

/-! ## Paths -/

/-- The blocks of a path from a block to one without successors. -/
inductive PathToExit : ℕ → List ℕ → Prop
  | exit {block : BasicBlock} : block ∈ g.blocks → block.successors = [] →
    PathToExit block.id [block.id]
  | step {block : BasicBlock} {target : ℕ} {path : List ℕ} : block ∈ g.blocks →
    target ∈ block.successors → PathToExit target path → PathToExit block.id (block.id :: path)

/-- The block of the first id lies on every path from the second one to an exit. -/
def OnEveryPath (id block : ℕ) : Prop :=
  id < g.blocks.length ∧ ∀ path, g.PathToExit block path → id ∈ path

variable {g} {sets : Sets} {block : BasicBlock} {id : ℕ}

theorem OnEveryPath.self (hid : id < g.blocks.length) : g.OnEveryPath id id := by
  refine ⟨hid, ?_⟩
  rintro _ (⟨-, -⟩ | ⟨-, -, -⟩) <;> exact mem_cons_self

theorem OnEveryPath.of_edge (h : g.OnEveryPath id block.id) (hblock : block ∈ g.blocks)
    (hne : id ≠ block.id) {target : ℕ} (htarget : target ∈ block.successors) :
    g.OnEveryPath id target :=
  ⟨h.1, fun _ hpath => (mem_cons.mp (h.2 _ (.step hblock htarget hpath))).resolve_left hne⟩

theorem OnEveryPath.of_exit (h : g.OnEveryPath id block.id) (hblock : block ∈ g.blocks)
    (hexit : block.successors = []) : id = block.id :=
  mem_singleton.mp (h.2 _ (.exit hblock hexit))

/-- Of some blocks on every path, the first on one path comes before the others on all. -/
theorem PathToExit.exists_nearest {start : ℕ} {path : List ℕ} (hpath : g.PathToExit start path)
    {P : ℕ → Prop} (hP : ∀ id, P id → g.OnEveryPath id start) (hex : ∃ id, P id) :
    ∃ nearest, P nearest ∧ ∀ id, P id → g.OnEveryPath id nearest := by
  induction hpath with
  | exit hblock hexit =>
    obtain ⟨id, hid⟩ := hex
    obtain rfl := (hP id hid).of_exit hblock hexit
    exact ⟨_, hid, hP⟩
  | @step block _ _ hblock htarget _ ih =>
    by_cases hstart : P block.id
    · exact ⟨_, hstart, hP⟩
    · exact ih fun id hid => (hP id hid).of_edge hblock (fun h => hstart (h ▸ hid)) htarget

/-! ## Sweeps -/

theorem mem_next : id ∈ next sets block ↔
    id = block.id ∨ block.successors ≠ [] ∧ ∀ target ∈ block.successors, id ∈ sets target := by
  have hfold (others : List ℕ) (values : Finset ℕ) :
      id ∈ others.foldl (fun next other => next ∩ sets other) values ↔
        id ∈ values ∧ ∀ other ∈ others, id ∈ sets other := by
    induction others generalizing values with
    | nil => simp
    | cons other others ih => simp [ih, and_assoc]
  rw [next]
  cases block.successors <;> simp [hfold]

theorem getElem?_id (hblock : block ∈ g.blocks) : g.blocks[block.id]? = some block := by
  obtain ⟨i, hi⟩ := mem_iff_getElem?.mp hblock
  rw [g.ids _ _ hi, hi]

theorem id_lt (hblock : block ∈ g.blocks) : block.id < g.blocks.length :=
  (List.getElem?_eq_some_iff.mp (getElem?_id hblock)).1

/-- What holds of the sets during the sweeps. -/
structure Settling (g : Graph) (sets : Sets) : Prop where
  blocks : ∀ id, ∀ other ∈ sets id, other < g.blocks.length
  kept : ∀ id other, g.OnEveryPath other id → other ∈ sets id
  shrinks : ∀ block ∈ g.blocks, next sets block ⊆ sets block.id

theorem settling_initialSets (g : Graph) : Settling g g.initialSets := by
  have hblocks : ∀ id, ∀ other ∈ g.initialSets id, other < g.blocks.length := by
    intro id other hother
    rw [initialSets] at hother
    split_ifs at hother with hexit
    · obtain ⟨block, hblock, -⟩ := hexit
      rw [Finset.mem_singleton.mp hother]
      exact (List.getElem?_eq_some_iff.mp hblock).1
    · exact Finset.mem_range.mp hother
  refine ⟨hblocks, fun id other hpath => ?_, fun block hblock id hid => ?_⟩
  · rw [initialSets]
    split_ifs with hexit
    · obtain ⟨block, hblock, hexit⟩ := hexit
      obtain rfl := g.ids _ _ hblock
      exact Finset.mem_singleton.mpr (hpath.of_exit (mem_of_getElem? hblock) hexit)
    · exact Finset.mem_range.mpr hpath.1
  · rw [initialSets]
    simp only [getElem?_id hblock, Option.mem_some_iff, exists_eq_left']
    split_ifs with hexit
    · simpa [next, hexit] using hid
    · rw [Finset.mem_range]
      rcases mem_next.mp hid with rfl | ⟨-, hall⟩
      · exact id_lt hblock
      · exact hblocks _ _ (hall _ (head_mem hexit))

theorem Settling.update (h : Settling g sets) (hblock : block ∈ g.blocks) :
    Settling g (Function.update sets block.id (next sets block)) := by
  have hle := (Function.forall_update_iff sets fun id values => values ⊆ sets id).mpr
    ⟨h.shrinks block hblock, fun _ _ => subset_rfl⟩
  refine ⟨fun id other hother => h.blocks id other (hle id hother), ?_, fun other hother => ?_⟩
  · refine (Function.forall_update_iff sets fun id values => ∀ other, g.OnEveryPath other id →
      other ∈ values).mpr ⟨fun other hpath => ?_, fun id _ => h.kept id⟩
    refine mem_next.mpr (or_iff_not_imp_left.mpr fun hne => ⟨fun hexit => ?_, fun target ht => ?_⟩)
    · exact hne (hpath.of_exit hblock hexit)
    · exact h.kept _ _ (hpath.of_edge hblock hne ht)
  · have hnext : next (Function.update sets block.id (next sets block)) other ⊆
        next sets other := fun id hid => by
      rw [mem_next] at hid ⊢
      exact hid.imp_right fun hid => ⟨hid.1, fun target htarget => hle _ (hid.2 target htarget)⟩
    refine hnext.trans ?_
    by_cases hsame : other.id = block.id
    · obtain rfl : other = block :=
        Option.some.inj ((getElem?_id hother).symm.trans (hsame ▸ getElem?_id hblock))
      rw [Function.update_self]
    · rw [Function.update_of_ne hsame]
      exact h.shrinks other hother

/-- The sizes of all sets together. -/
def weight (g : Graph) (sets : Sets) : ℕ := ∑ id ∈ Finset.range g.blocks.length, (sets id).card

theorem Settling.weight_update_lt (h : Settling g sets) (hblock : block ∈ g.blocks)
    (hne : next sets block ≠ sets block.id) :
    g.weight (Function.update sets block.id (next sets block)) < g.weight sets := by
  have hlt := Finset.card_lt_card ((h.shrinks block hblock).ssubset_of_ne hne)
  refine Finset.sum_lt_sum ((Function.forall_update_iff sets fun id values => id ∈ _ →
    values.card ≤ (sets id).card).mpr ⟨fun _ => hlt.le, fun _ _ _ => le_rfl⟩) ⟨block.id, ?_, ?_⟩
  · exact Finset.mem_range.mpr (id_lt hblock)
  · rwa [Function.update_self]

/-- A sweep over some blocks finds them all settled or takes something away. -/
theorem Settling.foldl_visit {blocks : List BasicBlock}
    (hblocks : ∀ block ∈ blocks, block ∈ g.blocks) (changed : Bool) (h : Settling g sets) :
    let state := blocks.foldl visit (sets, changed)
    Settling g state.1 ∧
      (state = (sets, changed) ∧ (∀ block ∈ blocks, next sets block = sets block.id) ∨
        state.2 = true ∧ g.weight state.1 < g.weight sets) := by
  induction blocks generalizing sets changed with
  | nil => exact ⟨h, .inl ⟨rfl, forall_mem_nil _⟩⟩
  | cons block blocks ih =>
    obtain ⟨hblock, hblocks⟩ := forall_mem_cons.mp hblocks
    rw [foldl_cons, visit]
    split_ifs with hne
    · have hlt := h.weight_update_lt hblock hne
      obtain ⟨hsettling, ⟨hstate, -⟩ | ⟨htrue, hless⟩⟩ := ih hblocks true (h.update hblock)
      · refine ⟨hsettling, .inr ?_⟩
        rw [hstate]
        exact ⟨rfl, hlt⟩
      · exact ⟨hsettling, .inr ⟨htrue, hless.trans hlt⟩⟩
    · obtain ⟨hsettling, ⟨hstate, hfixed⟩ | hless⟩ := ih hblocks changed h
      · exact ⟨hsettling, .inl ⟨hstate, forall_mem_cons.mpr ⟨not_not.mp hne, hfixed⟩⟩⟩
      · exact ⟨hsettling, .inr hless⟩

theorem Settling.sweeps {count : ℕ} (h : Settling g sets) (hcount : g.weight sets < count) :
    ∃ final, g.sweeps count sets = some final ∧ Settling g final ∧
      ∀ block ∈ g.blocks, next final block = final block.id := by
  induction count generalizing sets with
  | zero => cases hcount
  | succ count ih =>
    rw [Graph.sweeps]
    obtain ⟨hsettling, ⟨hstate, hfixed⟩ | ⟨htrue, hless⟩⟩ := h.foldl_visit (fun _ => id) false
    · rw [hstate]
      exact ⟨sets, rfl, h, hfixed⟩
    · simp only [htrue, if_true]
      exact ih hsettling (by omega)

/-- In settled sets only blocks on every path are left. -/
theorem mem_path_of_fixed (hfixed : ∀ block ∈ g.blocks, next sets block = sets block.id)
    {start : ℕ} (hid : id ∈ sets start) {path : List ℕ} (hpath : g.PathToExit start path) :
    id ∈ path := by
  induction hpath with
  | exit hblock hexit =>
    rw [← hfixed _ hblock, next, hexit] at hid
    simpa using hid
  | step hblock htarget _ ih =>
    rw [← hfixed _ hblock, mem_next] at hid
    rcases hid with rfl | ⟨-, hall⟩
    · exact mem_cons_self
    · exact mem_cons_of_mem _ (ih (hall _ htarget))

/-! ## The nearest common post-dominator -/

/-- The sets hold exactly the blocks on every path. -/
def Exact (g : Graph) (sets : Sets) : Prop :=
  ∀ block ∈ g.blocks, ∀ id, id ∈ sets block.id ↔ g.OnEveryPath id block.id

/-- A common post-dominator of two blocks. -/
def Common (g : Graph) (a b id : ℕ) : Prop := g.OnEveryPath id a ∧ g.OnEveryPath id b

/-- The common post-dominator that all others post-dominate, or the none value exactly if there is
no common one. -/
def Nearest (g : Graph) (a b nearest : ℕ) : Prop :=
  (nearest = 0xffffffff ↔ ¬ ∃ id, g.Common a b id) ∧
    ∀ id, g.Common a b id → g.Common a b nearest ∧ g.OnEveryPath id nearest

theorem findBlock_id (hblock : block ∈ g.blocks) : g.findBlock block.id = some block := by
  simp [findBlock, getElem?_id hblock]

theorem Exact.postDominates_iff (h : Exact g sets) {other : ℕ} (hid : id < g.blocks.length) :
    g.postDominates sets other id = true ↔ g.OnEveryPath other id := by
  obtain ⟨block, hblock, rfl⟩ : ∃ block ∈ g.blocks, block.id = id :=
    ⟨_, getElem_mem hid, g.ids id _ (getElem?_eq_getElem hid)⟩
  simp [postDominates, findBlock_id hblock, h block hblock]

theorem findNearest_spec {common : List ℕ} {first : ℕ} (hfirst : first ∈ common)
    (hall : ∀ other ∈ common, g.postDominates sets other first = true) :
    g.findNearest sets common ∈ common ∧ ∀ other ∈ common, other = g.findNearest sets common ∨
      g.postDominates sets other (g.findNearest sets common) = true := by
  rw [findNearest]
  cases hfind : common.find? _ with
  | none =>
    refine absurd ?_ (List.find?_eq_none.mp hfind first hfirst)
    simpa using fun other hother => .inr (hall other hother)
  | some nearest =>
    exact ⟨mem_of_find?_eq_some hfind, by simpa using List.find?_some hfind⟩

theorem Exact.nearest (h : Exact g sets) {a b : BasicBlock} (ha : a ∈ g.blocks) (hb : b ∈ g.blocks)
    {path : List ℕ} (hpath : g.PathToExit a.id path) :
    g.Nearest a.id b.id (g.findNearestCommonPostDominator sets a.id b.id) := by
  have hmem {id : ℕ} : id ∈ (sets a.id ∩ sets b.id).sort (· ≤ ·) ↔ g.Common a.id b.id id := by
    rw [Finset.mem_sort, Finset.mem_inter, h a ha, h b hb, Common]
  simp only [findNearestCommonPostDominator, findBlock_id ha, findBlock_id hb]
  by_cases hex : ∃ id, g.Common a.id b.id id
  · obtain ⟨first, hfirst, hall⟩ := hpath.exists_nearest (fun id hid => hid.1) hex
    obtain ⟨hcommon, hothers⟩ := findNearest_spec (hmem.mpr hfirst) fun other hother =>
      (h.postDominates_iff hfirst.1.1).mpr (hall _ (hmem.mp hother))
    have hnearest := hmem.mp hcommon
    have hlt := hnearest.1.1.trans_le g.fits
    refine ⟨iff_of_false hlt.ne (not_not.mpr hex), fun id hid => ⟨hnearest, ?_⟩⟩
    rcases hothers id (hmem.mpr hid) with rfl | hdom
    · exact .self hid.1.1
    · exact (h.postDominates_iff hnearest.1.1).mp hdom
  · have hnil := eq_nil_iff_forall_not_mem.mpr fun id hid => hex ⟨id, hmem.mp hid⟩
    rw [hnil]
    exact ⟨iff_of_true rfl hex, fun id hid => absurd ⟨id, hid⟩ hex⟩

/-- From some number of sweeps on, the computation ends with exactly the blocks on every path to
an exit, and of two blocks that reach one the query finds the nearest common one. -/
theorem postDominators_exact (g : Graph) : ∃ bound, ∀ count ≥ bound, ∃ sets,
    g.computePostDominators count = some sets ∧ Exact g sets ∧
    ∀ a ∈ g.blocks, ∀ b ∈ g.blocks,
      (∃ path, g.PathToExit a.id path) → (∃ path, g.PathToExit b.id path) →
      g.Nearest a.id b.id (g.findNearestCommonPostDominator sets a.id b.id) := by
  refine ⟨g.weight g.initialSets + 1, fun count hcount => ?_⟩
  obtain ⟨sets, hsets, hsettling, hfixed⟩ := g.settling_initialSets.sweeps hcount
  have hexact : Exact g sets := fun block _ id =>
    ⟨fun hid => ⟨hsettling.blocks _ _ hid, fun _ => mem_path_of_fixed hfixed hid⟩,
      hsettling.kept _ _⟩
  exact ⟨sets, hsets, hexact, fun a ha b hb ⟨_, hpath⟩ _ => hexact.nearest ha hb hpath⟩

/-- Two blocks that go on to a third one. -/
def joined : Graph where
  blocks := [⟨0, [2]⟩, ⟨1, [2]⟩, ⟨2, []⟩]
  ids i block h := by
    match i with
    | 0 | 1 | 2 => cases h; rfl
    | i + 3 => cases h
  targets := by decide
  fits := by decide

theorem postDominators_exact_joined : ∃ count sets,
    joined.computePostDominators count = some sets ∧ Exact joined sets ∧
      joined.Nearest 0 1 (joined.findNearestCommonPostDominator sets 0 1) := by
  obtain ⟨bound, h⟩ := postDominators_exact joined
  obtain ⟨sets, hsets, hexact, hnearest⟩ := h bound le_rfl
  have hpath (id : ℕ) (hid : ⟨id, [2]⟩ ∈ joined.blocks) : ∃ path, joined.PathToExit id path :=
    ⟨_, @PathToExit.step _ ⟨id, [2]⟩ _ _ hid mem_cons_self
      (@PathToExit.exit joined ⟨2, []⟩ (by simp [joined]) rfl)⟩
  have hfirst : ⟨0, [2]⟩ ∈ joined.blocks := by simp [joined]
  have hsecond : ⟨1, [2]⟩ ∈ joined.blocks := by simp [joined]
  exact ⟨bound, sets, hsets, hexact,
    hnearest _ hfirst _ hsecond (hpath 0 hfirst) (hpath 1 hsecond)⟩

end Graph

end KajPS5.Shader
