import BacktrackRegex.Proofs.Graph.Scope
import BacktrackRegex.Proofs.Search.Configuration
import BacktrackRegex.Proofs.Search.Record
import BacktrackRegex.Proofs.Search.Sound

/-!
# What is in progress where

The iterations and the open captures of a state are determined by the node at which it is reached
(`State.Exact`): a quantifier has an iteration in progress just where the node is in its body, and a
capture is open just where the node lies behind its beginning, up to its end. This holds of the
states that are visited and of those that are saved, in the walk itself and in the walks around it
(**`Task.Reaches.exact`**).

No node looks at where a state comes from, so it is enough to follow a single edge
(`State.Exact.turn`): an edge that stays in a scope leaves the slot as it is, and scopes are entered
and left only past the nodes that fill the slot and empty it.
-/

namespace BacktrackRegex

/-- Whether in a state that is reached at a node just those iterations and captures are in progress
whose scope the node lies in. At a quantifier itself nothing is said of its iteration, since the
walk may come from its body or not. -/
structure State.Exact (pattern : NumberedPattern) (node : Nat) (state : State) : Prop where
  /-- in the body of a quantifier an iteration is in progress, which began here or before -/
  active : ∀ {id place high}, Graph.Quantifies pattern id place high → place < node → node < high →
    ∃ iteration, state.iterations[id]? = some (some iteration) ∧ iteration.entry ≤ state.pos
  /-- elsewhere none is -/
  idle : ∀ {id place high}, Graph.Quantifies pattern id place high → ¬(place ≤ node ∧ node < high) →
    state.iterations[id]? = some none
  /-- behind its beginning, up to its end, a capture is open, and began here or before -/
  opened : ∀ {slot low high}, Graph.Captures pattern slot low high → low ≤ node → node < high →
    ∃ start, state.opened[slot]? = some (some start) ∧ start ≤ state.pos
  /-- elsewhere it is not -/
  closed : ∀ {slot low high}, Graph.Captures pattern slot low high → ¬(low ≤ node ∧ node < high) →
    state.opened[slot]? = some none

variable {pattern : NumberedPattern}

/-! ## Edges -/

section

variable {here next : Nat} {found : Node} {before after : State}
  (filled : pattern.tree.Filled) (there : (Graph.ofPattern pattern).nodes[here]? = some found)
  (follows : next ∈ found.successors) (turns : found.Turns before next after)
  (fits : before.Fits (Graph.ofPattern pattern)) (exact : before.Exact pattern here)

include filled there follows turns fits exact

/-- An edge into the body of a quantifier, or one that stays there. -/
theorem State.Exact.turn_active {id place high : Nat} (h : Graph.Quantifies pattern id place high)
    (low : place < next) (lt : next < high) :
    ∃ iteration, after.iterations[id]? = some (some iteration) ∧ iteration.entry ≤ after.pos := by
  have cycle := Graph.cycle_of_quantifies filled h
  have inside := Graph.lt_loops_of_quantifies filled h
  obtain ⟨above, below⟩ := cycle.inward ⟨found, there, follows⟩ low lt
  obtain ⟨quantifier, body, behind, node, same, -, -, down⟩ := cycle.node
  by_cases enters : here = place
  · -- from the quantifier itself, so a new iteration begins
    subst enters
    cases node.symm.trans there
    obtain ⟨-, completed, rfl⟩ | ⟨leaves, -⟩ := turns
    · refine ⟨⟨completed, before.pos⟩, ?_, Nat.le_refl _⟩
      rw [← same] at inside ⊢
      exact Array.getElem?_setIfInBounds_self_of_lt (fits.iterations.symm ▸ inside)
    · omega
  · obtain ⟨iteration, held, le⟩ := exact.active h (by omega) below
    refine ⟨iteration, ?_, Nat.le_trans le turns.pos_le⟩
    rw [turns.iterations, held]
    rintro quantifier body behind rfl same
    exact enters (Graph.place_of_loopId filled h there same)

/-- An edge out of the body of a quantifier, or one that stays outside. -/
theorem State.Exact.turn_idle {id place high : Nat} (h : Graph.Quantifies pattern id place high)
    (outside : ¬(place ≤ next ∧ next < high)) : after.iterations[id]? = some none := by
  have cycle := Graph.cycle_of_quantifies filled h
  have bound := Graph.lt_loops_of_quantifies filled h
  obtain ⟨quantifier, body, behind, node, same, up, top, -⟩ := cycle.node
  by_cases leaves : here = place
  · -- from the quantifier itself, so it is left
    subst leaves
    cases node.symm.trans there
    obtain ⟨rfl, -⟩ | ⟨-, rfl⟩ := turns
    · omega
    · rw [← same] at bound ⊢
      exact Array.getElem?_setIfInBounds_self_of_lt (fits.iterations.symm ▸ bound)
  · have outside' : ¬(place ≤ here ∧ here < high) := by
      rintro ⟨low, lt⟩
      exact outside (cycle.outward ⟨found, there, follows⟩ (by omega) lt)
    rw [turns.iterations, exact.idle h outside']
    rintro quantifier body behind rfl same
    exact leaves (Graph.place_of_loopId filled h there same)

variable (numbered : pattern.tree.Numbered 1 (pattern.groupCount + 1))

include numbered

/-- An edge to where a capture is open. -/
theorem State.Exact.turn_opened {slot low high : Nat} (h : Graph.Captures pattern slot low high)
    (above : low ≤ next) (lt : next < high) :
    ∃ start, after.opened[slot]? = some (some start) ∧ start ≤ after.pos := by
  have bracket := Graph.bracket_of_captures filled h
  have bound := Graph.lt_slots_of_captures numbered filled h
  obtain ⟨above', below'⟩ := bracket.inward ⟨found, there, follows⟩ above lt
  by_cases begins : here = high
  · -- from its beginning
    subst begins
    obtain ⟨inner, node, -⟩ := bracket.opening
    cases node.symm.trans there
    refine ⟨before.pos, ?_, turns.pos_le⟩
    rw [show after = _ from turns]
    exact Array.getElem?_setIfInBounds_self_of_lt (fits.opened.symm ▸ bound)
  · obtain ⟨start, held, le⟩ := exact.opened h above' (by omega)
    refine ⟨start, ?_, Nat.le_trans le turns.pos_le⟩
    rw [turns.opened ?begins ?ends ?clears, held]
    case begins =>
      rintro inner rfl
      exact begins (Graph.high_of_openGroup numbered filled h there)
    case ends =>
      rintro inner rfl
      obtain ⟨behind, node, down⟩ := bracket.closing
      obtain rfl := Graph.low_of_closeGroup numbered filled h there
      cases node.symm.trans there
      obtain rfl := List.mem_singleton.mp follows
      omega
    case clears =>
      rintro quantifier body behind rfl ⟨first, last⟩
      have := Graph.lt_of_cleared numbered filled there first last h
      omega

/-- An edge to where a capture is not open. -/
theorem State.Exact.turn_closed {slot low high : Nat} (h : Graph.Captures pattern slot low high)
    (outside : ¬(low ≤ next ∧ next < high)) : after.opened[slot]? = some none := by
  have bracket := Graph.bracket_of_captures filled h
  have bound := Graph.lt_slots_of_captures numbered filled h
  by_cases ends : here = low
  · -- from its end
    subst ends
    obtain ⟨inner, node, -⟩ := bracket.closing
    cases node.symm.trans there
    rw [show after = _ from turns, State.opened_closeGroup]
    exact Array.getElem?_setIfInBounds_self_of_lt (fits.opened.symm ▸ bound)
  · have outside' : ¬(low ≤ here ∧ here < high) := by
      rintro ⟨above, lt⟩
      exact outside (bracket.outward ⟨found, there, follows⟩ (by omega) lt)
    refine turns.opened_none ?_ (exact.closed h outside')
    rintro inner rfl
    obtain ⟨next', node, above, below⟩ := bracket.opening
    obtain rfl := Graph.high_of_openGroup numbered filled h there
    cases node.symm.trans there
    obtain rfl := List.mem_singleton.mp follows
    exact outside ⟨above, below⟩

/-- **Along every edge the bookkeeping stays exact.** -/
theorem State.Exact.turn : after.Exact pattern next where
  active := exact.turn_active filled there follows turns fits
  idle := exact.turn_idle filled there follows turns fits
  opened := exact.turn_opened filled there follows turns fits numbered
  closed := exact.turn_closed filled there follows turns fits numbered

end

/-! ## Walks -/

/-- What a lookahead captures makes no difference. -/
theorem State.Exact.adopt {node : Nat} {state : State} (h : state.Exact pattern node)
    (inner : State) (groups : GroupRange) : (state.adopt inner groups).Exact pattern node :=
  ⟨h.active, h.idle, h.opened, h.closed⟩

/-- At both ways into a graph nothing is in progress. -/
theorem State.exact_initial (filled : pattern.tree.Filled)
    (numbered : pattern.tree.Numbered 1 (pattern.groupCount + 1)) {entry : Nat}
    (way : entry = (Graph.ofPattern pattern).anchored ∨ entry = (Graph.ofPattern pattern).start)
    (pos : Nat) : (State.initial (.ofPattern pattern) pos).Exact pattern entry := by
  have lt : (Graph.ofPattern pattern).anchored < (Graph.ofPattern pattern).start :=
    Draft.entry_lt_add ..
  constructor
  case active =>
    intro id place high h above below
    have := Graph.le_or_le_of_quantifies filled h
    omega
  case idle =>
    intro id place high h _
    exact (Array.getElem?_replicate ..).trans (if_pos (Graph.lt_loops_of_quantifies filled h))
  case opened =>
    intro slot low high h above below
    have := Graph.le_of_captures filled h
    omega
  case closed =>
    intro slot low high h _
    exact (Array.getElem?_replicate ..).trans
      (if_pos (Graph.lt_slots_of_captures numbered filled h))

section

variable {state : State} (exact : state.Exact pattern 0) (filled : pattern.tree.Filled)

include exact filled

/-- Where the pattern ends no iteration is in progress. -/
theorem State.Exact.idle_zero {id place high : Nat} (h : Graph.Quantifies pattern id place high) :
    state.iterations[id]? = some none := by
  obtain ⟨quantifier, body, next, -, -, -, -, down⟩ := (Graph.cycle_of_quantifies filled h).node
  exact exact.idle h (by omega)

/-- And no capture is open. -/
theorem State.Exact.closed_zero {slot low high : Nat} (h : Graph.Captures pattern slot low high) :
    state.opened[slot]? = some none := by
  obtain ⟨next, -, down⟩ := (Graph.bracket_of_captures filled h).closing
  exact exact.closed h (by omega)

end

section

variable {task : Task} (graph : task.graph = .ofPattern pattern) (filled : pattern.tree.Filled)
  (numbered : pattern.tree.Numbered 1 (pattern.groupCount + 1)) {entry pos : Nat}
  (way : entry = task.graph.anchored ∨ entry = task.graph.start) {walk : Walk}
  (reached : task.Reaches entry pos walk)

include graph filled numbered

/-- What the move of a node offers is exact if the node is reached in an exact state. -/
theorem State.Exact.of_offers {here next : Nat} {before after : State}
    (fits : before.Fits task.graph) (exact : before.Exact pattern here)
    (offers : (task.move here before).Offers before next after) :
    after.Fits task.graph ∧ after.Exact pattern next := by
  obtain ⟨rfl, rfl⟩ | ⟨found, there, follows, turns⟩ := Task.turns_of_offers offers
  · exact ⟨fits, exact⟩
  · rw [graph] at there fits ⊢
    exact ⟨turns.fits fits, exact.turn filled there follows turns fits numbered⟩

omit numbered in
/-- A quantifier that is come to from outside its body has no iteration in progress. -/
theorem State.Exact.idle_of_offers {here next id high : Nat} {before after : State}
    (exact : before.Exact pattern here) (offers : (task.move here before).Offers before next after)
    (h : Graph.Quantifies pattern id next high) (outside : ¬(next ≤ here ∧ here < high)) :
    after.iterations[id]? = some none := by
  obtain ⟨_, _, _, -, -, up, top, -⟩ := (Graph.cycle_of_quantifies filled h).node
  obtain ⟨rfl, -⟩ | ⟨found, there, -, turns⟩ := Task.turns_of_offers offers
  · exact absurd ⟨Nat.le_refl _, Nat.lt_trans up top⟩ outside
  · rw [turns.iterations, exact.idle h outside]
    rintro other body behind rfl number
    obtain rfl := Graph.place_of_loopId filled h (graph ▸ there) number
    exact outside ⟨Nat.le_refl _, Nat.lt_trans up top⟩

include way reached

/-- **All configurations of a walk are exact.** -/
theorem Task.Reaches.exact {node : Nat} {state : State} (h : walk.Holds node state) :
    state.Fits task.graph ∧ state.Exact pattern node := by
  induction reached generalizing node state with
  | enter =>
    cases h with
    | current =>
      refine ⟨State.fits_initial .., ?_⟩
      rw [graph] at way ⊢
      exact State.exact_initial filled numbered way pos
    | choice mem | outer mem | suspended mem => cases mem
  | step reached next ih =>
    obtain old | offers | ⟨outer, mem, rfl, rfl⟩ := h.of_step next
    · exact ih old
    · obtain ⟨fits, exact⟩ := ih .current
      exact exact.of_offers graph filled numbered fits offers
    · obtain ⟨fits, exact⟩ := ih (.outer mem)
      exact ⟨fits.adopt _ _, exact.adopt _ _⟩

end

/-! ## The goal -/

section

variable {σ : Type} {observe : σ → Event → σ} {task : Task} {log log' : σ} {final : State}

theorem Walk.not_finish_of_backtrack {choices : List ChoicePoint} {depth : Nat}
    {suspended : List Suspended} :
    backtrack observe task log choices depth suspended ≠ .finish (some final) log' := by
  fun_induction backtrack observe task log choices depth suspended with
  | case7 depth outer suspended positive ih => exact ih
  | _ => simp

/-- A walk succeeds only at a goal, in no lookahead. -/
theorem Walk.goal_of_finish {walk : Walk}
    (ends : walk.step observe task log = .finish (some final) log') :
    task.graph.nodes[walk.node]? = some .goal ∧ walk.suspended = [] ∧ final = walk.state := by
  have along := task.along_move walk.node walk.state
  rw [step_eq_perform] at ends
  generalize task.move walk.node walk.state = move at along ends
  cases move with
  | goal =>
    rw [Move.perform] at ends
    split at ends
    · next none =>
      cases ends
      exact ⟨along, none, rfl⟩
    · split at ends
      · exact absurd ends not_finish_of_backtrack
      · cases ends
  | stop => exact absurd ends not_finish_of_backtrack
  | go next after => cases ends
  | fork next after other =>
    rw [Move.perform, fork] at ends
    split at ends <;> cases ends
  | look negated groups body next => cases ends

/-- A walk that is reached has been recorded. -/
theorem Task.Reaches.recorded {owner : Nat → Nat} (owned : Owned task.graph.nodes owner)
    {entry pos : Nat} (own : owner entry = 0) {walk : Walk} (h : task.Reaches entry pos walk) :
    ∃ log, walk.Recorded task.graph.nodes owner entry pos log := by
  induction h with
  | enter => exact ⟨#[], Walk.recorded_enter task.graph pos own⟩
  | @step walk after h next ih =>
    obtain ⟨log, recorded⟩ := ih
    have kept := recorded.step owned
    have same := walk.step_forget Array.push task log
    rw [next] at same
    rcases steps : walk.step Array.push task log with ⟨after', log'⟩ | _ | _ <;>
      rw [steps] at same kept
    · cases same
      exact ⟨log', kept⟩
    · cases same
    · cases same

/-- Both ways into the graph of a pattern belong to its goal. -/
theorem Graph.exists_owned_entries (filled : pattern.tree.Filled) :
    ∃ owner, Owned (ofPattern pattern).nodes owner ∧ owner (ofPattern pattern).start = 0 ∧
      owner (ofPattern pattern).anchored = 0 := by
  obtain ⟨owner, owned, own⟩ := exists_owned pattern
  have skip : Emits pattern skipAhead (whole pattern) := .inr (.self ..)
  have any : Pattern.Filled (.set true [] : Pattern GroupRange) := trivial
  have loop := (Draft.loopsBack_of_inPlace any (part_of_emits filled skip).2).node
  have onward := owned.onward loop (List.mem_cons_of_mem _ List.mem_cons_self)
  exact ⟨owner, owned, own, onward.trans own⟩

/-- A walk that has come to the end of the pattern is at the goal at place 0. -/
theorem Task.Reaches.node_of_finish (graph : task.graph = .ofPattern pattern)
    (filled : pattern.tree.Filled) {entry pos : Nat}
    (way : entry = task.graph.anchored ∨ entry = task.graph.start) {walk : Walk}
    (reached : task.Reaches entry pos walk)
    (ends : walk.step observe task log = .finish (some final) log') : walk.node = 0 := by
  obtain ⟨owner, owned, start, anchored⟩ := Graph.exists_owned_entries filled
  rw [← graph] at owned start anchored
  have own : owner entry = 0 := by rcases way with rfl | rfl <;> assumption
  obtain ⟨_, recorded⟩ := reached.recorded owned own
  obtain ⟨goal, free, -⟩ := Walk.goal_of_finish ends
  exact (owned.goal goal).symm.trans (recorded.own free)

end

/-! ## Exact walks -/

/-- Whether the books of a walk are right. -/
structure Walk.Exact (task : Task) (pattern : NumberedPattern) (walk : Walk) : Prop where
  /-- all that it holds is exact -/
  held : ∀ {node state}, walk.Holds node state → state.Exact pattern node
  /-- a quantifier that is come to from outside its body has no iteration in progress and none
  completed -/
  entered : ∀ {node before next after id high quantifier body behind}, walk.Holds node before →
    (task.move node before).Offers before next after → Graph.Quantifies pattern id next high →
    ¬(next ≤ node ∧ node < high) →
    task.graph.nodes[next]? = some (.loop quantifier body behind) →
    quantifier.id = id ∧ after.iterations[id]? = some none ∧ after.completed? quantifier = some 0
  /-- a capture that ends has begun -/
  begun : ∀ {node state slot next}, walk.Holds node state →
    task.graph.nodes[node]? = some (.closeGroup slot next) →
    ∃ start, state.opened[slot]? = some (some start) ∧ start ≤ state.pos
  /-- at the end of the pattern nothing is in progress -/
  final : ∀ {final}, walk.step ignore task () = .finish (some final) () →
    (∀ id < task.graph.loops, final.iterations[id]? = some none) ∧
      ∀ slot < task.graph.slots, final.opened[slot]? = some none

/-- **Iterations and captures are in progress just where they should be**, in every configuration
that a search comes to or saves, in the graph of every pattern that is read. Each quantifier and
each capture of the graph has a scope, so nothing is left out. -/
theorem Task.Reaches.exact_of_parse {source : String}
    (parsed : NumberedPattern.parse source = .ok pattern) {task : Task}
    (graph : task.graph = .ofPattern pattern) {entry pos : Nat}
    (way : entry = task.graph.anchored ∨ entry = task.graph.start) {walk : Walk}
    (reached : task.Reaches entry pos walk) :
    (∀ id < task.graph.loops, ∃ place high, Graph.Quantifies pattern id place high) ∧
      (∀ slot < task.graph.slots, ∃ low high, Graph.Captures pattern slot low high) ∧
      walk.Exact task pattern := by
  have filled := NumberedPattern.filled_of_parse parsed
  have numbered := NumberedPattern.numbered_groupCount parsed
  have exact {node : Nat} {state : State} (h : walk.Holds node state) :=
    (reached.exact graph filled numbered way h).2
  have quantifiers : ∀ id < task.graph.loops,
      ∃ place high, Graph.Quantifies pattern id place high :=
    fun id lt => Graph.exists_quantifies filled (graph ▸ lt)
  have captures : ∀ slot < task.graph.slots, ∃ low high, Graph.Captures pattern slot low high :=
    fun slot lt => Graph.exists_captures numbered (graph ▸ lt)
  refine ⟨quantifiers, captures, ?_⟩
  constructor
  case held => exact exact
  case entered =>
    intro node before next after id high quantifier body behind holds offers h outside there
    obtain ⟨_, _, _, here, same, -⟩ := (Graph.cycle_of_quantifies filled h).node
    rw [graph] at there
    cases here.symm.trans there
    have idle := (exact holds).idle_of_offers graph filled offers h outside
    refine ⟨same, idle, ?_⟩
    rw [State.completed?, same, idle]
    rfl
  case begun =>
    intro node state slot next holds there
    obtain ⟨high, h⟩ := Graph.exists_captures_of_closeGroup (graph ▸ there)
    exact (exact holds).opened h (Nat.le_refl _) (Graph.bracket_of_captures filled h).lt
  case final =>
    intro final ends
    have zero := reached.node_of_finish graph filled way ends
    obtain ⟨-, -, rfl⟩ := Walk.goal_of_finish ends
    have here := exact .current
    rw [zero] at here
    refine ⟨fun id lt => ?_, fun slot lt => ?_⟩
    · obtain ⟨place, high, h⟩ := quantifiers id lt
      exact here.idle_zero filled h
    · obtain ⟨low, high, h⟩ := captures slot lt
      exact here.closed_zero filled h

theorem Task.Reaches.exact_of_parse_choice :
    let capture : Pattern GroupRange := .group ⟨1, 2⟩ .capturing (.char 'a')
    let pattern : NumberedPattern :=
      ⟨.quantified ⟨1, 2⟩ 1 none true (.group ⟨1, 2⟩ .nonCapturing (.choice [capture, .char 'b'])),
        1, 1⟩
    let task : Task := ⟨.ofPattern pattern, "ab", ⟨false, false⟩, ⟨50, 4⟩⟩
    let state : State := ⟨0, #[none, none], #[some 0, none], #[some ⟨0, 0⟩, none]⟩
    let walk : Walk :=
      ⟨5, state.openGroup 1, [.alternatives 8 7 [] state], 1, []⟩
    NumberedPattern.parse "(?:(a)|b)+" = .ok pattern ∧
      task.Reaches task.graph.anchored 0 walk ∧ Graph.Quantifies pattern 0 2 9 ∧
      Graph.Captures pattern 1 4 6 ∧ walk.Exact task pattern := by
  intro capture pattern task state walk
  have parsed : NumberedPattern.parse "(?:(a)|b)+" = .ok pattern := rfl
  have first : task.Reaches task.graph.anchored 0
      ⟨2, ⟨0, #[none, none], #[some 0, none], #[none, none]⟩, [], 0, []⟩ := .step .enter (by cbv)
  have second : task.Reaches task.graph.anchored 0 ⟨8, state, [], 0, []⟩ := .step first (by cbv)
  have third : task.Reaches task.graph.anchored 0
      ⟨6, state, [.alternatives 8 7 [] state], 1, []⟩ := .step second (by cbv)
  have reached : task.Reaches task.graph.anchored 0 walk := .step third (by cbv)
  have quantified : Graph.Emits pattern pattern.tree Graph.ending := .inl (.self ..)
  have captured : Draft.Emits (.group ⟨1, 2⟩ .nonCapturing (.choice [capture, .char 'b']))
      (Graph.ending.openLoop 1 none true ⟨1, 2⟩) capture _ :=
    .nonCapturing (@Draft.Emits.choice [] capture [.char 'b'] _ _ _ (.self ..))
  have part : Graph.Emits pattern capture _ := .inl (.quantified captured)
  refine ⟨parsed, reached, ⟨_, _, _, _, _, _, quantified, rfl, rfl, rfl⟩, .group part, ?_⟩
  exact (Task.Reaches.exact_of_parse parsed rfl (.inl rfl) reached).2.2

end BacktrackRegex
