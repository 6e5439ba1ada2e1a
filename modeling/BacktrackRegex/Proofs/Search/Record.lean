import BacktrackRegex.Proofs.Search.Budget
import BacktrackRegex.Proofs.Search.Trail

/-!
# The trace is a record of the walk

What a trace says of a walk is kept by every step. Visits follow the edges of the graph (`Trail`),
backtracks take up the choice points that were kept at forks (`Covered`), and a walk that is in no
lookahead stays at nodes that belong to the goal of the pattern (`HeldBy`). The choice points and
the suspended walks are the same matter for all moves and for going back, so they have an invariant
of their own (`Kept`).

`Walk.Recorded.step` is the step lemma and `finished_walkFrom` the one about whole walks. Of the
trace of a search, `Run.Records` says what follows (**`Regex.records_of_trace`**).
-/

namespace BacktrackRegex

/-! ## Moves -/

/-- Where a move from the node `here` leads, and what it keeps. -/
def Move.Along (nodes : Array Node) (here : Nat) (state : State) : Move → Prop
  | goal => nodes[here]? = some .goal
  | stop => True
  | go next _ => ∃ node, nodes[here]? = some node ∧ next ∈ node.onward
  | fork next after other => after.pos = state.pos ∧ other.pos = state.pos ∧
      Branches nodes here next ∧ other.KeptAt nodes here
  | look negated groups body next => nodes[here]? = some (.lookahead negated groups body next)

/-- The moves of a quantifier. -/
theorem Loop.along_move {nodes : Array Node} {here body next : Nat} {loop : Loop}
    (found : nodes[here]? = some (.loop loop body next)) (state : State) (completed? : Option Nat) :
    (loop.move body next state completed?).Along nodes here state := by
  have into : Branches nodes here body := ⟨_, found, List.mem_cons_self⟩
  have behind : Branches nodes here next := ⟨_, found, List.mem_cons_of_mem _ List.mem_cons_self⟩
  have kept {way : Nat} (branch : Branches nodes here way) (state : State) :
      (ChoicePoint.resume way state).KeptAt nodes here := by
    refine ⟨?_, nofun⟩
    intro other mem
    rwa [List.mem_singleton.mp mem]
  cases completed? with
  | none => trivial
  | some completed =>
    simp only [move]
    split
    · exact ⟨_, found, List.mem_cons_self⟩
    split
    · exact ⟨_, found, List.mem_cons_of_mem _ List.mem_cons_self⟩
    split
    · exact ⟨rfl, rfl, into, kept behind _⟩
    · exact ⟨rfl, rfl, behind, kept into _⟩

/-- **Every move goes along the edges of its node.** -/
theorem Task.along_move (task : Task) (here : Nat) (state : State) :
    (task.move here state).Along task.graph.nodes here state := by
  rcases found : task.graph.nodes[here]? with _ | node
  · rw [move, found]
    trivial
  rw [task.move_of_getElem? found]
  have advance {next : Nat} (follows : next ∈ node.onward) (pos? : Option Nat) :
      (Move.advance next state pos?).Along task.graph.nodes here state := by
    cases pos? with
    | none => trivial
    | some pos => exact ⟨_, found, follows⟩
  cases node with
  | goal => exact found
  | pass next | join next | openGroup slot next | closeGroup slot next =>
    exact ⟨_, found, List.mem_cons_self⟩
  | char c next | set negated items next | test condition next =>
    exact advance List.mem_cons_self _
  | choice alternatives =>
    rcases alternatives with _ | ⟨first, _ | ⟨second, others⟩⟩
    · trivial
    · exact ⟨_, found, List.mem_cons_self⟩
    · refine ⟨rfl, rfl, ⟨_, found, List.mem_cons_self⟩, ?_, ?_⟩
      · intro way mem
        exact ⟨_, found, List.mem_cons_of_mem _ mem⟩
      · intro node first others state same
        cases same
        rfl
  | loop quantifier body next => exact Loop.along_move found state _
  | lookahead negated groups body next => exact found

/-! ## Stacks -/

/-- Whether the walk that is in no lookahead goes on only at nodes that belong to the goal at place
0. -/
def HeldBy (owner : Nat → Nat) : List ChoicePoint → List Suspended → Prop
  | choices, [] => ∀ choice ∈ choices, ∀ way ∈ choice.ways, owner way = 0
  | _, outer :: suspended =>
    (suspended = [] → owner outer.next = 0) ∧ HeldBy owner outer.choices suspended

/-- What is so of the choice points and the suspended walks. -/
structure Kept (nodes : Array Node) (owner : Nat → Nat) (log : Array Event)
    (choices : List ChoicePoint) (suspended : List Suspended) : Prop where
  /-- all choice points were kept at forks -/
  covered : Covered nodes log (choices ++ suspended.flatMap (·.choices))
  /-- those outside of lookaheads belong to the goal of the pattern -/
  held : HeldBy owner choices suspended
  /-- where suspended walks go on, a visit leads to -/
  around : ∀ outer ∈ suspended, Reached nodes log outer.next
  /-- walks are suspended by lookaheads only -/
  look : suspended ≠ [] → LookAhead nodes

variable {nodes : Array Node} {owner : Nat → Nat} {log : Array Event} {choices : List ChoicePoint}
  {suspended : List Suspended}

theorem HeldBy.cons {choice : ChoicePoint} (h : HeldBy owner choices suspended)
    (own : suspended = [] → ∀ way ∈ choice.ways, owner way = 0) :
    HeldBy owner (choice :: choices) suspended := by
  cases suspended with
  | nil => exact List.forall_mem_cons.mpr ⟨own rfl, h⟩
  | cons outer suspended => exact h

theorem HeldBy.tail {choice : ChoicePoint} (h : HeldBy owner (choice :: choices) suspended) :
    HeldBy owner choices suspended ∧ (suspended = [] → ∀ way ∈ choice.ways, owner way = 0) := by
  cases suspended with
  | nil =>
    obtain ⟨own, others⟩ := List.forall_mem_cons.mp h
    exact ⟨others, fun _ => own⟩
  | cons outer suspended => exact ⟨h, nofun⟩

namespace Kept

/-- An event other than a backtrack makes no difference. -/
theorem note (h : Kept nodes owner log choices suspended) {event : Event}
    (other : event.kind ≠ .backtrack) : Kept nodes owner (log.push event) choices suspended :=
  ⟨h.covered.note other, h.held, fun outer mem => (h.around outer mem).push event, h.look⟩

/-- A fork keeps a choice point. -/
theorem keep (h : Kept nodes owner log choices suspended) {here : Nat} {choice : ChoicePoint}
    (kept : choice.KeptAt nodes here) (own : suspended = [] → ∀ way ∈ choice.ways, owner way = 0) :
    Kept nodes owner (log.push ⟨here, choice.pos, .fork⟩) (choice :: choices) suspended :=
  ⟨h.covered.keep kept, h.held.cons own, fun outer mem => (h.around outer mem).push _, h.look⟩

/-- A backtrack takes one up. -/
theorem take {choice : ChoicePoint} (h : Kept nodes owner log (choice :: choices) suspended)
    {way : Nat} (mem : way ∈ choice.ways) :
    Kept nodes owner (log.push ⟨way, choice.pos, .backtrack⟩) choices suspended ∧
      (suspended = [] → owner way = 0) := by
  obtain ⟨held, own⟩ := h.held.tail
  exact ⟨⟨h.covered.take mem, held, fun outer mem => (h.around outer mem).push _, h.look⟩,
    fun none => own none way mem⟩

/-- A backtrack takes one of several alternatives and keeps the others, as if it came to the choice
again. -/
theorem next {node first second : Nat} {others : List Nat} {state : State}
    (h : Kept nodes owner log (.alternatives node first (second :: others) state :: choices)
      suspended) :
    Kept nodes owner
        ((log.push ⟨node, state.pos, .fork⟩).push ⟨first, state.pos, .backtrack⟩)
        (.alternatives node second others state :: choices) suspended ∧
      (suspended = [] → owner first = 0) := by
  obtain ⟨here, kept⟩ := h.covered.keptAt
  obtain rfl := kept.same rfl
  obtain ⟨held, own⟩ := h.held.tail
  have rest : (ChoicePoint.alternatives node second others state).KeptAt nodes node := by
    refine ⟨?_, ?_⟩
    · exact fun way mem => kept.branches way (List.mem_cons_of_mem _ mem)
    · intro node first others state same
      cases same
      rfl
  have forked := h.covered.keep rest
  refine ⟨⟨forked.swap.take List.mem_cons_self, held.cons ?_, ?_, h.look⟩, ?_⟩
  · exact fun none way mem => own none way (List.mem_cons_of_mem _ mem)
  · exact fun outer mem => ((h.around outer mem).push _).push _
  · exact fun none => own none first List.mem_cons_self

/-- A lookahead suspends the walk and begins without choice points. -/
theorem enter (h : Kept nodes owner log choices suspended) {outer : Suspended}
    (same : outer.choices = choices) (reached : Reached nodes log outer.next)
    (own : suspended = [] → owner outer.next = 0) (look : LookAhead nodes) :
    Kept nodes owner log [] (outer :: suspended) := by
  subst same
  exact ⟨h.covered, ⟨own, h.held⟩, List.forall_mem_cons.mpr ⟨reached, h.around⟩, fun _ => look⟩

/-- At the end of a lookahead its choice points are given up. -/
theorem leave {outer : Suspended} (h : Kept nodes owner log choices (outer :: suspended)) :
    Kept nodes owner log outer.choices suspended ∧ (suspended = [] → owner outer.next = 0) ∧
      LedTo nodes log log.size outer.next := by
  have look := h.look (List.cons_ne_nil _ _)
  obtain ⟨reached, around⟩ := List.forall_mem_cons.mp h.around
  exact ⟨⟨h.covered.drop, h.held.2, around, fun _ => look⟩, h.held.1, reached.ledTo look⟩

end Kept

/-! ## Walks -/

/-- Whether a log is a record of a walk so far. -/
structure Walk.Recorded (nodes : Array Node) (owner : Nat → Nat) (entry start : Nat) (walk : Walk)
    (log : Array Event) : Prop where
  /-- the visits hang together -/
  trail : Trail nodes entry start log
  /-- and the next one goes on from them -/
  ready : Ready nodes entry start log walk.node walk.state.pos
  /-- outside of lookaheads it belongs to the goal of the pattern -/
  own : walk.suspended = [] → owner walk.node = 0
  /-- the choice points and suspended walks are recorded -/
  kept : Kept nodes owner log walk.choices walk.suspended

/-- Whether a log is a record of a walk that has ended. -/
structure Finished (nodes : Array Node) (entry start : Nat) (log : Array Event)
    (final : Option State) : Prop where
  /-- the visits hang together -/
  trail : Trail nodes entry start log
  /-- the last event is no backtrack -/
  settled : Settled log
  /-- backtracks are paired with forks -/
  paired : ∃ partner, Paired nodes log partner
  /-- if the walk succeeded, it has come to the goal at place 0 -/
  goal : ∀ {state}, final = some state →
    nodes[0]? = some .goal ∧ log.back? = some ⟨0, state.pos, .visit⟩

/-- Whether the log behind a step is a record of what it leads to. -/
def Next.Recorded (nodes : Array Node) (owner : Nat → Nat) (entry start : Nat) :
    Next (Array Event) → Prop
  | step walk log => walk.Recorded nodes owner entry start log
  | finish final log => Finished nodes entry start log final
  | overflow _ => True

variable {entry start : Nat}

/-- To go back is recorded. -/
theorem Walk.recorded_backtrack {task : Task} {depth : Nat} (trail : Trail nodes entry start log)
    (settled : Settled log) (kept : Kept nodes owner log choices suspended) :
    (backtrack Array.push task log choices depth suspended).Recorded nodes owner entry start := by
  fun_induction backtrack Array.push task log choices depth suspended with
  | case1 node state choices =>
    obtain ⟨kept, own⟩ := kept.take List.mem_cons_self
    exact ⟨trail.note settled (by simp), .resumed_push .., own, kept⟩
  | case2 node first state choices =>
    obtain ⟨kept, own⟩ := kept.take List.mem_cons_self
    exact ⟨trail.note settled (by simp), .resumed_push .., own, kept⟩
  | case3 => trivial
  | case4 node first second others state choices =>
    obtain ⟨kept, own⟩ := kept.next
    have forked : Trail nodes entry start (log.push ⟨node, state.pos, .fork⟩) :=
      trail.note settled (by simp)
    exact ⟨forked.note (settled_push log (by simp)) (by simp), .resumed_push .., own, kept⟩
  | case5 =>
    obtain ⟨partner, held, ledger, -⟩ := kept.covered
    exact ⟨trail, settled, ⟨partner, ledger.paired⟩, by simp⟩
  | case6 depth outer suspended negated =>
    obtain ⟨kept, own, led⟩ := kept.leave
    exact ⟨trail, .led settled led, own, kept⟩
  | case7 depth outer suspended positive ih => exact ih kept.leave.1

/-- **A step is recorded.** -/
theorem Walk.Recorded.step {task : Task} {walk : Walk} (owned : Owned task.graph.nodes owner)
    (h : walk.Recorded task.graph.nodes owner entry start log) :
    (walk.step Array.push task log).Recorded task.graph.nodes owner entry start := by
  obtain ⟨here, state, choices, depth, suspended⟩ := walk
  obtain ⟨trail, ready, own, kept⟩ := h
  have along := task.along_move here state
  have visited := trail.visit ready
  have settled : Settled (log.push ⟨here, state.pos, .visit⟩) := settled_push log (by simp)
  have noted : Kept task.graph.nodes owner (log.push ⟨here, state.pos, .visit⟩) choices suspended :=
    kept.note (by simp)
  -- what follows in the same walk belongs to the same goal
  have follows {node : Node} {next : Nat} (found : task.graph.nodes[here]? = some node)
      (mem : next ∈ node.onward) : suspended = [] → owner next = 0 :=
    fun none => (owned.onward found mem).trans (own none)
  have branch {way : Nat} (branches : Branches task.graph.nodes here way) :
      suspended = [] → owner way = 0 := by
    obtain ⟨node, found, mem⟩ := branches
    exact follows found (Node.mem_onward_of_branches mem)
  rw [step_eq_perform]
  dsimp only
  generalize task.move here state = move at along
  cases move with
  | goal =>
    simp only [Move.perform]
    split
    · have main : here = 0 := (owned.goal along).symm.trans (own rfl)
      subst main
      obtain ⟨partner, held, ledger, -⟩ := noted.covered
      refine ⟨visited, settled, ⟨partner, ledger.paired⟩, ?_⟩
      intro final same
      cases same
      exact ⟨along, Array.back?_push ..⟩
    · next outer suspended =>
      obtain ⟨kept, own, led⟩ := noted.leave
      split
      · exact recorded_backtrack visited settled kept
      · exact ⟨visited, .led settled led, own, kept⟩
  | stop => exact recorded_backtrack visited settled noted
  | go next after =>
    obtain ⟨node, found, mem⟩ := along
    have led : Leads task.graph.nodes here next :=
      ⟨node, found, Node.mem_successors_of_onward mem⟩
    exact ⟨visited, .led settled (ledTo_push led), follows found mem, noted⟩
  | fork next after other =>
    obtain ⟨afterPos, otherPos, branches, keptAt⟩ := along
    simp only [Move.perform, Walk.fork]
    split
    · trivial
    · obtain ⟨node, found, mem⟩ := branches
      have led : Leads task.graph.nodes here next :=
        ⟨node, found, Node.mem_successors_of_onward (Node.mem_onward_of_branches mem)⟩
      have forked := noted.keep keptAt fun none way mem => branch (keptAt.branches way mem) none
      rw [afterPos]
      rw [otherPos] at forked
      refine ⟨visited.note settled (by simp), .led (settled_push _ (by simp)) ?_, ?_, forked⟩
      · exact (ledTo_push led).note (by simp)
      · exact branch ⟨node, found, mem⟩
  | look negated groups body next =>
    have into : Leads task.graph.nodes here body := ⟨_, along, List.mem_cons_self⟩
    have behind : Leads task.graph.nodes here next :=
      ⟨_, along, List.mem_cons_of_mem _ List.mem_cons_self⟩
    have look : LookAhead task.graph.nodes := ⟨here, negated, groups, body, next, along⟩
    refine ⟨visited, .led settled (ledTo_push into), by simp, ?_⟩
    exact noted.enter rfl (reached_push behind) (follows along List.mem_cons_self) look

/-- **A whole walk is recorded.** -/
theorem finished_walkFrom {task : Task} {walk : Walk} (owned : Owned task.graph.nodes owner)
    (h : walk.Recorded task.graph.nodes owner entry start log) {left : Nat} {final : Option State}
    (ends : (walkFrom Array.push task left walk log).result = .ok final) :
    Finished task.graph.nodes entry start (walkFrom Array.push task left walk log).log final := by
  induction left generalizing walk log with
  | zero => cases ends
  | succ left ih =>
    have recorded := h.step owned
    rw [walkFrom_succ] at ends ⊢
    rcases hs : walk.step Array.push task log with ⟨after, log'⟩ | ⟨final', log'⟩ | log' <;>
      simp only [hs, Next.run] at recorded ends ⊢
    · exact ih recorded ends
    · cases ends
      exact recorded
    · cases ends

/-- Nothing has happened at the beginning of an attempt. -/
theorem Walk.recorded_enter (graph : Graph) (pos : Nat) (own : owner entry = 0) :
    (enter graph entry pos).Recorded nodes owner entry pos #[] :=
  ⟨trail_empty .., .first rfl rfl rfl, fun _ => own,
    ⟨covered_nil nodes, fun _ mem => absurd mem List.not_mem_nil,
      fun _ mem => absurd mem List.not_mem_nil, fun some => absurd rfl some⟩⟩

/-! ## Traces -/

/-- Whether a run is a record of a walk in the graph of a pattern. -/
structure Run.Records (run : Run) (pattern : NumberedPattern) (graph : Graph) : Prop where
  /-- it begins with a visit of the first node, at the place where the walk starts -/
  first : run.events[0]? = some ⟨graph.start, run.start, .visit⟩
  /-- a backtrack is followed by a visit of the same node at the same position -/
  resumed : ∀ {i node pos}, run.events[i]? = some ⟨node, pos, .backtrack⟩ →
    run.events[i + 1]? = some ⟨node, pos, .visit⟩
  /-- each backtrack has a fork of its own before it -/
  paired : ∃ partner, Paired graph.nodes run.events partner
  /-- at no time have there been more backtracks than forks -/
  balanced : ∀ n, (run.events.toList.take n).countP (·.kind == .backtrack) ≤
    (run.events.toList.take n).countP (·.kind == .fork)
  /-- all other visits are at a successor of a node that was visited before, which is the last one
  if the pattern does not look ahead -/
  led : ∀ {i node pos}, run.events[i + 1]? = some ⟨node, pos, .visit⟩ →
    ¬HappensAt run.events .backtrack i →
    ∃ j before pos', j ≤ i ∧ run.events[j]? = some ⟨before, pos', .visit⟩ ∧
      Leads graph.nodes before node ∧
      (¬pattern.tree.LooksAhead → ∀ k, j < k → k ≤ i → ¬HappensAt run.events .visit k)

/-- The log of a walk that has ended is a run that records it. -/
theorem Finished.records {pattern : NumberedPattern} {pos : Nat} {final : Option State}
    (h : Finished (Graph.ofPattern pattern).nodes (Graph.ofPattern pattern).start pos log final)
    (succeeded : Bool) : Run.Records ⟨pos, log, succeeded⟩ pattern (.ofPattern pattern) := by
  obtain ⟨last, size, other⟩ := h.settled
  obtain ⟨partner, paired⟩ := h.paired
  refine ⟨?_, ?_, ⟨partner, paired⟩, paired.countP_le, ?_⟩
  · have there := Array.getElem?_eq_getElem (show 0 < log.size by omega)
    exact there.trans (congrArg some (h.trail.first there))
  · -- something follows each backtrack, since it is not the last event
    intro i node pos backtrack
    have inside : i < log.size := (Array.getElem?_eq_some_iff.mp backtrack).1
    have ne : i ≠ last := by
      rintro rfl
      exact other ⟨node, pos, backtrack⟩
    exact h.trail.resumed backtrack (by omega)
  · intro i node pos visit none
    obtain ⟨j, before, pos', lt, there, leads, between⟩ := h.trail.led visit none
    refine ⟨j, before, pos', Nat.le_of_lt_succ lt, there, leads, ?_⟩
    intro plain k after le
    exact between (Graph.not_lookAhead_ofPattern plain) k after (Nat.lt_succ_of_le le)

namespace Regex

variable {regex : Regex} {text : String} {pattern : NumberedPattern} {start : Nat}
  {mode : Mode} {outcome : Outcome}

/-- **A trace is a record of the search.** From any place in the text, with any flags and limits, it
has one run. The run starts at the next boundary, records a walk in the graph of the pattern, and
has succeeded if there is a match; then the goal at place 0 is visited last, where the match
ends. -/
theorem records_of_trace (graph : regex.graph = .ofPattern pattern)
    (inside : start ≤ text.utf8ByteSize) (traced : regex.trace text start mode = .ok outcome) :
    ∃ run pos, Text.roundUp? text start = some pos ∧ outcome.trace = some ⟨[run]⟩ ∧
      run.start = pos ∧ run.succeeded = outcome.matched ∧ run.Records pattern regex.graph ∧
      (outcome.matched = true → regex.graph.nodes[0]? = some .goal ∧
        run.events.back? = some ⟨0, outcome.stop, .visit⟩) := by
  obtain ⟨beyond, -⟩ | ⟨pos, final, rounded, ends, rfl⟩ := trace_eq_ok traced
  · rw [Text.roundUp?, if_pos inside] at beyond
    cases beyond
  obtain ⟨owner, owned, own⟩ := Graph.exists_owned pattern
  rw [← graph] at owned own
  have finished : Finished regex.graph.nodes regex.graph.start pos
      (regex.traced text mode pos).log final :=
    finished_walkFrom owned (Walk.recorded_enter regex.graph pos own) ends
  refine ⟨⟨pos, (regex.traced text mode pos).log, final.isSome⟩, pos, rounded,
    Outcome.trace_ofFinal .., rfl, ?_, ?_, ?_⟩
  · cases final <;> rfl
  · rw [graph] at finished ⊢
    exact finished.records _
  · intro matched
    cases final with
    | none => cases matched
    | some state => exact finished.goal rfl

theorem records_of_trace_lookahead :
    let pattern : NumberedPattern :=
      ⟨.seq [.group ⟨1, 1⟩ .lookahead (.choice [.char 'a', .char 'b']), .char 'b'], 0, 0⟩
    let regex : Regex := ⟨.ofPattern pattern, ⟨false, false, false⟩, ⟨50, 4⟩⟩
    let run : Run := ⟨0, #[⟨10, 0, .visit⟩, ⟨10, 0, .fork⟩, ⟨9, 0, .visit⟩, ⟨8, 0, .visit⟩,
      ⟨7, 0, .visit⟩, ⟨7, 0, .fork⟩, ⟨5, 0, .visit⟩, ⟨4, 1, .visit⟩, ⟨3, 1, .visit⟩,
      ⟨2, 0, .visit⟩, ⟨11, 0, .backtrack⟩, ⟨11, 0, .visit⟩, ⟨10, 1, .visit⟩, ⟨10, 1, .fork⟩,
      ⟨9, 1, .visit⟩, ⟨8, 1, .visit⟩, ⟨7, 1, .visit⟩, ⟨7, 1, .fork⟩, ⟨5, 1, .visit⟩,
      ⟨6, 1, .backtrack⟩, ⟨6, 1, .visit⟩, ⟨4, 2, .visit⟩, ⟨3, 2, .visit⟩, ⟨2, 1, .visit⟩,
      ⟨1, 2, .visit⟩, ⟨0, 2, .visit⟩], true⟩
    let outcome : Outcome := ⟨true, 2, #[some "b"], some ⟨[run]⟩⟩
    NumberedPattern.parse "(?=a|b)b" = .ok pattern ∧
      regex.trace "ab" 0 ⟨false, false⟩ = .ok outcome ∧ run.Records pattern regex.graph ∧
      (∃ j before pos, j ≤ 8 ∧ run.events[j]? = some ⟨before, pos, .visit⟩ ∧
        Leads regex.graph.nodes before 2) ∧
      regex.graph.nodes[0]? = some .goal ∧ run.events.back? = some ⟨0, 2, .visit⟩ := by
  intro pattern regex run outcome
  have parsed : NumberedPattern.parse "(?=a|b)b" = .ok pattern := rfl
  have graph : regex.graph = .ofPattern pattern := rfl
  have traced : regex.trace "ab" 0 ⟨false, false⟩ = .ok outcome := by cbv
  obtain ⟨run', pos, -, kept, -, -, records, goal⟩ := records_of_trace graph (by decide) traced
  cases kept
  -- the lookahead is left from its goal, which does not lead behind it
  have behind : run.events[9]? = some ⟨2, 0, .visit⟩ := rfl
  have other : ¬HappensAt run.events .backtrack 8 := by
    rintro ⟨node, pos, there⟩
    cases there
  obtain ⟨j, before, pos', le, there, leads, -⟩ := records.led behind other
  exact ⟨parsed, traced, records, ⟨j, before, pos', le, there, leads⟩, goal rfl⟩

end Regex

end BacktrackRegex
