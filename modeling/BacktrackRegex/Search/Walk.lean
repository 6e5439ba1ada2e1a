import BacktrackRegex.Search.State
import BacktrackRegex.Search.Trace

/-!
# Walking a graph with backtracking

A `Walk` is an attempt at a match, caught between two steps: the node to visit next, the state in
which it is reached, and the choice points, where the walk can go on in another way if this one
fails. `Walk.step` visits one node, and `walkFrom` repeats it until the walk reaches the goal, runs
out of choice points, or hits a limit.

A lookahead is a walk within the walk. Its body starts without choice points, while the walk around
it is suspended; when the body reaches its goal, or has no choice point left, the suspended walk
goes on and the choice points of the body are forgotten.

Two limits bound the work. An attempt may take only so many steps, and it may hold only so many
choice points at a time, where those of suspended walks count as well and each suspended walk
counts as one more.
-/

namespace BacktrackRegex

/-! ## What an attempt is given -/

/-- Bounds on the work of one search. -/
structure Limits where
  /-- the greatest number of steps -/
  steps : Nat
  /-- the greatest number of choice points held at a time -/
  depth : Nat
  deriving DecidableEq, Repr

/-- A bound that a search can hit. -/
inductive Limit where
  /-- the number of steps -/
  | steps
  /-- the number of choice points -/
  | depth
  deriving DecidableEq, Repr

/-- What stays the same during a search. -/
structure Task where
  /-- the pattern -/
  graph : Graph
  /-- the text that is searched -/
  text : String
  /-- how characters and line ends are taken -/
  mode : Mode
  /-- bounds on the work -/
  limits : Limits

/-! ## Walks -/

/-- A place from which a walk can go on in another way. -/
inductive ChoicePoint where
  /-- go on at a node -/
  | resume (node : Nat) (state : State)
  /-- take the alternative `first` of the choice at `node`, and hold the others -/
  | alternatives (node first : Nat) (others : List Nat) (state : State)

/-- A walk that waits while the body of a lookahead is matched. -/
structure Suspended where
  /-- whether the body must not match -/
  negated : Bool
  /-- the groups inside the lookahead -/
  groups : GroupRange
  /-- the node after the lookahead -/
  next : Nat
  /-- the state at the lookahead -/
  state : State
  /-- the choice points of this walk, last first -/
  choices : List ChoicePoint
  /-- the depth at which this walk was suspended -/
  depth : Nat

/-- An attempt between two steps. -/
structure Walk where
  /-- the node to visit -/
  node : Nat
  /-- the state in which it is reached -/
  state : State
  /-- the choice points, last first -/
  choices : List ChoicePoint
  /-- the number of these choice points, of those of the suspended walks, and of suspended walks -/
  depth : Nat
  /-- the walks around this one, innermost first -/
  suspended : List Suspended

/-- What a step leads to, with the log of the events so far. -/
inductive Next (σ : Type) where
  /-- another step -/
  | step (walk : Walk) (log : σ)
  /-- the end: the state in which the goal was reached, if it was -/
  | finish (final : Option State) (log : σ)
  /-- there are too many choice points -/
  | overflow (log : σ)

namespace Walk

/-- The walk that enters a graph at a position. -/
def enter (graph : Graph) (entry pos : Nat) : Walk :=
  ⟨entry, .initial graph pos, [], 0, []⟩

variable {σ : Type}

/-- Go back to the last choice point. Where there is none, a lookahead's body has failed, and the
walk around it goes on or goes back in its turn. -/
@[specialize] def backtrack (observe : σ → Event → σ) (task : Task) (log : σ) :
    List ChoicePoint → Nat → List Suspended → Next σ
  | .resume node state :: choices, depth, suspended =>
    .step ⟨node, state, choices, depth - 1, suspended⟩ (observe log ⟨node, state.pos, .backtrack⟩)
  | .alternatives _ first [] state :: choices, depth, suspended =>
    .step ⟨first, state, choices, depth - 1, suspended⟩
      (observe log ⟨first, state.pos, .backtrack⟩)
  | .alternatives node first (second :: others) state :: choices, depth, suspended =>
    if task.limits.depth < depth then
      .overflow log
    else
      let log := observe log ⟨node, state.pos, .fork⟩
      .step ⟨first, state, .alternatives node second others state :: choices, depth, suspended⟩
        (observe log ⟨first, state.pos, .backtrack⟩)
  | [], _, [] => .finish none log
  | [], _, outer :: suspended =>
    if outer.negated then
      .step ⟨outer.next, outer.state, outer.choices, outer.depth, suspended⟩ log
    else
      backtrack observe task log outer.choices outer.depth suspended

/-- Go on with a walk and hold a choice point of the node `here`, if there is room. -/
@[inline] def fork (observe : σ → Event → σ) (task : Task) (log : σ) (here : Nat)
    (choice : ChoicePoint) (walk : Walk) : Next σ :=
  if task.limits.depth ≤ walk.depth then
    .overflow log
  else
    .step { walk with choices := choice :: walk.choices, depth := walk.depth + 1 }
      (observe log ⟨here, walk.state.pos, .fork⟩)

/-- Visit the node of a walk. -/
@[specialize] def step (observe : σ → Event → σ) (task : Task) : Walk → σ → Next σ
  | ⟨here, state, choices, depth, suspended⟩, log =>
    let log := observe log ⟨here, state.pos, .visit⟩
    match task.graph.nodes[here]? with
    | none => backtrack observe task log choices depth suspended
    | some .goal =>
      match suspended with
      | [] => .finish (some state) log
      | outer :: suspended =>
        if outer.negated then
          backtrack observe task log outer.choices outer.depth suspended
        else
          let state := outer.state.adopt state outer.groups
          .step ⟨outer.next, state, outer.choices, outer.depth, suspended⟩ log
    | some (.pass next) => .step ⟨next, state, choices, depth, suspended⟩ log
    | some (.join next) => .step ⟨next, state, choices, depth, suspended⟩ log
    | some (.char c next) =>
      match Text.afterChar? task.text (Text.sameLetter task.mode.fold · c) state.pos with
      | some pos => .step ⟨next, state.moveTo pos, choices, depth, suspended⟩ log
      | none => backtrack observe task log choices depth suspended
    | some (.set negated items next) =>
      match Text.afterChar? task.text (accepts task.mode.fold negated items) state.pos with
      | some pos => .step ⟨next, state.moveTo pos, choices, depth, suspended⟩ log
      | none => backtrack observe task log choices depth suspended
    | some (.choice []) => backtrack observe task log choices depth suspended
    | some (.choice [only]) => .step ⟨only, state, choices, depth, suspended⟩ log
    | some (.choice (first :: second :: others)) =>
      fork observe task log here (.alternatives here second others state)
        ⟨first, state, choices, depth, suspended⟩
    | some (.openGroup slot next) =>
      .step ⟨next, state.openGroup slot, choices, depth, suspended⟩ log
    | some (.closeGroup slot next) =>
      .step ⟨next, state.closeGroup slot, choices, depth, suspended⟩ log
    | some (.loop loop body next) =>
      match state.completed? loop with
      | none => backtrack observe task log choices depth suspended
      | some completed =>
        if completed < loop.min then
          .step ⟨body, state.beginIteration loop completed, choices, depth, suspended⟩ log
        else if loop.isFull completed then
          .step ⟨next, state.leaveLoop loop, choices, depth, suspended⟩ log
        else if loop.greedy then
          fork observe task log here (.resume next (state.leaveLoop loop))
            ⟨body, state.beginIteration loop completed, choices, depth, suspended⟩
        else
          fork observe task log here (.resume body (state.beginIteration loop completed))
            ⟨next, state.leaveLoop loop, choices, depth, suspended⟩
    | some (.lookahead negated groups body next) =>
      let outer : Suspended := ⟨negated, groups, next, state, choices, depth⟩
      .step ⟨body, state, [], depth + 1, outer :: suspended⟩ log
    | some (.test condition next) =>
      match condition.after? task.text task.mode state.captures state.pos with
      | some pos => .step ⟨next, state.moveTo pos, choices, depth, suspended⟩ log
      | none => backtrack observe task log choices depth suspended

end Walk

/-! ## Whole walks -/

/-- How a walk ended. -/
structure Ending (σ : Type) where
  /-- the state in which the goal was reached, if it was, or the limit that was hit -/
  result : Except Limit (Option State)
  /-- how many steps are left -/
  left : Nat
  /-- the log of the events -/
  log : σ

/-- Walk on, with a number of steps left. -/
@[specialize] def walkFrom {σ : Type} (observe : σ → Event → σ) (task : Task) :
    Nat → Walk → σ → Ending σ
  | 0, _, log => ⟨.error .steps, 0, log⟩
  | left + 1, walk, log =>
    match walk.step observe task log with
    | .step walk log => walkFrom observe task left walk log
    | .finish final log => ⟨.ok final, left, log⟩
    | .overflow log => ⟨.error .depth, left, log⟩

/-- A walk uses up the steps it takes. -/
theorem left_walkFrom_le {σ : Type} (observe : σ → Event → σ) (task : Task) (left : Nat)
    (walk : Walk) (log : σ) : (walkFrom observe task left walk log).left ≤ left := by
  induction left generalizing walk log with
  | zero => exact Nat.le_refl 0
  | succ left ih =>
    rw [walkFrom]
    split
    · exact Nat.le_succ_of_le (ih _ _)
    · exact Nat.le_succ left
    · exact Nat.le_succ left

namespace Task

/-- Walk from an entry of the graph, without a log. -/
def attempt (task : Task) (entry pos left : Nat) : Ending Unit :=
  walkFrom (fun _ _ => ()) task left (.enter task.graph entry pos) ()

/-- Walk from an entry of the graph and log all events. -/
def attemptLogged (task : Task) (entry pos left : Nat) : Ending (Array Event) :=
  walkFrom Array.push task left (.enter task.graph entry pos) #[]

end Task

end BacktrackRegex
