import BacktrackRegex.Search.Walk

/-!
# What a node does in a step

A step has two sides. The node looks at nothing but the state and says how the walk goes on, which
is a `Move`. What a move means for the choice points and the suspended walks is the same for all
nodes.

* `Task.move` is the first side and `Move.perform` the second; `step_eq_perform` joins them, so that
  facts about steps need a case for each move and not for each node.
* `walkFrom_succ` unrolls a walk by one step.
* `step_forget` and `walkFrom_forget`: what is observed has no influence.
-/

namespace BacktrackRegex

/-- How a walk goes on from a node. -/
inductive Move where
  /-- the goal is reached -/
  | goal
  /-- there is no way on -/
  | stop
  /-- on at a node -/
  | go (next : Nat) (state : State)
  /-- on at a node, while another way is held -/
  | fork (next : Nat) (state : State) (other : ChoicePoint)
  /-- into the body of a lookahead -/
  | look (negated : Bool) (groups : GroupRange) (body next : Nat)

namespace Move

variable {σ : Type}

/-- On to the position behind what was asked for, if it is there. -/
def advance (next : Nat) (state : State) : Option Nat → Move
  | some pos => go next (state.moveTo pos)
  | none => stop

/-- Make a move. -/
def perform (observe : σ → Event → σ) (task : Task) (log : σ) (walk : Walk) : Move → Next σ
  | goal =>
    match walk.suspended with
    | [] => .finish (some walk.state) log
    | outer :: suspended =>
      if outer.negated then
        Walk.backtrack observe task log outer.choices outer.depth suspended
      else
        .step ⟨outer.next, outer.state.adopt walk.state outer.groups, outer.choices, outer.depth,
          suspended⟩ log
  | stop => Walk.backtrack observe task log walk.choices walk.depth walk.suspended
  | go next state => .step ⟨next, state, walk.choices, walk.depth, walk.suspended⟩ log
  | fork next state other =>
    Walk.fork observe task log walk.node other
      ⟨next, state, walk.choices, walk.depth, walk.suspended⟩
  | look negated groups body next =>
    .step ⟨body, walk.state, [], walk.depth + 1,
      ⟨negated, groups, next, walk.state, walk.choices, walk.depth⟩ :: walk.suspended⟩ log

end Move

theorem Loop.isFull_iff {loop : Loop} {completed : Nat} :
    loop.isFull completed = true ↔ loop.max = some completed := by
  rw [isFull]
  rcases loop.max with _ | max
  · simp
  · simp only [beq_iff_eq, Option.some.injEq]
    exact eq_comm

/-- The move of a quantifier, by the number of completed iterations. -/
def Loop.move (loop : Loop) (body next : Nat) (state : State) : Option Nat → Move
  | none => .stop
  | some completed =>
    if completed < loop.min then .go body (state.beginIteration loop completed)
    else if loop.isFull completed then .go next (state.leaveLoop loop)
    else if loop.greedy then
      .fork body (state.beginIteration loop completed) (.resume next (state.leaveLoop loop))
    else .fork next (state.leaveLoop loop) (.resume body (state.beginIteration loop completed))

/-- The move of a node that is visited as `here`. -/
def Node.move (text : String) (mode : Mode) (here : Nat) (state : State) : Node → Move
  | goal => .goal
  | pass next | join next => .go next state
  | char c next =>
    .advance next state (Text.afterChar? text (Text.sameLetter mode.fold · c) state.pos)
  | set negated items next =>
    .advance next state (Text.afterChar? text (accepts mode.fold negated items) state.pos)
  | choice [] => .stop
  | choice [only] => .go only state
  | choice (first :: second :: others) =>
    .fork first state (.alternatives here second others state)
  | openGroup slot next => .go next (state.openGroup slot)
  | closeGroup slot next => .go next (state.closeGroup slot)
  | loop quantifier body next =>
    quantifier.move body next state (state.completed? quantifier)
  | lookahead negated groups body next => .look negated groups body next
  | test condition next =>
    .advance next state (condition.after? text mode state.captures state.pos)

/-- The move from a node of the graph; from a node that does not exist there is no way on. -/
def Task.move (task : Task) (here : Nat) (state : State) : Move :=
  match task.graph.nodes[here]? with
  | none => .stop
  | some node => node.move task.text task.mode here state

theorem Task.move_of_getElem? {task : Task} {here : Nat} {node : Node}
    (h : task.graph.nodes[here]? = some node) (state : State) :
    task.move here state = node.move task.text task.mode here state := by
  rw [move, h]

variable {σ : Type}

/-- A step is the move of its node. -/
theorem Walk.step_eq_perform (observe : σ → Event → σ) (task : Task) (walk : Walk) (log : σ) :
    walk.step observe task log =
      (task.move walk.node walk.state).perform observe task
        (observe log ⟨walk.node, walk.state.pos, .visit⟩) walk := by
  obtain ⟨here, state, choices, depth, suspended⟩ := walk
  simp only [step, Task.move]
  rcases task.graph.nodes[here]? with _ | node
  · rfl
  · cases node with
    | goal => cases suspended <;> rfl
    | char c next =>
      simp only [Node.move]
      rcases Text.afterChar? task.text (Text.sameLetter task.mode.fold · c) state.pos <;> rfl
    | set negated items next =>
      simp only [Node.move]
      rcases Text.afterChar? task.text (accepts task.mode.fold negated items) state.pos <;> rfl
    | choice alternatives =>
      match alternatives with
      | [] | [_] | _ :: _ :: _ => rfl
    | loop quantifier body next =>
      simp only [Node.move, Loop.move]
      rcases state.completed? quantifier with _ | completed
      · rfl
      · dsimp only
        split
        · rfl
        · split
          · rfl
          · split <;> rfl
    | test condition next =>
      simp only [Node.move]
      rcases condition.after? task.text task.mode state.captures state.pos <;> rfl
    | _ => rfl

/-! ## Walks -/

/-- Walk on after a step, with a number of steps left. -/
def Next.run (observe : σ → Event → σ) (task : Task) (left : Nat) : Next σ → Ending σ
  | step walk log => walkFrom observe task left walk log
  | finish final log => ⟨.ok final, left, log⟩
  | overflow log => ⟨.error .depth, left, log⟩

theorem walkFrom_succ (observe : σ → Event → σ) (task : Task) (left : Nat) (walk : Walk)
    (log : σ) :
    walkFrom observe task (left + 1) walk log =
      (walk.step observe task log).run observe task left := by
  rw [walkFrom]
  rcases walk.step observe task log <;> rfl

/-! ## Without a log -/

/-- What a step leads to, without the log. -/
def Next.forget : Next σ → Next Unit
  | step walk _ => step walk ()
  | finish final _ => finish final ()
  | overflow _ => overflow ()

/-- Observe nothing. -/
abbrev ignore : Unit → Event → Unit := fun _ _ => ()

theorem Walk.backtrack_forget (observe : σ → Event → σ) (task : Task) (log : σ)
    (choices : List ChoicePoint) (depth : Nat) (suspended : List Suspended) :
    (backtrack observe task log choices depth suspended).forget =
      backtrack ignore task () choices depth suspended := by
  fun_induction backtrack observe task log choices depth suspended with
  | case1 | case2 | case5 => rw [backtrack]; rfl
  | case3 node first second others state choices depth suspended full =>
    rw [backtrack, if_pos full]
    rfl
  | case4 node first second others state choices depth suspended room =>
    rw [backtrack, if_neg room]
    rfl
  | case6 depth outer suspended negated =>
    rw [backtrack, if_pos negated]
    rfl
  | case7 depth outer suspended positive ih => rw [backtrack, if_neg positive, ih]

/-- A step does the same whatever is observed. -/
theorem Walk.step_forget (observe : σ → Event → σ) (task : Task) (walk : Walk) (log : σ) :
    (walk.step observe task log).forget = walk.step ignore task () := by
  rw [step_eq_perform, step_eq_perform]
  cases task.move walk.node walk.state with
  | goal =>
    simp only [Move.perform]
    split
    · rfl
    · split
      · exact backtrack_forget ..
      · rfl
  | stop => exact backtrack_forget ..
  | go next state => rfl
  | fork next state other =>
    simp only [Move.perform, fork]
    split <;> rfl
  | look negated groups body next => rfl

/-- A walk ends in the same way whatever is observed. -/
theorem walkFrom_forget (observe : σ → Event → σ) (task : Task) (left : Nat) (walk : Walk)
    (log : σ) :
    (walkFrom observe task left walk log).result = (walkFrom ignore task left walk ()).result ∧
      (walkFrom observe task left walk log).left = (walkFrom ignore task left walk ()).left := by
  induction left generalizing walk log with
  | zero => exact ⟨rfl, rfl⟩
  | succ left ih =>
    rw [walkFrom_succ, walkFrom_succ, ← walk.step_forget observe task log]
    rcases walk.step observe task log with ⟨walk, log⟩ | _ | _
    · exact ih walk log
    · exact ⟨rfl, rfl⟩
    · exact ⟨rfl, rfl⟩

end BacktrackRegex
