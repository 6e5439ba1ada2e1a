import BacktrackRegex.Proofs.Graph.Closed
import BacktrackRegex.Proofs.Search.Move
import BacktrackRegex.Proofs.Text.Literal

/-!
# States that fit a text and a graph

A state is `Sound` if it has a slot for all that the graph uses, and all offsets in it lie between
characters of the text: the position, where groups were opened, and both ends of what was captured,
which are in order. Nothing that a node does to a state takes this away, and each walk keeps it for
all states that it holds (`Walk.Safe`), in the graph of a pattern that was read.

`Walk.Safe.step` is the step lemma, `Task.Reaches.safe` the one about whole runs.
-/

namespace BacktrackRegex

/-! ## Sound states -/

/-- Whether a span reaches from one place between characters to another that is not before it. -/
structure Span.Cuts (span : Span) (text : String) : Prop where
  /-- it begins between characters -/
  start : Text.isBoundary text span.start = true
  /-- it ends between characters -/
  stop : Text.isBoundary text span.stop = true
  /-- the end is not before the beginning -/
  ordered : span.start ≤ span.stop

namespace State

/-- Whether a state has the slots of a graph, and all its offsets lie between characters. -/
structure Sound (state : State) (graph : Graph) (text : String) : Prop where
  /-- there are slots for all groups and quantifiers -/
  fits : state.Fits graph
  /-- the position -/
  pos : Text.isBoundary text state.pos = true
  /-- where the open groups began -/
  opened : ∀ (slot start : Nat), state.opened[slot]? = some (some start) →
    Text.isBoundary text start = true ∧ start ≤ state.pos
  /-- what the groups captured -/
  captures : ∀ (slot : Nat) (span : Span), state.captures[slot]? = some (some span) →
    span.Cuts text

variable {state : State} {graph : Graph} {text : String}

theorem sound_initial {pos : Nat} (h : Text.isBoundary text pos = true) :
    (initial graph pos).Sound graph text := by
  refine ⟨fits_initial graph pos, h, fun slot start held => ?_, fun slot span held => ?_⟩
  · simp only [initial, Array.getElem?_replicate] at held
    split at held <;> cases held
  · simp only [initial, Array.getElem?_replicate] at held
    split at held <;> cases held

/-- To move on keeps a state sound. -/
theorem Sound.moveTo (h : state.Sound graph text) {pos : Nat}
    (boundary : Text.isBoundary text pos = true) (le : state.pos ≤ pos) :
    (state.moveTo pos).Sound graph text :=
  ⟨h.fits.moveTo pos, boundary,
    fun slot start held =>
      ⟨(h.opened slot start held).1, Nat.le_trans (h.opened slot start held).2 le⟩,
    h.captures⟩

theorem Sound.openGroup (h : state.Sound graph text) (slot : Nat) :
    (state.openGroup slot).Sound graph text := by
  refine ⟨h.fits.openGroup slot, h.pos, fun g start held => ?_, h.captures⟩
  simp only [State.openGroup, Array.getElem?_setIfInBounds] at held
  split at held
  · split at held
    · cases held
      exact ⟨h.pos, Nat.le_refl _⟩
    · cases held
  · exact h.opened g start held

theorem Sound.closeGroup (h : state.Sound graph text) (slot : Nat) :
    (state.closeGroup slot).Sound graph text := by
  have fits := h.fits.closeGroup slot
  rcases hs : state.opened[slot]?.join with _ | start
  · rwa [State.closeGroup, hs]
  · have begun := h.opened slot start (Option.join_eq_some_iff.mp hs)
    simp only [State.closeGroup, hs] at fits ⊢
    refine ⟨fits, h.pos, fun g start' held => ?_, fun g span held => ?_⟩
    · simp only [Array.getElem?_setIfInBounds] at held
      split at held
      · split at held <;> cases held
      · exact h.opened g start' held
    · simp only [Array.getElem?_setIfInBounds] at held
      split at held
      · split at held
        · cases held
          exact ⟨begun.1, h.pos, begun.2⟩
        · cases held
      · exact h.captures g span held

theorem Sound.beginIteration (h : state.Sound graph text) (loop : Loop) (completed : Nat) :
    (state.beginIteration loop completed).Sound graph text := by
  refine ⟨h.fits.beginIteration loop completed, h.pos, fun g start held => ?_,
    fun g span held => ?_⟩
  · simp only [State.beginIteration, GroupRange.getElem?_clear] at held
    split at held
    · cases held
    · exact h.opened g start held
  · simp only [State.beginIteration, GroupRange.getElem?_clear] at held
    split at held
    · cases held
    · exact h.captures g span held

theorem Sound.leaveLoop (h : state.Sound graph text) (loop : Loop) :
    (state.leaveLoop loop).Sound graph text :=
  ⟨h.fits.leaveLoop loop, h.pos, h.opened, h.captures⟩

/-- What a lookahead captured is as good as what was captured before. -/
theorem Sound.adopt {inner : State} (h : state.Sound graph text) (inside : inner.Sound graph text)
    (groups : GroupRange) : (state.adopt inner groups).Sound graph text := by
  refine ⟨h.fits.adopt inner groups, h.pos, h.opened, fun g span held => ?_⟩
  simp only [State.adopt, GroupRange.getElem?_copy] at held
  split at held
  · exact inside.captures g span (Option.join_eq_some_iff.mp (Option.some.inj held))
  · exact h.captures g span held

end State

/-- A test that passes leads on, and from between characters to between characters. -/
theorem Test.of_after? {condition : Test} {text : String} {mode : Mode}
    {captures : Array (Option Span)} {pos next : Nat}
    (h : condition.after? text mode captures pos = some next)
    (boundary : Text.isBoundary text pos = true) :
    Text.isBoundary text next = true ∧ pos ≤ next := by
  have stay {passes : Bool} (h : (if passes then some pos else none) = some next) :
      Text.isBoundary text next = true ∧ pos ≤ next := by
    split at h
    · cases h
      exact ⟨boundary, Nat.le_refl _⟩
    · cases h
  cases condition with
  | lineStart | lineEnd | wordBoundary inverted => exact stay h
  | backreference g =>
    simp only [after?] at h
    split at h
    · cases h
      exact ⟨boundary, Nat.le_refl _⟩
    · exact ⟨Text.isBoundary_of_afterLiteral? h boundary, (Text.le_of_afterLiteral? h).1⟩

/-! ## Safe walks -/

/-- Whether a node exists and a state in which it is visited is sound. -/
structure Task.Safe (task : Task) (node : Nat) (state : State) : Prop where
  /-- the node is one of the graph -/
  node : node < task.graph.nodes.size
  /-- the state fits the graph and the text -/
  state : state.Sound task.graph task.text

/-- Whether a choice point leads to a node that exists, in a sound state. One that holds
alternatives names a choice, and they are the ways of that choice from a certain one on. -/
def ChoicePoint.Safe (task : Task) : ChoicePoint → Prop
  | resume node state => task.Safe node state
  | alternatives node first others state =>
    task.Safe node state ∧ ∃ ways index, task.graph.nodes[node]? = some (.choice ways) ∧
      index < ways.length ∧ ways.drop index = first :: others

/-- Whether a suspended walk is safe to go on with. -/
structure Suspended.Safe (task : Task) (outer : Suspended) : Prop where
  /-- it goes on at a node that exists, in a sound state -/
  safe : task.Safe outer.next outer.state
  /-- there are slots for the groups that it takes over -/
  groups : outer.groups.Within task.graph.slots
  /-- its choice points are safe -/
  choices : ∀ choice ∈ outer.choices, choice.Safe task

/-- Whether all nodes and states that a walk holds are safe. -/
structure Walk.Safe (task : Task) (walk : Walk) : Prop where
  /-- what is visited next -/
  current : task.Safe walk.node walk.state
  /-- the choice points -/
  choices : ∀ choice ∈ walk.choices, choice.Safe task
  /-- the walks around -/
  suspended : ∀ outer ∈ walk.suspended, outer.Safe task

/-- Whether a move leads to what is safe. -/
def Move.Safe (task : Task) (state : State) : Move → Prop
  | goal | stop => True
  | go next after => task.Safe next after
  | fork next after other => task.Safe next after ∧ other.Safe task
  | look _ groups body next =>
    task.Safe body state ∧ task.Safe next state ∧ groups.Within task.graph.slots

variable {task : Task} {state : State}

theorem Task.Safe.of_successor {here next : Nat} {node : Node} (closed : task.graph.Closed)
    (found : task.graph.nodes[here]? = some node) (follows : next ∈ node.successors)
    (sound : state.Sound task.graph task.text) : task.Safe next state :=
  ⟨(closed.nodes here node found).successors next follows, sound⟩

/-- The alternatives of a choice point exist. -/
theorem ChoicePoint.Safe.first {node first : Nat} {others : List Nat} (closed : task.graph.Closed)
    (h : (ChoicePoint.alternatives node first others state).Safe task) :
    task.Safe first state := by
  obtain ⟨here, ways, index, found, -, rest⟩ := h
  have mem : first ∈ ways.drop index := by
    rw [rest]
    exact List.mem_cons_self
  exact .of_successor closed found (List.mem_of_mem_drop mem) here.state

/-- What is left of the alternatives is safe to hold. -/
theorem ChoicePoint.Safe.others {node first second : Nat} {others : List Nat}
    (h : (ChoicePoint.alternatives node first (second :: others) state).Safe task) :
    (ChoicePoint.alternatives node second others state).Safe task := by
  obtain ⟨here, ways, index, found, -, rest⟩ := h
  have next : ways.drop (index + 1) = second :: others := by
    rw [← List.drop_drop, rest]
    rfl
  refine ⟨here, ways, index + 1, found, ?_, next⟩
  have := congrArg List.length next
  simp only [List.length_drop, List.length_cons] at this
  omega

/-- The moves of a quantifier. -/
theorem Loop.safe_move {loop : Loop} {body next : Nat} (completed? : Option Nat)
    (inside : ∀ after : State, after.Sound task.graph task.text → task.Safe body after)
    (behind : ∀ after : State, after.Sound task.graph task.text → task.Safe next after)
    (sound : state.Sound task.graph task.text) :
    (loop.move body next state completed?).Safe task state := by
  have again (completed : Nat) := inside _ (sound.beginIteration loop completed)
  have leave := behind _ (sound.leaveLoop loop)
  cases completed? with
  | none => trivial
  | some completed =>
    simp only [move]
    split
    · exact again completed
    split
    · exact leave
    split
    · exact ⟨again completed, leave⟩
    · exact ⟨leave, again completed⟩

/-- **Every node leads from a sound state to what is safe.** -/
theorem Task.Safe.move {here : Nat} (closed : task.graph.Closed) (h : task.Safe here state) :
    (task.move here state).Safe task state := by
  obtain ⟨inside, sound⟩ := h
  have found := Array.getElem?_eq_getElem inside
  generalize task.graph.nodes[here] = node at found
  rw [task.move_of_getElem? found]
  -- a character that is read leads on, and to between characters
  have read {passes : Char → Bool} {next : Nat} (follows : next ∈ node.successors) :
      (Move.advance next state (Text.afterChar? task.text passes state.pos)).Safe task state := by
    rcases hr : Text.afterChar? task.text passes state.pos with _ | pos
    · trivial
    · obtain ⟨c, hc, -, rfl⟩ := Text.afterChar?_eq_some_iff.mp hr
      exact .of_successor closed found follows
        (sound.moveTo (Text.isBoundary_add_of_charAt? hc) (Nat.le_add_right ..))
  have go {next : Nat} {after : State} (follows : next ∈ node.successors)
      (sound : after.Sound task.graph task.text) : task.Safe next after :=
    .of_successor closed found follows sound
  cases node with
  | goal => trivial
  | pass next | join next => exact go List.mem_cons_self sound
  | char c next | set negated items next => exact read List.mem_cons_self
  | choice alternatives =>
    match alternatives with
    | [] => trivial
    | [only] => exact go List.mem_cons_self sound
    | first :: second :: others =>
      refine ⟨go List.mem_cons_self sound, ⟨inside, sound⟩, _, 1, found, ?_, rfl⟩
      simp
  | openGroup slot next => exact go List.mem_cons_self (sound.openGroup slot)
  | closeGroup slot next => exact go List.mem_cons_self (sound.closeGroup slot)
  | loop quantifier body next =>
    exact Loop.safe_move _ (fun _ => go List.mem_cons_self)
      (fun _ => go (List.mem_cons_of_mem _ List.mem_cons_self)) sound
  | lookahead negated groups body next =>
    exact ⟨go List.mem_cons_self sound, go (List.mem_cons_of_mem _ List.mem_cons_self) sound,
      (closed.nodes here _ found).uses⟩
  | test condition next =>
    simp only [Node.move]
    rcases ht : condition.after? task.text task.mode state.captures state.pos with _ | pos
    · trivial
    · obtain ⟨boundary, le⟩ := Test.of_after? ht sound.pos
      exact go List.mem_cons_self (sound.moveTo boundary le)

/-! ## Safe steps -/

/-- Whether what a step leads to is safe. -/
def Next.Safe {σ : Type} (task : Task) : Next σ → Prop
  | step walk _ => walk.Safe task
  | finish final _ => ∀ state ∈ final, state.Sound task.graph task.text
  | overflow _ => True

variable {σ : Type} {observe : σ → Event → σ} {log : σ}

/-- To go back is safe. -/
theorem Walk.safe_backtrack (closed : task.graph.Closed) {choices : List ChoicePoint} {depth : Nat}
    {suspended : List Suspended} (safe : ∀ choice ∈ choices, choice.Safe task)
    (around : ∀ outer ∈ suspended, outer.Safe task) :
    (backtrack observe task log choices depth suspended).Safe task := by
  fun_induction backtrack observe task log choices depth suspended with
  | case1 node state choices =>
    obtain ⟨here, others⟩ := List.forall_mem_cons.mp safe
    exact ⟨here, others, around⟩
  | case2 node first state choices =>
    obtain ⟨here, others⟩ := List.forall_mem_cons.mp safe
    exact ⟨here.first closed, others, around⟩
  | case3 => trivial
  | case4 node first second others state choices =>
    obtain ⟨here, others⟩ := List.forall_mem_cons.mp safe
    exact ⟨here.first closed, List.forall_mem_cons.mpr ⟨here.others, others⟩, around⟩
  | case5 =>
    intro _ held
    cases held
  | case6 depth outer suspended negated =>
    obtain ⟨here, others⟩ := List.forall_mem_cons.mp around
    exact ⟨here.safe, here.choices, others⟩
  | case7 depth outer suspended positive ih =>
    obtain ⟨here, others⟩ := List.forall_mem_cons.mp around
    exact ih here.choices others

/-- **A step from a safe walk is safe.** -/
theorem Walk.Safe.step (closed : task.graph.Closed) {walk : Walk} (h : walk.Safe task) :
    (walk.step observe task log).Safe task := by
  have safe := h.current.move closed
  rw [step_eq_perform]
  generalize task.move walk.node walk.state = move at safe
  cases move with
  | goal =>
    rw [Move.perform]
    split
    · intro final held
      cases held
      exact h.current.state
    · next outer suspended eq =>
      have around := h.suspended
      rw [eq] at around
      obtain ⟨here, others⟩ := List.forall_mem_cons.mp around
      split
      · exact safe_backtrack closed here.choices others
      · exact ⟨⟨here.safe.node, here.safe.state.adopt h.current.state _⟩, here.choices, others⟩
  | stop => exact safe_backtrack closed h.choices h.suspended
  | go next after => exact ⟨safe, h.choices, h.suspended⟩
  | fork next after other =>
    rw [Move.perform, fork]
    split
    · trivial
    · exact ⟨safe.1, List.forall_mem_cons.mpr ⟨safe.2, h.choices⟩, h.suspended⟩
  | look negated groups body next =>
    obtain ⟨inside, behind, within⟩ := safe
    exact ⟨inside, fun _ mem => absurd mem List.not_mem_nil,
      List.forall_mem_cons.mpr ⟨⟨behind, within, h.choices⟩, h.suspended⟩⟩

/-! ## Safe runs -/

/-- The walks that an attempt comes to, one step after the other, as long as there are steps. -/
inductive Task.Reaches (task : Task) (entry pos : Nat) : Walk → Prop where
  /-- the walk that enters the graph -/
  | enter : Reaches task entry pos (.enter task.graph entry pos)
  /-- a step further -/
  | step {walk after : Walk} (h : Reaches task entry pos walk)
    (next : walk.step ignore task () = .step after ()) : Reaches task entry pos after

theorem Walk.safe_enter {entry pos : Nat} (h : entry < task.graph.nodes.size)
    (boundary : Text.isBoundary task.text pos = true) :
    (Walk.enter task.graph entry pos).Safe task :=
  ⟨⟨h, State.sound_initial boundary⟩, nofun, nofun⟩

/-- All walks that an attempt comes to are safe. -/
theorem Task.Reaches.safe (closed : task.graph.Closed) {entry pos : Nat}
    (inside : entry < task.graph.nodes.size) (boundary : Text.isBoundary task.text pos = true)
    {walk : Walk} (h : task.Reaches entry pos walk) : walk.Safe task := by
  induction h with
  | enter => exact Walk.safe_enter inside boundary
  | step _ next ih =>
    have safe : (Next.step _ ()).Safe task := next ▸ ih.step closed
    exact safe

/-- A walk from a safe one ends in a sound state, if it reaches the goal. -/
theorem Walk.Safe.walkFrom (closed : task.graph.Closed) {walk : Walk} (h : walk.Safe task)
    {left : Nat} {final : State}
    (ends : (walkFrom observe task left walk log).result = .ok (some final)) :
    final.Sound task.graph task.text := by
  induction left generalizing walk log with
  | zero => cases ends
  | succ left ih =>
    have safe : (walk.step observe task log).Safe task := h.step closed
    rw [walkFrom_succ] at ends
    rcases hs : walk.step observe task log with ⟨after, log'⟩ | ⟨final', log'⟩ | log' <;>
      simp only [hs, Next.run] at safe ends
    · exact ih safe ends
    · cases ends
      exact safe final rfl
    · cases ends

end BacktrackRegex
