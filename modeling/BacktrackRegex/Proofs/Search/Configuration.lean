import BacktrackRegex.Proofs.Search.Idle
import BacktrackRegex.Proofs.Search.Move
import BacktrackRegex.Proofs.Text.Literal

/-!
# The configurations of a walk

A configuration is a node and a state in which it is visited, or may be visited later. A walk holds
a configuration where it is, one or more for each choice point, and those of the walks around it
(`Walk.Holds`).

A step brings only configurations that the move of its node offers (`Walk.Holds.of_step`), but for
what a lookahead has captured. What is offered is one edge away, and `Node.Turns` says what happens
to the state on that edge.
-/

namespace BacktrackRegex

/-! ## What is held -/

/-- Whether a choice point holds a node in a state: to go on at it, or to take alternatives
there. -/
def ChoicePoint.Holds (node : Nat) (state : State) : ChoicePoint → Prop
  | resume next kept => node = next ∧ state = kept
  | alternatives here first others kept => node ∈ here :: first :: others ∧ state = kept

/-- Whether a walk holds a node in a state. -/
inductive Walk.Holds (walk : Walk) : Nat → State → Prop where
  /-- it is visited next -/
  | current : Holds walk walk.node walk.state
  /-- a choice point holds it -/
  | choice {choice node state} (mem : choice ∈ walk.choices) (h : choice.Holds node state) :
    Holds walk node state
  /-- a walk around goes on there -/
  | outer {outer} (mem : outer ∈ walk.suspended) : Holds walk outer.next outer.state
  /-- a choice point of a walk around holds it -/
  | suspended {outer choice node state} (mem : outer ∈ walk.suspended)
    (kept : choice ∈ outer.choices) (h : choice.Holds node state) : Holds walk node state

/-- Whether a move from a state offers a node in a state, now or later. -/
def Move.Offers (before : State) (node : Nat) (state : State) : Move → Prop
  | goal | stop => False
  | go next after => node = next ∧ state = after
  | fork next after other => node = next ∧ state = after ∨ other.Holds node state
  | look _ _ body next => (node = body ∨ node = next) ∧ state = before

/-- Whether a walk may hold a node in a state after a step: it held it before, or the move offers
it, or a lookahead around has matched there. -/
def Walk.Brings (task : Task) (walk : Walk) (node : Nat) (state : State) : Prop :=
  walk.Holds node state ∨ (task.move walk.node walk.state).Offers walk.state node state ∨
    ∃ outer ∈ walk.suspended, node = outer.next ∧
      state = outer.state.adopt walk.state outer.groups

section

variable {σ : Type} {observe : σ → Event → σ} {task : Task} {log log' : σ} {node : Nat}
  {state : State}

/-- What a walk holds has the property `P` if all has it that its node and state, its choice points
and the walks around it hold. -/
theorem Walk.Holds.elim {walk : Walk} {P : Nat → State → Prop} (h : walk.Holds node state)
    (current : P walk.node walk.state)
    (choices : ∀ choice ∈ walk.choices, ∀ {node state}, choice.Holds node state → P node state)
    (suspended : ∀ outer ∈ walk.suspended, P outer.next outer.state ∧
      ∀ choice ∈ outer.choices, ∀ {node state}, choice.Holds node state → P node state) :
    P node state := by
  cases h with
  | current => exact current
  | choice mem h => exact choices _ mem h
  | outer mem => exact (suspended _ mem).1
  | suspended mem kept h => exact (suspended _ mem).2 _ kept h

/-- What is held around a walk. -/
theorem Walk.holds_around (walk : Walk) {outer : Suspended} (mem : outer ∈ walk.suspended) :
    walk.Holds outer.next outer.state ∧
      ∀ choice ∈ outer.choices, ∀ {node state}, choice.Holds node state → walk.Holds node state :=
  ⟨.outer mem, fun _ kept _ _ h => .suspended mem kept h⟩

/-- To go back brings nothing new. -/
theorem Walk.holds_of_backtrack {choices : List ChoicePoint} {depth : Nat}
    {suspended : List Suspended} {after : Walk}
    (next : backtrack observe task log choices depth suspended = .step after log')
    (h : after.Holds node state) (here : Nat) (current : State) :
    Walk.Holds ⟨here, current, choices, depth, suspended⟩ node state := by
  fun_induction backtrack observe task log choices depth suspended with
  | case1 resumed kept choices =>
    cases next
    refine h.elim (.choice List.mem_cons_self ⟨rfl, rfl⟩) ?_ fun _ mem => holds_around _ mem
    exact fun _ mem _ _ h => .choice (List.mem_cons_of_mem _ mem) h
  | case2 place first kept choices =>
    cases next
    refine h.elim (.choice List.mem_cons_self ⟨by simp, rfl⟩) ?_ fun _ mem => holds_around _ mem
    exact fun _ mem _ _ h => .choice (List.mem_cons_of_mem _ mem) h
  | case3 => cases next
  | case4 place first second others kept choices depth suspended room =>
    cases next
    refine h.elim (.choice List.mem_cons_self ⟨by simp, rfl⟩) ?_ fun _ mem => holds_around _ mem
    intro choice mem node state h
    rcases List.mem_cons.mp mem with rfl | mem
    · -- the other alternatives were held before
      refine .choice List.mem_cons_self ⟨?_, h.2⟩
      rcases List.mem_cons.mp h.1 with rfl | mem
      · exact List.mem_cons_self
      · exact List.mem_cons_of_mem _ (List.mem_cons_of_mem _ mem)
    · exact .choice (List.mem_cons_of_mem _ mem) h
  | case5 => cases next
  | case6 depth outer suspended negated =>
    cases next
    have around := holds_around ⟨here, current, [], depth, outer :: suspended⟩ List.mem_cons_self
    exact h.elim around.1 around.2 fun _ mem => holds_around _ (List.mem_cons_of_mem _ mem)
  | case7 depth outer suspended positive ih =>
    have around := holds_around ⟨here, current, [], depth, outer :: suspended⟩ List.mem_cons_self
    exact (ih next).elim .current around.2 fun _ mem => holds_around _ (List.mem_cons_of_mem _ mem)

/-- **A step brings nothing else.** -/
theorem Walk.Holds.of_step {walk after : Walk}
    (next : walk.step observe task log = .step after log') (h : after.Holds node state) :
    walk.Brings task node state := by
  have old {outer : Suspended} (mem : outer ∈ walk.suspended) :
      walk.Brings task outer.next outer.state ∧ ∀ choice ∈ outer.choices,
        ∀ {node state}, choice.Holds node state → walk.Brings task node state :=
    ⟨.inl (.outer mem), fun _ kept _ _ h => .inl (.suspended mem kept h)⟩
  rw [step_eq_perform] at next
  cases move : task.move walk.node walk.state with
  | goal =>
    rw [move, Move.perform] at next
    split at next
    · cases next
    · next outer suspended eq =>
      have inside : outer ∈ walk.suspended := eq ▸ List.mem_cons_self
      have around {other : Suspended} (mem : other ∈ suspended) : other ∈ walk.suspended :=
        eq ▸ List.mem_cons_of_mem _ mem
      split at next
      · exact (holds_of_backtrack next h walk.node walk.state).elim (.inl .current) (old inside).2
          fun _ mem => old (around mem)
      · cases next
        exact h.elim (.inr (.inr ⟨outer, inside, rfl, rfl⟩)) (old inside).2
          fun _ mem => old (around mem)
  | stop =>
    rw [move] at next
    exact .inl (holds_of_backtrack next h walk.node walk.state)
  | go place follows =>
    rw [move] at next
    cases next
    have offered : walk.Brings task place follows := .inr (.inl (move ▸ ⟨rfl, rfl⟩))
    exact h.elim offered (fun _ mem _ _ h => .inl (.choice mem h)) fun _ mem => old mem
  | fork place follows other =>
    rw [move, Move.perform, fork] at next
    split at next
    · cases next
    · cases next
      refine h.elim (.inr (.inl (move ▸ .inl ⟨rfl, rfl⟩))) ?_ fun _ mem => old mem
      intro choice mem node state held
      rcases List.mem_cons.mp mem with same | mem
      · exact .inr (.inl (move ▸ .inr (same ▸ held)))
      · exact .inl (.choice mem held)
  | look negated groups body place =>
    rw [move] at next
    cases next
    refine h.elim (.inr (.inl (move ▸ ⟨.inl rfl, rfl⟩)))
      (fun _ mem => absurd mem List.not_mem_nil) ?_
    intro outer mem
    rcases List.mem_cons.mp mem with rfl | mem
    · exact ⟨.inr (.inl (move ▸ ⟨.inr rfl, rfl⟩)), fun _ kept _ _ h => .inl (.choice kept h)⟩
    · exact old mem

end

/-! ## What is offered -/

/-- What may happen to a state on the way from a node to the node `next`. -/
def Node.Turns (state : State) (next : Nat) (after : State) : Node → Prop
  | openGroup slot _ => after = state.openGroup slot
  | closeGroup slot _ => after = state.closeGroup slot
  | loop quantifier body behind =>
    next = body ∧ (∃ completed, after = state.beginIteration quantifier completed) ∨
      next = behind ∧ after = state.leaveLoop quantifier
  | _ => ∃ pos, state.pos ≤ pos ∧ after = state.moveTo pos

/-- The position behind a test that passes is not before it. -/
theorem Test.le_of_after? {condition : Test} {text : String} {mode : Mode}
    {captures : Array (Option Span)} {pos next : Nat}
    (h : condition.after? text mode captures pos = some next) : pos ≤ next := by
  have stay {passes : Bool} (h : (if passes then some pos else none) = some next) :
      pos ≤ next := by
    split at h
    · cases h
      exact Nat.le_refl _
    · cases h
  cases condition with
  | lineStart | lineEnd | wordBoundary inverted => exact stay h
  | backreference g =>
    simp only [after?] at h
    split at h
    · cases h
      exact Nat.le_refl _
    · exact (Text.le_of_afterLiteral? h).1

variable {task : Task} {here node : Nat} {before state : State}

/-- What the move of a quantifier offers. -/
theorem Loop.turns_of_offers {quantifier : Loop} {body next : Nat} {completed? : Option Nat}
    (h : (quantifier.move body next before completed?).Offers before node state) :
    node ∈ [body, next] ∧ (Node.loop quantifier body next).Turns before node state := by
  have again {completed : Nat} (same : node = body)
      (after : state = before.beginIteration quantifier completed) :
      node ∈ [body, next] ∧ (Node.loop quantifier body next).Turns before node state :=
    ⟨by simp [same], .inl ⟨same, completed, after⟩⟩
  have leave (same : node = next) (after : state = before.leaveLoop quantifier) :
      node ∈ [body, next] ∧ (Node.loop quantifier body next).Turns before node state :=
    ⟨by simp [same], .inr ⟨same, after⟩⟩
  cases completed? with
  | none => exact h.elim
  | some completed =>
    simp only [move] at h
    split at h
    · exact again h.1 h.2
    split at h
    · exact leave h.1 h.2
    split at h
    · rcases h with h | h
      · exact again h.1 h.2
      · exact leave h.1 h.2
    · rcases h with h | h
      · exact leave h.1 h.2
      · exact again h.1 h.2

/-- **What is offered is one edge away**, or is the choice itself that holds its alternatives. -/
theorem Task.turns_of_offers (h : (task.move here before).Offers before node state) :
    node = here ∧ state = before ∨ ∃ found, task.graph.nodes[here]? = some found ∧
      node ∈ found.successors ∧ found.Turns before node state := by
  rcases there : task.graph.nodes[here]? with _ | found
  · rw [move, there] at h
    exact h.elim
  rw [task.move_of_getElem? there] at h
  have stay : before = before.moveTo before.pos := rfl
  -- a node that moves on in the text
  have advance {next : Nat} {pos? : Option Nat} (le : ∀ pos ∈ pos?, before.pos ≤ pos)
      (h : (Move.advance next before pos?).Offers before node state) :
      node = next ∧ ∃ pos, before.pos ≤ pos ∧ state = before.moveTo pos := by
    cases pos? with
    | none => exact h.elim
    | some pos => exact ⟨h.1, pos, le pos rfl, h.2⟩
  have read {passes : Char → Bool} :
      ∀ pos ∈ Text.afterChar? task.text passes before.pos, before.pos ≤ pos := by
    intro pos held
    obtain ⟨c, -, -, rfl⟩ := Text.afterChar?_eq_some_iff.mp held
    exact Nat.le_add_right ..
  cases found with
  | goal => exact h.elim
  | pass next | join next =>
    exact .inr ⟨_, rfl, List.mem_singleton.mpr h.1, _, Nat.le_refl _, h.2.trans stay⟩
  | char c next | set negated items next =>
    obtain ⟨same, turns⟩ := advance read h
    exact .inr ⟨_, rfl, List.mem_singleton.mpr same, turns⟩
  | choice alternatives =>
    rcases alternatives with _ | ⟨first, _ | ⟨second, others⟩⟩
    · exact h.elim
    · exact .inr ⟨_, rfl, List.mem_singleton.mpr h.1, _, Nat.le_refl _, h.2.trans stay⟩
    · rcases h with h | h
      · exact .inr ⟨_, rfl, h.1 ▸ List.mem_cons_self, _, Nat.le_refl _, h.2.trans stay⟩
      · rcases List.mem_cons.mp h.1 with same | mem
        · exact .inl ⟨same, h.2⟩
        · exact .inr ⟨_, rfl, List.mem_cons_of_mem _ mem, _, Nat.le_refl _, h.2.trans stay⟩
  | openGroup slot next | closeGroup slot next =>
    exact .inr ⟨_, rfl, List.mem_singleton.mpr h.1, h.2⟩
  | loop quantifier body next => exact .inr ⟨_, rfl, Loop.turns_of_offers h⟩
  | lookahead negated groups body next =>
    exact .inr ⟨_, rfl, by simpa [Node.successors] using h.1, _, Nat.le_refl _, h.2.trans stay⟩
  | test condition next =>
    obtain ⟨same, turns⟩ := advance (fun pos held => Test.le_of_after? held) h
    exact .inr ⟨_, rfl, List.mem_singleton.mpr same, turns⟩

/-- To end a capture closes it, whether it was open or not. -/
theorem State.opened_closeGroup (state : State) (slot : Nat) :
    (state.closeGroup slot).opened = state.opened.setIfInBounds slot none := by
  rw [closeGroup]
  split
  · next closed => exact (setIfInBounds_none_eq_self closed).symm
  · rfl

namespace Node.Turns

variable {found : Node} {next : Nat} {after : State} (h : found.Turns before next after)

include h

/-- No edge leads back in the text. -/
theorem pos_le : before.pos ≤ after.pos := by
  cases found with
  | openGroup slot next =>
    rw [show after = _ from h]
    exact Nat.le_refl _
  | closeGroup slot next =>
    rw [show after = _ from h, State.closeGroup]
    split <;> exact Nat.le_refl _
  | loop quantifier body behind =>
    obtain ⟨-, completed, rfl⟩ | ⟨-, rfl⟩ := h <;> exact Nat.le_refl _
  | _ =>
    obtain ⟨pos, le, rfl⟩ := h
    exact le

/-- Only its own node changes the iteration of a quantifier. -/
theorem iterations {id : Nat} (other : ∀ quantifier body behind,
    found = .loop quantifier body behind → quantifier.id ≠ id) :
    after.iterations[id]? = before.iterations[id]? := by
  cases found with
  | openGroup slot next =>
    rw [show after = _ from h]
    rfl
  | closeGroup slot next =>
    rw [show after = _ from h, State.closeGroup]
    split <;> rfl
  | loop quantifier body behind =>
    have ne := other quantifier body behind rfl
    obtain ⟨-, completed, rfl⟩ | ⟨-, rfl⟩ := h
    · exact Array.getElem?_setIfInBounds_ne ne
    · exact Array.getElem?_setIfInBounds_ne ne
  | _ =>
    obtain ⟨pos, -, rfl⟩ := h
    rfl

/-- Only nodes that are for it change whether a capture is open, and quantifiers that clear it. -/
theorem opened {slot : Nat} (begins : ∀ next, found ≠ .openGroup slot next)
    (ends : ∀ next, found ≠ .closeGroup slot next)
    (clears : ∀ quantifier body behind, found = .loop quantifier body behind →
      ¬(quantifier.groups.first ≤ slot ∧ slot < quantifier.groups.next)) :
    after.opened[slot]? = before.opened[slot]? := by
  cases found with
  | openGroup slot' next =>
    have ne : slot' ≠ slot := fun same => begins next (same ▸ rfl)
    rw [show after = _ from h]
    exact Array.getElem?_setIfInBounds_ne ne
  | closeGroup slot' next =>
    have ne : slot' ≠ slot := fun same => ends next (same ▸ rfl)
    rw [show after = _ from h, State.opened_closeGroup]
    exact Array.getElem?_setIfInBounds_ne ne
  | loop quantifier body behind =>
    have apart := clears quantifier body behind rfl
    obtain ⟨-, completed, rfl⟩ | ⟨-, rfl⟩ := h
    · exact (GroupRange.getElem?_clear ..).trans (if_neg fun inside => apart inside.1)
    · rfl
  | _ =>
    obtain ⟨pos, -, rfl⟩ := h
    rfl

/-- Only its beginning opens a capture. -/
theorem opened_none {slot : Nat} (begins : ∀ next, found ≠ .openGroup slot next)
    (closed : before.opened[slot]? = some none) : after.opened[slot]? = some none := by
  cases found with
  | openGroup slot' next => rwa [h.opened begins nofun nofun]
  | closeGroup slot' next =>
    rw [show after = _ from h, State.opened_closeGroup, Array.getElem?_setIfInBounds]
    split
    · next same =>
      subst same
      rw [if_pos (Array.getElem?_eq_some_iff.mp closed).1]
    · exact closed
  | loop quantifier body behind =>
    obtain ⟨-, completed, rfl⟩ | ⟨-, rfl⟩ := h
    · refine (GroupRange.getElem?_clear ..).trans ?_
      split
      · rfl
      · exact closed
    · exact closed
  | _ =>
    obtain ⟨pos, -, rfl⟩ := h
    exact closed

/-- No edge changes how many slots there are. -/
theorem fits {graph : Graph} (fits : before.Fits graph) : after.Fits graph := by
  cases found with
  | openGroup slot next => exact h ▸ fits.openGroup slot
  | closeGroup slot next => exact h ▸ fits.closeGroup slot
  | loop quantifier body behind =>
    obtain ⟨-, completed, rfl⟩ | ⟨-, rfl⟩ := h
    · exact fits.beginIteration quantifier completed
    · exact fits.leaveLoop quantifier
  | _ =>
    obtain ⟨pos, -, rfl⟩ := h
    exact fits.moveTo pos

end Node.Turns

end BacktrackRegex
