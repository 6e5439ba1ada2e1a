import BacktrackRegex.Proofs.Search.Settles

/-!
# The goals that a walk can reach

If a walk were sent back each time it reaches the goal, it would reach the goal in one state after
the other. `Yields` says which states these are, in their order, for a walk that goes on from a
choice point. It knows moves, but neither stacks of choice points nor suspended walks: the goals on
a way that is held come after those on the way that is tried first, and a lookahead is asked for the
goals of its body.

The walk as it is stops at the first of them: that is `Yields.settles` for a whole walk and
`Yields.resolves` for one that has choice points and suspended walks left.
-/

namespace BacktrackRegex

/-- The state behind a lookahead whose body can reach these goals, if the lookahead lets the walk
pass. -/
def State.past? (state : State) (negated : Bool) (groups : GroupRange) : List State → Option State
  | first :: _ => if negated then none else some (state.adopt first groups)
  | [] => if negated then some state else none

/-- A walk that goes on from a choice point can reach the goal in these states, in this order. -/
inductive Yields (task : Task) : ChoicePoint → List State → Prop where
  /-- at the goal -/
  | goal {here state} (h : task.move here state = .goal) : Yields task (.resume here state) [state]
  /-- where there is no way on -/
  | stop {here state} (h : task.move here state = .stop) : Yields task (.resume here state) []
  /-- where there is one way on -/
  | go {here state next after goals} (h : task.move here state = .go next after)
    (more : Yields task (.resume next after) goals) : Yields task (.resume here state) goals
  /-- where there is another way, which comes second -/
  | fork {here state next after other goals goals'}
    (h : task.move here state = .fork next after other)
    (more : Yields task (.resume next after) goals) (held : Yields task other goals') :
    Yields task (.resume here state) (goals ++ goals')
  /-- at a lookahead that lets the walk pass -/
  | pass {here state negated groups body next inner past goals}
    (h : task.move here state = .look negated groups body next)
    (within : Yields task (.resume body state) inner)
    (passed : state.past? negated groups inner = some past)
    (more : Yields task (.resume next past) goals) : Yields task (.resume here state) goals
  /-- at a lookahead that does not -/
  | block {here state negated groups body next inner}
    (h : task.move here state = .look negated groups body next)
    (within : Yields task (.resume body state) inner)
    (blocked : state.past? negated groups inner = none) : Yields task (.resume here state) []
  /-- at the last alternative of a choice -/
  | last {here first state goals} (more : Yields task (.resume first state) goals) :
    Yields task (.alternatives here first [] state) goals
  /-- at an alternative that others come after -/
  | alternatives {here first second others state goals goals'}
    (more : Yields task (.resume first state) goals)
    (held : Yields task (.alternatives here second others state) goals') :
    Yields task (.alternatives here first (second :: others) state) (goals ++ goals')

variable {task : Task}

/-- What comes of the goals that a walk can reach: it stops at the first of them, and the body of a
lookahead hands it to the walk around; without any it goes back to the choice points left. -/
def Concludes (task : Task) (goals : List State) (choices : List ChoicePoint) (depth : Nat)
    (suspended : List Suspended) (final : Option State) : Prop :=
  match goals, suspended with
  | [], _ => Resolves task choices depth suspended final
  | first :: _, [] => final = some first
  | first :: _, outer :: suspended =>
    if outer.negated then Resolves task outer.choices outer.depth suspended final
    else
      Settles task ⟨outer.next, outer.state.adopt first outer.groups, outer.choices, outer.depth,
        suspended⟩ final

/-- The goals on a way that is held count only if there are none on the first way. -/
theorem Concludes.held {goals goals' : List State} {choices choices' : List ChoicePoint}
    {depth depth' : Nat} {suspended : List Suspended} {final : Option State}
    (h : Concludes task (goals ++ goals') choices depth suspended final)
    (held : Concludes task goals' choices depth suspended final →
      Resolves task choices' depth' suspended final) :
    Concludes task goals choices' depth' suspended final := by
  cases goals with
  | nil => exact held h
  | cons first goals =>
    cases suspended with
    | nil => exact h
    | cons outer suspended => exact h

/-- **A walk stops at the first goal.** If going on from a choice point can reach these goals, then
a walk that goes back to it, with other choice points and suspended walks left, ends as the goals
say. -/
theorem Yields.resolves {choice : ChoicePoint} {goals : List State} (h : Yields task choice goals)
    {choices : List ChoicePoint} {depth : Nat} {suspended : List Suspended} {final : Option State}
    (hc : Concludes task goals choices depth suspended final) :
    Resolves task (choice :: choices) (depth + 1) suspended final := by
  -- the stack and the suspended walks grow along the derivation, so they stay general
  induction h generalizing choices depth suspended with
  | goal h =>
    rw [resolves_resume_iff]
    cases suspended with
    | nil =>
      obtain rfl : final = some _ := hc
      exact .goal h
    | cons outer suspended =>
      rcases hn : outer.negated with _ | _
      · simp only [Concludes, hn] at hc
        exact .goal_positive h hn hc
      · simp only [Concludes, hn] at hc
        exact .goal_negated h hn hc
  | stop h =>
    rw [resolves_resume_iff]
    exact .stop h hc
  | go h more ih =>
    rw [resolves_resume_iff]
    exact .go h (resolves_resume_iff.mp (ih hc))
  | fork h more held ih ih' =>
    rw [resolves_resume_iff]
    exact .fork h (resolves_resume_iff.mp (ih (hc.held ih')))
  | @pass here state negated groups body next inner past goals h within passed more ih ih' =>
    rw [resolves_resume_iff]
    refine .look h (resolves_resume_iff.mp (ih ?_))
    have after := resolves_resume_iff.mp (ih' hc)
    cases inner with
    | nil =>
      cases negated with
      | false => cases passed
      | true =>
        obtain rfl : state = past := Option.some.inj passed
        exact .negated rfl after
    | cons first inner =>
      cases negated with
      | false =>
        obtain rfl : state.adopt first groups = past := Option.some.inj passed
        exact after
      | true => cases passed
  | @block here state negated groups body next inner h within blocked ih =>
    rw [resolves_resume_iff]
    refine .look h (resolves_resume_iff.mp (ih ?_))
    cases inner with
    | nil =>
      cases negated with
      | false => exact .failed rfl hc
      | true => cases blocked
    | cons first inner =>
      cases negated with
      | false => cases blocked
      | true => exact hc
  | last more ih => exact resolves_alternative_iff.mpr (resolves_resume_iff.mp (ih hc))
  | alternatives more held ih ih' =>
    exact .alternatives (resolves_resume_iff.mp (ih (hc.held ih')))

/-- A whole walk ends at the first goal that it can reach, if there is one. -/
theorem Yields.settles {here : Nat} {state : State} {goals : List State}
    (h : Yields task (.resume here state) goals) :
    Settles task ⟨here, state, [], 0, []⟩ goals.head? := by
  refine resolves_resume_iff.mp (h.resolves ?_)
  cases goals with
  | nil => exact .exhausted
  | cons first goals => rfl

end BacktrackRegex
