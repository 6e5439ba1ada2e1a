import BacktrackRegex.Proofs.Search.Yields

/-!
# Walks inside suspended ones

While the body of a lookahead is matched, the walk around it waits. The body never looks at it: with
other walks around, a walk takes the same steps, until it comes to an end of its own; only then does
the walk around go on (`Walk.step_inside`). So to walk on inside another walk is to walk on alone,
and then to go on with the other one (**`walkFrom_inside`**).
-/

namespace BacktrackRegex

variable {σ : Type}

/-- A walk with others around those that are around it. -/
def Walk.inside (walk : Walk) (around : List Suspended) : Walk :=
  { walk with suspended := walk.suspended ++ around }

namespace Suspended

/-- The state in which a suspended walk goes on when the walk inside it has ended, if the lookahead
lets it pass. -/
def past? (outer : Suspended) (final : Option State) : Option State :=
  outer.state.past? outer.negated outer.groups final.toList

/-- A suspended walk is taken up again when the walk inside it has ended: it goes on behind the
lookahead, or goes back to its last choice point. -/
def resume (observe : σ → Event → σ) (task : Task) (log : σ) (outer : Suspended)
    (around : List Suspended) (final : Option State) : Next σ :=
  match outer.past? final with
  | some state => .step ⟨outer.next, state, outer.choices, outer.depth, around⟩ log
  | none => Walk.backtrack observe task log outer.choices outer.depth around

end Suspended

/-- What a step leads to inside a suspended walk. -/
def Next.inside (observe : σ → Event → σ) (task : Task) (outer : Suspended)
    (around : List Suspended) : Next σ → Next σ
  | step walk log => .step (walk.inside (outer :: around)) log
  | finish final log => outer.resume observe task log around final
  | overflow log => .overflow log

/-- How a walk ends inside a suspended one. -/
def Ending.inside (observe : σ → Event → σ) (task : Task) (outer : Suspended)
    (around : List Suspended) (ending : Ending σ) : Ending σ :=
  match ending.result with
  | .error limit => ⟨.error limit, ending.left, ending.log⟩
  | .ok final =>
    (outer.resume observe task ending.log around final).run observe task ending.left

section

variable (observe : σ → Event → σ) (task : Task) (outer : Suspended) (around : List Suspended)

theorem Walk.backtrack_inside (log : σ) (choices : List ChoicePoint) (depth : Nat)
    (suspended : List Suspended) :
    backtrack observe task log choices depth (suspended ++ outer :: around) =
      (backtrack observe task log choices depth suspended).inside observe task outer around := by
  fun_induction backtrack observe task log choices depth suspended with
  | case1 | case2 =>
    rw [backtrack]
    rfl
  | case3 node first second others state choices depth suspended full =>
    rw [backtrack, if_pos full]
    rfl
  | case4 node first second others state choices depth suspended room =>
    rw [backtrack, if_neg room]
    rfl
  | case5 depth =>
    -- the walk inside has failed
    rw [List.nil_append, backtrack, Next.inside, Suspended.resume, Suspended.past?]
    cases outer.negated <;> rfl
  | case6 depth inner suspended negated =>
    rw [List.cons_append, backtrack, if_pos negated]
    rfl
  | case7 depth inner suspended positive ih =>
    rw [List.cons_append, backtrack, if_neg positive, ih]

/-- **A step does the same inside a suspended walk**, until there is nothing left to do. -/
theorem Walk.step_inside (walk : Walk) (log : σ) :
    (walk.inside (outer :: around)).step observe task log =
      (walk.step observe task log).inside observe task outer around := by
  obtain ⟨here, state, choices, depth, suspended⟩ := walk
  rw [step_eq_perform, step_eq_perform]
  simp only [Walk.inside]
  cases task.move here state with
  | goal =>
    cases suspended with
    | nil =>
      simp only [List.nil_append, Move.perform, Next.inside, Suspended.resume, Suspended.past?]
      cases outer.negated <;> rfl
    | cons inner suspended =>
      simp only [List.cons_append, Move.perform]
      split
      · exact backtrack_inside ..
      · rfl
  | stop => exact backtrack_inside ..
  | go next after => rfl
  | fork next after other =>
    simp only [Move.perform, fork]
    split <;> rfl
  | look negated groups body next => rfl

/-- **To walk on inside a suspended walk** is to walk on alone and then to take up the suspended
walk, unless a limit is hit. -/
theorem walkFrom_inside (left : Nat) (walk : Walk) (log : σ) :
    walkFrom observe task left (walk.inside (outer :: around)) log =
      (walkFrom observe task left walk log).inside observe task outer around := by
  induction left generalizing walk log with
  | zero => rfl
  | succ left ih =>
    rw [walkFrom_succ, walkFrom_succ, Walk.step_inside]
    rcases walk.step observe task log with ⟨after, log'⟩ | ⟨final, log'⟩ | log'
    · exact ih after log'
    · rfl
    · rfl

end

end BacktrackRegex
