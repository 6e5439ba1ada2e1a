import BacktrackRegex.Proofs.Search.Move

/-!
# Walks that come to an end

Limits only cut: a walk that ends without hitting one takes the same course where there is more room
and as many steps as it takes (`walkFrom_of_le`). So it makes sense to say of a walk how it ends,
without saying under which limits.

* `Settles` says that a walk ends in a given way if the limits allow it, and `Resolves` says it of
  the walk that goes back to its last choice point.
* `Settles.of_step` and the lemmas after it tell how a walk ends from how it ends after its next
  step, one lemma for each move.
-/

namespace BacktrackRegex

/-- The same task under other limits. -/
def Task.within (task : Task) (limits : Limits) : Task :=
  { task with limits }

@[simp] theorem Task.move_within (task : Task) (limits : Limits) (here : Nat) (state : State) :
    (task.within limits).move here state = task.move here state := rfl

@[simp] theorem Task.limits_within (task : Task) (limits : Limits) :
    (task.within limits).limits = limits := rfl

variable {σ : Type} {observe : σ → Event → σ} {task : Task}

/-! ## Higher limits -/

theorem Walk.backtrack_within {limits : Limits} (h : task.limits.depth ≤ limits.depth) (log : σ)
    (choices : List ChoicePoint) (depth : Nat) (suspended : List Suspended) :
    (∃ log', backtrack observe task log choices depth suspended = .overflow log') ∨
      backtrack observe (task.within limits) log choices depth suspended =
        backtrack observe task log choices depth suspended := by
  fun_induction backtrack observe task log choices depth suspended with
  | case1 | case2 | case5 =>
    right
    rw [backtrack]
  | case3 => exact .inl ⟨log, rfl⟩
  | case4 node first second others state choices depth suspended room =>
    -- the alternatives that are left are held again, and there is even more room for them
    right
    rw [backtrack, if_neg (by rw [Task.limits_within]; omega)]
  | case6 depth outer suspended negated =>
    right
    rw [backtrack, if_pos negated]
  | case7 depth outer suspended positive ih => rwa [backtrack, if_neg positive]

/-- A step that finds room for its choice points is the same where there is more room. -/
theorem Walk.step_within (observe : σ → Event → σ) {limits : Limits}
    (h : task.limits.depth ≤ limits.depth) (walk : Walk)
    (log : σ) :
    (∃ log', walk.step observe task log = .overflow log') ∨
      walk.step observe (task.within limits) log = walk.step observe task log := by
  rw [step_eq_perform, step_eq_perform, Task.move_within]
  cases task.move walk.node walk.state with
  | goal =>
    simp only [Move.perform]
    split
    · exact .inr rfl
    · split
      · exact backtrack_within h ..
      · exact .inr rfl
  | stop => exact backtrack_within h ..
  | go next state => exact .inr rfl
  | fork next state other =>
    simp only [Move.perform, fork]
    split
    · exact .inl ⟨_, rfl⟩
    · next room => exact .inr (if_neg (by rw [Task.limits_within]; omega))
  | look negated groups body next => exact .inr rfl

/-- **Limits only cut.** A walk that hits no limit ends in the same way, after the same events,
where there is more room and as many steps as it takes. -/
theorem walkFrom_of_le {limits : Limits} (hd : task.limits.depth ≤ limits.depth)
    {left budget : Nat} {walk : Walk} {log : σ} {final : Option State}
    (h : (walkFrom observe task left walk log).result = .ok final)
    (enough : left ≤ budget + (walkFrom observe task left walk log).left) :
    walkFrom observe (task.within limits) budget walk log =
      ⟨.ok final, budget + (walkFrom observe task left walk log).left - left,
        (walkFrom observe task left walk log).log⟩ := by
  induction left generalizing walk log budget with
  | zero => cases h
  | succ left ih =>
    have spent := left_walkFrom_le observe task left
    rw [walkFrom_succ] at h enough ⊢
    obtain ⟨log', cut⟩ | same := walk.step_within observe hd log
    · -- a walk that ends well has room at each step
      rw [cut] at h
      cases h
    · rcases hs : walk.step observe task log with ⟨walk, log⟩ | ⟨final', log⟩ | log <;>
        simp only [hs, Next.run] at h enough same ⊢
      · have := spent walk log
        obtain ⟨budget, rfl⟩ := Nat.exists_eq_succ_of_ne_zero (show budget ≠ 0 by omega)
        rw [walkFrom_succ, same, Next.run, ih h (by omega)]
        congr 1
        omega
      · obtain ⟨budget, rfl⟩ := Nat.exists_eq_succ_of_ne_zero (show budget ≠ 0 by omega)
        cases h
        rw [walkFrom_succ, same, Next.run]
        congr 1
        omega
      · cases h

/-- With more steps, as many more are left. -/
theorem walkFrom_raise (limits : Limits) (hd : task.limits.depth ≤ limits.depth) (extra : Nat)
    {left : Nat} {walk : Walk} {log : σ} {final : Option State}
    (h : (walkFrom observe task left walk log).result = .ok final) :
    walkFrom observe (task.within limits) (left + extra) walk log =
      ⟨.ok final, (walkFrom observe task left walk log).left + extra,
        (walkFrom observe task left walk log).log⟩ := by
  rw [walkFrom_of_le hd h (by omega)]
  congr 1
  omega

/-! ## How a walk ends -/

/-- How a walk ends if the limits allow it. -/
def Settles (task : Task) (walk : Walk) (final : Option State) : Prop :=
  ∃ limits, (walkFrom ignore (task.within limits) limits.steps walk ()).result = .ok final

/-- How a walk ends that goes back to its last choice point, if the limits allow it. -/
def Resolves (task : Task) (choices : List ChoicePoint) (depth : Nat)
    (suspended : List Suspended) (final : Option State) : Prop :=
  ∃ limits, ((Walk.backtrack ignore (task.within limits) () choices depth suspended).run ignore
    (task.within limits) limits.steps).result = .ok final

variable {walk : Walk} {final : Option State} {choices : List ChoicePoint} {depth : Nat}
  {suspended : List Suspended}

/-- Some limits are high enough for all that is needed. -/
theorem Settles.above (h : Settles task walk final) (room : Nat) :
    ∃ limits : Limits, room ≤ limits.depth ∧
      (walkFrom ignore (task.within limits) limits.steps walk ()).result = .ok final := by
  obtain ⟨limits, h⟩ := h
  refine ⟨⟨limits.steps, max room limits.depth⟩, Nat.le_max_left .., ?_⟩
  have raised := walkFrom_raise ⟨limits.steps, max room limits.depth⟩ (Nat.le_max_right ..) 0 h
  exact congrArg Ending.result raised

/-- All limits that are high enough let the walk end in this way. -/
theorem Settles.eventually (h : Settles task walk final) :
    ∃ bound, ∀ limits : Limits, bound ≤ limits.steps → bound ≤ limits.depth →
      (walkFrom ignore (task.within limits) limits.steps walk ()).result = .ok final := by
  obtain ⟨⟨steps, depth⟩, h⟩ := h
  refine ⟨max steps depth, fun limits hs hd => ?_⟩
  obtain ⟨extra, he⟩ := Nat.exists_eq_add_of_le (Nat.le_trans (Nat.le_max_left ..) hs)
  have raised := walkFrom_raise limits (Nat.le_trans (Nat.le_max_right ..) hd) extra h
  rw [he]
  exact congrArg Ending.result raised

/-- A walk that ends without hitting a limit ends as it would under higher ones. -/
theorem Settles.eq_of_walkFrom (h : Settles task walk final) {left : Nat} {final' : Option State}
    (h' : (walkFrom ignore task left walk ()).result = .ok final') : final' = final := by
  obtain ⟨bound, all⟩ := h.eventually
  -- compare the two under limits that are high enough for both
  have raised := walkFrom_raise ⟨left + bound, max task.limits.depth bound⟩ (Nat.le_max_left ..)
    bound h'
  have settled := all ⟨left + bound, max task.limits.depth bound⟩ (Nat.le_add_left ..)
    (Nat.le_max_right ..)
  rw [raised] at settled
  exact Except.ok.inj settled

/-! ### Going back -/

theorem resolves_resume_iff {node : Nat} {state : State} :
    Resolves task (.resume node state :: choices) (depth + 1) suspended final ↔
      Settles task ⟨node, state, choices, depth, suspended⟩ final := by
  simp only [Resolves, Settles, Walk.backtrack, Next.run, Nat.add_sub_cancel]

theorem resolves_alternative_iff {here first : Nat} {state : State} :
    Resolves task (.alternatives here first [] state :: choices) (depth + 1) suspended final ↔
      Settles task ⟨first, state, choices, depth, suspended⟩ final := by
  simp only [Resolves, Settles, Walk.backtrack, Next.run, Nat.add_sub_cancel]

theorem Resolves.alternatives {here first second : Nat} {others : List Nat} {state : State}
    (h : Settles task ⟨first, state, .alternatives here second others state :: choices, depth + 1,
      suspended⟩ final) :
    Resolves task (.alternatives here first (second :: others) state :: choices) (depth + 1)
      suspended final := by
  obtain ⟨limits, room, h⟩ := h.above (depth + 1)
  refine ⟨limits, ?_⟩
  rw [Walk.backtrack, Task.limits_within, if_neg (Nat.not_lt.mpr room)]
  exact h

theorem Resolves.exhausted : Resolves task [] depth [] none :=
  ⟨⟨0, 0⟩, rfl⟩

theorem Resolves.negated {outer : Suspended} (negated : outer.negated = true)
    (h : Settles task ⟨outer.next, outer.state, outer.choices, outer.depth, suspended⟩ final) :
    Resolves task [] depth (outer :: suspended) final := by
  obtain ⟨limits, h⟩ := h
  refine ⟨limits, ?_⟩
  rw [Walk.backtrack, if_pos negated]
  exact h

theorem Resolves.failed {outer : Suspended} (negated : outer.negated = false)
    (h : Resolves task outer.choices outer.depth suspended final) :
    Resolves task [] depth (outer :: suspended) final := by
  obtain ⟨limits, h⟩ := h
  refine ⟨limits, ?_⟩
  rw [Walk.backtrack, if_neg (by simp [negated])]
  exact h

/-! ### Going on -/

/-- What a step leads to settles the walk. -/
theorem Settles.of_step (limits : Limits)
    (h : ((walk.step ignore (task.within limits) ()).run ignore (task.within limits)
      limits.steps).result = .ok final) : Settles task walk final := by
  rw [← walkFrom_succ] at h
  have raised := walkFrom_raise ⟨limits.steps + 1, limits.depth⟩ (Nat.le_refl limits.depth) 0 h
  exact ⟨⟨limits.steps + 1, limits.depth⟩, congrArg Ending.result raised⟩

section

variable {here : Nat} {state : State}

theorem Settles.goal (hm : task.move here state = .goal) :
    Settles task ⟨here, state, choices, depth, []⟩ (some state) := by
  refine Settles.of_step ⟨0, 0⟩ ?_
  rw [Walk.step_eq_perform, Task.move_within, hm]
  rfl

theorem Settles.goal_negated {outer : Suspended} (hm : task.move here state = .goal)
    (negated : outer.negated = true)
    (h : Resolves task outer.choices outer.depth suspended final) :
    Settles task ⟨here, state, choices, depth, outer :: suspended⟩ final := by
  obtain ⟨limits, h⟩ := h
  refine Settles.of_step limits ?_
  rw [Walk.step_eq_perform, Task.move_within, hm]
  simp only [Move.perform, if_pos negated]
  exact h

theorem Settles.goal_positive {outer : Suspended} (hm : task.move here state = .goal)
    (negated : outer.negated = false)
    (h : Settles task ⟨outer.next, outer.state.adopt state outer.groups, outer.choices,
      outer.depth, suspended⟩ final) :
    Settles task ⟨here, state, choices, depth, outer :: suspended⟩ final := by
  obtain ⟨limits, h⟩ := h
  refine Settles.of_step limits ?_
  rw [Walk.step_eq_perform, Task.move_within, hm]
  simp only [Move.perform, negated]
  exact h

theorem Settles.stop (hm : task.move here state = .stop)
    (h : Resolves task choices depth suspended final) :
    Settles task ⟨here, state, choices, depth, suspended⟩ final := by
  obtain ⟨limits, h⟩ := h
  refine Settles.of_step limits ?_
  rw [Walk.step_eq_perform, Task.move_within, hm]
  exact h

theorem Settles.go {next : Nat} {after : State} (hm : task.move here state = .go next after)
    (h : Settles task ⟨next, after, choices, depth, suspended⟩ final) :
    Settles task ⟨here, state, choices, depth, suspended⟩ final := by
  obtain ⟨limits, h⟩ := h
  refine Settles.of_step limits ?_
  rw [Walk.step_eq_perform, Task.move_within, hm]
  exact h

theorem Settles.fork {next : Nat} {after : State} {other : ChoicePoint}
    (hm : task.move here state = .fork next after other)
    (h : Settles task ⟨next, after, other :: choices, depth + 1, suspended⟩ final) :
    Settles task ⟨here, state, choices, depth, suspended⟩ final := by
  obtain ⟨limits, room, h⟩ := h.above (depth + 1)
  refine Settles.of_step limits ?_
  rw [Walk.step_eq_perform, Task.move_within, hm]
  rw [Move.perform, Walk.fork, Task.limits_within, if_neg (Nat.not_le.mpr room)]
  exact h

theorem Settles.look {negated : Bool} {groups : GroupRange} {body next : Nat}
    (hm : task.move here state = .look negated groups body next)
    (h : Settles task ⟨body, state, [], depth + 1,
      ⟨negated, groups, next, state, choices, depth⟩ :: suspended⟩ final) :
    Settles task ⟨here, state, choices, depth, suspended⟩ final := by
  obtain ⟨limits, h⟩ := h
  refine Settles.of_step limits ?_
  rw [Walk.step_eq_perform, Task.move_within, hm]
  exact h

end

end BacktrackRegex
