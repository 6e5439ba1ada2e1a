import BacktrackRegex.Proofs.Search.Move

/-!
# Walks on top of other choice points

A walk that finds choice points of others beneath its own does as it would without them, step by
step, until its own are used up; only then does it go back to the first of the others. The walk with
the others beneath is `Walk.onto`, and `Over` relates what a step of the two leads to.
`walkFrom_onto` says it of whole walks, with the number of steps they take.

The choice points of others can only make a walk hit the limit on depth sooner.
-/

namespace BacktrackRegex

variable (base : List ChoicePoint) (k : Nat)

/-! ## Choice points beneath -/

/-- The choice points of a walk with those of `base` beneath. They lie beneath those of the
outermost walk, so they are not among these if others are suspended. -/
def ChoicePoint.onto (suspended : List Suspended) (choices : List ChoicePoint) :
    List ChoicePoint :=
  match suspended with
  | [] => choices ++ base
  | _ :: _ => choices

/-- The suspended walks with the choice points of `base` beneath, and with depths that count `k`
more. -/
def Suspended.onto : List Suspended → List Suspended
  | [] => []
  | outer :: suspended =>
    let choices := ChoicePoint.onto base suspended outer.choices
    { outer with choices, depth := outer.depth + k } :: Suspended.onto suspended

/-- A walk with the choice points of `base` beneath, and with depths that count `k` more. -/
def Walk.onto (walk : Walk) : Walk where
  node := walk.node
  state := walk.state
  choices := ChoicePoint.onto base walk.suspended walk.choices
  depth := walk.depth + k
  suspended := Suspended.onto base k walk.suspended

/-- The depths count the choice points at least. -/
structure Walk.Counted (walk : Walk) : Prop where
  /-- those of the walk -/
  choices : walk.choices.length ≤ walk.depth
  /-- and those of the suspended walks -/
  suspended : ∀ outer ∈ walk.suspended, outer.choices.length ≤ outer.depth

theorem Walk.counted_enter (graph : Graph) (entry pos : Nat) : (enter graph entry pos).Counted :=
  ⟨Nat.le_refl 0, fun _ h => absurd h List.not_mem_nil⟩

theorem Walk.onto_enter (graph : Graph) (entry pos : Nat) :
    (enter graph entry pos).onto base k = ⟨entry, .initial graph pos, base, k, []⟩ := by
  simp only [onto, enter, ChoicePoint.onto, Suspended.onto, List.nil_append, Nat.zero_add]

@[simp] theorem ChoicePoint.onto_cons (suspended : List Suspended) (choice : ChoicePoint)
    (choices : List ChoicePoint) :
    ChoicePoint.onto base suspended (choice :: choices) =
      choice :: ChoicePoint.onto base suspended choices := by
  cases suspended <;> rfl

/-! ## Steps -/

/-- What a step leads to without and with the choice points of `base` beneath. -/
inductive Over (task : Task) : Next Unit → Next Unit → Prop where
  /-- another step on both sides -/
  | step (walk : Walk) (counted : walk.Counted) :
    Over task (.step walk ()) (.step (walk.onto base k) ())
  /-- the goal on both sides -/
  | found (final : State) : Over task (.finish (some final) ()) (.finish (some final) ())
  /-- no choice point left on one side, and only those of `base` on the other -/
  | failed (depth : Nat) :
    Over task (.finish none ()) (Walk.backtrack ignore task () base (depth + k) [])
  /-- too many choice points on the other side -/
  | overflow (next : Next Unit) : Over task next (.overflow ())

variable {base k} {task : Task}

theorem Walk.backtrack_onto {choices : List ChoicePoint} {depth : Nat}
    {suspended : List Suspended} (held : choices.length ≤ depth)
    (held' : ∀ outer ∈ suspended, outer.choices.length ≤ outer.depth) :
    Over base k task (backtrack ignore task () choices depth suspended)
      (backtrack ignore task () (ChoicePoint.onto base suspended choices) (depth + k)
        (Suspended.onto base k suspended)) := by
  have less {choice : ChoicePoint} {choices : List ChoicePoint} {depth : Nat}
      (held : (choice :: choices).length ≤ depth) :
      choices.length ≤ depth - 1 ∧ depth + k - 1 = depth - 1 + k := by
    rw [List.length_cons] at held
    omega
  fun_induction backtrack ignore task () choices depth suspended with
  | case1 node state choices depth suspended =>
    obtain ⟨held, same⟩ := less held
    rw [ChoicePoint.onto_cons, backtrack, same]
    exact .step ⟨node, state, choices, depth - 1, suspended⟩ ⟨held, held'⟩
  | case2 node first state choices depth suspended =>
    obtain ⟨held, same⟩ := less held
    rw [ChoicePoint.onto_cons, backtrack, same]
    exact .step ⟨first, state, choices, depth - 1, suspended⟩ ⟨held, held'⟩
  | case3 node first second others state choices depth suspended full =>
    rw [ChoicePoint.onto_cons, backtrack, if_pos (by omega)]
    exact .overflow _
  | case4 node first second others state choices depth suspended room =>
    rw [ChoicePoint.onto_cons, backtrack]
    split
    · exact .overflow _
    · rw [← ChoicePoint.onto_cons]
      exact .step ⟨first, state, .alternatives node second others state :: choices, depth,
        suspended⟩ ⟨held, held'⟩
  | case5 depth =>
    -- no choice point of one's own is left
    exact .failed depth
  | case6 depth outer suspended negated =>
    obtain ⟨here, inner⟩ := List.forall_mem_cons.mp held'
    rw [ChoicePoint.onto, Suspended.onto, backtrack, if_pos negated]
    exact .step ⟨outer.next, outer.state, outer.choices, outer.depth, suspended⟩ ⟨here, inner⟩
  | case7 depth outer suspended positive ih =>
    obtain ⟨here, inner⟩ := List.forall_mem_cons.mp held'
    rw [ChoicePoint.onto, Suspended.onto, backtrack, if_neg positive]
    exact ih here inner

/-- A step does the same with other choice points beneath, until its own are used up. -/
theorem Walk.step_onto {walk : Walk} (counted : walk.Counted) :
    Over base k task (walk.step ignore task ()) ((walk.onto base k).step ignore task ()) := by
  obtain ⟨here, state, choices, depth, suspended⟩ := walk
  obtain ⟨held, held'⟩ := counted
  rw [step_eq_perform, step_eq_perform]
  simp only [onto]
  cases task.move here state with
  | goal =>
    cases suspended with
    | nil => exact .found state
    | cons outer suspended =>
      have inner := fun o ho => held' o (List.mem_cons_of_mem outer ho)
      simp only [Move.perform, Suspended.onto]
      split
      · exact backtrack_onto (held' outer List.mem_cons_self) inner
      · exact .step ⟨_, _, outer.choices, outer.depth, suspended⟩
          ⟨held' outer List.mem_cons_self, inner⟩
  | stop => exact backtrack_onto held held'
  | go next after => exact .step ⟨next, after, choices, depth, suspended⟩ ⟨held, held'⟩
  | fork next after other =>
    simp only [Move.perform, fork]
    split
    · next full =>
      rw [if_pos (by omega)]
      exact .overflow _
    · split
      · exact .overflow _
      · rw [← ChoicePoint.onto_cons, Nat.add_right_comm]
        exact .step ⟨next, after, other :: choices, depth + 1, suspended⟩
          ⟨Nat.succ_le_succ held, held'⟩
  | look negated groups body next =>
    simp only [Move.perform]
    rw [Nat.add_right_comm]
    refine .step ⟨body, state, [], depth + 1,
      ⟨negated, groups, next, state, choices, depth⟩ :: suspended⟩ ⟨Nat.zero_le _, ?_⟩
    intro outer ho
    rcases List.mem_cons.mp ho with rfl | ho
    · exact held
    · exact held' outer ho

/-- **A walk on top of others.** It takes the same steps as it would without them. If it finds
nothing it goes back to them, with as many steps left as it would have without them. -/
theorem walkFrom_onto {walk : Walk} (counted : walk.Counted) {left : Nat} {final : Option State}
    (h : (walkFrom ignore task left (walk.onto base k) ()).result = .ok final) :
    (∃ found, final = some found ∧
      (walkFrom ignore task left walk ()).result = .ok (some found)) ∨
    ((walkFrom ignore task left walk ()).result = .ok none ∧
      ∃ depth, ((Walk.backtrack ignore task () base (depth + k) []).run ignore task
        (walkFrom ignore task left walk ()).left).result = .ok final) := by
  induction left generalizing walk with
  | zero => cases h
  | succ left ih =>
    rw [walkFrom_succ] at h
    simp only [walkFrom_succ]
    have related : Over base k task (walk.step ignore task ())
        ((walk.onto base k).step ignore task ()) := walk.step_onto counted
    generalize walk.step ignore task () = next at related ⊢
    generalize (walk.onto base k).step ignore task () = next' at related h
    cases related with
    | step walk counted => exact ih counted h
    | found found =>
      cases h
      exact .inl ⟨found, rfl, rfl⟩
    | failed depth => exact .inr ⟨rfl, depth, h⟩
    | overflow next => cases h

end BacktrackRegex
