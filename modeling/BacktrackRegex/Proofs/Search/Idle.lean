import BacktrackRegex.Pattern.Results
import BacktrackRegex.Search.State

/-!
# States between points

A state has all that a point has, and besides it what the groups and quantifiers around are up to.
`State.put` puts a state at another point and leaves that as it is: this is what a fragment of a
graph does to the state in which it is entered.

It can do so if its own groups and quantifiers are `Idle` at first: none of its groups is open, and
none of its quantifiers has an iteration in progress. `State.during` is the state inside an
iteration.
-/

namespace BacktrackRegex

/-- Emptying a slot that holds nothing changes nothing. -/
theorem setIfInBounds_none_eq_self {β : Type} {slots : Array (Option β)} {i : Nat}
    (h : slots[i]?.join = none) : slots.setIfInBounds i none = slots := by
  refine Array.ext_getElem? fun j => ?_
  rw [Array.getElem?_setIfInBounds]
  split
  · next same =>
    subst same
    split
    · next inside =>
      rw [Array.getElem?_eq_getElem inside] at h ⊢
      exact congrArg some h.symm
    · next outside => exact (Array.getElem?_eq_none (Nat.le_of_not_lt outside)).symm
  · rfl

/-- Clearing slots that hold nothing changes nothing. -/
theorem GroupRange.clear_eq_self {β : Type} {groups : GroupRange} {slots : Array (Option β)}
    (h : ∀ g, groups.first ≤ g → g < groups.next → slots[g]?.join = none) :
    groups.clear slots = slots := by
  refine Array.ext_getElem? fun g => ?_
  rw [getElem?_clear]
  split
  · next inside =>
    have empty := h g inside.1.1 inside.1.2
    rw [Array.getElem?_eq_getElem inside.2] at empty ⊢
    exact congrArg some empty.symm
  · rfl

namespace State

/-- What a pattern sees of a state. -/
def point (state : State) : Point :=
  ⟨state.pos, state.captures⟩

/-- The state at another point. -/
def put (state : State) (point : Point) : State :=
  { state with pos := point.pos, captures := point.captures }

@[simp] theorem put_point (state : State) : state.put state.point = state := rfl

@[simp] theorem put_put (state : State) (a b : Point) : (state.put a).put b = state.put b := rfl

@[simp] theorem point_put (state : State) (point : Point) : (state.put point).point = point := rfl

/-- Inside an iteration of the quantifier `id`, or outside all of them. -/
def during (state : State) (id : Nat) (iteration : Option Iteration) : State :=
  { state with iterations := state.iterations.setIfInBounds id iteration }

/-- No group numbered from `first` up to `next` is open, and no quantifier numbered from `loops` up
to `loops'` has an iteration in progress. -/
structure Idle (first next loops loops' : Nat) (state : State) : Prop where
  /-- there is a slot to open each group that captures -/
  size : state.opened.size = state.captures.size
  /-- the groups are closed -/
  opened : ∀ g, first ≤ g → g < next → state.opened[g]?.join = none
  /-- the quantifiers are at rest -/
  iterations : ∀ k, loops ≤ k → k < loops' → state.iterations[k]? = some none

namespace Idle

variable {first next loops loops' : Nat} {state : State}

theorem narrow (h : state.Idle first next loops loops') {first' next' low high : Nat}
    (hf : first ≤ first') (hn : next' ≤ next) (hl : loops ≤ low) (hh : high ≤ loops') :
    state.Idle first' next' low high :=
  ⟨h.size, fun g hg hg' => h.opened g (by omega) (by omega),
    fun k hk hk' => h.iterations k (by omega) (by omega)⟩

theorem put (h : state.Idle first next loops loops') (point : Point)
    (size : point.captures.size = state.captures.size) :
    (state.put point).Idle first next loops loops' :=
  ⟨h.size.trans size.symm, h.opened, h.iterations⟩

/-- To open a group disturbs no other. -/
theorem openGroup (h : state.Idle first next loops loops') (slot : Nat) (lt : slot < first) :
    (state.openGroup slot).Idle first next loops loops' := by
  refine ⟨by simpa [State.openGroup] using h.size, fun g hg hg' => ?_, h.iterations⟩
  have ne : slot ≠ g := by omega
  simpa [State.openGroup, Array.getElem?_setIfInBounds_ne ne] using h.opened g hg hg'

/-- To begin an iteration disturbs no quantifier with another number. -/
theorem during (h : state.Idle first next loops loops') (id : Nat) (lt : id < loops)
    (iteration : Option Iteration) : (state.during id iteration).Idle first next loops loops' := by
  refine ⟨h.size, h.opened, fun k hk hk' => ?_⟩
  have ne : id ≠ k := by omega
  simpa [State.during, Array.getElem?_setIfInBounds_ne ne] using h.iterations k hk hk'

end Idle

/-- A group that was closed is closed again behind its body, which it has captured. -/
theorem closeGroup_openGroup {state : State} {slot : Nat} {point : Point}
    (size : state.opened.size = state.captures.size)
    (closed : state.opened[slot]?.join = none)
    (size' : point.captures.size = state.captures.size) :
    ((state.openGroup slot).put point).closeGroup slot =
      state.put (point.capture slot state.pos) := by
  rcases Nat.lt_or_ge slot state.opened.size with inside | outside
  · have opened : (state.opened.setIfInBounds slot (some state.pos))[slot]?.join =
        some state.pos := by
      rw [Array.getElem?_setIfInBounds_self_of_lt inside]
      rfl
    simp only [closeGroup, State.openGroup, put, opened, Array.setIfInBounds_setIfInBounds,
      setIfInBounds_none_eq_self closed, Point.capture]
  · have opened : state.opened.setIfInBounds slot (some state.pos) = state.opened :=
      Array.setIfInBounds_eq_of_size_le outside
    have captured : point.captures.setIfInBounds slot (some ⟨state.pos, point.pos⟩) =
        point.captures :=
      Array.setIfInBounds_eq_of_size_le (by omega)
    simp only [closeGroup, State.openGroup, put, opened, closed, Point.capture, captured]

/-! ## Inside a quantifier -/

section

variable {first next loops loops' : Nat} {state : State} {loop : Loop}

theorem during_none (h : state.iterations[loop.id]? = some none) :
    state.during loop.id none = state := by
  rw [during, setIfInBounds_none_eq_self (by rw [h]; rfl)]

theorem beginIteration_during (idle : state.Idle loop.groups.first loop.groups.next loops loops')
    (point : Point) (iteration : Option Iteration) (completed : Nat) :
    ((state.during loop.id iteration).put point).beginIteration loop completed =
      (state.during loop.id (some ⟨completed, point.pos⟩)).put
        { point with captures := loop.groups.clear point.captures } := by
  simp only [beginIteration, during, put, Array.setIfInBounds_setIfInBounds,
    GroupRange.clear_eq_self idle.opened]

theorem leaveLoop_during (h : state.iterations[loop.id]? = some none) (point : Point)
    (iteration : Option Iteration) :
    ((state.during loop.id iteration).put point).leaveLoop loop = state.put point := by
  have rest := congrArg iterations (during_none h)
  simp only [during] at rest
  simp only [leaveLoop, during, put, Array.setIfInBounds_setIfInBounds, rest]

theorem completed?_put (h : state.iterations[loop.id]? = some none) (point : Point) :
    (state.put point).completed? loop = some 0 := by
  simp [completed?, put, h]

theorem completed?_during (h : state.iterations[loop.id]? = some none) (point : Point)
    (iteration : Iteration) :
    ((state.during loop.id (some iteration)).put point).completed? loop =
      if loop.min ≤ iteration.completed && point.pos == iteration.entry then none
      else some (iteration.completed + 1) := by
  have inside : loop.id < state.iterations.size := (Array.getElem?_eq_some_iff.mp h).1
  simp [completed?, during, put, Array.getElem?_setIfInBounds_self_of_lt inside]

end

end State

end BacktrackRegex
