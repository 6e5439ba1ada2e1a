import BacktrackRegex.Pattern.Slots
import BacktrackRegex.Search.Test

/-!
# The state of a walk through a graph

A `State` says how far a walk has come in the text, what the groups have captured, which groups are
open, and how far the active quantifiers have come. Where a walk may go on in two ways it keeps a
state for each, so what is done on one way is never seen on the other.
-/

namespace BacktrackRegex

/-- The iteration of a quantifier that is in progress. -/
structure Iteration where
  /-- how many iterations were completed before it -/
  completed : Nat
  /-- the position at which it began -/
  entry : Nat
  deriving DecidableEq, Repr

/-- How far a walk has come. -/
structure State where
  /-- the position in the text -/
  pos : Nat
  /-- what the groups captured, by slot -/
  captures : Array (Option Span)
  /-- where the open groups began, by slot -/
  opened : Array (Option Nat)
  /-- the iterations in progress, by the number of the quantifier -/
  iterations : Array (Option Iteration)
  deriving DecidableEq, Repr

namespace State

/-- Nothing is captured, open or in progress. -/
def initial (graph : Graph) (pos : Nat) : State where
  pos := pos
  captures := Array.replicate graph.slots none
  opened := Array.replicate graph.slots none
  iterations := Array.replicate graph.loops none

/-- Move to another position. -/
def moveTo (state : State) (pos : Nat) : State :=
  { state with pos := pos }

/-- A capture begins here. -/
def openGroup (state : State) (slot : Nat) : State :=
  { state with opened := state.opened.setIfInBounds slot (some state.pos) }

/-- A capture that has begun ends here. -/
def closeGroup (state : State) (slot : Nat) : State :=
  match state.opened[slot]?.join with
  | none => state
  | some start =>
    { state with
      captures := state.captures.setIfInBounds slot (some ⟨start, state.pos⟩)
      opened := state.opened.setIfInBounds slot none }

/-- Begin an iteration after `completed` others: the groups inside forget what they captured. -/
def beginIteration (state : State) (loop : Loop) (completed : Nat) : State :=
  { state with
    captures := loop.groups.clear state.captures
    opened := loop.groups.clear state.opened
    iterations := state.iterations.setIfInBounds loop.id (some ⟨completed, state.pos⟩) }

/-- Leave a quantifier. -/
def leaveLoop (state : State) (loop : Loop) : State :=
  { state with iterations := state.iterations.setIfInBounds loop.id none }

/-- Take over what a lookahead's body captured in its groups. -/
def adopt (state inner : State) (groups : GroupRange) : State :=
  { state with captures := groups.copy inner.captures state.captures }

/-- How many iterations of a quantifier are completed now that the walk is at its node. There is no
answer if an iteration that was not required has consumed nothing: the walk must not go on, lest it
come back here for ever. -/
def completed? (state : State) (loop : Loop) : Option Nat :=
  match state.iterations[loop.id]?.join with
  | none => some 0
  | some iteration =>
    if loop.min ≤ iteration.completed && state.pos == iteration.entry then none
    else some (iteration.completed + 1)

/-! ## Sizes

Nothing that happens to a state changes how many slots it has. -/

/-- Whether a state has the slots that a graph asks for. -/
structure Fits (state : State) (graph : Graph) : Prop where
  /-- a slot for each capture -/
  captures : state.captures.size = graph.slots
  /-- a slot for each open group -/
  opened : state.opened.size = graph.slots
  /-- a slot for each quantifier -/
  iterations : state.iterations.size = graph.loops

theorem fits_initial (graph : Graph) (pos : Nat) : (initial graph pos).Fits graph :=
  ⟨Array.size_replicate, Array.size_replicate, Array.size_replicate⟩

variable {state : State} {graph : Graph}

theorem Fits.moveTo (h : state.Fits graph) (pos : Nat) : (state.moveTo pos).Fits graph :=
  ⟨h.captures, h.opened, h.iterations⟩

theorem Fits.openGroup (h : state.Fits graph) (slot : Nat) : (state.openGroup slot).Fits graph :=
  ⟨h.captures, by simpa [State.openGroup] using h.opened, h.iterations⟩

theorem Fits.closeGroup (h : state.Fits graph) (slot : Nat) :
    (state.closeGroup slot).Fits graph := by
  unfold State.closeGroup
  split
  · exact h
  · exact ⟨by simpa using h.captures, by simpa using h.opened, h.iterations⟩

theorem Fits.beginIteration (h : state.Fits graph) (loop : Loop) (completed : Nat) :
    (state.beginIteration loop completed).Fits graph :=
  ⟨by simpa [State.beginIteration] using h.captures,
    by simpa [State.beginIteration] using h.opened,
    by simpa [State.beginIteration] using h.iterations⟩

theorem Fits.leaveLoop (h : state.Fits graph) (loop : Loop) : (state.leaveLoop loop).Fits graph :=
  ⟨h.captures, h.opened, by simpa [State.leaveLoop] using h.iterations⟩

theorem Fits.adopt (h : state.Fits graph) (inner : State) (groups : GroupRange) :
    (state.adopt inner groups).Fits graph :=
  ⟨by simpa [State.adopt] using h.captures, h.opened, h.iterations⟩

end State

end BacktrackRegex
