/-!
# Traces of a search

A search can be observed: it reports each node it visits, each place where it keeps another way for
later, and each return to such a way. A `Trace` holds these events, attempt by attempt.
-/

namespace BacktrackRegex

/-- What happened at a point of a search. -/
inductive EventKind where
  /-- the node was visited -/
  | visit
  /-- another way from here was kept for later -/
  | fork
  /-- a way that was kept is followed from this node on -/
  | backtrack
  deriving DecidableEq, Repr

/-- An event of a search. -/
structure Event where
  /-- the node -/
  node : Nat
  /-- the position in the text -/
  pos : Nat
  /-- what happened -/
  kind : EventKind
  deriving DecidableEq, Repr

/-- The events of one attempt. -/
structure Run where
  /-- the position at which the attempt began -/
  start : Nat
  /-- the events in the order in which they happened -/
  events : Array Event
  /-- whether the attempt ended in a match -/
  succeeded : Bool
  deriving DecidableEq, Repr

/-- The attempts of one search. -/
structure Trace where
  /-- the attempts in the order in which they were made -/
  runs : List Run
  deriving DecidableEq, Repr

namespace Trace

/-- The number of events of a kind. -/
def count (trace : Trace) (kind : EventKind) : Nat :=
  trace.runs.foldl (fun total run => total + run.events.countP (·.kind == kind)) 0

/-- The number of nodes visited. -/
def visits (trace : Trace) : Nat :=
  trace.count .visit

/-- The number of ways that were followed after being kept. -/
def backtracks (trace : Trace) : Nat :=
  trace.count .backtrack

/-- Whether the last attempt ended in a match. -/
def succeeded (trace : Trace) : Bool :=
  trace.runs.getLast?.any (·.succeeded)

end Trace

end BacktrackRegex
