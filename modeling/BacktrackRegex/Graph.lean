import BacktrackRegex.Pattern.Numbering
import BacktrackRegex.StartPredicate

/-!
# Patterns as graphs

A compiled pattern is an array of nodes that name each other by their places in it. A walk through
the graph matches the pattern; where more than one way is open, the successors are listed in the
order in which they are tried.

A graph has two ways in: `anchored` matches at one position, and `start` skips any number of
characters first.
-/

namespace BacktrackRegex

/-- A quantifier of a graph. -/
structure Loop where
  /-- its number among the quantifiers -/
  id : Nat
  /-- the least number of iterations -/
  min : Nat
  /-- the greatest number of iterations, if there is one -/
  max : Option Nat
  /-- whether one more iteration is tried before leaving -/
  greedy : Bool
  /-- the groups inside, which are cleared before every iteration -/
  groups : GroupRange
  deriving DecidableEq, Repr

/-- Whether no iteration may follow after this many. -/
def Loop.isFull (loop : Loop) (completed : Nat) : Bool :=
  match loop.max with
  | some max => completed == max
  | none => false

/-- A condition on the position, or on what stands there. -/
inductive Test where
  /-- a line starts here -/
  | lineStart
  /-- a line ends here -/
  | lineEnd
  /-- a word starts or ends here; inverted, none does -/
  | wordBoundary (inverted : Bool)
  /-- the text that a group captured stands here; a group without capture asks for nothing -/
  | backreference (group : Nat)
  deriving DecidableEq, Repr

/-- A node of a graph. -/
inductive Node where
  /-- the end of the pattern, or of a lookahead's body -/
  | goal
  /-- goes on -/
  | pass (next : Nat)
  /-- goes on; the common end of alternatives -/
  | join (next : Nat)
  /-- one character -/
  | char (c : Char) (next : Nat)
  /-- one character of a set -/
  | set (negated : Bool) (items : List ClassItem) (next : Nat)
  /-- one of several ways, tried in order -/
  | choice (alternatives : List Nat)
  /-- a capture begins -/
  | openGroup (slot next : Nat)
  /-- a capture ends -/
  | closeGroup (slot next : Nat)
  /-- another iteration, or on after the quantifier; the body leads back here -/
  | loop (quantifier : Loop) (body next : Nat)
  /-- on if the body matches here, or if it does not and the lookahead is negated -/
  | lookahead (negated : Bool) (groups : GroupRange) (body next : Nat)
  /-- on if the test passes -/
  | test (condition : Test) (next : Nat)
  deriving Repr, Inhabited

namespace Node

/-- The nodes that may follow, in the order in which they are tried. -/
def successors : Node → List Nat
  | goal => []
  | choice alternatives => alternatives
  | loop _ body next => [body, next]
  | lookahead _ _ body next => [body, next]
  | pass next | join next | char _ next | set _ _ next | openGroup _ next | closeGroup _ next
  | test _ next => [next]

/-- The name of a node's kind. -/
def kind : Node → String
  | goal => "Goal"
  | pass _ => "Empty"
  | join _ => "Join"
  | char _ _ => "Char"
  | set _ _ _ => "CharSet"
  | choice _ => "Alt"
  | openGroup _ _ => "GroupBegin"
  | closeGroup _ _ => "GroupEnd"
  | loop _ _ _ => "Repeat"
  | lookahead _ _ _ _ => "Lookahead"
  | test _ _ => "Func"

end Node

/-- A compiled pattern. -/
structure Graph where
  /-- the nodes; a node's name is its place -/
  nodes : Array Node
  /-- the way in that first skips any number of characters -/
  start : Nat
  /-- the way in that matches at one position -/
  anchored : Nat
  /-- the number of capture slots, slot 0 for the whole match among them -/
  slots : Nat
  /-- the number of quantifiers, the one that skips characters among them -/
  loops : Nat
  /-- where a match may begin -/
  startPredicate : StartPredicate
  deriving Repr

namespace Graph

/-- The number of capturing groups. -/
def groupCount (graph : Graph) : Nat :=
  graph.slots - 1

end Graph

end BacktrackRegex
