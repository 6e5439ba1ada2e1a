import BacktrackRegex.Graph
import BacktrackRegex.Outline

/-!
# Outline of a graph

The two ways in and the sizes on the first line, then one line for each node: its place, what it
is, and the nodes that may follow.
-/

namespace BacktrackRegex

/-- A test in words. -/
def Test.outline : Test → String
  | lineStart => "Start"
  | lineEnd => "End"
  | wordBoundary inverted => "WordBoundary \x7b invert: " ++ toString inverted ++ " \x7d"
  | backreference g => "BackRef(" ++ toString g ++ ")"

namespace Node

/-- What a node holds besides its kind and its successors. -/
def details : Node → String
  | goal | pass _ | join _ | choice _ => ""
  | char c _ => " " ++ Text.quoteChar c
  | set negated items _ => (if negated then " ^" else " ") ++ Outline.items " " items
  | openGroup slot _ => " " ++ toString slot
  | closeGroup slot _ => " " ++ toString slot
  | loop quantifier _ _ =>
    " #" ++ toString quantifier.id ++ " " ++
      Outline.repetition quantifier.min quantifier.max quantifier.greedy ++
      " groups " ++ quantifier.groups.outline
  | lookahead negated groups _ _ =>
    (if negated then " negative groups " else " positive groups ") ++ groups.outline
  | test condition _ => " " ++ condition.outline

/-- A node on a line of its own, behind its place in four columns. -/
def outline (place : Nat) (node : Node) : String :=
  let number := toString place
  let arrow := if node.successors.isEmpty then "" else " ->"
  "".pushn ' ' (4 - number.length) ++ number ++ ": " ++ node.kind ++ node.details ++
    node.successors.foldl (fun written next => written ++ " " ++ toString next) arrow

end Node

/-- The whole graph, one line a node. -/
def Graph.outline (graph : Graph) : String :=
  let heading := "start " ++ toString graph.start ++ " anchored " ++ toString graph.anchored ++
    " slots " ++ toString graph.slots ++ " loops " ++ toString graph.loops ++ "\n"
  (graph.nodes.foldl
    (fun (written, place) node => (written ++ node.outline place ++ "\n", place + 1))
    (heading, 0)).1

end BacktrackRegex
