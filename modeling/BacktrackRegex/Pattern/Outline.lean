import BacktrackRegex.Outline

/-!
# Listing the nodes of a pattern

`Pattern.nodes` lists the nodes of a tree with their depths, every node before its parts.
`Pattern.outline` writes one line for each, set in by two dots for each level.
-/

namespace BacktrackRegex

namespace Pattern

variable {α : Type}

/-! ## Nodes and depths -/

mutual

/-- Append a node at `depth` and, after it, the nodes of its parts. -/
def listNodes (depth : Nat) : Pattern α → Array (Nat × Pattern α) → Array (Nat × Pattern α)
  | group label kind body, seen =>
    listNodes (depth + 1) body (seen.push (depth, group label kind body))
  | quantified label min max greedy body, seen =>
    listNodes (depth + 1) body (seen.push (depth, quantified label min max greedy body))
  | seq terms, seen => listAll (depth + 1) terms (seen.push (depth, seq terms))
  | choice alternatives, seen =>
    listAll (depth + 1) alternatives (seen.push (depth, choice alternatives))
  | leaf, seen => seen.push (depth, leaf)
termination_by structural p => p

/-- Append patterns at `depth`, each followed by the nodes of its parts. -/
def listAll (depth : Nat) : List (Pattern α) → Array (Nat × Pattern α) → Array (Nat × Pattern α)
  | [], seen => seen
  | p :: rest, seen => listAll depth rest (listNodes depth p seen)
termination_by structural ps => ps

end

/-- The nodes of a tree with their depths, every node before its parts. -/
def nodes (p : Pattern α) : Array (Nat × Pattern α) :=
  listNodes 0 p #[]

/-! ## Outline -/

/-- What an outline says of the node at the root of a pattern. -/
def headline : Pattern GroupRange → String
  | empty => "Empty"
  | char c => "Character " ++ Text.quoteChar c
  | coded c => "Escape " ++ Text.quoteChar c
  | named cls positive => "Escape " ++ cls.name ++ " positive=" ++ toString positive
  | set negated items =>
    "CharacterClass" ++ (if negated then " negated " else " ") ++ Outline.items ", " items
  | dot => "Dot"
  | lineStart => "Assertion Start"
  | lineEnd => "Assertion End"
  | wordBoundary inverted => "Escape " ++ if inverted then "\\B" else "\\b"
  | backreference g => "Backreference " ++ toString g
  | group groups kind _ =>
    "Group " ++ kind.name ++ " " ++ toString (groups.index kind) ++
      " last=" ++ toString groups.lastIndex
  | quantified groups min max greedy _ =>
    "Quantifier " ++ Outline.repetition min max greedy ++ " (groups " ++ groups.outline ++ ")"
  | seq terms => "Alternative (" ++ toString terms.length ++ ")"
  | choice alternatives => "Disjunction (" ++ toString alternatives.length ++ ")"

/-- One line a node, set in by two dots for each level. -/
def outline (p : Pattern GroupRange) : String :=
  p.nodes.foldl
    (fun written (depth, node) =>
      written ++ "".pushn '.' (2 * depth) ++ node.headline ++ "\n")
    ""

end Pattern

end BacktrackRegex
