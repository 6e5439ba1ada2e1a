import BacktrackRegex.CharClass

/-!
# Patterns as trees

A `Pattern α` is the tree of a regular expression. Quantifiers and groups carry a label of type
`α`: nothing while a pattern is being read, and the range of capture groups they enclose once the
groups are numbered.

* `ofTerms` and `ofChoices` build a sequence and a choice in normal form, without a node around a
  single part.
* `isQuantifiable` tells the nodes that a quantifier may follow.
* `GroupKind.isCapturing` and `GroupKind.isLookahead` sort the kinds of group.
-/

namespace BacktrackRegex

/-- What a pair of parentheses does. -/
inductive GroupKind where
  /-- `(…)` records what it matched -/
  | capturing
  /-- `(?:…)` only groups -/
  | nonCapturing
  /-- `(?=…)` looks ahead and asks for a match -/
  | lookahead
  /-- `(?!…)` looks ahead and asks for no match -/
  | negativeLookahead
  deriving DecidableEq, Repr

namespace GroupKind

/-- Whether the group records what it matched. -/
def isCapturing : GroupKind → Bool
  | capturing => true
  | _ => false

/-- Whether the group looks ahead. -/
def isLookahead : GroupKind → Bool
  | lookahead | negativeLookahead => true
  | _ => false

end GroupKind

/-- The tree of a regular expression. -/
inductive Pattern (α : Type) where
  /-- matches the empty string -/
  | empty
  /-- a character written as itself, or behind a backslash that only quotes it -/
  | char (c : Char)
  /-- a character written by a code: `\n`, `\cJ`, `\x41`, … -/
  | coded (c : Char)
  /-- `\d`, `\s`, `\w`, or with a capital their complement -/
  | named (cls : CharClass) (positive : Bool)
  /-- `[…]` or `[^…]` -/
  | set (negated : Bool) (items : List ClassItem)
  /-- any character but a line terminator -/
  | dot
  /-- `^` -/
  | lineStart
  /-- `$` -/
  | lineEnd
  /-- `\b`, or `\B` if inverted -/
  | wordBoundary (inverted : Bool)
  /-- the text that a group captured -/
  | backreference (group : Nat)
  /-- a parenthesised part -/
  | group (label : α) (kind : GroupKind) (body : Pattern α)
  /-- a quantified part; without `max` there is no upper bound -/
  | quantified (label : α) (min : Nat) (max : Option Nat) (greedy : Bool) (body : Pattern α)
  /-- one part after the other -/
  | seq (terms : List (Pattern α))
  /-- the first part that leads to a match -/
  | choice (alternatives : List (Pattern α))
  deriving Repr, Inhabited

namespace Pattern

variable {α : Type}

/-- The terms one after the other; a single term stands for itself. -/
def ofTerms : List (Pattern α) → Pattern α
  | [] => empty
  | [term] => term
  | terms => seq terms

/-- The choice between alternatives; a single one stands for itself. -/
def ofChoices : List (Pattern α) → Pattern α
  | [] => empty
  | [alternative] => alternative
  | alternatives => choice alternatives

/-- Whether a quantifier may follow: not after an assertion about the position alone. -/
def isQuantifiable : Pattern α → Bool
  | lineStart | lineEnd | wordBoundary _ => false
  | _ => true

end Pattern

end BacktrackRegex
