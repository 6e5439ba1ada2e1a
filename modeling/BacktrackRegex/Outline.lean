import BacktrackRegex.Pattern.Numbering
import BacktrackRegex.Text.Quoted

/-!
# Words shared by the outlines

Outlines are texts for people, one line a node. This module fixes how they write what patterns and
graphs have in common: classes, set items, kinds of group, repetition bounds and ranges of groups.
-/

namespace BacktrackRegex

/-- The name of a class. -/
def CharClass.name : CharClass → String
  | digits => "Digits"
  | spaces => "Spaces"
  | words => "Words"

/-- The name of a kind of group. -/
def GroupKind.name : GroupKind → String
  | capturing => "Capturing"
  | nonCapturing => "NonCapturing"
  | lookahead => "Lookahead"
  | negativeLookahead => "NegativeLookahead"

/-- An item of a set: a quoted character, a range of them, or a class with `!` for a complement. -/
def ClassItem.outline : ClassItem → String
  | single c => Text.quoteChar c
  | range lo hi => Text.quoteChar lo ++ "-" ++ Text.quoteChar hi
  | named cls positive => (if positive then "" else "!") ++ cls.name

/-- A range of groups, by its first number and the number after its last. -/
def GroupRange.outline (groups : GroupRange) : String :=
  toString groups.first ++ ".." ++ toString groups.next

namespace Outline

/-- The bounds of a repetition and which way it leans. -/
def repetition (min : Nat) (max : Option Nat) (greedy : Bool) : String :=
  let upper := match max with
    | some max => toString max
    | none => "inf"
  "\x7b" ++ toString min ++ "," ++ upper ++ "\x7d " ++ if greedy then "greedy" else "lazy"

/-- The items of a set between brackets. -/
def items (separator : String) (items : List ClassItem) : String :=
  "[" ++ separator.intercalate (items.map (·.outline)) ++ "]"

end Outline

end BacktrackRegex
