import BacktrackRegex.Pattern
import BacktrackRegex.Text.Literal

/-!
# Where a match may begin

A search need not try every position. A pattern that begins with `^` can match only at the start of
the text, and one that begins with literal characters only where these stand.

* `StartPredicate.ofPattern` reads the predicate off a pattern;
* `StartPredicate.next?` gives the first position, at or after a given one, that passes it.

Literal characters bind only while case matters, and the start of the text only while `^` does not
match after line terminators.
-/

namespace BacktrackRegex

/-- What is known about the positions where a match may begin. -/
inductive StartPredicate where
  /-- nothing -/
  | anywhere
  /-- these characters stand there -/
  | literal (lead : String)
  /-- it is the start of the text -/
  | textStart
  deriving DecidableEq, Repr

namespace Pattern

variable {α : Type}

/-! ## Patterns that begin with `^` -/

mutual

/-- Whether `^` is the first thing that a pattern asks for. -/
def isAnchored : Pattern α → Bool
  | lineStart => true
  | seq terms => headIsAnchored terms
  | group _ kind body => !kind.isLookahead && isAnchored body
  | _ => false
termination_by structural p => p

/-- Whether the first of a list of patterns begins with `^`. -/
def headIsAnchored : List (Pattern α) → Bool
  | [] => false
  | p :: _ => isAnchored p
termination_by structural ps => ps

end

/-! ## Patterns that begin with literal characters -/

mutual

/-- Append the characters with which every match of the pattern begins. The second part tells
whether they are all of the pattern, so that what follows it may go on. -/
def appendLead : Pattern α → String → String × Bool
  | char c, lead => (lead.push c, true)
  | coded c, lead => (lead.push c, true)
  | empty, lead => (lead, true)
  | lineStart, lead => (lead, true)
  | lineEnd, lead => (lead, true)
  | wordBoundary _, lead => (lead, true)
  | group _ kind body, lead => if kind.isLookahead then (lead, true) else appendLead body lead
  | quantified _ min _ _ body, lead => (if 0 < min then (appendLead body lead).1 else lead, false)
  | seq terms, lead => appendLeads terms lead
  | _, lead => (lead, false)
termination_by structural p => p

/-- The same for a list of patterns, one after the other. -/
def appendLeads : List (Pattern α) → String → String × Bool
  | [], lead => (lead, true)
  | p :: rest, lead =>
    let appended := appendLead p lead
    if appended.2 then appendLeads rest appended.1 else appended
termination_by structural ps => ps

end

/-- The characters with which every match of the pattern begins. -/
def lead (p : Pattern α) : String :=
  (appendLead p "").1

end Pattern

namespace StartPredicate

variable {α : Type}

/-- What a pattern tells about the positions where it may match. -/
def ofPattern (p : Pattern α) : StartPredicate :=
  if p.isAnchored then textStart
  else if p.lead.isEmpty then anywhere
  else literal p.lead

/-- The first position at or after `pos` where a match may begin. -/
def next? (start : StartPredicate) (text : String) (fold multiline : Bool) (pos : Nat) :
    Option Nat :=
  match start with
  | anywhere => some pos
  | literal lead => if fold then some pos else Text.find? text lead pos
  | textStart => if multiline || pos == 0 then some pos else none

/-- The predicate in a word. A single byte is named, longer literals are not. -/
def describe : StartPredicate → String
  | anywhere => "Arbitrary"
  | literal lead =>
    match lead.utf8ByteSize, Text.byteAt? lead 0 with
    | 1, some byte => "ByteSeq1(" ++ toString byte ++ ")"
    | _, _ => "ByteSeq"
  | textStart => "StartAnchored"

/-- The next position is never to the left. -/
theorem le_of_next? {start : StartPredicate} {text : String} {fold multiline : Bool}
    {pos found : Nat} (h : start.next? text fold multiline pos = some found) : pos ≤ found := by
  cases start with
  | anywhere => exact Nat.le_of_eq (Option.some.inj h)
  | literal lead =>
    rw [next?] at h
    split at h
    · exact Nat.le_of_eq (Option.some.inj h)
    · exact Text.le_of_findWithin? h
  | textStart =>
    rw [next?] at h
    split at h
    · exact Nat.le_of_eq (Option.some.inj h)
    · exact absurd h (by simp)

end StartPredicate

end BacktrackRegex
