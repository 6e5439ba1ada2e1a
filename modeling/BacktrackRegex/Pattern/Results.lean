import BacktrackRegex.Pattern.Slots
import BacktrackRegex.Search.Test

/-!
# What a pattern means

`Pattern.results` lists all ways in which a pattern can match from a point of a text, best first.
How the parts of a pattern work together is read off the tree alone and knows nothing of graphs,
steps or choice points:

* alternatives come in the order in which they are written, and a sequence runs each term from every
  result of the terms before it;
* a quantifier runs its body the least number of times and then prefers one iteration more, if it is
  greedy, or to stop; groups inside forget their captures before each iteration, and an iteration
  beyond the least number that consumes nothing is not a result;
* a lookahead uses the first result of its body only, keeps what that captured, and never moves on;
  a negated one keeps nothing.

The leaves are the matcher's own. Whether a character is the one asked for or in a set
(`Text.sameLetter`, `accepts`), whether a test passes (`Test.after?`) and what it is to forget
captures (`GroupRange.clear`) is defined once, and used here as it is in the search. So the results
say nothing new of these; what a set accepts up to case is said by `accepts_fold_iff`.

`NumberedPattern.firstResult?` is the best way of all for a whole pattern, which captures slot 0.
-/

namespace BacktrackRegex

/-- How far a match has come. -/
structure Point where
  /-- the position in the text -/
  pos : Nat
  /-- what the groups captured, by slot -/
  captures : Array (Option Span)
  deriving DecidableEq, Repr

namespace Point

/-- The point behind the next character, if that passes. -/
def read (text : String) (passes : Char → Bool) (point : Point) : List Point :=
  ((Text.afterChar? text passes point.pos).map fun pos => { point with pos }).toList

/-- The point behind a test, if it passes. -/
def test (text : String) (mode : Mode) (condition : Test) (point : Point) : List Point :=
  ((condition.after? text mode point.captures point.pos).map fun pos => { point with pos }).toList

/-- A capture that began at `start` ends here. -/
def capture (slot start : Nat) (point : Point) : Point :=
  { point with captures := point.captures.setIfInBounds slot (some ⟨start, point.pos⟩) }

/-- The results of repeating a body, after `completed` iterations. The first argument bounds the
iterations that remain. -/
def repeated (body : Point → List Point) (groups : GroupRange) (min : Nat) (max : Option Nat)
    (greedy : Bool) : Nat → Nat → Point → List Point
  | 0, _, _ => []
  | n + 1, completed, point =>
    let again := (body { point with captures := groups.clear point.captures }).flatMap fun after =>
      if min ≤ completed && after.pos == point.pos then []
      else repeated body groups min max greedy n (completed + 1) after
    if completed < min then again
    else if max = some completed then [point]
    else if greedy then again ++ [point]
    else point :: again

end Point

namespace Pattern

mutual

/-- All ways to match a pattern from a point, best first. -/
def results (text : String) (mode : Mode) : Pattern GroupRange → Point → List Point
  | empty, point => [point]
  | char c, point => point.read text (Text.sameLetter mode.fold · c)
  | coded c, point => point.read text (Text.sameLetter mode.fold · c)
  | named cls positive, point => point.read text (accepts mode.fold false [.named cls positive])
  | set negated items, point => point.read text (accepts mode.fold negated items)
  | dot, point => point.read text (accepts mode.fold true lineTerminatorItems)
  | lineStart, point => point.test text mode .lineStart
  | lineEnd, point => point.test text mode .lineEnd
  | wordBoundary inverted, point => point.test text mode (.wordBoundary inverted)
  | backreference g, point => point.test text mode (.backreference g)
  | group groups kind body, point =>
    match kind with
    | .capturing => (results text mode body point).map (·.capture groups.first point.pos)
    | .nonCapturing => results text mode body point
    | .lookahead =>
      match results text mode body point with
      | [] => []
      | first :: _ => [{ point with captures := first.captures }]
    | .negativeLookahead =>
      match results text mode body point with
      | [] => [point]
      | _ :: _ => []
  | quantified groups min max greedy body, point =>
    -- Each iteration beyond the least number moves on, so the text bounds how many there are.
    Point.repeated (fun point => results text mode body point) groups min max greedy
      (min + (text.utf8ByteSize - point.pos) + 2) 0 point
  | seq terms, point => resultsOfSeq text mode terms point
  | choice alternatives, point => resultsOfChoice text mode alternatives point
termination_by structural p => p

/-- All ways to match patterns one after the other, best first. -/
def resultsOfSeq (text : String) (mode : Mode) : List (Pattern GroupRange) → Point → List Point
  | [], point => [point]
  | p :: rest, point =>
    (results text mode p point).flatMap fun point => resultsOfSeq text mode rest point
termination_by structural ps => ps

/-- All ways to match one of some patterns, best first. -/
def resultsOfChoice (text : String) (mode : Mode) : List (Pattern GroupRange) → Point → List Point
  | [], _ => []
  | p :: rest, point => results text mode p point ++ resultsOfChoice text mode rest point
termination_by structural ps => ps

end

end Pattern

/-- The best way to match a whole pattern at a position, with slot 0 captured. -/
def NumberedPattern.firstResult? (pattern : NumberedPattern) (text : String) (mode : Mode)
    (pos : Nat) : Option Point :=
  let start : Point := ⟨pos, Array.replicate (pattern.groupCount + 1) none⟩
  (pattern.tree.results text mode start).head?.map (·.capture 0 pos)

end BacktrackRegex
