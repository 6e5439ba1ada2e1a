import BacktrackRegex.Search.Walk

/-!
# Scanning a text for matches

A scan attempts a match at one position after the other, leaving out those that the start predicate
rules out, until an attempt succeeds; all attempts share the limit on steps. `Task.scan` tells what
was found, where the next scan should begin, and which positions were tried.

`Matches` is the sequence of scans through a text: each begins where the match before it ended, or
one character further on if that match was empty. It ends with the first scan that finds nothing or
hits a limit.
-/

namespace BacktrackRegex

/-! ## Matches -/

/-- A stretch of a text that matches a pattern, and what the groups captured in it. -/
structure Match where
  /-- the whole match -/
  span : Span
  /-- what the groups captured, group 1 first -/
  captures : Array (Option Span)
  deriving DecidableEq, Repr

namespace Match

/-- A group by its number; group 0 is the whole match. -/
def group? (found : Match) : Nat → Option Span
  | 0 => some found.span
  | g + 1 => found.captures[g]?.join

/-- All groups, the whole match first. -/
def groups (found : Match) : Array (Option Span) :=
  #[some found.span] ++ found.captures

/-- The match that ends in a state, for an attempt that began at `start`. -/
def ofState (start : Nat) (state : State) : Match where
  span := state.captures[0]?.join.getD ⟨start, state.pos⟩
  captures := state.captures.extract 1 state.captures.size

/-- A group by its number is a group of the list. -/
theorem getElem?_groups (found : Match) (g : Nat) :
    found.groups[g]?.join = found.group? g := by
  cases g with
  | zero =>
    rw [groups, Array.getElem?_append_left (by simp)]
    rfl
  | succ g => simp [groups, group?, Array.getElem?_append_right]

end Match

/-! ## One scan -/

/-- How a scan ended. -/
structure Scan where
  /-- the match, if one was found, or the limit that was hit -/
  result : Except Limit (Option Match)
  /-- where to scan next, if anything is left to scan -/
  resume : Option Nat
  /-- the positions that were tried -/
  tried : Array Nat

namespace Scan

/-- What a scan adds to a sequence of matches: nothing if it found none. -/
def item? (scan : Scan) : Option (Except Limit Match) :=
  match scan.result with
  | .error limit => some (.error limit)
  | .ok none => none
  | .ok (some found) => some (.ok found)

end Scan

namespace Task

/-- Where to scan after a match between two positions: at its end, or one character further on if
it is empty. -/
def resumeAfter? (task : Task) (start stop : Nat) : Option Nat :=
  if stop = start then Text.after? task.text stop else some stop

/-- Scan from a position on, with a number of steps left. The first argument bounds the positions
that remain; `tried` are those tried so far. -/
def scanWithin (task : Task) : Nat → Nat → Nat → Array Nat → Scan
  | 0, _, _, tried => ⟨.ok none, none, tried⟩
  | n + 1, pos, left, tried =>
    let mode := task.mode
    match task.graph.startPredicate.next? task.text mode.fold mode.multiline pos with
    | none => ⟨.ok none, none, tried⟩
    | some pos =>
      let tried := tried.push pos
      let ending := task.attempt task.graph.anchored pos left
      match ending.result with
      | .error limit => ⟨.error limit, none, tried⟩
      | .ok (some final) =>
        ⟨.ok (some (.ofState pos final)), task.resumeAfter? pos final.pos, tried⟩
      | .ok none =>
        match Text.after? task.text pos with
        | none => ⟨.ok none, none, tried⟩
        | some pos => scanWithin task n pos ending.left tried

/-- Scan from a position on. -/
def scan (task : Task) (pos : Nat) : Scan :=
  task.scanWithin (task.text.utf8ByteSize + 1 - pos) pos task.limits.steps #[]

end Task

/-! ## One scan after the other -/

/-- The matches that are still to be found in a text. -/
structure Matches where
  /-- what is searched for, and where -/
  task : Task
  /-- where the next scan begins; none after the last one -/
  resume : Option Nat

namespace Matches

/-- The matches from an offset on. An offset inside a character is moved up to the next one, and
beyond the end there are no matches. -/
def start (task : Task) (pos : Nat) : Matches :=
  ⟨task, Text.roundUp? task.text pos⟩

/-- The next scan, and the matches after it; none after the last. -/
def scan? (left : Matches) : Option (Scan × Matches) :=
  left.resume.map fun pos =>
    let scan := left.task.scan pos
    (scan, { left with resume := scan.resume })

/-- The next match, or the limit that was hit on the way to it, and the matches after it. -/
def next? (left : Matches) : Option (Except Limit Match) × Matches :=
  match left.scan? with
  | none => (none, left)
  | some (scan, after) => (scan.item?, after)

/-- The scans up to the first that adds nothing, but at most `max` more than those in `done`. -/
def scans : Nat → Matches → Array Scan → Array Scan
  | 0, _, done => done
  | max + 1, left, done =>
    match left.scan? with
    | none => done
    | some (scan, after) =>
      if scan.item?.isNone then done.push scan else scans max after (done.push scan)

/-- The next matches, at most `max` of them. A limit that is hit is the last item. -/
def take (left : Matches) (max : Nat) : Array (Except Limit Match) :=
  (scans max left #[]).filterMap (·.item?)

/-- All matches that are left. There is at most one for each position of the text. -/
def toArray (left : Matches) : Array (Except Limit Match) :=
  left.take (left.task.text.utf8ByteSize + 2)

/-- The matches that are left after the next `n` items. -/
def after (left : Matches) : Nat → Matches
  | 0 => left
  | n + 1 => (left.after n).next?.2

/-- The item at a place in the order in which they are found, the first at place 0. -/
def item? (left : Matches) (n : Nat) : Option (Except Limit Match) :=
  (left.after n).next?.1

/-- After the last scan there is nothing. -/
theorem next?_of_resume_eq_none {left : Matches} (h : left.resume = none) :
    left.next? = (none, left) := by
  simp [next?, scan?, h]

end Matches

end BacktrackRegex
