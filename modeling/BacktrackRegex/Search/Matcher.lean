import BacktrackRegex.Search.Scan

/-!
# Searching a text with one matcher

A text can be searched with one matcher for all attempts. It is not made anew for each of them: when
an attempt begins it holds the choice points that the one before has left behind, it counts what
suspended walks hold, and it knows how many steps are left. `Sweep` is the sequence of matches that
are found in this way, and what `Matches` finds with nothing but a position is the same.
-/

namespace BacktrackRegex

/-- What is kept from one attempt to the next. -/
structure Matcher where
  /-- the choice points that were left behind, last first -/
  choices : List ChoicePoint
  /-- how many choice points suspended walks hold, with one more for each of these walks -/
  outer : Nat
  /-- how many steps are left -/
  left : Nat

/-- How many choice points some suspended walks hold, with one more for each of them. -/
def Suspended.held : List Suspended → Nat
  | [] => 0
  | outer :: suspended => outer.choices.length + 1 + held suspended

/-- What a matcher is left with where a walk stops. The walks around are taken up again and given
up, innermost first, so the choice points of the outermost stay and nothing counts as suspended
(`Matcher.stop_eq_foldl`). -/
def Walk.stop (walk : Walk) (left : Nat) : Matcher where
  choices := (walk.suspended.getLast?.map (·.choices)).getD walk.choices
  outer := walk.depth - walk.choices.length - Suspended.held walk.suspended
  left := left

namespace Matcher

/-- A matcher that was not used before. -/
def new (task : Task) : Matcher :=
  ⟨[], 0, task.limits.steps⟩

/-- Walk on, with a number of steps left. The matcher holds no choice points afterwards, unless a
limit was hit. -/
def walkOn (task : Task) : Nat → Walk → Except Limit (Option State) × Matcher
  | 0, walk => (.error .steps, walk.stop 0)
  | left + 1, walk =>
    match walk.step (fun _ _ => ()) task () with
    | .step walk _ => walkOn task left walk
    | .finish final _ => (.ok final, { walk.stop left with choices := [] })
    | .overflow _ => (.error .depth, walk.stop left)

/-- Attempt a match at one position. The choice points of the attempt before are dropped. -/
def attempt (matcher : Matcher) (task : Task) (entry pos : Nat) :
    Except Limit (Option State) × Matcher :=
  walkOn task matcher.left ⟨entry, .initial task.graph pos, [], matcher.outer, []⟩

/-- Scan from a position on. The first argument bounds the positions that remain; `tried` are those
tried so far. -/
def scanWithin (task : Task) : Nat → Nat → Array Nat → Matcher → Scan × Matcher
  | 0, _, tried, matcher => (⟨.ok none, none, tried⟩, matcher)
  | n + 1, pos, tried, matcher =>
    match task.graph.startPredicate.next? task.text task.mode.fold task.mode.multiline pos with
    | none => (⟨.ok none, none, tried⟩, matcher)
    | some pos =>
      let tried := tried.push pos
      match matcher.attempt task task.graph.anchored pos with
      | (.error limit, matcher) => (⟨.error limit, none, tried⟩, matcher)
      | (.ok (some final), matcher) =>
        (⟨.ok (some (.ofState pos final)), task.resumeAfter? pos final.pos, tried⟩, matcher)
      | (.ok none, matcher) =>
        match Text.after? task.text pos with
        | none => (⟨.ok none, none, tried⟩, matcher)
        | some pos => scanWithin task n pos tried matcher

/-- Scan from a position on, with all steps. -/
def scan (matcher : Matcher) (task : Task) (pos : Nat) : Scan × Matcher :=
  scanWithin task (task.text.utf8ByteSize + 1 - pos) pos #[]
    { matcher with left := task.limits.steps }

end Matcher

/-- The matches that are still to be found in a text with one matcher. -/
structure Sweep where
  /-- what is searched for, and where -/
  task : Task
  /-- the matcher, as the last scan has left it -/
  matcher : Matcher
  /-- where the next scan begins; none after the last one -/
  resume : Option Nat

namespace Sweep

/-- The matches from an offset on. -/
def start (task : Task) (pos : Nat) : Sweep :=
  ⟨task, .new task, Text.roundUp? task.text pos⟩

/-- The next match, or the limit that was hit on the way to it, and the matches after it. -/
def next? (left : Sweep) : Option (Except Limit Match) × Sweep :=
  match left.resume with
  | none => (none, left)
  | some pos =>
    let (scan, matcher) := left.matcher.scan left.task pos
    (scan.item?, { left with matcher, resume := scan.resume })

/-- The matches that are left after the next `n` items. -/
def after (left : Sweep) : Nat → Sweep
  | 0 => left
  | n + 1 => (left.after n).next?.2

/-- The item at a place in the order in which they are found, the first at place 0. -/
def item? (left : Sweep) (n : Nat) : Option (Except Limit Match) :=
  (left.after n).next?.1

end Sweep

end BacktrackRegex
