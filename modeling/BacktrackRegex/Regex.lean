import BacktrackRegex.Graph.Compile
import BacktrackRegex.Pattern.Reader
import BacktrackRegex.Regex.Error
import BacktrackRegex.Search.Scan

/-!
# Regular expressions

A `Regex` is a compiled pattern with its flags and the limits on each search.

* `Regex.compile` builds one from a pattern and the letters of its flags.
* `findFrom`, `find` and `test` search a text.
* `exec` searches on from a last index if the expression is global, and says what the last index
  is afterwards.
* `trace` searches in one walk and keeps the trace of it; `Graph.matchAt` tries one position.
-/

namespace BacktrackRegex

/-- The limits on a search unless others are set. -/
def Limits.standard : Limits :=
  ⟨100000000, 1048576⟩

/-- A regular expression that is ready for use. -/
structure Regex where
  /-- the compiled pattern -/
  graph : Graph
  /-- the flags -/
  flags : Flags
  /-- the limits on each search -/
  limits : Limits

/-- What a single attempt at a match came to. -/
structure Outcome where
  /-- whether the pattern matched -/
  matched : Bool
  /-- where the match ends, 0 if there is none -/
  stop : Nat
  /-- the texts that the groups captured, the whole match first -/
  captures : Array (Option String)
  /-- what happened on the way, if it was recorded -/
  trace : Option Trace

namespace Outcome

/-- The outcome of a walk, by the state in which it reached the goal, if it did. -/
def ofFinal (graph : Graph) (text : String) (trace : Option Trace) : Option State → Outcome
  | some final => ⟨true, final.pos, final.captures.map (·.map (Text.slice text)), trace⟩
  | none => ⟨false, 0, Array.replicate graph.slots none, trace⟩

end Outcome

/-- Try to match at one position, moved up to the next character if it lies inside one. -/
def Graph.matchAt (graph : Graph) (text : String) (pos : Nat) (mode : Mode) :
    Except Error Outcome :=
  match Text.roundUp? text pos with
  | none => .ok (.ofFinal graph text none none)
  | some start =>
    let task : Task := ⟨graph, text, mode, .standard⟩
    match (task.attempt graph.anchored start task.limits.steps).result with
    | .ok final => .ok (.ofFinal graph text none final)
    | .error limit => .error (.ofLimit task.limits limit)

namespace Regex

/-- Build an expression. The flags are read before the pattern. -/
def compile (pattern letters : String) : Except Error Regex :=
  match Flags.parse letters with
  | .error fault => .error (.flags letters fault)
  | .ok flags =>
    match NumberedPattern.parse pattern with
    | .error error => .error (.pattern error)
    | .ok numbered => .ok ⟨.ofPattern numbered, flags, .standard⟩

/-- The number of capturing groups. -/
def captureCount (regex : Regex) : Nat :=
  regex.graph.groupCount

/-- The search for this expression in a text. -/
def task (regex : Regex) (text : String) : Task :=
  ⟨regex.graph, text, regex.flags.mode, regex.limits⟩

/-- The matches in a text from an offset on. -/
def findFrom (regex : Regex) (text : String) (pos : Nat) : Matches :=
  .start (regex.task text) pos

/-- The first match from an offset on. -/
def firstFrom (regex : Regex) (text : String) (pos : Nat) : Except Error (Option Match) :=
  match (regex.findFrom text pos).next?.1 with
  | none => .ok none
  | some (.ok found) => .ok (some found)
  | some (.error limit) => .error (.ofLimit regex.limits limit)

/-- The first match in a text. -/
def find (regex : Regex) (text : String) : Except Error (Option Match) :=
  regex.firstFrom text 0

/-- Whether there is a match in a text. -/
def test (regex : Regex) (text : String) : Except Error Bool :=
  (regex.find text).map (·.isSome)

/-- Search on from a last index; the second part is the last index afterwards. A global expression
moves it to the end of the match, to 0 if there is none, and leaves it where it is after an error.
Any other expression searches from the start and never touches it. -/
def exec (regex : Regex) (text : String) (lastIndex : Nat) :
    Except Error (Option Match) × Nat :=
  if !regex.flags.global then
    (regex.find text, lastIndex)
  else
    match regex.firstFrom text lastIndex with
    | .ok (some found) => (.ok (some found), found.span.stop)
    | .ok none => (.ok none, 0)
    | .error error => (.error error, lastIndex)

/-- Search from an offset in one walk, which skips characters by itself, and keep its trace. Beyond
the end of the text there is nothing to walk. -/
def trace (regex : Regex) (text : String) (pos : Nat) (mode : Mode) : Except Error Outcome :=
  match Text.roundUp? text pos with
  | none => .ok (.ofFinal regex.graph text (some ⟨[]⟩) none)
  | some start =>
    let task : Task := ⟨regex.graph, text, mode, regex.limits⟩
    let ending := task.attemptLogged regex.graph.start start task.limits.steps
    match ending.result with
    | .ok final =>
      .ok (.ofFinal regex.graph text (some ⟨[⟨start, ending.log, final.isSome⟩]⟩) final)
    | .error limit => .error (.ofLimit regex.limits limit)

end Regex

end BacktrackRegex
