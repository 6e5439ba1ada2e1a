import BacktrackRegex.Regex

/-!
# What a search reports while it works

Building an expression and searching with it can be logged: one entry for the compiled pattern, one
for each position that is tried, and a warning when a limit is hit.
-/

namespace BacktrackRegex

/-- How much an entry matters. -/
inductive LogLevel where
  /-- something may be wrong -/
  | warn
  /-- of use when looking for errors -/
  | debug
  /-- every detail -/
  | trace
  deriving DecidableEq, Repr

/-- The level in capitals. -/
def LogLevel.name : LogLevel → String
  | warn => "WARN"
  | debug => "DEBUG"
  | trace => "TRACE"

/-- An entry of a log. -/
inductive LogEntry where
  /-- a pattern was compiled -/
  | compiled (graph : Graph)
  /-- a match is tried at a position -/
  | attempting (pos : Nat)
  /-- a search hit a limit -/
  | exceeded (error : Error)

namespace LogEntry

/-- How much the entry matters. -/
def level : LogEntry → LogLevel
  | compiled _ => .debug
  | attempting _ => .trace
  | exceeded _ => .warn

/-- The entry in words. -/
def message : LogEntry → String
  | compiled graph =>
    "Compiled " ++ toString graph.nodes.size ++ " nodes, " ++ toString graph.groupCount ++
      " groups, " ++ toString graph.loops ++ " loops, start predicate " ++
      graph.startPredicate.describe
  | attempting pos => "Attempting match at " ++ toString pos
  | exceeded error => error.message

/-- The level and the words. -/
def render (entry : LogEntry) : String :=
  entry.level.name ++ " " ++ entry.message

/-- The place that a line of the log names for a limit that was hit, each limit having its own. -/
def place? : LogEntry → Option String
  | exceeded (.stepLimit _) => some "retrace::backtrack:186"
  | exceeded (.depthLimit _) => some "retrace::backtrack:172"
  | _ => none

/-- A limit that was hit as a line of the log: the level, the place and the words. -/
def line? (entry : LogEntry) : Option String :=
  entry.place?.map fun place => entry.level.name ++ "|" ++ place ++ ": " ++ entry.message

/-- The entries of one scan. -/
def ofScan (limits : Limits) (scan : Scan) : Array LogEntry :=
  let tried := scan.tried.map attempting
  match scan.result with
  | .error limit => tried.push (exceeded (.ofLimit limits limit))
  | .ok _ => tried

/-- The entries of building an expression and of scanning with it. -/
def ofScans (regex : Regex) (scans : Array Scan) : Array LogEntry :=
  #[compiled regex.graph] ++ scans.flatMap (ofScan regex.limits)

end LogEntry

end BacktrackRegex
