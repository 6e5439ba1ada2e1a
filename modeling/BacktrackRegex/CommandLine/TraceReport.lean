import BacktrackRegex.Search.Trace
import BacktrackRegex.Text.Quoted

/-!
# Traces as JSON

A trace is written over many lines, each level set in by two spaces, with the members of an object
in a fixed order. Numbers, arrays and objects are all it needs, and strings that quote nothing.
-/

namespace BacktrackRegex

namespace TraceReport

/-- The part of a JSON text that a trace is made of. -/
inductive Value where
  /-- a number -/
  | number (n : Nat)
  /-- a string without characters that need quoting -/
  | word (s : String)
  /-- values in order -/
  | array (values : List Value)
  /-- named values in order -/
  | object (members : List (String × Value))

/-- A new line, set in by two spaces for each level. -/
def newLine (level : Nat) : String :=
  "\n".pushn ' ' (2 * level)

mutual

/-- Append a value whose inner lines are at a level. -/
def write (level : Nat) : Value → String → String
  | .number n, out => out ++ toString n
  | .word s, out => out ++ "\"" ++ s ++ "\""
  | .array [], out => out ++ "[]"
  | .array (value :: values), out =>
    let out := write (level + 1) value (out ++ "[" ++ newLine (level + 1))
    writeValues (level + 1) values out ++ newLine level ++ "]"
  | .object [], out => out ++ "\x7b\x7d"
  | .object (member :: members), out =>
    let out := writeMember (level + 1) member (out ++ "\x7b" ++ newLine (level + 1))
    writeMembers (level + 1) members out ++ newLine level ++ "\x7d"
termination_by structural value => value

/-- Append the values after the first of an array. -/
def writeValues (level : Nat) : List Value → String → String
  | [], out => out
  | value :: values, out =>
    writeValues level values (write level value (out ++ "," ++ newLine level))
termination_by structural values => values

/-- Append the members after the first of an object. -/
def writeMembers (level : Nat) : List (String × Value) → String → String
  | [], out => out
  | member :: members, out =>
    writeMembers level members (writeMember level member (out ++ "," ++ newLine level))
termination_by structural members => members

/-- Append a member of an object. -/
def writeMember (level : Nat) : String × Value → String → String
  | (name, value), out => write level value (out ++ "\"" ++ name ++ "\": ")
termination_by structural member => member

end

/-- The name of a kind of event. -/
def kindName : EventKind → String
  | .visit => "Step"
  | .fork => "Fork"
  | .backtrack => "Backtrack"

/-- An event as an object. -/
def ofEvent (event : Event) : Value :=
  .object [("node", .number event.node), ("pos", .number event.pos),
    ("kind", .word (kindName event.kind))]

/-- An attempt as an object. -/
def ofRun (run : Run) : Value :=
  .object [("start", .number run.start), ("entries", .array (run.events.toList.map ofEvent)),
    ("outcome", .word (if run.succeeded then "Success" else "Failed"))]

end TraceReport

/-- A trace as a JSON text. -/
def Trace.toJson (trace : Trace) : String :=
  TraceReport.write 0 (.object [("runs", .array (trace.runs.map TraceReport.ofRun))]) ""

end BacktrackRegex
