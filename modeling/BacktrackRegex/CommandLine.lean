import BacktrackRegex.CommandLine.Options
import BacktrackRegex.CommandLine.TraceReport
import BacktrackRegex.Graph.Outline
import BacktrackRegex.Pattern.Outline
import BacktrackRegex.Regex.Log

/-!
# The command line

`CommandLine.run` says what the command prints for given options: the outlines that are asked for,
then for each text its first match and the number of matches, or the trace of one search. The
first error ends the command, after what it printed before.

The contents of files come in through the argument `contents`, which answers a path with the text
there or with the fault that keeps it from being read.
-/

namespace BacktrackRegex

namespace CommandLine

/-! ## What is printed -/

/-- The exit code of a command and what it printed. -/
structure Report where
  /-- 0, or 1 after an error -/
  code : Nat
  /-- what was printed -/
  stdout : String
  /-- what was printed about errors -/
  stderr : String
  deriving DecidableEq, Repr

namespace Report

/-- Nothing is printed yet. -/
def empty : Report :=
  ⟨0, "", ""⟩

/-- Print a line. -/
def line (report : Report) (text : String) : Report :=
  { report with stdout := report.stdout ++ text ++ "\n" }

/-- Print the line of the log for an error, if it has one. -/
def warn (report : Report) (error : Error) : Report :=
  match (LogEntry.exceeded error).line? with
  | some line => { report with stderr := report.stderr ++ line ++ "\n" }
  | none => report

/-- Print an error and end. -/
def fail (report : Report) (words : String) : Report :=
  { report with code := 1, stderr := report.stderr ++ words ++ "\n" }

end Report

/-- Why a file cannot be read. -/
inductive ReadFault where
  /-- there is no such file -/
  | missing
  /-- reading it is not allowed -/
  | denied
  /-- its path goes through something that is no directory -/
  | notDirectory
  /-- it is a directory -/
  | directory
  /-- its path is too long -/
  | tooLong
  /-- its bytes are no text -/
  | notText
  deriving DecidableEq, Repr

/-- The fault in words. -/
def ReadFault.message : ReadFault → String
  | missing => "No such file or directory (os error 2)"
  | denied => "Permission denied (os error 13)"
  | notDirectory => "Not a directory (os error 20)"
  | directory => "Is a directory (os error 21)"
  | tooLong => "File name too long (os error 36)"
  | notText => "stream did not contain valid UTF-8"

/-- An error with the names of its parts. -/
def describeError : Error → String
  | .pattern error =>
    "Syntax \x7b text: " ++ Text.quoteString error.fault.message ++ ", offset: " ++
      toString error.offset ++ " \x7d"
  | .flags letters fault =>
    "Flags \x7b flags: " ++ Text.quoteString letters ++ ", text: " ++
      Text.quoteString fault.message ++ " \x7d"
  | .stepLimit limit => "StepLimitExceeded \x7b limit: " ++ toString limit ++ " \x7d"
  | .depthLimit limit => "BacktrackLimitExceeded \x7b limit: " ++ toString limit ++ " \x7d"

/-- A stretch of a text and where it lies. -/
def describeSpan (text : String) (span : Span) : String :=
  "\"" ++ Text.slice text span ++ "\" (" ++ toString span.start ++ ".." ++ toString span.stop ++ ")"

/-- A match and its groups. -/
def describeMatch (text : String) (found : Match) : String :=
  let group : Option Span → String
    | some span => describeSpan text span
    | none => "None"
  describeSpan text found.span ++
    if found.captures.isEmpty then ""
    else
      ", captures: [" ++ ", ".intercalate (found.captures.toList.map group) ++ "]"

/-- The captured texts of an outcome. -/
def describeCaptures (outcome : Outcome) : String :=
  let capture : Option String → String
    | some text => "Some(" ++ Text.quoteString text ++ ")"
    | none => "None"
  "[" ++ ", ".intercalate (outcome.captures.toList.map capture) ++ "]"

/-! ## What is done with a text -/

/-- All matches in a text, or the error that ended the search for them. -/
def allMatches (regex : Regex) (text : String) : Except Error (Array Match) :=
  (regex.findFrom text 0).toArray.mapM fun
    | .ok found => .ok found
    | .error limit => .error (.ofLimit regex.limits limit)

/-- Print the first match in a text and the number of matches. -/
def matchText (regex : Regex) (text : String) (report : Report) : Except (Report × Error) Report :=
  match allMatches regex text with
  | .error error => .error (report, error)
  | .ok found =>
    match found[0]? with
    | some first =>
      .ok (report.line
        ("Match: " ++ describeMatch text first ++ ", total: " ++ toString found.size))
    | none => .ok (report.line "No match")

/-- Print the trace of one search in a text and what came of it. -/
def traceText (regex : Regex) (text : String) (report : Report) : Except (Report × Error) Report :=
  match regex.trace text 0 regex.flags.mode with
  | .error error => .error (report, error)
  | .ok outcome =>
    let report := match outcome.trace with
      | some trace =>
        (report.line trace.toJson).line
          ("Visits: " ++ toString trace.visits ++ ", backtracks: " ++ toString trace.backtracks)
      | none => report
    if outcome.matched then
      .ok (report.line
        ("Match: end " ++ toString outcome.stop ++ ", captures: " ++ describeCaptures outcome))
    else
      .ok (report.line "No match")

/-- Match a text, or trace the search in it. -/
def processText (options : Options) (regex : Regex) (text : String) (report : Report) :
    Except (Report × Error) Report :=
  if options.trace then traceText regex text report else matchText regex text report

/-- Find all matches in a text and print nothing. -/
def exhaust (regex : Regex) (text : String) (report : Report) : Except (Report × Error) Report :=
  match allMatches regex text with
  | .error error => .error (report, error)
  | .ok _ => .ok report

/-! ## The command -/

/-- What is done with the texts that the options name. -/
def processAll (options : Options) (contents : String → Except ReadFault String) (regex : Regex)
    (report : Report) : Except (Report × Error) Report :=
  match options.file, options.bench with
  | some path, _ =>
    match contents path with
    | .ok text => processText options regex text report
    | .error fault => .ok (report.line (fault.message ++ ": " ++ path))
  | none, some path =>
    match contents path with
    | .ok text => exhaust regex text report
    | .error fault => .ok (report.line (fault.message ++ ": " ++ path))
  | none, none =>
    options.inputs.foldlM (fun report text => processText options regex text report) report

/-- The outlines that the options ask for. -/
def outlines (options : Options) (pattern : NumberedPattern) (report : Report) : Report :=
  let report :=
    if options.dumpPattern then report.line ("AST:\n" ++ pattern.tree.outline) else report
  if options.dumpGraph then
    report.line ("Graph:\n" ++ (Graph.ofPattern pattern).outline)
  else
    report

/-- What the command prints for given options. -/
def run (options : Options) (contents : String → Except ReadFault String) : Report :=
  match Flags.parse options.letters with
  | .error fault => Report.empty.fail ("error: " ++ (Error.flags options.letters fault).message)
  | .ok flags =>
    match NumberedPattern.parse options.pattern with
    | .error error => Report.empty.fail ("Error: " ++ describeError (.pattern error))
    | .ok pattern =>
      let regex : Regex := ⟨.ofPattern pattern, flags, .standard⟩
      match processAll options contents regex (outlines options pattern .empty) with
      | .ok report => report
      | .error (report, error) =>
        let report := if options.warns then report.warn error else report
        report.fail ("Error: " ++ describeError error)

/-- What the command prints for given arguments. -/
def runArguments (arguments : List String) (contents : String → Except ReadFault String) : Report :=
  match Options.parse arguments with
  | .error words => Report.empty.fail ("error: " ++ words)
  | .ok options => run options contents

end CommandLine

end BacktrackRegex
