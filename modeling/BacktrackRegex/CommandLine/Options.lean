import BacktrackRegex.Regex.Flags

/-!
# Arguments of the command line

`Options.parse` reads the arguments: a pattern, then the texts to match, with options anywhere among
them. The value of an option may follow it or be joined to it, as in `--flags=gi` and `-fgi`, and
after `--` no argument is an option.

An option may have more dashes than it needs, and its value more equality signs in front. A value
that is joined to a switch is ignored, and an option that lacks its value because another option
follows counts for nothing.
-/

namespace BacktrackRegex

/-- What the arguments of the command line ask for. -/
structure Options where
  /-- the pattern -/
  pattern : String
  /-- the letters of the flags -/
  letters : String
  /-- whether to print the outline of the pattern -/
  dumpPattern : Bool
  /-- whether to print the outline of the graph -/
  dumpGraph : Bool
  /-- whether to print the trace of each search -/
  trace : Bool
  /-- a file whose contents are matched -/
  file : Option String
  /-- a file on whose contents the matching is timed -/
  bench : Option String
  /-- whether to log that a limit was hit -/
  warns : Bool
  /-- the texts to match -/
  inputs : List String
  deriving Repr

namespace Options

/-- What is done when no argument asks for more. -/
def plain : Options :=
  ⟨"", "", false, false, false, none, none, true, []⟩

/-! ## Names -/

/-- An option that takes a value. -/
inductive Valued where
  /-- the letters of the flags -/
  | flags
  /-- the file to match -/
  | file
  /-- the file to time the matching on -/
  | bench
  /-- how much to log -/
  | logLevel
  deriving DecidableEq, Repr

/-- The option of this name that takes a value. -/
def valued? : String → Option Valued
  | "--flags" | "-f" => some .flags
  | "--file" => some .file
  | "--bench" => some .bench
  | "--log-level" => some .logLevel
  | _ => none

/-- The options after a switch, an option without a value, of this name. -/
def switch? (options : Options) : String → Option Options
  | "--dump-ast" => some { options with dumpPattern := true }
  | "--dump-graph" => some { options with dumpGraph := true }
  | "--dump-phases" => some { options with dumpPattern := true, dumpGraph := true }
  | "--trace" => some { options with trace := true }
  | _ => none

/-- Give an option its value. Warnings are logged unless the level is one of the two above. -/
def give (options : Options) (value : String) : Valued → Options
  | .flags => { options with letters := value }
  | .file => { options with file := some value }
  | .bench => { options with bench := some value }
  | .logLevel =>
    let level := value.toLower
    { options with warns := level != "off" && level != "error" }

/-- The name of an option and the value that is joined to it, if an argument has the form of an
option. -/
def split? (argument : String) : Option (String × Option String) :=
  match argument.toList with
  | '-' :: '-' :: rest =>
    let body := rest.dropWhile (· == '-')
    let name := "--" ++ String.ofList (body.takeWhile (· != '='))
    match body.dropWhile (· != '=') with
    | [] => some (name, none)
    | value => some (name, some (String.ofList (value.dropWhile (· == '='))))
  | ['-', letter] => some (String.ofList ['-', letter], none)
  | '-' :: letter :: value =>
    some (String.ofList ['-', letter], some (String.ofList (value.dropWhile (· == '='))))
  | _ => none

/-! ## Reading -/

/-- How far the arguments are read. -/
structure Progress where
  /-- the options so far -/
  options : Options
  /-- the arguments that are no options, last first -/
  words : List String
  /-- the option whose value comes next -/
  awaiting : Option Valued
  /-- whether no more options come -/
  ended : Bool

/-- No argument is read yet. -/
def Progress.start : Progress :=
  ⟨plain, [], none, false⟩

/-- Read an argument. -/
def Progress.take (progress : Progress) (argument : String) : Except String Progress :=
  if progress.ended then
    .ok { progress with words := argument :: progress.words }
  else if argument == "--" then
    .ok { progress with ended := true }
  else
    match split? argument, progress.awaiting with
    | none, none => .ok { progress with words := argument :: progress.words }
    | none, some option =>
      .ok { progress with options := progress.options.give argument option, awaiting := none }
    | some (name, value?), _ =>
      match progress.options.switch? name, valued? name, value? with
      | some options, _, _ => .ok { progress with options, awaiting := none }
      | none, some option, some value =>
        .ok { progress with options := progress.options.give value option, awaiting := none }
      | none, some option, none => .ok { progress with awaiting := some option }
      | none, none, _ => .error ("Found argument '" ++ argument ++ "' which wasn't expected")

/-- The options that were read, if the arguments may end here. -/
def Progress.finish (progress : Progress) : Except String Options :=
  match progress.awaiting, progress.words.reverse with
  | some _, _ => .error "The value of an option is missing"
  | none, [] => .error "The pattern is missing"
  | none, pattern :: inputs => .ok { progress.options with pattern, inputs }

/-- Read all arguments. -/
def parse (arguments : List String) : Except String Options := do
  (← arguments.foldlM Progress.take Progress.start).finish

end Options

end BacktrackRegex
