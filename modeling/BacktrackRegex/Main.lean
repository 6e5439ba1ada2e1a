import BacktrackRegex.CommandLine

/-!
# The program

Reads the file that the arguments name, if any, lets `CommandLine.run` decide what to print, and
prints it. With `--bench` it also times the matching.
-/

namespace BacktrackRegex

/-- The text of a file, or the fault that keeps it from being read. -/
def readText (path : String) : IO (Except CommandLine.ReadFault String) := do
  try
    return .ok (← IO.FS.readFile path)
  catch
    | .noFileOrDirectory .. => return .error .missing
    | .permissionDenied .. => return .error .denied
    | .inappropriateType _ 20 _ => return .error .notDirectory
    | .inappropriateType .. => return .error .directory
    | .invalidArgument _ 36 _ => return .error .tooLong
    | _ => return .error .notText

/-- How long it takes to print nothing for these options, many times over. -/
def time (options : Options) (contents : Except CommandLine.ReadFault String) :
    IO Nat := do
  let start ← IO.monoMsNow
  for _ in [0:25] do
    let report := CommandLine.run options fun _ => contents
    if report.code != 0 then
      break
  return (← IO.monoMsNow) - start

end BacktrackRegex

open BacktrackRegex

/-- Run the command line. -/
def main (arguments : List String) : IO UInt32 := do
  let options? := (Options.parse arguments).toOption
  let contents ← match options?.bind fun options => options.file <|> options.bench with
    | some path => readText path
    | none => pure (.ok "")
  let report := CommandLine.runArguments arguments fun _ => contents
  IO.print report.stdout
  IO.eprint report.stderr
  if let some options := options? then
    if options.bench.isSome && contents.toOption.isSome && report.code == 0 then
      IO.println (toString (← time options contents) ++ " ms")
  return report.code.toUInt32
