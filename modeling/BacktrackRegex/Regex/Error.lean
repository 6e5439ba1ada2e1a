import BacktrackRegex.Pattern.Fault
import BacktrackRegex.Regex.Flags

/-!
# Errors

An expression that cannot be built has an error in its pattern or in its flags. A search that would
do too much work ends in an error too. Finding no match is no error.
-/

namespace BacktrackRegex

/-- What can go wrong. -/
inductive Error where
  /-- the pattern cannot be read -/
  | pattern (error : SyntaxError)
  /-- the letters given are no flags -/
  | flags (letters : String) (fault : FlagFault)
  /-- a search would take more steps than this -/
  | stepLimit (limit : Nat)
  /-- a search would hold more choice points than this -/
  | depthLimit (limit : Nat)
  deriving DecidableEq, Repr

namespace Error

/-- The error of a search that hits one of its limits. -/
def ofLimit (limits : Limits) : Limit → Error
  | .steps => stepLimit limits.steps
  | .depth => depthLimit limits.depth

/-- The error in a few words. -/
def summary : Error → String
  | pattern error => error.fault.message
  | flags _ fault => fault.message
  | stepLimit _ => "Match step limit exceeded"
  | depthLimit _ => "Backtrack stack limit exceeded"

/-- The error with all that is known of it. -/
def message : Error → String
  | pattern error => error.fault.message ++ " (at offset " ++ toString error.offset ++ ")"
  | flags letters fault => "Invalid flags '" ++ letters ++ "': " ++ fault.message
  | stepLimit limit => "Match step limit of " ++ toString limit ++ " exceeded"
  | depthLimit limit => "Backtrack stack limit of " ++ toString limit ++ " exceeded"

/-- Whether a search hit a limit, as opposed to an expression that cannot be built. -/
def isExhausted : Error → Bool
  | stepLimit _ | depthLimit _ => true
  | _ => false

end Error

end BacktrackRegex
