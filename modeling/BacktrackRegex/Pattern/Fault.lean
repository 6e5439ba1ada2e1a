/-!
# What can be wrong with a pattern

A pattern that cannot be read has one fault, found at one offset. Offsets count the characters of
the pattern that were read when the fault was found.
-/

namespace BacktrackRegex

/-- Why a pattern cannot be read. -/
inductive SyntaxFault where
  /-- a group is not closed, or `)` closes none -/
  | unbalancedParenthesis
  /-- a quantifier stands where a term should begin -/
  | nothingToRepeat
  /-- the upper bound of a quantifier is below the lower one -/
  | invalidQuantifier
  /-- a quantifier follows an assertion -/
  | quantifierNotAllowed
  /-- there are too many quantifiers -/
  | tooManyLoops
  /-- there are too many capturing groups -/
  | tooManyGroups
  /-- a set of characters is not closed -/
  | unbalancedBracket
  /-- the ends of a range are in the wrong order -/
  | invalidRange
  /-- the pattern ends after a backslash -/
  | incompleteEscape
  /-- a backslash and what follows it have no meaning -/
  | invalidEscape
  /-- a character is left where the pattern is over -/
  | unexpectedChar (c : Char)
  deriving DecidableEq, Repr

/-- The fault in words. -/
def SyntaxFault.message : SyntaxFault → String
  | unbalancedParenthesis => "Unbalanced parenthesis"
  | nothingToRepeat => "Nothing to repeat"
  | invalidQuantifier => "Invalid quantifier"
  | quantifierNotAllowed => "Quantifier not allowed here"
  | tooManyLoops => "Loop count limit exceeded"
  | tooManyGroups => "Capture group count limit exceeded"
  | unbalancedBracket => "Unbalanced bracket"
  | invalidRange => "Invalid character range"
  | incompleteEscape => "Incomplete escape"
  | invalidEscape => "Invalid character escape"
  | unexpectedChar c => "Unexpected char: ".push c

/-- A fault and where it was found. -/
structure SyntaxError where
  /-- what is wrong -/
  fault : SyntaxFault
  /-- how many characters had been read -/
  offset : Nat
  deriving DecidableEq, Repr

end BacktrackRegex
