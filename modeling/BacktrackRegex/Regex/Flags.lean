import BacktrackRegex.Search.Walk

/-!
# Flags

The letters that modify a regular expression: `g` for searching on from a last index, `i` for
disregarding case, `m` for matching `^` and `$` at every line. Each may be given once, in any order;
`Flags.render` writes them in alphabetical order.
-/

namespace BacktrackRegex

/-- Why a string of letters is no set of flags. -/
inductive FlagFault where
  /-- no flag has this letter -/
  | unknown (letter : Char)
  /-- this letter is given twice -/
  | duplicate (letter : Char)
  deriving DecidableEq, Repr

/-- The fault in words. -/
def FlagFault.message : FlagFault → String
  | unknown letter => "Unknown flag '" ++ letter.toString ++ "'"
  | duplicate letter => "Duplicate flag '" ++ letter.toString ++ "'"

/-- What modifies a regular expression. -/
structure Flags where
  /-- whether case is disregarded -/
  ignoreCase : Bool
  /-- whether `^` and `$` also match beside line terminators -/
  multiline : Bool
  /-- whether searches go on from a last index -/
  global : Bool
  deriving DecidableEq, Repr

namespace Flags

/-- No letter is given. -/
def none : Flags :=
  ⟨false, false, false⟩

/-- Add the flag of a letter. -/
def add (flags : Flags) (letter : Char) : Except FlagFault Flags :=
  if letter = 'g' then
    if flags.global then .error (.duplicate letter) else .ok { flags with global := true }
  else if letter = 'i' then
    if flags.ignoreCase then .error (.duplicate letter) else .ok { flags with ignoreCase := true }
  else if letter = 'm' then
    if flags.multiline then .error (.duplicate letter) else .ok { flags with multiline := true }
  else .error (.unknown letter)

/-- Read a string of letters. -/
def parse (letters : String) : Except FlagFault Flags :=
  letters.toList.foldlM add none

/-- The letters of the flags that are set. -/
def render (flags : Flags) : String :=
  (if flags.global then "g" else "") ++ (if flags.ignoreCase then "i" else "") ++
    (if flags.multiline then "m" else "")

/-- How characters and line ends are taken under these flags. -/
def mode (flags : Flags) : Mode :=
  ⟨flags.ignoreCase, flags.multiline⟩

/-- What is written is read back. -/
theorem parse_render (flags : Flags) : parse flags.render = .ok flags := by
  obtain ⟨i, m, g⟩ := flags
  cases i <;> cases m <;> cases g <;> rfl

end Flags

end BacktrackRegex
