import BacktrackRegex.Pattern

/-!
# Writing a pattern

`Pattern.print` writes a tree as the text of a pattern. Characters that are not ASCII letters,
digits or the low line are quoted by a backslash, coded characters are written by four hexadecimal
digits, and quantifiers by their bounds, so nothing depends on what stands beside it.
-/

namespace BacktrackRegex

namespace Pattern

variable {α : Type}

/-- The decimal digits of a number. -/
def printNat (n : Nat) : List Char :=
  Nat.toDigits 10 n

/-- A character, behind a backslash unless it is a letter, a digit or the low line. -/
def printChar (c : Char) : List Char :=
  if isWordChar c then [c] else ['\\', c]

/-- A character by its code in four hexadecimal digits. -/
def printCode (c : Char) : List Char :=
  let digits := Nat.toDigits 16 c.toNat
  '\\' :: 'u' :: (List.replicate (4 - digits.length) '0' ++ digits)

/-- A class by its letter, a capital one for its complement. -/
def printClass (cls : CharClass) (positive : Bool) : List Char :=
  let letter := match cls, positive with
    | .digits, true => 'd'
    | .digits, false => 'D'
    | .spaces, true => 's'
    | .spaces, false => 'S'
    | .words, true => 'w'
    | .words, false => 'W'
  ['\\', letter]

/-- An item of a set. -/
def printItem : ClassItem → List Char
  | .single c => printChar c
  | .range lo hi => printChar lo ++ '-' :: printChar hi
  | .named cls positive => printClass cls positive

/-- The bounds of a quantifier, and `?` if it is lazy. -/
def printQuantifier (min : Nat) (max : Option Nat) (greedy : Bool) : List Char :=
  let upper := match max with
    | some max => printNat max
    | none => []
  '{' :: (printNat min ++ ',' :: upper ++ '}' :: if greedy then [] else ['?'])

/-- What opens a group. -/
def printOpening : GroupKind → List Char
  | .capturing => ['(']
  | .nonCapturing => ['(', '?', ':']
  | .lookahead => ['(', '?', '=']
  | .negativeLookahead => ['(', '?', '!']

mutual

/-- The text of a pattern. -/
def print : Pattern α → List Char
  | empty => []
  | char c => printChar c
  | coded c => printCode c
  | named cls positive => printClass cls positive
  | set negated items =>
    '[' :: ((if negated then ['^'] else []) ++ items.flatMap printItem ++ [']'])
  | dot => ['.']
  | lineStart => ['^']
  | lineEnd => ['$']
  | wordBoundary inverted => ['\\', if inverted then 'B' else 'b']
  | backreference g => '\\' :: printNat g
  | group _ kind body => printOpening kind ++ print body ++ [')']
  | quantified _ min max greedy body => print body ++ printQuantifier min max greedy
  | seq terms => printSeq terms
  | choice alternatives => printChoice alternatives
termination_by structural p => p

/-- The texts of some patterns one after the other. -/
def printSeq : List (Pattern α) → List Char
  | [] => []
  | p :: rest => print p ++ printSeq rest
termination_by structural ps => ps

/-- The texts of some patterns with bars between them. -/
def printChoice : List (Pattern α) → List Char
  | [] => []
  | p :: rest => print p ++ printFurther rest
termination_by structural ps => ps

/-- The texts of some patterns, each behind a bar. -/
def printFurther : List (Pattern α) → List Char
  | [] => []
  | p :: rest => '|' :: (print p ++ printFurther rest)
termination_by structural ps => ps

end

end Pattern

end BacktrackRegex
