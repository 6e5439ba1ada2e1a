import BacktrackRegex.Pattern.Reader

/-!
# The grammar of patterns

Which texts are patterns, said without a reader. Each relation below holds of the characters from
the beginning of a part on and of those left behind it, so that a rule can say what must not follow.

* `Grammar.Repeats` and `Grammar.Quantifies` derive quantifiers;
* `Grammar.EscapesChar`, `Grammar.EscapesTerm` derive what stands after a backslash;
* `Grammar.ClosesSet` derives the items of a bracketed set, up to the bracket that closes it;
* `Grammar.Derives` derives the rest, and counts the capturing groups and the quantifiers.

`Grammar.IsPattern` says that a text is derived as a whole and keeps within the limits on both
counts.
-/

namespace BacktrackRegex

namespace Grammar

/-! ## Quantifiers -/

/-- The value of decimal digits. -/
def value (digits : List Char) : Nat :=
  digits.foldl (fun value c => 10 * value + (c.toNat - '0'.toNat)) 0

/-- Whether these are decimal digits, one at least. -/
def IsNumeral (digits : List Char) : Prop :=
  digits ≠ [] ∧ ∀ c ∈ digits, c.isDigit = true

/-- The bounds of a quantifier, before its mark of laziness. -/
inductive Repeats : List Char → Nat → Option Nat → List Char → Prop where
  /-- `*` -/
  | star {rest} : Repeats ('*' :: rest) 0 none rest
  /-- `+` -/
  | plus {rest} : Repeats ('+' :: rest) 1 none rest
  /-- `?` -/
  | optional {rest} : Repeats ('?' :: rest) 0 (some 1) rest
  /-- a number between braces -/
  | exactly {low rest} (h : IsNumeral low) :
    Repeats ('{' :: (low ++ '}' :: rest)) (value low) (some (value low)) rest
  /-- a number and a comma between braces -/
  | atLeast {low rest} (h : IsNumeral low) :
    Repeats ('{' :: (low ++ ',' :: '}' :: rest)) (value low) none rest
  /-- two numbers between braces -/
  | between {low high rest} (h : IsNumeral low) (h' : IsNumeral high) :
    Repeats ('{' :: (low ++ ',' :: (high ++ '}' :: rest))) (value low) (some (value high)) rest

/-- Whether the upper bound, if there is one, is not below the lower; bounds above `maxBound` count
as that. -/
def InOrder (least : Nat) (most? : Option Nat) : Prop :=
  ∀ most ∈ most?, min maxBound least ≤ min maxBound most

/-- A quantifier. -/
inductive Quantifies : List Char → List Char → Prop where
  /-- bounds alone -/
  | greedy {input min max rest} (h : Repeats input min max rest) (order : InOrder min max) :
    Quantifies input rest
  /-- bounds and `?` -/
  | lazily {input min max rest} (h : Repeats input min max ('?' :: rest))
    (order : InOrder min max) : Quantifies input rest

/-- Whether a quantifier's bounds, in order or not, begin here. -/
def BeginsRepetition (input : List Char) : Prop :=
  ∃ min max rest, Repeats input min max rest

/-! ## Escapes -/

/-- The value of a hexadecimal digit. -/
inductive HexDigit : Char → Nat → Prop where
  /-- a decimal digit -/
  | decimal {c} (h : c.isDigit = true) : HexDigit c (c.toNat - '0'.toNat)
  /-- a small letter -/
  | small {c} (h : 'a' ≤ c) (h' : c ≤ 'f') : HexDigit c (c.toNat - 'a'.toNat + 10)
  /-- a capital letter -/
  | capital {c} (h : 'A' ≤ c) (h' : c ≤ 'F') : HexDigit c (c.toNat - 'A'.toNat + 10)

/-- So many hexadecimal digits and the code that they write. -/
inductive HexCode : Nat → List Char → Nat → List Char → Prop where
  /-- no digits -/
  | nil {rest} : HexCode 0 rest 0 rest
  /-- a digit behind others -/
  | snoc {n c digit input code rest} (before : HexCode n input code (c :: rest))
    (h : HexDigit c digit) : HexCode (n + 1) input (16 * code + digit) rest

/-- The letters that name a control character after a backslash, each with its character. -/
def controlLetters : List (Char × Char) :=
  [('f', '\x0c'), ('n', '\n'), ('r', '\r'), ('t', '\t'), ('v', '\x0b')]

/-- The letters that name a class after a backslash. -/
def classLetters : List Char :=
  ['d', 'D', 's', 'S', 'w', 'W']

/-- After a backslash: a character, by a letter, by its code, or by itself. -/
inductive EscapesChar : List Char → Char → List Char → Prop where
  /-- a control character by its letter -/
  | control {letter c rest} (h : (letter, c) ∈ controlLetters) : EscapesChar (letter :: rest) c rest
  /-- `c` and a letter -/
  | column {letter rest} (h : letter.isAlpha = true) :
    EscapesChar ('c' :: letter :: rest) (Char.ofNat (letter.toNat % 32)) rest
  /-- `0`, with no digit behind it -/
  | null {rest} (h : ∀ c ∈ rest.head?, c.isDigit = false) : EscapesChar ('0' :: rest) '\x00' rest
  /-- `x` and two hexadecimal digits -/
  | short {input code rest} (h : HexCode 2 input code rest) :
    EscapesChar ('x' :: input) (Char.ofNat code) rest
  /-- `u` and four hexadecimal digits, which are no surrogate -/
  | long {input code rest} (h : HexCode 4 input code rest)
    (scalar : ¬(0xD800 ≤ code ∧ code ≤ 0xDFFF)) : EscapesChar ('u' :: input) (Char.ofNat code) rest
  /-- a character that is no letter, digit or low line -/
  | itself {c rest} (h : c.isAlphanum = false) (h' : c ≠ '_') : EscapesChar (c :: rest) c rest

/-- After a backslash outside a set and other than a word boundary. -/
inductive EscapesTerm : List Char → List Char → Prop where
  /-- a class -/
  | named {letter rest} (h : letter ∈ classLetters) : EscapesTerm (letter :: rest) rest
  /-- a digit other than `0`, and all digits behind it -/
  | backreference {first digits rest} (h : first.isDigit = true) (nonzero : first ≠ '0')
    (more : ∀ c ∈ digits, c.isDigit = true) (all : ∀ c ∈ rest.head?, c.isDigit = false) :
    EscapesTerm (first :: (digits ++ rest)) rest
  /-- a character -/
  | char {input c rest} (h : EscapesChar input c rest) : EscapesTerm input rest

/-! ## Sets -/

/-- A member of a set: a character, or a class, which has no place in a range. -/
inductive SetMember : List Char → Option Char → List Char → Prop where
  /-- a character as itself -/
  | char {c rest} (h : c ≠ ']') (h' : c ≠ '\\') : SetMember (c :: rest) (some c) rest
  /-- a class -/
  | named {letter rest} (h : letter ∈ classLetters) : SetMember ('\\' :: letter :: rest) none rest
  /-- the backspace -/
  | backspace {rest} : SetMember ('\\' :: 'b' :: rest) (some '\x08') rest
  /-- another character behind a backslash -/
  | escaped {input c rest} (h : EscapesChar input c rest) : SetMember ('\\' :: input) (some c) rest

/-- Whether a dash stands here that is not the last character of a set. -/
def BeginsDash (input : List Char) : Prop :=
  ∃ rest, input = '-' :: rest ∧ rest.head? ≠ some ']'

/-- The items of a set and the bracket that closes it. -/
inductive ClosesSet : List Char → List Char → Prop where
  /-- the bracket -/
  | close {rest} : ClosesSet (']' :: rest) rest
  /-- a member without a dash behind it, then more -/
  | member {input m after rest} (h : SetMember input m after) (alone : ¬BeginsDash after)
    (more : ClosesSet after rest) : ClosesSet input rest
  /-- a range, whose ends are in order, then more -/
  | range {input lo middle hi after rest} (h : SetMember input (some lo) ('-' :: middle))
    (h' : SetMember middle (some hi) after) (order : lo ≤ hi) (more : ClosesSet after rest) :
    ClosesSet input rest
  /-- a dash beside a class, which stands for itself, then more -/
  | dash {input m middle m' after rest} (h : SetMember input m ('-' :: middle))
    (h' : SetMember middle m' after) (named : m = none ∨ m' = none)
    (more : ClosesSet after rest) : ClosesSet input rest

/-! ## Patterns -/

/-- What the grammar derives. -/
inductive Part where
  /-- alternatives with bars between them -/
  | choice
  /-- terms one after the other -/
  | sequence
  /-- an assertion, or an atom with or without a quantifier -/
  | term
  /-- what a quantifier may follow -/
  | atom
  deriving DecidableEq, Repr

/-- Whether a character stands for itself before these others. A brace does unless it opens the
bounds of a quantifier. -/
def IsLiteral (c : Char) (rest : List Char) : Prop :=
  c ∉ ['^', '$', '\\', '.', '*', '+', '?', '(', ')', '[', '|'] ∧ ¬BeginsRepetition (c :: rest)

/-- A part of a pattern, with the number of its capturing groups and of its quantifiers. -/
inductive Derives : Part → List Char → Nat → Nat → List Char → Prop where
  /-- the last alternative -/
  | lastAlternative {input g l rest} (h : Derives .sequence input g l rest) :
    Derives .choice input g l rest
  /-- an alternative, a bar, and more alternatives -/
  | alternative {input g l middle g' l' rest} (h : Derives .sequence input g l ('|' :: middle))
    (more : Derives .choice middle g' l' rest) : Derives .choice input (g + g') (l + l') rest
  /-- no more terms -/
  | nil {rest} : Derives .sequence rest 0 0 rest
  /-- a term, and more terms -/
  | cons {input g l middle g' l' rest} (h : Derives .term input g l middle)
    (more : Derives .sequence middle g' l' rest) : Derives .sequence input (g + g') (l + l') rest
  /-- `^` -/
  | lineStart {rest} : Derives .term ('^' :: rest) 0 0 rest
  /-- `$` -/
  | lineEnd {rest} : Derives .term ('$' :: rest) 0 0 rest
  /-- `\b` or `\B` -/
  | wordBoundary {letter rest} (h : letter = 'b' ∨ letter = 'B') :
    Derives .term ('\\' :: letter :: rest) 0 0 rest
  /-- an atom -/
  | once {input g l rest} (h : Derives .atom input g l rest) : Derives .term input g l rest
  /-- an atom and a quantifier -/
  | quantified {input g l middle rest} (h : Derives .atom input g l middle)
    (q : Quantifies middle rest) : Derives .term input g (l + 1) rest
  /-- `.` -/
  | dot {rest} : Derives .atom ('.' :: rest) 0 0 rest
  /-- a capturing group -/
  | capturing {input g l rest} (h : Derives .choice input g l (')' :: rest)) :
    Derives .atom ('(' :: input) (g + 1) l rest
  /-- a group that captures nothing, or a lookahead -/
  | marked {mark input g l rest} (h : mark = ':' ∨ mark = '=' ∨ mark = '!')
    (body : Derives .choice input g l (')' :: rest)) :
    Derives .atom ('(' :: '?' :: mark :: input) g l rest
  /-- a backslash and what it escapes -/
  | escape {input rest} (h : EscapesTerm input rest) : Derives .atom ('\\' :: input) 0 0 rest
  /-- a set of all characters but its items -/
  | negatedSet {input rest} (h : ClosesSet input rest) :
    Derives .atom ('[' :: '^' :: input) 0 0 rest
  /-- a set -/
  | set {input rest} (plain : input.head? ≠ some '^') (h : ClosesSet input rest) :
    Derives .atom ('[' :: input) 0 0 rest
  /-- a character that stands for itself -/
  | literal {c rest} (h : IsLiteral c rest) : Derives .atom (c :: rest) 0 0 rest

/-- Whether a text is a pattern. -/
def IsPattern (source : String) : Prop :=
  ∃ groups loops, Derives .choice source.toList groups loops [] ∧
    groups ≤ maxGroups ∧ loops ≤ maxLoops

end Grammar

/-- A number is read as its value, cut off at the ceiling. -/
theorem decimal_eq_min (ceiling : Nat) (digits : List Char) :
    decimal ceiling digits = min ceiling (Grammar.value digits) := by
  suffices h : ∀ read value, read = min ceiling value → digits.foldl
      (fun value c => min ceiling (10 * value + (c.toNat - '0'.toNat))) read =
        min ceiling (digits.foldl (fun value c => 10 * value + (c.toNat - '0'.toNat)) value) from
    h 0 0 (Nat.min_eq_right (Nat.zero_le _)).symm
  induction digits with
  | nil => exact fun _ _ h => h
  | cons c digits ih =>
    intro read value h
    refine ih _ _ ?_
    subst h
    dsimp only
    omega

end BacktrackRegex
