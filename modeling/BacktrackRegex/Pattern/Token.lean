import BacktrackRegex.Pattern
import BacktrackRegex.Pattern.Fault

/-!
# The tokens of a pattern

A pattern is read token by token: bars, parentheses, quantifiers and *terms*, the parts without
parentheses. `Token.scan?` reads the next token of an `Input`, the characters left together with
the count of those read before them, so that a fault can tell its offset.

A `{` that begins no well-formed bound is an ordinary character; a well-formed bound whose ends are
in the wrong order is a fault.
-/

namespace BacktrackRegex

/-! ## Input -/

/-- What is left of a pattern. -/
structure Input where
  /-- the characters not yet read -/
  rest : List Char
  /-- how many characters were read before them -/
  offset : Nat
  deriving DecidableEq, Repr

namespace Input

/-- The input after `n` more characters. -/
def skip (input : Input) (n : Nat) : Input :=
  ⟨input.rest.drop n, input.offset + n⟩

/-- A fault found at this point. -/
def fail {β : Type} (input : Input) (fault : SyntaxFault) : Except SyntaxError β :=
  .error ⟨fault, input.offset⟩

end Input

/-! ## Numbers -/

/-- The largest bound of a quantifier, of 64 bits; larger ones are read as this one. -/
def maxBound : Nat := UInt64.size - 1

/-- The largest group number of a backreference, of 32 bits; larger ones are read as this one. -/
def maxBackreference : Nat := UInt32.size - 1

/-- The value of decimal digits, or `ceiling` if the value is larger. -/
def decimal (ceiling : Nat) (digits : List Char) : Nat :=
  digits.foldl (fun value c => min ceiling (10 * value + (c.toNat - '0'.toNat))) 0

/-- The value of a hexadecimal digit. -/
def hexDigit? (c : Char) : Option Nat :=
  if c.isDigit then some (c.toNat - '0'.toNat)
  else if inRange 'a'.toNat 'f'.toNat c then some (c.toNat - 'a'.toNat + 10)
  else if inRange 'A'.toNat 'F'.toNat c then some (c.toNat - 'A'.toNat + 10)
  else none

/-- The value of hexadecimal digits. -/
def hexValue? (digits : List Char) : Option Nat :=
  digits.foldlM (fun value c => (hexDigit? c).map (16 * value + ·)) 0

/-- The character with a code, unless the code is a surrogate's. -/
def charOfCode? (code : Nat) : Option Char :=
  if code.isValidChar then some (Char.ofNat code) else none

/-! ## Escapes -/

/-- The control character that a letter names after a backslash. -/
def controlLetter? : Char → Option Char
  | 'f' => some '\x0c'
  | 'n' => some '\n'
  | 'r' => some '\r'
  | 't' => some '\t'
  | 'v' => some '\x0b'
  | _ => none

/-- The class that a letter names after a backslash, and whether it is the class itself. -/
def classLetter? : Char → Option (CharClass × Bool)
  | 'd' => some (.digits, true)
  | 'D' => some (.digits, false)
  | 's' => some (.spaces, true)
  | 'S' => some (.spaces, false)
  | 'w' => some (.words, true)
  | 'W' => some (.words, false)
  | _ => none

/-- After `\c`: a letter names the control character in the same column of ASCII. -/
def controlEscape (input : Input) : Except SyntaxError (Char × Input) :=
  match input.rest with
  | c :: _ =>
    if c.isAlpha then .ok (Char.ofNat (c.toNat % 32), input.skip 1) else input.fail .invalidEscape
  | [] => input.fail .invalidEscape

/-- After `\0`: the null character, unless more digits follow. -/
def nullEscape (input : Input) : Except SyntaxError (Char × Input) :=
  match input.rest with
  | c :: _ => if c.isDigit then input.fail .invalidEscape else .ok ('\x00', input)
  | [] => .ok ('\x00', input)

/-- After `\x` or `\u`: a character by `count` hexadecimal digits. -/
def codeEscape (count : Nat) (input : Input) : Except SyntaxError (Char × Input) :=
  let digits := input.rest.take count
  let after := input.skip count
  if digits.length < count then
    input.fail .invalidEscape
  else
    match hexValue? digits with
    | none => input.fail .invalidEscape
    | some code =>
      match charOfCode? code with
      | none => after.fail .invalidEscape
      | some c => .ok (c, after)

/-- After a backslash: the character that is meant. A character that is no ASCII letter, digit or
low line means itself. -/
def charEscape (input : Input) : Except SyntaxError (Char × Input) :=
  match input.rest with
  | [] => input.fail .incompleteEscape
  | c :: _ =>
    let after := input.skip 1
    match controlLetter? c with
    | some control => .ok (control, after)
    | none =>
      if c = 'c' then controlEscape after
      else if c = '0' then nullEscape after
      else if c = 'x' then codeEscape 2 after
      else if c = 'u' then codeEscape 4 after
      else if isWordChar c then input.fail .invalidEscape
      else .ok (c, after)

/-- After a backslash outside a set: a class, a word boundary, a backreference or a character. -/
def termEscape (input : Input) : Except SyntaxError (Pattern Unit × Input) :=
  match input.rest with
  | [] => input.fail .incompleteEscape
  | c :: _ =>
    match classLetter? c with
    | some (cls, positive) => .ok (.named cls positive, input.skip 1)
    | none =>
      if c = 'b' then .ok (.wordBoundary false, input.skip 1)
      else if c = 'B' then .ok (.wordBoundary true, input.skip 1)
      else if c.isDigit && c != '0' then
        let digits := input.rest.takeWhile Char.isDigit
        .ok (.backreference (decimal maxBackreference digits), input.skip digits.length)
      else do
        let (d, after) ← charEscape input
        .ok (if isWordChar c then .coded d else .char d, after)

/-! ## Sets -/

/-- After a backslash inside a set: a class or a character, `\b` being the backspace. -/
def itemEscape (input : Input) : Except SyntaxError (ClassItem × Input) :=
  match input.rest with
  | [] => input.fail .incompleteEscape
  | c :: _ =>
    match classLetter? c with
    | some (cls, positive) => .ok (.named cls positive, input.skip 1)
    | none =>
      if c = 'b' then .ok (.single '\x08', input.skip 1)
      else do
        let (d, after) ← charEscape input
        .ok (.single d, after)

/-- One end of a range, or an item of its own. -/
def setAtom (input : Input) : Except SyntaxError (ClassItem × Input) :=
  match input.rest with
  | [] => input.fail .unbalancedBracket
  | '\\' :: _ => itemEscape (input.skip 1)
  | c :: _ => .ok (.single c, input.skip 1)

/-- The items up to the closing bracket; `items` are those read so far, last first. A dash between
two characters makes a range; beside a class or the closing bracket it stands for itself. The first
argument bounds the characters left. -/
def setItems : Nat → List ClassItem → Input → Except SyntaxError (List ClassItem × Input)
  | 0, _, input => input.fail .unbalancedBracket
  | n + 1, items, input =>
    match input.rest with
    | [] => input.fail .unbalancedBracket
    | ']' :: _ => .ok (items.reverse, input.skip 1)
    | _ => do
      let (first, afterFirst) ← setAtom input
      match afterFirst.rest with
      | '-' :: ']' :: _ => setItems n (first :: items) afterFirst
      | '-' :: _ =>
        let (second, after) ← setAtom (afterFirst.skip 1)
        match first, second with
        | .single lo, .single hi =>
          if hi < lo then after.fail .invalidRange else setItems n (.range lo hi :: items) after
        | _, _ => setItems n (second :: .single '-' :: first :: items) after
      | _ => setItems n (first :: items) afterFirst

/-- After `[`: a set. -/
def setTerm (input : Input) : Except SyntaxError (Pattern Unit × Input) := do
  let (negated, start) :=
    match input.rest with
    | '^' :: _ => (true, input.skip 1)
    | _ => (false, input)
  let (items, after) ← setItems start.rest.length [] start
  .ok (.set negated items, after)

/-! ## Quantifiers -/

/-- How often a term is repeated. -/
structure Quantifier where
  /-- the least number of times -/
  min : Nat
  /-- the greatest number of times, if there is one -/
  max : Option Nat
  /-- whether more is tried before less -/
  greedy : Bool
  deriving DecidableEq, Repr

/-- After `{`: the bounds up to `}`; none if these characters are no bounds. -/
def bounds? (input : Input) : Option (Nat × Option Nat × Input) :=
  let low := input.rest.takeWhile Char.isDigit
  let afterLow := input.skip low.length
  if low.isEmpty then none
  else
    let min := decimal maxBound low
    match afterLow.rest with
    | '}' :: _ => some (min, some min, afterLow.skip 1)
    | ',' :: rest =>
      let high := rest.takeWhile Char.isDigit
      let afterHigh := afterLow.skip (high.length + 1)
      match afterHigh.rest with
      | '}' :: _ =>
        some (min, if high.isEmpty then none else some (decimal maxBound high), afterHigh.skip 1)
      | _ => none
    | _ => none

/-- The bounds at the beginning of the input, without the mark of laziness. -/
def repetition? (input : Input) : Option (Nat × Option Nat × Input) :=
  match input.rest with
  | '*' :: _ => some (0, none, input.skip 1)
  | '+' :: _ => some (1, none, input.skip 1)
  | '?' :: _ => some (0, some 1, input.skip 1)
  | '{' :: _ => bounds? (input.skip 1)
  | _ => none

/-- The quantifier at the beginning of the input, if there is one. -/
def quantifier? (input : Input) : Except SyntaxError (Option (Quantifier × Input)) :=
  match repetition? input with
  | none => .ok none
  | some (min, max, after) =>
    let (greedy, after) :=
      match after.rest with
      | '?' :: _ => (false, after.skip 1)
      | _ => (true, after)
    if max.any (· < min) then after.fail .invalidQuantifier
    else .ok (some (⟨min, max, greedy⟩, after))

/-! ## Tokens -/

/-- A part of a pattern that is read in one go. -/
inductive Token where
  /-- `|` -/
  | bar
  /-- the parenthesis that opens a group, with the mark of its kind -/
  | opening (kind : GroupKind)
  /-- `)` -/
  | closing
  /-- how often the term before it is repeated -/
  | quantifier (q : Quantifier)
  /-- a part without parentheses -/
  | term (p : Pattern Unit)
  deriving Repr

namespace Token

/-- After `(`: the kind of the group. -/
def opened (input : Input) : GroupKind × Input :=
  match input.rest with
  | '?' :: '=' :: _ => (.lookahead, input.skip 2)
  | '?' :: '!' :: _ => (.negativeLookahead, input.skip 2)
  | '?' :: ':' :: _ => (.nonCapturing, input.skip 2)
  | _ => (.capturing, input)

/-- The next token and the input after it; none at the end. -/
def scan? (input : Input) : Except SyntaxError (Option (Token × Input)) := do
  match input.rest with
  | [] => .ok none
  | c :: _ =>
    match ← quantifier? input with
    | some (q, after) => .ok (some (.quantifier q, after))
    | none =>
      let after := input.skip 1
      match c with
      | '|' => .ok (some (.bar, after))
      | ')' => .ok (some (.closing, after))
      | '(' =>
        let (kind, after) := opened after
        .ok (some (.opening kind, after))
      | '^' => .ok (some (.term .lineStart, after))
      | '$' => .ok (some (.term .lineEnd, after))
      | '.' => .ok (some (.term .dot, after))
      | '\\' =>
        let (p, after) ← termEscape after
        .ok (some (.term p, after))
      | '[' =>
        let (p, after) ← setTerm after
        .ok (some (.term p, after))
      | c => .ok (some (.term (.char c), after))

end Token

end BacktrackRegex
