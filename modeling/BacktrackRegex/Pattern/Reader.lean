import BacktrackRegex.Pattern.Numbering
import BacktrackRegex.Pattern.Token

/-!
# Reading a pattern

A `Reader` is the state of reading between two tokens: the alternatives and terms of the innermost
open group, and for each group around it what had been read before the group opened. `take` adds
one token, and `Takes` is what comes of a reader that takes it. A pattern is over at the end of the
text, or before a parenthesis that closes no group; `finish` closes it there, if nothing is left.
`NumberedPattern.parse` runs them over a string and numbers the groups.

Errors are found from left to right: of two faults the one that is met first is reported.
-/

namespace BacktrackRegex

/-- The largest number of capturing groups in a pattern. -/
def maxGroups : Nat := 65534

/-- The largest number of quantifiers in a pattern. -/
def maxLoops : Nat := 65535

/-- A group that is open, and what was read before it in the group around it. -/
structure OpenGroup where
  /-- what the group does -/
  kind : GroupKind
  /-- the finished alternatives around it, last first -/
  alternatives : List (Pattern Unit)
  /-- the terms of the alternative in which it stands, last first -/
  terms : List (Pattern Unit)

/-- The state of reading between two tokens. -/
structure Reader where
  /-- the finished alternatives of the innermost group, last first -/
  alternatives : List (Pattern Unit)
  /-- the terms of its alternative in progress, last first -/
  terms : List (Pattern Unit)
  /-- whether the last term may still get a quantifier, none having followed it yet -/
  fresh : Bool
  /-- the open groups, innermost first -/
  enclosing : List OpenGroup
  /-- how many capturing groups were opened -/
  groupCount : Nat
  /-- how many quantifiers were read -/
  loopCount : Nat

namespace Reader

/-- Nothing is read yet. -/
def start : Reader :=
  ⟨[], [], false, [], 0, 0⟩

/-- What the innermost group holds so far. -/
def body (reader : Reader) : Pattern Unit :=
  .ofChoices (.ofTerms reader.terms.reverse :: reader.alternatives).reverse

/-- Add a term that a quantifier may follow. -/
def push (reader : Reader) (term : Pattern Unit) : Reader :=
  { reader with terms := term :: reader.terms, fresh := true }

/-- Add a token that stands between the offsets `start` and `stop`; none if the pattern is over
before it, since it closes a group and none is open. -/
def take (reader : Reader) (token : Token) (start stop : Nat) :
    Except SyntaxError (Option Reader) :=
  match token with
  | .term p => .ok (some (reader.push p))
  | .bar =>
    .ok <| some { reader with
      alternatives := .ofTerms reader.terms.reverse :: reader.alternatives
      terms := []
      fresh := false }
  | .opening kind =>
    if kind.isCapturing && reader.groupCount ≥ maxGroups then
      .error ⟨.tooManyGroups, stop⟩
    else
      .ok <| some { reader with
        alternatives := []
        terms := []
        fresh := false
        enclosing := ⟨kind, reader.alternatives, reader.terms⟩ :: reader.enclosing
        groupCount := reader.groupCount + if kind.isCapturing then 1 else 0 }
  | .closing =>
    match reader.enclosing with
    | [] => .ok none
    | outer :: enclosing =>
      .ok <| some { reader with
        alternatives := outer.alternatives
        terms := .group () outer.kind reader.body :: outer.terms
        fresh := true
        enclosing }
  | .quantifier q =>
    match reader.fresh, reader.terms with
    | true, term :: terms =>
      if !term.isQuantifiable then .error ⟨.quantifierNotAllowed, stop⟩
      else if reader.loopCount ≥ maxLoops then .error ⟨.tooManyLoops, stop⟩
      else
        .ok <| some { reader with
          terms := .quantified () q.min q.max q.greedy term :: terms
          fresh := false
          loopCount := reader.loopCount + 1 }
    | _, _ => .error ⟨.nothingToRepeat, start⟩

/-- End the pattern where it is over. All groups have to be closed, and nothing may be left. -/
def finish (reader : Reader) (input : Input) : Except SyntaxError NumberedPattern :=
  match reader.enclosing with
  | _ :: _ => input.fail .unbalancedParenthesis
  | [] =>
    match input.rest with
    | [] => .ok ⟨(reader.body.number 1).1, reader.groupCount, reader.loopCount⟩
    | ')' :: _ => input.fail .unbalancedParenthesis
    | c :: _ => input.fail (.unexpectedChar c)

/-- Read the rest of a pattern. The first argument bounds the characters left, and each token takes
at least one of them. -/
def read : Nat → Reader → Input → Except SyntaxError NumberedPattern
  | 0, reader, input => reader.finish input
  | n + 1, reader, input => do
    match ← Token.scan? input with
    | none => reader.finish input
    | some (token, after) =>
      match ← reader.take token input.offset after.offset with
      | none => reader.finish input
      | some reader => read n reader after

/-- What a reader becomes by a token that it takes. -/
inductive Takes (reader : Reader) : Token → Reader → Prop where
  /-- a term is added -/
  | term (p : Pattern Unit) : Takes reader (.term p) (reader.push p)
  /-- the alternative in progress is finished -/
  | bar : Takes reader .bar { reader with
      alternatives := .ofTerms reader.terms.reverse :: reader.alternatives
      terms := []
      fresh := false }
  /-- a group opens -/
  | opening {kind : GroupKind} (room : kind.isCapturing = true → reader.groupCount < maxGroups) :
    Takes reader (.opening kind) { reader with
      alternatives := []
      terms := []
      fresh := false
      enclosing := ⟨kind, reader.alternatives, reader.terms⟩ :: reader.enclosing
      groupCount := reader.groupCount + if kind.isCapturing then 1 else 0 }
  /-- the innermost group is closed -/
  | closing {outer : OpenGroup} {enclosing : List OpenGroup}
    (opened : reader.enclosing = outer :: enclosing) : Takes reader .closing { reader with
      alternatives := outer.alternatives
      terms := .group () outer.kind reader.body :: outer.terms
      fresh := true
      enclosing }
  /-- the last term gets a quantifier -/
  | quantifier {q : Quantifier} {term : Pattern Unit} {terms : List (Pattern Unit)}
    (fresh : reader.fresh = true) (last : reader.terms = term :: terms)
    (quantifiable : term.isQuantifiable = true) (room : reader.loopCount < maxLoops) :
    Takes reader (.quantifier q) { reader with
      terms := .quantified () q.min q.max q.greedy term :: terms
      fresh := false
      loopCount := reader.loopCount + 1 }

/-- Where a token stands matters for faults alone. -/
theorem take_eq_some_iff {reader after : Reader} {token : Token} {start stop : Nat} :
    reader.take token start stop = .ok (some after) ↔ reader.Takes token after := by
  constructor
  · intro taken
    cases token with
    | term p =>
      cases taken
      exact .term p
    | bar =>
      cases taken
      exact .bar
    | opening kind =>
      rw [take] at taken
      split at taken <;> cases taken
      next room => exact .opening fun captures => by simpa [captures] using room
    | closing =>
      simp only [take] at taken
      split at taken <;> cases taken
      next opened => exact .closing opened
    | quantifier q =>
      simp only [take] at taken
      split at taken
      · next fresh last =>
        split at taken
        · cases taken
        · next quantifiable =>
          split at taken <;> cases taken
          next room => exact .quantifier fresh last (by simpa using quantifiable) (by omega)
      · cases taken
  · intro taken
    cases taken with
    | term | bar => rfl
    | opening room =>
      rw [take, if_neg]
      rw [Bool.and_eq_true, decide_eq_true_eq]
      exact fun full => Nat.not_le_of_lt (room full.1) full.2
    | closing opened => simp only [take, opened]
    | quantifier fresh last quantifiable room =>
      simp only [take, fresh, last, quantifiable]
      exact if_neg (Nat.not_le_of_lt room)

/-- Only a parenthesis that closes no group ends a pattern. -/
theorem take_eq_none {reader : Reader} {token : Token} {start stop : Nat}
    (h : reader.take token start stop = .ok none) : token = .closing ∧ reader.enclosing = [] := by
  cases token with
  | term | bar => cases h
  | opening kind =>
    rw [take] at h
    split at h <;> cases h
  | closing =>
    simp only [take] at h
    split at h
    · next closed => exact ⟨rfl, closed⟩
    · cases h
  | quantifier q =>
    simp only [take] at h
    split at h
    · split at h
      · cases h
      · split at h <;> cases h
    · cases h

/-- A pattern comes of a text of which nothing is left, with all groups closed. -/
theorem finish_eq_ok_iff {reader : Reader} {input : Input} {pattern : NumberedPattern} :
    reader.finish input = .ok pattern ↔ reader.enclosing = [] ∧ input.rest = [] ∧
      pattern = ⟨(reader.body.number 1).1, reader.groupCount, reader.loopCount⟩ := by
  rw [finish]
  split
  · next eq => simp [Input.fail, eq]
  · next closed =>
    split
    · next ends => simp [closed, ends, eq_comm]
    · next eq => simp [Input.fail, eq]
    · next eq => simp [Input.fail, eq]

end Reader

/-- Read a pattern and number its groups. -/
def NumberedPattern.parse (source : String) : Except SyntaxError NumberedPattern :=
  let chars := source.toList
  Reader.read chars.length .start ⟨chars, 0⟩

end BacktrackRegex
