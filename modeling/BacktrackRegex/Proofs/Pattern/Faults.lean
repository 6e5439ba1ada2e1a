import BacktrackRegex.Proofs.Pattern.Spelled
import BacktrackRegex.Regex

/-!
# Faults point at what is wrong

The offset of a fault is a place of the pattern, and what is wrong stands there
(`SyntaxFault.StandsAt`). The readers keep the offset beside the characters that are left, and each
of them leaves it at the place where these characters begin (`Input.Past`). So whatever one of them
comes to, it goes on in the text or is at fault there (`Points`), and this is put together by
`Points.bind`.

Where a reader stands between two tokens, whole terms stand before it (`Reader.Spelled`). This tells
which parenthesis is not closed, and that one closes none. The pattern is over where nothing is left
or at such a parenthesis, so no other character is ever left over.

A fault is known by its message, since no two that can be met share one
(`SyntaxFault.eq_of_message_eq`). The result, `NumberedPattern.pointsInto_of_parse`, says for each
message where its error points (`SyntaxError.PointsInto`).
-/

namespace BacktrackRegex

open Grammar

/-! ## What stands at a fault -/

/-- The bounds of a quantifier, in order or not, and its mark of laziness if it has one. -/
inductive Grammar.RepeatsMarked : List Char → Nat → Option Nat → List Char → Prop where
  /-- bounds with no `?` behind them -/
  | greedy {input least most? rest} (h : Repeats input least most? rest)
    (unmarked : rest.head? ≠ some '?') : RepeatsMarked input least most? rest
  /-- bounds and `?` -/
  | lazily {input least most? rest} (h : Repeats input least most? ('?' :: rest)) :
    RepeatsMarked input least most? rest

/-- Whether whole terms, with bars between some of them, stand between two places of a text. -/
def Pattern.TermsBetween (text : List Char) (start stop : Nat) : Prop :=
  ∃ alternatives terms middle, Spells text .choice alternatives start middle ∧
    Spells text .sequence terms middle stop

/-- Whether a text ends in a group that is not closed, or has a parenthesis at this offset that
closes none. -/
def Pattern.Unbalanced (text : List Char) (offset : Nat) : Prop :=
  (offset = text.length ∧ ∃ kind start inner,
    (Token.opening kind).Between text start inner ∧ TermsBetween text inner offset) ∨
  (text[offset]? = some ')' ∧ TermsBetween text 0 offset)

/-- Whether a quantifier with these bounds ends at a place of a text, its mark of laziness
included. -/
def Grammar.RepeatsBefore (text : List Char) (stop least : Nat) (most? : Option Nat) : Prop :=
  ∃ start < stop, RepeatsMarked (text.drop start) least most? (text.drop stop)

/-- Whether a fault is at this offset of a text. -/
def SyntaxFault.StandsAt (text : List Char) (offset : Nat) : SyntaxFault → Prop
  | unbalancedParenthesis => Pattern.Unbalanced text offset
  | nothingToRepeat => ∃ rest, Quantifies (text.drop offset) rest
  | invalidQuantifier => ∃ least most?, RepeatsBefore text offset least most? ∧ ¬InOrder least most?
  | quantifierNotAllowed | tooManyLoops =>
    ∃ least most?, RepeatsBefore text offset least most? ∧ InOrder least most?
  | tooManyGroups =>
    ∃ kind start, kind.isCapturing = true ∧ (Token.opening kind).Between text start offset
  | unbalancedBracket => offset = text.length
  | incompleteEscape => offset = text.length ∧ text.getLast? = some '\\'
  | invalidRange | invalidEscape => True
  | unexpectedChar _ => False

/-- Whether an error is at its fault in a text. -/
structure SyntaxError.Placed (error : SyntaxError) (text : List Char) : Prop where
  /-- the offset is a place of the text -/
  inside : error.offset ≤ text.length
  /-- the fault is there -/
  stands : error.fault.StandsAt text error.offset

/-! ## Readers that keep their offset -/

/-- Whether an input is what a text has from the input's offset on, which is not before a place. -/
structure Input.Past (text : List Char) (place : Nat) (input : Input) : Prop where
  /-- the characters left -/
  rest : input.rest = text.drop input.offset
  /-- the offset is a place of the text -/
  inside : input.offset ≤ text.length
  /-- and one behind the other place -/
  past : place ≤ input.offset

/-- Whether a result of reading is one that is wanted, or an error that is at its fault. -/
def Points {β : Type} (text : List Char) (wanted : β → Prop) : Except SyntaxError β → Prop
  | .ok result => wanted result
  | .error error => error.Placed text

section

variable {β γ : Type} {text : List Char} {place : Nat} {input : Input} {wanted : β → Prop}

/-- To read one thing after the other. -/
theorem Points.bind {first : Except SyntaxError β} {second : β → Except SyntaxError γ}
    {wanted' : γ → Prop} (h : Points text wanted first)
    (next : ∀ result, first = .ok result → wanted result → Points text wanted' (second result)) :
    Points text wanted' (first >>= second) := by
  cases first with
  | error error => exact h
  | ok result => exact next result rfl h

namespace Input.Past

theorem mono {place' : Nat} (h : input.Past text place) (le : place' ≤ place) :
    input.Past text place' :=
  ⟨h.rest, h.inside, Nat.le_trans le h.past⟩

theorem skip (h : input.Past text place) {n : Nat} (le : n ≤ input.rest.length) :
    (input.skip n).Past text (place + n) := by
  obtain ⟨rest, inside, past⟩ := h
  rw [rest, List.length_drop] at le
  constructor
  case rest => rw [Input.skip, rest, List.drop_drop]
  case inside => exact Nat.add_le_of_le_sub' inside le
  case past => exact Nat.add_le_add_right past n

/-- Behind the next character. -/
theorem next (h : input.Past text place) {c : Char} {rest : List Char}
    (eq : input.rest = c :: rest) :
    (input.skip 1).Past text (input.offset + 1) := by
  have here : input.Past text input.offset := ⟨h.rest, h.inside, Nat.le_refl _⟩
  exact here.skip (by simp [eq])

/-- Behind the next character is behind all that the input was behind. -/
theorem onward (h : input.Past text place) {c : Char} {rest : List Char}
    (eq : input.rest = c :: rest) : (input.skip 1).Past text place :=
  (h.next eq).mono (Nat.le_succ_of_le h.past)

theorem getElem? (h : input.Past text place) {c : Char} {rest : List Char}
    (eq : input.rest = c :: rest) : text[input.offset]? = some c := by
  rw [← List.head?_drop, ← h.rest, eq]
  rfl

/-- The characters left come to an end with the text. -/
theorem offset_eq (h : input.Past text place) (ends : input.rest = []) :
    input.offset = text.length := by
  have behind := h.rest
  rw [ends, eq_comm, List.drop_eq_nil_iff] at behind
  exact Nat.le_antisymm h.inside behind

theorem fail (h : input.Past text place) {fault : SyntaxFault}
    (stands : fault.StandsAt text input.offset) : Points text wanted (input.fail fault) :=
  ⟨h.inside, stands⟩

end Input.Past

/-! ## Escapes -/

theorem points_controlEscape (h : input.Past text place) :
    Points text (fun result => result.2.Past text place) (controlEscape input) := by
  rw [controlEscape]
  split
  · next c rest eq =>
    split
    · exact h.onward eq
    · exact h.fail trivial
  · exact h.fail trivial

theorem points_nullEscape (h : input.Past text place) :
    Points text (fun result => result.2.Past text place) (nullEscape input) := by
  rw [nullEscape]
  split
  · split
    · exact h.fail trivial
    · exact h
  · exact h

theorem points_codeEscape (count : Nat) (h : input.Past text place) :
    Points text (fun result => result.2.Past text place) (codeEscape count input) := by
  simp only [codeEscape]
  split
  · exact h.fail trivial
  · next enough =>
    have enough : count ≤ input.rest.length := by
      rw [List.length_take] at enough
      omega
    have after := (h.skip enough).mono (Nat.le_add_right ..)
    split
    · exact h.fail trivial
    · split
      · exact after.fail trivial
      · exact after

theorem Input.Past.failIncomplete (h : input.Past text place) (ends : input.rest = [])
    (behind : text[input.offset - 1]? = some '\\') :
    Points text wanted (input.fail .incompleteEscape) := by
  have offset := h.offset_eq ends
  refine h.fail ⟨offset, ?_⟩
  rw [List.getLast?_eq_getElem?, ← offset, behind]

/-- What is read behind a backslash. -/
theorem points_charEscape (h : input.Past text place)
    (behind : text[input.offset - 1]? = some '\\') :
    Points text (fun result => result.2.Past text place) (charEscape input) := by
  rw [charEscape]
  split
  · next ends => exact h.failIncomplete ends behind
  · next c rest eq =>
    have after := h.onward eq
    dsimp only
    split
    · exact after
    · repeat' split
      · exact points_controlEscape after
      · exact points_nullEscape after
      · exact points_codeEscape 2 after
      · exact points_codeEscape 4 after
      · exact h.fail trivial
      · exact after

theorem points_termEscape (h : input.Past text place)
    (behind : text[input.offset - 1]? = some '\\') :
    Points text (fun result => result.2.Past text place) (termEscape input) := by
  rw [termEscape]
  split
  · next ends => exact h.failIncomplete ends behind
  · next c rest eq =>
    have after := h.onward eq
    split
    · exact after
    split
    · exact after
    split
    · exact after
    split
    · exact (h.skip (List.takeWhile_prefix _).length_le).mono (Nat.le_add_right ..)
    · exact (points_charEscape h behind).bind fun result _ past => past

theorem points_itemEscape (h : input.Past text place)
    (behind : text[input.offset - 1]? = some '\\') :
    Points text (fun result => result.2.Past text place) (itemEscape input) := by
  rw [itemEscape]
  split
  · next ends => exact h.failIncomplete ends behind
  · next c rest eq =>
    have after := h.onward eq
    split
    · exact after
    split
    · exact after
    · exact (points_charEscape h behind).bind fun result _ past => past

/-! ## Sets -/

theorem points_setAtom (h : input.Past text place) :
    Points text (fun result => result.2.Past text (input.offset + 1)) (setAtom input) := by
  rw [setAtom]
  split
  · next ends => exact h.fail (h.offset_eq ends)
  · next rest eq => exact points_itemEscape (h.next eq) (h.getElem? eq)
  · next c rest eq => exact h.next eq

theorem points_setItems {n : Nat} {items : List ClassItem} (h : input.Past text place)
    (bound : text.length ≤ input.offset + n) :
    Points text (fun result => result.2.Past text place) (setItems n items input) := by
  induction n generalizing items input with
  | zero => exact h.fail (Nat.le_antisymm h.inside bound)
  | succ n ih =>
    rw [setItems]
    split
    · next ends => exact h.fail (h.offset_eq ends)
    · next rest eq => exact h.onward eq
    · refine (points_setAtom h).bind fun read _ past => ?_
      obtain ⟨first, afterFirst⟩ := read
      -- what is left is shorter by the characters of the first item
      have further : input.offset + 1 ≤ afterFirst.offset := past.past
      have here := past.mono (Nat.le_succ_of_le h.past)
      dsimp only
      split
      · exact ih here (by omega)
      · next rest eq =>
        refine (points_setAtom (past.next eq)).bind fun read _ past' => ?_
        obtain ⟨second, after⟩ := read
        have further' : afterFirst.offset + 1 + 1 ≤ after.offset := past'.past
        have there := past'.mono (Nat.le_trans here.past (Nat.le_add_right _ 2))
        dsimp only
        split
        · split
          · exact there.fail trivial
          · exact ih there (by omega)
        · exact ih there (by omega)
      · exact ih here (by omega)

theorem points_setTerm (h : input.Past text place) :
    Points text (fun result => result.2.Past text place) (setTerm input) := by
  have items {start : Input} (here : start.Past text place) :
      Points text (fun result => result.2.Past text place)
        (setItems start.rest.length [] start) := by
    refine points_setItems here ?_
    rw [here.rest, List.length_drop]
    omega
  simp only [setTerm]
  split
  · next rest eq => exact (items (h.onward eq)).bind fun result _ past => past
  · exact (items h).bind fun result _ past => past

/-! ## Quantifiers -/

theorem past_of_bounds? {min : Nat} {max : Option Nat} {after : Input}
    (h : input.Past text place) (read : bounds? input = some (min, max, after)) :
    after.Past text place := by
  have low := (h.skip (List.takeWhile_prefix Char.isDigit).length_le).mono (Nat.le_add_right ..)
  simp only [bounds?] at read
  split at read
  · cases read
  split at read
  · next rest eq =>
    cases read
    exact low.onward eq
  · next rest eq =>
    split at read
    · next rest' eq' =>
      cases read
      have digits := (List.takeWhile_prefix (l := rest) Char.isDigit).length_le
      exact ((low.skip (by rw [eq]; exact Nat.succ_le_succ digits)).mono
        (Nat.le_add_right ..)).onward eq'
    · cases read
  · cases read

theorem past_of_repetition? {min : Nat} {max : Option Nat} {after : Input}
    (h : input.Past text place) (read : repetition? input = some (min, max, after)) :
    after.Past text (input.offset + 1) := by
  simp only [repetition?] at read
  split at read
  case h_4 rest eq => exact past_of_bounds? (h.next eq) read
  case h_5 => cases read
  all_goals
    next rest eq =>
    cases read
    exact h.next eq

/-- Whether an input is behind a token, and what stands there if it is a quantifier. -/
def Token.Ahead (text : List Char) (input : Input) (token : Token) (after : Input) : Prop :=
  after.Past text (input.offset + 1) ∧ ∀ q, token = .quantifier q → ∃ least most?,
    RepeatsMarked (text.drop input.offset) least most? (text.drop after.offset) ∧
      InOrder least most?

/-- Bounds out of order are at fault, behind their mark of laziness. -/
theorem points_inOrder {q : Quantifier} {least : Nat} {most? : Option Nat} {after : Input}
    (past : after.Past text (input.offset + 1))
    (marked : RepeatsMarked (text.drop input.offset) least most? (text.drop after.offset)) :
    Points text (fun read? => ∀ read ∈ read?, (Token.quantifier read.1).Ahead text input read.2)
      (if (most?.map capped).any (· < capped least) then after.fail .invalidQuantifier
        else .ok (some (q, after))) := by
  split
  · next disorder =>
    have order : ¬InOrder least most? := fun order => by
      rw [any_lt_capped.mpr order] at disorder
      cases disorder
    have stands : SyntaxFault.invalidQuantifier.StandsAt text after.offset :=
      ⟨least, most?, ⟨input.offset, past.past, marked⟩, order⟩
    exact past.fail stands
  · next order =>
    rw [Bool.not_eq_true, any_lt_capped] at order
    rintro _ ⟨⟩
    exact ⟨past, fun _ _ => ⟨least, most?, marked, order⟩⟩

theorem points_quantifier? (h : input.Past text place) :
    Points text (fun read? => ∀ read ∈ read?, (Token.quantifier read.1).Ahead text input read.2)
      (quantifier? input) := by
  rw [quantifier?]
  split
  · rintro _ ⟨⟩
  · next min max after read =>
    have past := past_of_repetition? h read
    obtain ⟨least, most?, repeats, rfl, rfl⟩ := repeats_of_repetition? read
    rw [h.rest] at repeats
    split
    next greedy behind mark =>
    split at mark
    · next rest eq =>
      cases mark
      have past := past.onward eq
      refine points_inOrder past (.lazily ?_)
      rw [← past.rest, Input.skip, eq]
      rwa [eq] at repeats
    · next unmarked =>
      cases mark
      rw [past.rest] at repeats unmarked
      refine points_inOrder past (.greedy repeats fun mark => ?_)
      obtain ⟨rest, eq⟩ := List.head?_eq_some_iff.mp mark
      exact unmarked rest eq

/-! ## Tokens -/

theorem past_opened (h : input.Past text place) : (Token.opened input).2.Past text place := by
  rw [Token.opened]
  split
  case h_4 => exact h
  all_goals
    next rest eq =>
    exact (h.skip (by simp [eq])).mono (Nat.le_add_right ..)

theorem points_scan? (h : input.Past text place) :
    Points text (fun next? => ∀ next ∈ next?, next.1.Ahead text input next.2)
      (Token.scan? input) := by
  rw [Token.scan?]
  split
  · rintro _ ⟨⟩
  · next c rest eq =>
    refine (points_quantifier? h).bind fun read? _ found => ?_
    rcases read? with _ | ⟨q, after⟩
    · have after := h.next eq
      dsimp only
      split
      case h_3 =>
        rintro _ ⟨⟩
        exact ⟨past_opened after, by simp⟩
      case h_7 =>
        refine (points_termEscape after (h.getElem? eq)).bind fun read _ past => ?_
        rintro _ ⟨⟩
        exact ⟨past, by simp⟩
      case h_8 =>
        refine (points_setTerm after).bind fun read _ past => ?_
        rintro _ ⟨⟩
        exact ⟨past, by simp⟩
      all_goals
        rintro _ ⟨⟩
        exact ⟨after, by simp⟩
    · obtain ⟨past, marked⟩ := found (q, after) rfl
      rintro _ ⟨⟩
      exact ⟨past, fun _ _ => marked q rfl⟩

/-! ## Between two tokens -/

theorem Token.Between.getElem?_closing {start stop : Nat}
    (h : Token.closing.Between text start stop) : text[start]? = some ')' := by
  rw [← List.head?_drop]
  rw [Between] at h
  generalize text.drop start = input at h
  cases h
  rfl

theorem Token.Between.quantifies {q : Quantifier} {start stop : Nat}
    (h : (Token.quantifier q).Between text start stop) :
    Quantifies (text.drop start) (text.drop stop) := by
  cases h with
  | quantifier h _ => exact h

/-- What a reader holds of its innermost group is whole terms. -/
theorem Reader.Stands.termsBetween {alternatives terms : List (Pattern Unit)} {start stop : Nat}
    (h : Reader.Stands text alternatives terms start stop) :
    Pattern.TermsBetween text start stop := by
  obtain ⟨alternatives', terms', middle, choice, sequence, -, -⟩ := h
  exact ⟨alternatives', terms', middle, choice, sequence⟩

/-- A token that a reader does not take is at fault. -/
theorem points_take {reader : Reader} {token : Token} {after : Input}
    (spelled : reader.Spelled text input.offset)
    (between : token.Between text input.offset after.offset)
    (ahead : token.Ahead text input after) :
    Points text (fun reader? => ∀ reader ∈ reader?, reader.Spelled text after.offset)
      (reader.take token input.offset after.offset) := by
  obtain ⟨past, marked⟩ := ahead
  rcases taken : reader.take token input.offset after.offset with error | reader?
  case ok =>
    rintro reader' ⟨⟩
    exact spelled.take between (Reader.take_eq_some_iff.mp taken)
  cases token with
  | term p | bar => cases taken
  | opening kind =>
    rw [Reader.take] at taken
    split at taken <;> cases taken
    next full =>
    rw [Bool.and_eq_true] at full
    exact ⟨past.inside, kind, input.offset, full.1, between⟩
  | closing =>
    simp only [Reader.take] at taken
    split at taken <;> cases taken
  | quantifier q =>
    obtain ⟨least, most?, marked, order⟩ := marked q rfl
    have repeats : RepeatsBefore text after.offset least most? :=
      ⟨input.offset, past.past, marked⟩
    simp only [Reader.take] at taken
    split at taken
    · split at taken
      · cases taken
        exact ⟨past.inside, least, most?, repeats, order⟩
      · split at taken <;> cases taken
        exact ⟨past.inside, least, most?, repeats, order⟩
    · cases taken
      have before : input.offset ≤ after.offset := Nat.le_of_succ_le past.past
      exact ⟨Nat.le_trans before past.inside, _, between.quantifies⟩

/-- Where a pattern is over it is complete or a parenthesis is at fault, for nothing is left there
but a parenthesis that closes no group. -/
theorem points_finish {reader : Reader} (h : input.Past text place)
    (spelled : reader.Spelled text input.offset)
    (left : ∀ c ∈ input.rest.head?, c = ')' ∧ reader.enclosing = []) :
    Points text (fun _ => True) (reader.finish input) := by
  obtain ⟨start, opens, stands⟩ := spelled
  have terms := stands.termsBetween
  rw [Reader.finish]
  split
  · next outer enclosing opened =>
    rw [opened] at opens left
    obtain ⟨-, begin, -, -, opening⟩ := opens
    have ends : input.rest = [] := by
      refine List.head?_eq_none_iff.mp (Option.eq_none_iff_forall_not_mem.mpr fun c mem => ?_)
      obtain ⟨-, ⟨⟩⟩ := left c mem
    have stands : SyntaxFault.unbalancedParenthesis.StandsAt text input.offset :=
      .inl ⟨h.offset_eq ends, _, _, _, opening, terms⟩
    exact h.fail stands
  · next closed =>
    rw [closed] at opens
    obtain rfl : start = 0 := opens
    split
    · trivial
    · next rest eq =>
      have stands : SyntaxFault.unbalancedParenthesis.StandsAt text input.offset :=
        .inr ⟨h.getElem? eq, terms⟩
      exact h.fail stands
    · next c rest other eq =>
      rw [eq] at left
      obtain ⟨rfl, -⟩ := left c rfl
      exact absurd rfl other

/-- What is read from some place on is read or at fault there. -/
theorem points_read {n : Nat} {reader : Reader} (h : input.Past text place)
    (spelled : reader.Spelled text input.offset) (bound : text.length ≤ input.offset + n) :
    Points text (fun _ => True) (reader.read n input) := by
  induction n generalizing reader input with
  | zero =>
    have ends : input.rest = [] := by
      rw [h.rest, List.drop_eq_nil_iff]
      exact bound
    exact points_finish h spelled (by simp [ends])
  | succ n ih =>
    rw [Reader.read]
    refine (points_scan? h).bind fun next? scanned found => ?_
    rcases next? with _ | ⟨token, after⟩
    · exact points_finish h spelled (by simp [eq_nil_of_scan? scanned])
    · have ahead := found (token, after) rfl
      have reads := reads_of_scan? scanned
      rw [h.rest, ahead.1.rest] at reads
      refine (points_take spelled reads ahead).bind fun reader? taken wanted => ?_
      rcases reader? with _ | reader'
      · -- the token is a parenthesis that closes no group, and stays where it is
        obtain ⟨rfl, closed⟩ := Reader.take_eq_none taken
        have closes := Token.Between.getElem?_closing reads
        refine points_finish h spelled fun c mem => ⟨?_, closed⟩
        rw [h.rest, List.head?_drop, closes] at mem
        exact (Option.some.inj mem).symm
      · have further : input.offset + 1 ≤ after.offset := ahead.1.past
        have there := ahead.1.mono (Nat.le_succ_of_le h.past)
        exact ih there (wanted reader' rfl) (by omega)

end

/-! ## Messages -/

namespace SyntaxFault

/-- The faults that can be met. -/
def expected : List SyntaxFault :=
  [unbalancedParenthesis, nothingToRepeat, invalidQuantifier, quantifierNotAllowed, tooManyLoops,
    tooManyGroups, unbalancedBracket, invalidRange, incompleteEscape, invalidEscape]

/-- What these faults are called. -/
def messages : List String :=
  ["Unbalanced parenthesis", "Nothing to repeat", "Invalid quantifier",
    "Quantifier not allowed here", "Loop count limit exceeded",
    "Capture group count limit exceeded", "Unbalanced bracket", "Invalid character range",
    "Incomplete escape", "Invalid character escape"]

theorem map_message_expected : expected.map message = messages := rfl

/-- Among the faults that can be met, each has a message of its own. -/
theorem eq_of_message_eq :
    ∀ fault ∈ expected, ∀ fault' ∈ expected, fault.message = fault'.message → fault = fault' := by
  decide

theorem StandsAt.mem_expected {fault : SyntaxFault} {text : List Char} {offset : Nat}
    (h : fault.StandsAt text offset) : fault ∈ expected := by
  cases fault with
  | unexpectedChar c => exact h.elim
  | _ => decide

end SyntaxFault

/-- Whether an error has a message that is expected, and points at what the message says. -/
structure SyntaxError.PointsInto (error : SyntaxError) (text : List Char) : Prop where
  /-- the offset is a place of the text -/
  inside : error.offset ≤ text.length
  /-- the message is one of ten -/
  documented : error.fault.message ∈ SyntaxFault.messages
  /-- it does not complain of a character that is left over -/
  expected : "Unexpected char".toList.isPrefixOf error.fault.message.toList = false
  /-- a group is not closed at the end, or the parenthesis at the offset closes none -/
  unbalancedParenthesis : error.fault.message = "Unbalanced parenthesis" →
    Pattern.Unbalanced text error.offset
  /-- a quantifier begins at the offset -/
  nothingToRepeat : error.fault.message = "Nothing to repeat" →
    ∃ rest, Quantifies (text.drop error.offset) rest
  /-- a quantifier with its bounds in the wrong order ends at the offset -/
  invalidQuantifier : error.fault.message = "Invalid quantifier" →
    ∃ least most?, RepeatsBefore text error.offset least most? ∧ ¬InOrder least most?
  /-- a quantifier ends at the offset -/
  quantifierNotAllowed : error.fault.message = "Quantifier not allowed here" →
    ∃ least most?, RepeatsBefore text error.offset least most? ∧ InOrder least most?
  /-- a quantifier ends at the offset -/
  tooManyLoops : error.fault.message = "Loop count limit exceeded" →
    ∃ least most?, RepeatsBefore text error.offset least most? ∧ InOrder least most?
  /-- the opening parenthesis of a capturing group ends at the offset -/
  tooManyGroups : error.fault.message = "Capture group count limit exceeded" →
    ∃ kind start, kind.isCapturing = true ∧ (Token.opening kind).Between text start error.offset
  /-- the text is at its end -/
  unbalancedBracket : error.fault.message = "Unbalanced bracket" → error.offset = text.length
  /-- the text is at its end, behind a backslash -/
  incompleteEscape : error.fault.message = "Incomplete escape" →
    error.offset = text.length ∧ text.getLast? = some '\\'

namespace SyntaxError.Placed

variable {error : SyntaxError} {text : List Char}

theorem message_mem (h : error.Placed text) : error.fault.message ∈ SyntaxFault.messages := by
  rw [← SyntaxFault.map_message_expected]
  exact List.mem_map_of_mem h.stands.mem_expected

/-- The message tells what stands at the offset. -/
theorem of_message (h : error.Placed text) (fault : SyntaxFault)
    (mem : fault ∈ SyntaxFault.expected) (said : error.fault.message = fault.message) :
    fault.StandsAt text error.offset := by
  have same := SyntaxFault.eq_of_message_eq error.fault h.stands.mem_expected fault mem said
  rw [← same]
  exact h.stands

/-- An error that is at its fault points at what its message says. -/
theorem pointsInto (h : error.Placed text) : error.PointsInto text where
  inside := h.inside
  documented := h.message_mem
  expected := by
    have plain : ∀ message ∈ SyntaxFault.messages,
        "Unexpected char".toList.isPrefixOf message.toList = false := by decide
    exact plain _ h.message_mem
  unbalancedParenthesis := h.of_message .unbalancedParenthesis (by decide)
  nothingToRepeat := h.of_message .nothingToRepeat (by decide)
  invalidQuantifier := h.of_message .invalidQuantifier (by decide)
  quantifierNotAllowed := h.of_message .quantifierNotAllowed (by decide)
  tooManyLoops := h.of_message .tooManyLoops (by decide)
  tooManyGroups := h.of_message .tooManyGroups (by decide)
  unbalancedBracket := h.of_message .unbalancedBracket (by decide)
  incompleteEscape := h.of_message .incompleteEscape (by decide)

end SyntaxError.Placed

/-! ## Patterns -/

/-- **A pattern that cannot be read has an error with one of ten messages, which points at what the
message says.** No error complains of a character left over. An expression with this pattern is not
built, and the error is reported as it is. -/
theorem NumberedPattern.pointsInto_of_parse {source : String} {error : SyntaxError}
    (h : parse source = .error error) :
    error.PointsInto source.toList ∧
      ∀ letters flags, Flags.parse letters = .ok flags →
        Regex.compile source letters = .error (.pattern error) := by
  constructor
  · have start : Input.Past source.toList 0 ⟨source.toList, 0⟩ :=
      ⟨rfl, Nat.zero_le _, Nat.le_refl 0⟩
    have read := points_read start (Reader.spelled_start _) (Nat.le_add_left _ 0)
    rw [parse] at h
    rw [h] at read
    exact SyntaxError.Placed.pointsInto read
  · intro letters flags parsed
    simp only [Regex.compile, parsed, h]

/-- A quantifier behind an assertion, in a group that is not closed: the fault that is met first is
the one that is reported, right behind the mark of laziness. -/
theorem NumberedPattern.pointsInto_of_parse_notAllowed :
    let error : SyntaxError := ⟨.quantifierNotAllowed, 12⟩
    parse "(a|é^{2,10}?b" = .error error ∧
      error.fault.message = "Quantifier not allowed here" ∧
      error.PointsInto "(a|é^{2,10}?b".toList ∧
      (∃ least most?, RepeatsBefore "(a|é^{2,10}?b".toList 12 least most? ∧
        InOrder least most?) ∧
      Regex.compile "(a|é^{2,10}?b" "g" = .error (.pattern error) := by
  intro error
  have fault : parse "(a|é^{2,10}?b" = .error error := by rfl
  obtain ⟨points, compile⟩ := pointsInto_of_parse fault
  exact ⟨fault, rfl, points, points.quantifierNotAllowed rfl, compile "g" ⟨false, false, true⟩ rfl⟩

end BacktrackRegex
