import BacktrackRegex.Proofs.Pattern.Escape

/-!
# Tokens are read as the grammar has them

A *leaf* is a term without parentheses and without its quantifier. `Leaf` gathers the rules of the
grammar for them and tells which of them a quantifier may follow.

`Token.scan?` sorts all inputs by what begins there: nothing, a bar, a parenthesis, a quantifier, a
leaf, or something that cannot be read. Each section below is about one of these, and says what the
grammar has to do with it.
-/

namespace BacktrackRegex

namespace Grammar

/-! ## Leaves -/

/-- A term without parentheses and whether a quantifier may follow it. -/
inductive Leaf : List Char → Bool → List Char → Prop where
  /-- `^` -/
  | lineStart {rest} : Leaf ('^' :: rest) false rest
  /-- `$` -/
  | lineEnd {rest} : Leaf ('$' :: rest) false rest
  /-- `\b` or `\B` -/
  | wordBoundary {letter rest} (h : letter = 'b' ∨ letter = 'B') :
    Leaf ('\\' :: letter :: rest) false rest
  /-- `.` -/
  | dot {rest} : Leaf ('.' :: rest) true rest
  /-- a backslash and what it escapes -/
  | escape {input rest} (h : EscapesTerm input rest) : Leaf ('\\' :: input) true rest
  /-- a set of all characters but its items -/
  | negatedSet {input rest} (h : ClosesSet input rest) : Leaf ('[' :: '^' :: input) true rest
  /-- a set -/
  | set {input rest} (plain : input.head? ≠ some '^') (h : ClosesSet input rest) :
    Leaf ('[' :: input) true rest
  /-- a character that stands for itself -/
  | literal {c rest} (h : IsLiteral c rest) : Leaf (c :: rest) true rest

variable {input rest : List Char} {quantifiable : Bool}

theorem Leaf.atom (h : Leaf input true rest) : Derives .atom input 0 0 rest := by
  cases h with
  | dot => exact .dot
  | escape h => exact .escape h
  | negatedSet h => exact .negatedSet h
  | set plain h => exact .set plain h
  | literal h => exact .literal h

theorem Leaf.term (h : Leaf input quantifiable rest) : Derives .term input 0 0 rest := by
  cases quantifiable with
  | true => exact .once h.atom
  | false =>
    cases h with
    | lineStart => exact .lineStart
    | lineEnd => exact .lineEnd
    | wordBoundary h => exact .wordBoundary h

/-- No leaf begins as a quantifier does. -/
theorem Leaf.not_beginsRepetition (h : Leaf input quantifiable rest) :
    ¬BeginsRepetition input := by
  rintro ⟨least, most?, rest, repeats⟩
  cases h with
  | literal h => exact h.2 ⟨least, most?, rest, repeats⟩
  | _ => cases repeats

theorem EscapesTerm.length_lt (h : EscapesTerm input rest) : rest.length < input.length := by
  cases h with
  | named => exact Nat.lt_succ_self _
  | backreference =>
    simp only [List.length_cons, List.length_append]
    omega
  | char h => exact h.length_lt

/-- A leaf takes at least one character. -/
theorem Leaf.length_lt (h : Leaf input quantifiable rest) : rest.length < input.length := by
  cases h with
  | lineStart | lineEnd | dot | literal => exact Nat.lt_succ_self _
  | wordBoundary => exact Nat.lt_succ_of_lt (Nat.lt_succ_self _)
  | escape h => exact Nat.lt_succ_of_lt h.length_lt
  | negatedSet h => exact Nat.lt_succ_of_lt (Nat.lt_succ_of_lt h.length_lt)
  | set plain h => exact Nat.lt_succ_of_lt h.length_lt

/-- No leaf is a bar or a parenthesis. -/
theorem not_leaf_of_mem {c : Char} {behind : List Char} (h : c ∈ ['|', ')', '(']) :
    ¬Leaf (c :: behind) quantifiable rest := by
  intro leaf
  cases leaf with
  | literal plain =>
    have special := plain.1
    simp only [List.mem_cons, List.not_mem_nil, or_false] at h
    rcases h with rfl | rfl | rfl <;> simp at special
  | _ => simp at h

end Grammar

namespace Pattern

/-- Whether a pattern is neither a group nor put together from others. -/
def isFlat {α : Type} : Pattern α → Bool
  | group .. | quantified .. | seq _ | choice _ => false
  | _ => true

end Pattern

/-- How many capturing groups an opening parenthesis begins. -/
def GroupKind.captures (kind : GroupKind) : Nat :=
  if kind.isCapturing then 1 else 0

namespace Token

/-- What a token is, by the characters from its beginning on and those behind it. -/
inductive Reads : Token → List Char → List Char → Prop where
  /-- a bar -/
  | bar {rest} : Reads .bar ('|' :: rest) rest
  /-- a closing parenthesis -/
  | closing {rest} : Reads .closing (')' :: rest) rest
  /-- an opening parenthesis without a mark behind it -/
  | capturing {rest} (plain : ∀ mark rest', mark = ':' ∨ mark = '=' ∨ mark = '!' →
      rest ≠ '?' :: mark :: rest') : Reads (.opening .capturing) ('(' :: rest) rest
  /-- an opening parenthesis and the mark of a group that captures nothing -/
  | marked {kind mark rest} (h : mark = ':' ∨ mark = '=' ∨ mark = '!')
    (silent : kind.isCapturing = false) :
    Reads (.opening kind) ('(' :: '?' :: mark :: rest) rest
  /-- a quantifier, as long as it can be -/
  | quantifier {q input rest} (h : Grammar.Quantifies input rest)
    (longest : ∀ rest', Grammar.Quantifies input rest' → rest' = rest ∨ rest' = '?' :: rest) :
    Reads (.quantifier q) input rest
  /-- a leaf -/
  | term {p input rest} (flat : p.isFlat = true) (h : Grammar.Leaf input p.isQuantifiable rest) :
    Reads (.term p) input rest

/-- A token takes at least one character. -/
theorem Reads.length_lt {token : Token} {input rest : List Char} (h : token.Reads input rest) :
    rest.length < input.length := by
  cases h with
  | bar | closing | capturing => exact Nat.lt_succ_self _
  | marked => exact Nat.lt_add_of_pos_right (by decide : 0 < 3)
  | quantifier h _ => exact h.length_lt
  | term _ h => exact h.length_lt

theorem Reads.opening_unique {kind kind' : GroupKind} {input rest rest' : List Char}
    (h : (opening kind).Reads input rest) (h' : (opening kind').Reads input rest') :
    kind.captures = kind'.captures ∧ rest = rest' := by
  cases h with
  | capturing plain =>
    cases h' with
    | capturing => exact ⟨rfl, rfl⟩
    | marked mark silent => exact absurd rfl (plain _ _ mark)
  | marked mark silent =>
    cases h' with
    | capturing plain => exact absurd rfl (plain _ _ mark)
    | marked mark' silent' => simp [GroupKind.captures, silent, silent']

end Token

open Grammar

variable {input after : Input} {p : Pattern Unit}

/-! ## What is read -/

/-- What is read behind a backslash, the grammar derives. -/
theorem reads_of_termEscape (h : termEscape input = .ok (p, after)) :
    (Token.term p).Reads ('\\' :: input.rest) after.rest := by
  obtain ⟨_ | ⟨letter, rest⟩, offset⟩ := input <;> simp only [termEscape] at h
  · cases h
  rcases hl : classLetter? letter with _ | ⟨cls, positive⟩ <;> simp only [hl] at h
  · split at h
    · next boundary =>
      cases h
      exact .term rfl (.wordBoundary (.inl boundary))
    split at h
    · next boundary =>
      cases h
      exact .term rfl (.wordBoundary (.inr boundary))
    split at h
    · next digit =>
      simp only [Bool.and_eq_true, bne_iff_ne, ne_eq] at digit
      obtain ⟨digits, behind, rfl, hdigits, hdrop, more, all⟩ := eq_takeWhile_isDigit_append rest
      cases h
      simp only [List.takeWhile_cons_of_pos digit.1, hdigits, Input.skip, List.length_cons,
        List.drop_succ_cons, hdrop]
      exact .term rfl (.escape (.backreference digit.1 digit.2 more all))
    · obtain ⟨⟨c, after'⟩, hc, h⟩ := exists_of_bind_eq_ok h
      cases h
      have derived := EscapesTerm.char (escapesChar_of_charEscape hc)
      split
      · exact .term rfl (.escape derived)
      · exact .term rfl (.escape derived)
  · cases h
    exact .term rfl (.escape (.named (classLetter?_isSome_iff.mp (by simp [hl]))))

/-- What is read between brackets, the grammar derives. -/
theorem reads_of_setTerm (h : setTerm input = .ok (p, after)) :
    (Token.term p).Reads ('[' :: input.rest) after.rest := by
  obtain ⟨chars, offset⟩ := input
  simp only [setTerm] at h
  split at h
  · obtain ⟨⟨items, after'⟩, hi, h⟩ := exists_of_bind_eq_ok h
    cases h
    exact .term rfl (.negatedSet (closesSet_of_setItems hi))
  · next plain =>
    obtain ⟨⟨items, after'⟩, hi, h⟩ := exists_of_bind_eq_ok h
    cases h
    refine .term rfl (.set (fun mark => ?_) (closesSet_of_setItems hi))
    obtain ⟨rest, rfl⟩ := List.head?_eq_some_iff.mp mark
    exact plain rest rfl

/-- What is read behind an opening parenthesis. -/
theorem reads_opened (rest : List Char) (offset : Nat) :
    (Token.opening (Token.opened ⟨rest, offset⟩).1).Reads ('(' :: rest)
      (Token.opened ⟨rest, offset⟩).2.rest := by
  simp only [Token.opened]
  split
  · exact .marked (.inr (.inl rfl)) rfl
  · exact .marked (.inr (.inr rfl)) rfl
  · exact .marked (.inl rfl) rfl
  · next lookahead negative nonCapturing =>
    refine .capturing fun mark rest' h => ?_
    rcases h with rfl | rfl | rfl
    · exact nonCapturing rest'
    · exact lookahead rest'
    · exact negative rest'

theorem reads_of_quantifier? {q : Quantifier} (h : quantifier? input = .ok (some (q, after))) :
    (Token.quantifier q).Reads input.rest after.rest := by
  refine .quantifier (quantifies_of_quantifier? h) fun rest' derived => ?_
  obtain ⟨q', after', read, same⟩ := derived.exists_quantifier?
  rw [h] at read
  cases read
  exact same.imp_left Eq.symm

/-- A character that begins nothing else stands for itself. -/
theorem isLiteral_of_not_mem {c : Char} {rest : List Char}
    (h : c ∉ ['|', ')', '(', '^', '$', '.', '\\', '['])
    (unrepeated : ¬BeginsRepetition (c :: rest)) : IsLiteral c rest := by
  have star : c ≠ '*' := by
    rintro rfl
    exact unrepeated ⟨_, _, _, .star⟩
  have plus : c ≠ '+' := by
    rintro rfl
    exact unrepeated ⟨_, _, _, .plus⟩
  have optional : c ≠ '?' := by
    rintro rfl
    exact unrepeated ⟨_, _, _, .optional⟩
  refine ⟨?_, unrepeated⟩
  simp only [List.mem_cons, List.not_mem_nil, or_false, not_or] at h ⊢
  obtain ⟨bar, closing, opening, caret, dollar, dot, backslash, bracket⟩ := h
  exact ⟨caret, dollar, backslash, dot, star, plus, optional, opening, closing, bracket, bar⟩

/-- What a token that is read takes from the input. -/
theorem reads_of_scan? {token : Token} (h : Token.scan? input = .ok (some (token, after))) :
    token.Reads input.rest after.rest := by
  obtain ⟨_ | ⟨c, rest⟩, offset⟩ := input <;> simp only [Token.scan?] at h
  · cases h
  obtain ⟨q?, hq, h⟩ := exists_of_bind_eq_ok h
  cases q? with
  | some read =>
    cases h
    exact reads_of_quantifier? hq
  | none =>
    simp only at h
    split at h
    · cases h
      exact .bar
    · cases h
      exact .closing
    · cases h
      exact reads_opened rest (offset + 1)
    · cases h
      exact .term rfl .lineStart
    · cases h
      exact .term rfl .lineEnd
    · cases h
      exact .term rfl .dot
    · obtain ⟨⟨p', after'⟩, ht, h⟩ := exists_of_bind_eq_ok h
      cases h
      exact reads_of_termEscape ht
    · obtain ⟨⟨p', after'⟩, ht, h⟩ := exists_of_bind_eq_ok h
      cases h
      exact reads_of_setTerm ht
    · next bar closing opening caret dollar dot backslash bracket =>
      cases h
      refine .term rfl (.literal (isLiteral_of_not_mem ?_ (quantifier?_eq_ok_none.mp hq)))
      simp only [List.mem_cons, List.not_mem_nil, or_false, not_or]
      exact ⟨bar, closing, opening, caret, dollar, dot, backslash, bracket⟩

/-- Nothing is read at the end alone. -/
theorem eq_nil_of_scan? (h : Token.scan? input = .ok none) : input.rest = [] := by
  obtain ⟨_ | ⟨c, rest⟩, offset⟩ := input
  · rfl
  simp only [Token.scan?] at h
  obtain ⟨_ | read, -, h⟩ := exists_of_bind_eq_ok h <;> simp only at h
  · split at h
    case h_7 | h_8 =>
      obtain ⟨read, -, h⟩ := exists_of_bind_eq_ok h
      cases h
    all_goals cases h
  · cases h

/-! ## What has to be read -/

theorem Token.scan?_quantifier {c : Char} {rest : List Char} {offset : Nat} {q : Quantifier}
    (h : quantifier? ⟨c :: rest, offset⟩ = .ok (some (q, after))) :
    scan? ⟨c :: rest, offset⟩ = .ok (some (.quantifier q, after)) := by
  simp only [scan?, h]
  rfl

/-- Where the grammar derives a quantifier, one is read. -/
theorem Grammar.Quantifies.exists_scan? {rest : List Char} (h : Quantifies input.rest rest) :
    ∃ q after, Token.scan? input = .ok (some (.quantifier q, after)) := by
  obtain ⟨q, after, read, -⟩ := h.exists_quantifier?
  obtain ⟨_ | ⟨c, rest⟩, offset⟩ := input
  · rcases h with ⟨repeats, -⟩ | ⟨repeats, -⟩ <;> cases repeats
  · exact ⟨q, after, Token.scan?_quantifier read⟩

/-- A digit other than `0` begins a backreference, with all digits behind it. -/
theorem termEscape_backreference {first : Char} {digits rest : List Char}
    (h : first.isDigit = true) (nonzero : first ≠ '0') (more : ∀ c ∈ digits, c.isDigit = true)
    (all : ∀ c ∈ rest.head?, c.isDigit = false) (offset : Nat) :
    termEscape ⟨first :: (digits ++ rest), offset⟩ =
      .ok (.backreference (decimal maxBackreference (first :: digits)),
        ⟨rest, offset + (first :: digits).length⟩) := by
  have run : (first :: (digits ++ rest)).takeWhile Char.isDigit = first :: digits := by
    rw [List.takeWhile_cons_of_pos h, takeWhile_isDigit more all]
  have unnamed : first ∉ classLetters := fun named => by
    simp only [classLetters, List.mem_cons, List.not_mem_nil, or_false] at named
    rcases named with rfl | rfl | rfl | rfl | rfl | rfl <;> cases h
  simp only [termEscape, run, classLetter?_eq_none unnamed, Input.skip]
  rw [if_neg, if_neg, if_pos (by simp [h, nonzero])]
  · simp
  · rintro rfl
    cases h
  · rintro rfl
    cases h

/-- A character behind a backslash is coded if a letter or a digit begins its escape. -/
theorem termEscape_of_charEscape {letter c : Char} {chars rest : List Char} {offset : Nat}
    (h : EscapesChar (letter :: chars) c rest)
    (read : charEscape ⟨letter :: chars, offset⟩ = .ok (c, after)) :
    termEscape ⟨letter :: chars, offset⟩ =
      .ok (if isWordChar letter then .coded c else .char c, after) := by
  obtain ⟨unnamed, plain, inverted, zero⟩ := h.other
  simp only [termEscape, classLetter?_eq_none unnamed, if_neg plain, if_neg inverted, zero, read]
  rfl

/-- What the grammar derives behind a backslash, is read. -/
theorem Grammar.EscapesTerm.exists_termEscape {chars rest : List Char}
    (h : EscapesTerm chars rest) (offset : Nat) :
    ∃ p offset', termEscape ⟨chars, offset⟩ = .ok (p, ⟨rest, offset'⟩) ∧
      p.isQuantifiable = true := by
  cases h with
  | @named letter _ h =>
    obtain ⟨⟨cls, positive⟩, hl⟩ := Option.isSome_iff_exists.mp (classLetter?_isSome_iff.mpr h)
    refine ⟨.named cls positive, offset + 1, ?_, rfl⟩
    simp only [termEscape, hl]
    rfl
  | @backreference first digits _ h nonzero more all =>
    exact ⟨_, _, termEscape_backreference h nonzero more all offset, rfl⟩
  | @char _ c _ h =>
    obtain ⟨offset', hc⟩ := h.exists_charEscape offset
    cases chars with
    | nil => cases h
    | cons letter chars =>
      refine ⟨_, offset', termEscape_of_charEscape h hc, ?_⟩
      split <;> rfl

theorem Token.scan?_escape {chars : List Char} {offset : Nat}
    (h : termEscape ⟨chars, offset + 1⟩ = .ok (p, after)) :
    scan? ⟨'\\' :: chars, offset⟩ = .ok (some (.term p, after)) := by
  have unrepeated : quantifier? ⟨'\\' :: chars, offset⟩ = .ok none := rfl
  simp only [scan?, unrepeated, Input.skip_cons]
  simp only [bind, Except.bind, h]

theorem Token.scan?_bracket {chars : List Char} {offset : Nat}
    (h : setTerm ⟨chars, offset + 1⟩ = .ok (p, after)) :
    scan? ⟨'[' :: chars, offset⟩ = .ok (some (.term p, after)) := by
  have unrepeated : quantifier? ⟨'[' :: chars, offset⟩ = .ok none := rfl
  simp only [scan?, unrepeated, Input.skip_cons]
  simp only [bind, Except.bind, h]

/-- A character that stands for itself is read as itself. -/
theorem Token.scan?_literal {c : Char} {rest : List Char} (h : IsLiteral c rest) (offset : Nat) :
    scan? ⟨c :: rest, offset⟩ = .ok (some (.term (.char c), ⟨rest, offset + 1⟩)) := by
  have unrepeated : quantifier? ⟨c :: rest, offset⟩ = .ok none := quantifier?_eq_ok_none.mpr h.2
  simp only [scan?, unrepeated]
  simp only [bind, Except.bind]
  have special := h.1
  split
  case h_9 => rfl
  all_goals simp at special

/-- Where the grammar derives a leaf, one is read. -/
theorem Grammar.Leaf.exists_scan? {quantifiable : Bool} {chars rest : List Char}
    (h : Leaf chars quantifiable rest) (offset : Nat) :
    ∃ p offset', Token.scan? ⟨chars, offset⟩ = .ok (some (.term p, ⟨rest, offset'⟩)) ∧
      p.isQuantifiable = quantifiable := by
  cases h with
  | lineStart => exact ⟨.lineStart, offset + 1, rfl, rfl⟩
  | lineEnd => exact ⟨.lineEnd, offset + 1, rfl, rfl⟩
  | wordBoundary h =>
    rcases h with rfl | rfl
    · exact ⟨.wordBoundary false, offset + 1 + 1, rfl, rfl⟩
    · exact ⟨.wordBoundary true, offset + 1 + 1, rfl, rfl⟩
  | dot => exact ⟨.dot, offset + 1, rfl, rfl⟩
  | @escape chars _ h =>
    obtain ⟨p, offset', read, quantifiable⟩ := h.exists_termEscape (offset + 1)
    exact ⟨p, offset', Token.scan?_escape read, quantifiable⟩
  | @negatedSet chars _ h =>
    obtain ⟨items, offset', hi⟩ := h.exists_setItems (Nat.le_refl _) [] (offset + 1 + 1)
    refine ⟨.set true items, offset', Token.scan?_bracket ?_, rfl⟩
    simp only [setTerm, bind, Except.bind, Input.skip_cons, hi]
  | @set chars _ plain h =>
    obtain ⟨items, offset', hi⟩ := h.exists_setItems (Nat.le_refl _) [] (offset + 1)
    have read : setTerm ⟨chars, offset + 1⟩ = .ok (.set false items, ⟨rest, offset'⟩) := by
      simp only [setTerm]
      split
      · exact absurd rfl plain
      · rw [hi]
        rfl
    exact ⟨.set false items, offset', Token.scan?_bracket read, rfl⟩
  | literal h => exact ⟨_, _, Token.scan?_literal h offset, rfl⟩

/-- What the grammar derives as a leaf is determined by the characters. -/
theorem Grammar.Leaf.unique {chars rest rest' : List Char} {quantifiable quantifiable' : Bool}
    (h : Leaf chars quantifiable rest) (h' : Leaf chars quantifiable' rest') :
    quantifiable = quantifiable' ∧ rest = rest' := by
  obtain ⟨p, offset, read, rfl⟩ := h.exists_scan? 0
  obtain ⟨p', offset', read', rfl⟩ := h'.exists_scan? 0
  rw [read] at read'
  cases read'
  exact ⟨rfl, rfl⟩

end BacktrackRegex
