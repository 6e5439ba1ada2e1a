import BacktrackRegex.Proofs.Pattern.Numbered
import BacktrackRegex.Proofs.Pattern.Written

/-!
# Printing a pattern and reading it again

While a pattern is read, what was read so far has a text of its own (`Reader.print`): it is printed
as the pattern will be, whatever way it was written in the source. Each token adds its text to it
(`Reader.print_take`), so the printed pattern is the texts of all tokens in a row.

Every token that is read can be written, and then it is read back. So the printed pattern is read
token by token as the source was, and takes a reader through the same states. `Reader.Retraces`
says so of what is left of the source, and `Reader.exists_retraces` goes from its end to its
beginning; there the source and the printed pattern turn out to be the same pattern
(`parse_print`).
-/

namespace BacktrackRegex

open Grammar

/-! ## What was read can be written -/

theorem Grammar.EscapesChar.toNat_lt {letter c : Char} {chars rest : List Char}
    (h : EscapesChar (letter :: chars) c rest) (word : isWordChar letter = true) :
    c.toNat < 0x10000 := by
  have code {n : Nat} (small : n < 0x10000) : (Char.ofNat n).toNat < 0x10000 := by
    by_cases valid : n.isValidChar
    · have code : Char.ofNat n = Char.ofNatAux n valid := dif_pos valid
      rw [code]
      exact small
    · have zero : Char.ofNat n = '\x00' := dif_neg valid
      rw [zero]
      decide
  cases h with
  | control h =>
    simp only [controlLetters, List.mem_cons, List.not_mem_nil, or_false, Prod.mk.injEq] at h
    rcases h with ⟨-, rfl⟩ | ⟨-, rfl⟩ | ⟨-, rfl⟩ | ⟨-, rfl⟩ | ⟨-, rfl⟩ <;> decide
  | column => exact code (Nat.lt_trans (Nat.mod_lt _ (by decide)) (by decide))
  | null => decide
  | short h => exact code (Nat.lt_trans h.lt (by decide))
  | long h _ => exact code h.lt
  | itself h h' => simp [isWordChar, h, h'] at word

theorem Grammar.EscapesChar.eq_of_special {letter c : Char} {chars rest : List Char}
    (h : EscapesChar (letter :: chars) c rest) (special : isWordChar letter = false) :
    c = letter := by
  cases h with
  | control h =>
    simp only [controlLetters, List.mem_cons, List.not_mem_nil, or_false, Prod.mk.injEq] at h
    rcases h with ⟨rfl, -⟩ | ⟨rfl, -⟩ | ⟨rfl, -⟩ | ⟨rfl, -⟩ | ⟨rfl, -⟩ <;> cases special
  | column | null | short | long => cases special
  | itself => rfl

variable {input after : Input}

theorem setAtom_ne_range {item : ClassItem} (h : setAtom input = .ok (item, after)) (lo hi : Char) :
    item ≠ .range lo hi := by
  rintro rfl
  simp only [setAtom] at h
  split at h
  · cases h
  · simp only [itemEscape] at h
    split at h
    · cases h
    split at h
    · cases h
    split at h
    · cases h
    · obtain ⟨⟨c, after'⟩, -, h⟩ := exists_of_bind_eq_ok h
      cases h
  · cases h

/-- The ranges of a set that was read have their ends in order. -/
theorem ordered_of_setItems {n : Nat} {items : List ClassItem} {read : List ClassItem × Input}
    (h : setItems n items input = .ok read)
    (before : ∀ lo hi, ClassItem.range lo hi ∈ items → lo ≤ hi) :
    ∀ lo hi, ClassItem.range lo hi ∈ read.1 → lo ≤ hi := by
  -- an atom adds no range
  have atom {items : List ClassItem} {input after : Input} {item : ClassItem}
      (h : setAtom input = .ok (item, after))
      (before : ∀ lo hi, ClassItem.range lo hi ∈ items → lo ≤ hi) :
      ∀ lo hi, ClassItem.range lo hi ∈ item :: items → lo ≤ hi := by
    intro lo hi mem
    rcases List.mem_cons.mp mem with same | mem
    · exact absurd same.symm (setAtom_ne_range h lo hi)
    · exact before lo hi mem
  induction n generalizing items input with
  | zero => cases h
  | succ n ih =>
    simp only [setItems] at h
    split at h
    · cases h
    · cases h
      simpa using before
    · obtain ⟨⟨first, afterFirst⟩, hf, h⟩ := exists_of_bind_eq_ok h
      simp only at h
      split at h
      · exact ih h (atom hf before)
      · obtain ⟨⟨second, after⟩, hs, h⟩ := exists_of_bind_eq_ok h
        simp only at h
        split at h
        · next lo hi =>
          split at h
          · cases h
          · next order =>
            refine ih h fun lo' hi' mem => ?_
            rcases List.mem_cons.mp mem with same | mem
            · cases same
              exact Char.not_lt.mp order
            · exact before lo' hi' mem
        · refine ih h (atom hs fun lo hi mem => ?_)
          rcases List.mem_cons.mp mem with dash | mem
          · cases dash
          · exact atom hf before lo hi mem
      · exact ih h (atom hf before)

/-- What is known of a token that was read. -/
structure Token.Scanned (token : Token) (before after : List Char) : Prop where
  /-- it can be written -/
  writable : token.Writable
  /-- a digit was a digit -/
  begins : ∀ c, token = .term (.char c) → c.isDigit = true → before.head? = some c
  /-- no digit is behind a backreference -/
  ends : ∀ g, token = .term (.backreference g) → ∀ c ∈ after.head?, c.isDigit = false

theorem scanned_of_quantifier? {q : Quantifier} (h : quantifier? input = .ok (some (q, after))) :
    (Token.quantifier q).Scanned input.rest after.rest := by
  refine ⟨?_, nofun, nofun⟩
  rw [quantifier?] at h
  rcases hr : repetition? input with _ | ⟨min, max, after'⟩ <;> rw [hr] at h
  · cases h
  · obtain ⟨least, most?, -, rfl, rfl⟩ := repeats_of_repetition? hr
    simp only at h
    split at h
    · cases h
    · next order =>
      cases h
      rw [Bool.not_eq_true, any_lt_capped] at order
      refine ⟨Nat.min_le_left .., fun most mem => ?_⟩
      obtain ⟨bound, there, rfl⟩ := Option.map_eq_some_iff.mp mem
      exact ⟨order bound there, Nat.min_le_left ..⟩

/-- A number that begins with another digit than `0` is positive. -/
theorem value_pos {first : Char} (h : first.isDigit = true) (nonzero : first ≠ '0')
    (digits : List Char) : 0 < value (first :: digits) := by
  have grows (digits : List Char) (before : Nat) : before ≤
      digits.foldl (fun value c => 10 * value + (c.toNat - '0'.toNat)) before := by
    induction digits generalizing before with
    | nil => exact Nat.le_refl _
    | cons c digits ih =>
      refine Nat.le_trans ?_ (ih _)
      show before ≤ 10 * before + (c.toNat - '0'.toNat)
      omega
  have first_pos : 0 < first.toNat - '0'.toNat := by
    have least : '0'.toNat ≤ first.toNat := (isDigit_iff.mp h).1
    have ne : first.toNat ≠ '0'.toNat := fun same => nonzero (Char.toNat_inj.mp same)
    omega
  exact Nat.lt_of_lt_of_le (by simpa using first_pos) (grows digits _)

theorem scanned_of_termEscape {p : Pattern Unit} (h : termEscape input = .ok (p, after)) :
    (Token.term p).Scanned ('\\' :: input.rest) after.rest := by
  obtain ⟨_ | ⟨letter, rest⟩, offset⟩ := input <;> simp only [termEscape] at h
  · cases h
  rcases hl : classLetter? letter with _ | ⟨cls, positive⟩ <;> simp only [hl] at h
  · split at h
    · cases h
      exact ⟨trivial, by simp, by simp⟩
    split at h
    · cases h
      exact ⟨trivial, by simp, by simp⟩
    split at h
    · next digit =>
      simp only [Bool.and_eq_true, bne_iff_ne, ne_eq] at digit
      obtain ⟨digits, behind, rfl, hdigits, hdrop, more, all⟩ := eq_takeWhile_isDigit_append rest
      cases h
      simp only [List.takeWhile_cons_of_pos digit.1, hdigits, Input.skip, List.length_cons,
        List.drop_succ_cons, hdrop]
      refine ⟨⟨?_, ?_⟩, by simp, fun _ _ => all⟩
      · rw [decimal_eq_min]
        exact Nat.lt_min.mpr ⟨by decide, value_pos digit.1 digit.2 digits⟩
      · rw [decimal_eq_min]
        exact Nat.min_le_left ..
    · obtain ⟨⟨c, after'⟩, hc, h⟩ := exists_of_bind_eq_ok h
      have escapes := escapesChar_of_charEscape hc
      cases h
      split
      · next word => exact ⟨escapes.toNat_lt word, by simp, by simp⟩
      · next special =>
        refine ⟨trivial, fun c' same digit => ?_, by simp⟩
        cases same
        rw [Bool.not_eq_true] at special
        rw [escapes.eq_of_special special] at digit
        simp [isWordChar, Char.isAlphanum, digit] at special
  · cases h
    exact ⟨trivial, by simp, by simp⟩

theorem scanned_of_setTerm {p : Pattern Unit} (h : setTerm input = .ok (p, after)) :
    (Token.term p).Scanned ('[' :: input.rest) after.rest := by
  simp only [setTerm] at h
  obtain ⟨⟨items, after'⟩, hi, h⟩ := exists_of_bind_eq_ok h
  cases h
  exact ⟨ordered_of_setItems hi (by simp), by simp, by simp⟩

/-- **What was read can be written.** -/
theorem scanned_of_scan? {token : Token} (h : Token.scan? input = .ok (some (token, after))) :
    token.Scanned input.rest after.rest := by
  obtain ⟨_ | ⟨c, rest⟩, offset⟩ := input <;> simp only [Token.scan?] at h
  · cases h
  obtain ⟨q?, hq, h⟩ := exists_of_bind_eq_ok h
  cases q? with
  | some read =>
    cases h
    exact scanned_of_quantifier? hq
  | none =>
    simp only at h
    split at h
    case h_7 =>
      obtain ⟨⟨p', after'⟩, ht, h⟩ := exists_of_bind_eq_ok h
      cases h
      exact scanned_of_termEscape ht
    case h_8 =>
      obtain ⟨⟨p', after'⟩, ht, h⟩ := exists_of_bind_eq_ok h
      cases h
      exact scanned_of_setTerm ht
    case h_9 =>
      cases h
      refine ⟨trivial, fun c' same _ => ?_, by simp⟩
      cases same
      rfl
    all_goals
      cases h
      exact ⟨trivial, by simp, by simp⟩

/-! ## The text of a pattern -/

namespace Pattern

variable {α : Type}

theorem printSeq_eq (ps : List (Pattern α)) : printSeq ps = (ps.map print).flatten := by
  induction ps with
  | nil => rfl
  | cons p rest ih => rw [printSeq, ih, List.map_cons, List.flatten_cons]

theorem printFurther_eq (ps : List (Pattern α)) :
    printFurther ps = ((ps.map print).map ('|' :: ·)).flatten := by
  induction ps with
  | nil => rfl
  | cons p rest ih => rw [printFurther, ih, List.map_cons, List.map_cons, List.flatten_cons]; rfl

theorem printFurther_concat (ps : List (Pattern α)) (p : Pattern α) :
    printFurther (ps ++ [p]) = '|' :: (((ps.map print).map (· ++ ['|'])).flatten ++ p.print) := by
  induction ps with
  | nil => simp [printFurther]
  | cons q rest ih => simp [printFurther, ih]

/-- There is a bar behind each alternative but the last. -/
theorem printChoice_concat (ps : List (Pattern α)) (p : Pattern α) :
    printChoice (ps ++ [p]) = ((ps.map print).map (· ++ ['|'])).flatten ++ p.print := by
  cases ps with
  | nil => simp [printChoice, printFurther]
  | cons q rest => simp [printChoice, printFurther_concat]

theorem print_ofTerms (terms : List (Pattern α)) : (ofTerms terms).print = printSeq terms := by
  match terms with
  | [] => rfl
  | [p] => exact (List.append_nil _).symm
  | _ :: _ :: _ => rfl

theorem print_ofChoices (alternatives : List (Pattern α)) :
    (ofChoices alternatives).print = printChoice alternatives := by
  match alternatives with
  | [] => rfl
  | [p] => exact (List.append_nil _).symm
  | _ :: _ :: _ => rfl

theorem map_print_numberList {ps : List (Pattern α)}
    (h : ∀ p ∈ ps, ∀ next, (number p next).1.print = p.print) (next : Nat) :
    (numberList ps next []).1.map print = ps.map print := by
  induction ps generalizing next with
  | nil => rfl
  | cons p rest ih =>
    simp only [numberList]
    rw [numberList_eq]
    simp [h p List.mem_cons_self, ih fun q mem => h q (List.mem_cons_of_mem p mem)]

/-- Numbers of groups are not written. -/
theorem print_number (p : Pattern α) (next : Nat) : (number p next).1.print = p.print := by
  induction p generalizing next with
  | group label kind body ih => simp only [number, print, ih]
  | quantified label min max greedy body ih => simp only [number, print, ih]
  | seq terms ih => simp only [number, print, printSeq_eq, map_print_numberList ih]
  | choice alternatives ih =>
    have same := map_print_numberList ih next
    simp only [number, print]
    generalize (numberList alternatives next []).1 = numbered at same
    cases alternatives with
    | nil =>
      obtain rfl := List.map_eq_nil_iff.mp same
      rfl
    | cons p rest =>
      obtain ⟨q, rest', rfl, first, others⟩ := List.map_eq_cons_iff.mp same
      rw [printChoice, printChoice, printFurther_eq, printFurther_eq, first, others]
  | _ => rfl

end Pattern

/-! ## The text of what was read -/

namespace Reader

/-- The text of finished alternatives and of the terms behind them, both last first. -/
def written (alternatives terms : List (Pattern Unit)) : List Char :=
  ((alternatives.reverse.map Pattern.print).map (· ++ ['|'])).flatten ++
    Pattern.printSeq terms.reverse

/-- The text that a reader has read, but for other ways to write the same. -/
def print (reader : Reader) : List Char :=
  reader.enclosing.foldr (fun outer before => before ++
    (written outer.alternatives outer.terms ++ Pattern.printOpening outer.kind)) [] ++
    written reader.alternatives reader.terms

variable {reader after : Reader} {token : Token}

theorem written_term (alternatives terms : List (Pattern Unit)) (p : Pattern Unit) :
    written alternatives (p :: terms) = written alternatives terms ++ p.print := by
  simp [written, Pattern.printSeq_eq]

theorem print_body (reader : Reader) :
    reader.body.print = written reader.alternatives reader.terms := by
  rw [body, Pattern.print_ofChoices, List.reverse_cons, Pattern.printChoice_concat,
    Pattern.print_ofTerms, written]

/-- **A token adds its text.** -/
theorem Takes.print (taken : reader.Takes token after) :
    after.print = reader.print ++ token.print := by
  cases taken with
  | term p => simp only [Reader.print, push, written_term, Token.print, List.append_assoc]
  | bar => simp [Reader.print, written, Token.print, Pattern.print_ofTerms, Pattern.printSeq]
  | opening => simp [Reader.print, written, Token.print, Pattern.printSeq]
  | closing opened =>
    simp [Reader.print, opened, written_term, Token.print, Pattern.print, print_body]
  | quantifier fresh last =>
    simp [Reader.print, last, written_term, Token.print, Pattern.print]

/-- Where a pattern ends matters for faults alone. -/
theorem finish_eq_ok {input : Input} {pattern : NumberedPattern}
    (finished : reader.finish input = .ok pattern) (offset : Nat) :
    reader.finish ⟨[], offset⟩ = .ok pattern := by
  obtain ⟨closed, -, same⟩ := finish_eq_ok_iff.mp finished
  exact finish_eq_ok_iff.mpr ⟨closed, rfl, same⟩

theorem print_of_finish {input : Input} {pattern : NumberedPattern}
    (finished : reader.finish input = .ok pattern) : pattern.tree.print = reader.print := by
  obtain ⟨closed, -, rfl⟩ := finish_eq_ok_iff.mp finished
  rw [Pattern.print_number, print_body, print, closed]
  rfl

/-! ## The way back -/

/-- The text leads to the same pattern as the input, and it is what the pattern is printed as behind
what was read. -/
structure Retraces (reader : Reader) (input text : List Char) (pattern : NumberedPattern) :
    Prop where
  /-- the pattern is printed so -/
  prints : pattern.tree.print = reader.print ++ text
  /-- reading the text gives the pattern -/
  reads {n offset : Nat} (bound : text.length ≤ n) : reader.read n ⟨text, offset⟩ = .ok pattern
  /-- no quantifier or parenthesis before the text is marked by it -/
  unmarked : text.head? ≠ some '?'
  /-- a digit was a digit -/
  digit : ∀ c ∈ text.head?, c.isDigit = true → input.head? = some c

/-- At the end there is nothing to print. -/
theorem Retraces.nil {input : Input} {pattern : NumberedPattern}
    (finished : reader.finish input = .ok pattern) : reader.Retraces input.rest [] pattern where
  prints := by rw [print_of_finish finished, List.append_nil]
  reads {n offset} _ := by
    cases n with
    | zero => exact finish_eq_ok finished offset
    | succ n => exact finish_eq_ok finished offset
  unmarked := by simp
  digit := by simp

/-- Before what leads to a pattern, the text of a token leads to it as the token did. -/
theorem Retraces.cons {input behind : Input} {text : List Char} {pattern : NumberedPattern}
    (scanned : Token.scan? input = .ok (some (token, behind)))
    (taken : reader.Takes token after) (h : after.Retraces behind.rest text pattern) :
    reader.Retraces input.rest (token.print ++ text) pattern := by
  have facts := scanned_of_scan? scanned
  obtain ⟨c, more, begins, plain, literal⟩ := Token.exists_print_eq_cons facts.writable
  have ends : token.EndsBefore text := by
    refine ⟨h.unmarked, fun g same c mem => Bool.eq_false_iff.mpr fun digit => ?_⟩
    -- the digit would have been read with the backreference
    have other := facts.ends g same c (h.digit c mem digit)
    rw [digit] at other
    cases other
  constructor
  case prints => rw [h.prints, taken.print, List.append_assoc]
  case reads =>
    intro n offset bound
    rw [List.length_append, begins, List.length_cons] at bound
    obtain ⟨n, rfl⟩ := Nat.exists_eq_succ_of_ne_zero (show n ≠ 0 by omega)
    obtain ⟨offset', read⟩ := Token.exists_scan?_print facts.writable ends offset
    rw [Reader.read, read]
    simp only [bind, Except.bind, take_eq_some_iff.mpr taken]
    exact h.reads (by omega)
  case unmarked =>
    rw [begins]
    intro marked
    exact plain (Option.some.inj marked)
  case digit =>
    intro d mem digit
    rw [begins] at mem
    obtain rfl : c = d := Option.some.inj mem
    exact facts.begins c (literal digit) digit

/-- **Whatever leads to a pattern, its text leads there too.** -/
theorem exists_retraces {n : Nat} {input : Input} {pattern : NumberedPattern}
    (h : reader.read n input = .ok pattern) : ∃ text, reader.Retraces input.rest text pattern := by
  induction n generalizing reader input with
  | zero => exact ⟨[], .nil h⟩
  | succ n ih =>
    rw [read] at h
    obtain ⟨next?, scanned, h⟩ := exists_of_bind_eq_ok h
    cases next? with
    | none => exact ⟨[], .nil h⟩
    | some next =>
      obtain ⟨token, behind⟩ := next
      obtain ⟨after?, taken, h⟩ := exists_of_bind_eq_ok h
      cases after? with
      | none => exact ⟨[], .nil h⟩
      | some after =>
        obtain ⟨text, retraces⟩ := ih h
        exact ⟨token.print ++ text, retraces.cons scanned (take_eq_some_iff.mp taken)⟩

end Reader

/-- **What is printed is read as the same pattern**, with the same counts of groups and quantifiers
and the same labels. -/
theorem parse_print {source : String} {pattern : NumberedPattern}
    (parsed : NumberedPattern.parse source = .ok pattern) :
    NumberedPattern.parse (String.ofList pattern.tree.print) = .ok pattern := by
  obtain ⟨text, retraces⟩ := Reader.exists_retraces parsed
  have whole : pattern.tree.print = text := retraces.prints
  rw [whole, NumberedPattern.parse, String.toList_ofList]
  exact retraces.reads (Nat.le_refl _)

theorem parse_print_choice :
    let first : Pattern GroupRange := .seq [.quantified ⟨1, 2⟩ 0 (some 1) false
      (.group ⟨1, 2⟩ .capturing (.choice [.seq [.char 'a', .coded 'A'],
        .set true [.named .digits true, .single '-', .single 'z']])), .backreference 1,
      .group ⟨2, 2⟩ .nonCapturing .empty, .quantified ⟨2, 2⟩ 3 (some 3) true (.char '2'),
      .char '\x7b']
    let pattern : NumberedPattern := ⟨.choice [first, .char '-'], 1, 2⟩
    let printed := "(a\\u0041|[^\\d\\-z])\x7b0,1\x7d?\\1(?:)2\x7b3,3\x7d\\\x7b|\\-"
    NumberedPattern.parse "(a\\x41|[^\\d-z])??\\1(?:)2\x7b3\x7d\x7b|-" = .ok pattern ∧
      String.ofList pattern.tree.print = printed ∧
      NumberedPattern.parse printed = .ok pattern := by
  intro first pattern printed
  have parsed : NumberedPattern.parse "(a\\x41|[^\\d-z])??\\1(?:)2\x7b3\x7d\x7b|-" =
    .ok pattern := rfl
  have text : String.ofList pattern.tree.print = printed := rfl
  have again := parse_print parsed
  rw [text] at again
  exact ⟨parsed, text, again⟩

end BacktrackRegex
