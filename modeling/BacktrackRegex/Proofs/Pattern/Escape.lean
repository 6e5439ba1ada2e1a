import BacktrackRegex.Proofs.Pattern.Quantifier

/-!
# Escapes and sets are read as the grammar has them

For each function that reads what stands behind a backslash or between brackets there are two
lemmas. What it reads, the grammar derives; what the grammar derives, it reads, and leaves the same
characters behind. The second ones carry the name of the relation.

A member of a set does not tell how it was written: `ClassItem.char?` is all that the grammar says
of it, the character if it is one.
-/

namespace BacktrackRegex

open Grammar

/-- Two readings in a row succeed if both do. -/
theorem exists_of_bind_eq_ok {ε α β : Type} {first : Except ε α} {second : α → Except ε β}
    {result : β} (h : (first >>= second) = .ok result) :
    ∃ read, first = .ok read ∧ second read = .ok result := by
  cases first with
  | error fault => cases h
  | ok read => exact ⟨read, rfl, h⟩

/-! ## Letters and codes -/

theorem controlLetter?_eq_some_iff {letter c : Char} :
    controlLetter? letter = some c ↔ (letter, c) ∈ controlLetters := by
  constructor
  · intro h
    unfold controlLetter? at h
    split at h <;> cases h <;> decide
  · intro h
    simp only [controlLetters, List.mem_cons, List.not_mem_nil, or_false, Prod.mk.injEq] at h
    rcases h with ⟨rfl, rfl⟩ | ⟨rfl, rfl⟩ | ⟨rfl, rfl⟩ | ⟨rfl, rfl⟩ | ⟨rfl, rfl⟩ <;> rfl

theorem classLetter?_isSome_iff {letter : Char} :
    (classLetter? letter).isSome = true ↔ letter ∈ classLetters := by
  constructor
  · intro h
    unfold classLetter? at h
    split at h
    case h_7 => cases h
    all_goals decide
  · intro h
    simp only [classLetters, List.mem_cons, List.not_mem_nil, or_false] at h
    rcases h with rfl | rfl | rfl | rfl | rfl | rfl <;> rfl

theorem classLetter?_eq_none {letter : Char} (h : letter ∉ classLetters) :
    classLetter? letter = none := by
  rwa [← classLetter?_isSome_iff, Bool.not_eq_true, Option.isSome_eq_false_iff,
    Option.isNone_iff_eq_none] at h

theorem isDigit_iff {c : Char} : c.isDigit = true ↔ '0' ≤ c ∧ c ≤ '9' := by
  simp [Char.isDigit, Char.le_def]

theorem inRange_iff {first last c : Char} :
    inRange first.toNat last.toNat c = true ↔ first ≤ c ∧ c ≤ last := by
  simp [inRange, Char.le_def, UInt32.le_iff_toNat_le]

theorem hexDigit?_eq_some_iff {c : Char} {digit : Nat} :
    hexDigit? c = some digit ↔ HexDigit c digit := by
  rw [hexDigit?]
  constructor
  · intro h
    by_cases decimal : c.isDigit = true
    · rw [if_pos decimal] at h
      cases h
      exact .decimal decimal
    rw [if_neg decimal] at h
    by_cases small : inRange 'a'.toNat 'f'.toNat c = true
    · rw [if_pos small] at h
      cases h
      exact .small (inRange_iff.mp small).1 (inRange_iff.mp small).2
    rw [if_neg small] at h
    by_cases capital : inRange 'A'.toNat 'F'.toNat c = true
    · rw [if_pos capital] at h
      cases h
      exact .capital (inRange_iff.mp capital).1 (inRange_iff.mp capital).2
    · rw [if_neg capital] at h
      cases h
  · intro h
    cases h with
    | decimal h => exact if_pos h
    | small h h' =>
      have decimal : ¬c.isDigit = true := fun digit =>
        absurd (Char.le_trans h (isDigit_iff.mp digit).2) (by decide)
      rw [if_neg decimal, if_pos (inRange_iff.mpr ⟨h, h'⟩)]
    | capital h h' =>
      have decimal : ¬c.isDigit = true := fun digit =>
        absurd (Char.le_trans h (isDigit_iff.mp digit).2) (by decide)
      have small : ¬inRange 'a'.toNat 'f'.toNat c = true := fun small =>
        absurd (Char.le_trans (inRange_iff.mp small).1 h') (by decide)
      rw [if_neg decimal, if_neg small, if_pos (inRange_iff.mpr ⟨h, h'⟩)]

theorem Grammar.HexDigit.lt {c : Char} {digit : Nat} (h : HexDigit c digit) : digit < 16 := by
  cases h with
  | decimal h =>
    have : c.toNat ≤ 57 := (isDigit_iff.mp h).2
    show c.toNat - 48 < 16
    omega
  | small h h' =>
    have : c.toNat ≤ 102 := h'
    show c.toNat - 97 + 10 < 16
    omega
  | capital h h' =>
    have : c.toNat ≤ 70 := h'
    show c.toNat - 65 + 10 < 16
    omega

/-- A code of so many hexadecimal digits has no more bits than they. -/
theorem Grammar.HexCode.lt {n code : Nat} {input rest : List Char} (h : HexCode n input code rest) :
    code < Nat.pow 16 n := by
  induction h with
  | nil => exact Nat.one_pos
  | @snoc n c digit input code rest before h ih =>
    have := h.lt
    show 16 * code + digit < Nat.pow 16 n * 16
    omega

/-- Digits that are read behind others are derived behind them. -/
theorem hexCode_of_foldlM {digits : List Char} {n value code : Nat} {input rest : List Char}
    (before : HexCode n input value (digits ++ rest))
    (h : digits.foldlM (fun value c => (hexDigit? c).map (16 * value + ·)) value = some code) :
    HexCode (n + digits.length) input code rest := by
  induction digits generalizing n value with
  | nil =>
    cases h
    exact before
  | cons c digits ih =>
    obtain ⟨_, hd, h⟩ := Option.bind_eq_some_iff.mp h
    obtain ⟨digit, hc, rfl⟩ := Option.map_eq_some_iff.mp hd
    have more := ih (before.snoc (hexDigit?_eq_some_iff.mp hc)) h
    rwa [List.length_cons, Nat.add_comm digits.length, ← Nat.add_assoc]

/-- What a code is derived from, is so many digits with its value, and what is behind them. -/
theorem Grammar.HexCode.exists_hexValue? {n code : Nat} {input rest : List Char}
    (h : HexCode n input code rest) :
    ∃ digits, digits.length = n ∧ input = digits ++ rest ∧ hexValue? digits = some code := by
  induction h with
  | nil => exact ⟨[], rfl, rfl, rfl⟩
  | @snoc n c digit input code rest before h ih =>
    obtain ⟨digits, length, rfl, value⟩ := ih
    refine ⟨digits ++ [c], by simp [length], by simp, ?_⟩
    rw [hexValue?] at value ⊢
    simp [List.foldlM_append, value, hexDigit?_eq_some_iff.mpr h]

/-- What is read as a code, the grammar derives. -/
theorem hexCode_of_codeEscape {count : Nat} {input after : Input} {c : Char}
    (h : codeEscape count input = .ok (c, after)) :
    ∃ code, HexCode count input.rest code after.rest ∧ code.isValidChar ∧ c = Char.ofNat code := by
  simp only [codeEscape, charOfCode?] at h
  split at h
  · cases h
  · next long =>
    have length : (input.rest.take count).length = count := by
      have := List.length_take_le count input.rest
      omega
    rcases hv : hexValue? (input.rest.take count) with _ | code <;> simp only [hv] at h
    · cases h
    have none : HexCode 0 input.rest 0 (input.rest.take count ++ input.rest.drop count) := by
      rw [List.take_append_drop]
      exact .nil
    have derived := hexCode_of_foldlM none hv
    rw [Nat.zero_add, length] at derived
    by_cases valid : code.isValidChar
    · rw [if_pos valid] at h
      cases h
      exact ⟨code, derived, valid, rfl⟩
    · rw [if_neg valid] at h
      cases h

/-- What the grammar derives, is read as a code, unless it is a surrogate's. -/
theorem Grammar.HexCode.exists_codeEscape {count code : Nat} {chars rest : List Char}
    (h : HexCode count chars code rest) (valid : code.isValidChar) (offset : Nat) :
    ∃ offset', codeEscape count ⟨chars, offset⟩ = .ok (Char.ofNat code, ⟨rest, offset'⟩) := by
  obtain ⟨digits, rfl, rfl, read⟩ := h.exists_hexValue?
  exact ⟨offset + digits.length, by simp [codeEscape, charOfCode?, read, valid, Input.skip]⟩

/-- The code of four hexadecimal digits is a character's unless it is a surrogate's. -/
theorem isValidChar_iff {code : Nat} (h : code < Nat.pow 16 4) :
    code.isValidChar ↔ ¬(0xD800 ≤ code ∧ code ≤ 0xDFFF) := by
  have small : code < 0x10000 := h
  simp only [Nat.isValidChar]
  omega

/-! ## Characters behind a backslash -/

/-- What is read as a character, the grammar derives. -/
theorem escapesChar_of_charEscape {input after : Input} {c : Char}
    (h : charEscape input = .ok (c, after)) : EscapesChar input.rest c after.rest := by
  obtain ⟨_ | ⟨letter, rest⟩, offset⟩ := input <;> simp only [charEscape] at h
  · cases h
  rcases hl : controlLetter? letter with _ | control <;> simp only [hl, Input.skip] at h
  · split at h
    · next column =>
      subst column
      simp only [controlEscape, List.drop_succ_cons, List.drop_zero] at h
      split at h
      · split at h
        · next alpha =>
          cases h
          exact .column alpha
        · cases h
      · cases h
    split at h
    · next null =>
      subst null
      simp only [nullEscape, List.drop_succ_cons, List.drop_zero] at h
      split at h
      · split at h
        · cases h
        · next other =>
          cases h
          exact .null (by simpa using other)
      · cases h
        exact .null (by simp)
    split at h
    · next short =>
      subst short
      obtain ⟨code, digits, -, rfl⟩ := hexCode_of_codeEscape h
      exact .short digits
    split at h
    · next long =>
      subst long
      obtain ⟨code, digits, valid, rfl⟩ := hexCode_of_codeEscape h
      exact .long digits ((isValidChar_iff digits.lt).mp valid)
    split at h
    · cases h
    · next other =>
      cases h
      simp only [isWordChar, Bool.or_eq_true, not_or, Bool.not_eq_true,
        beq_eq_false_iff_ne] at other
      exact .itself other.1 other.2
  · cases h
    exact .control (controlLetter?_eq_some_iff.mp hl)

/-- What the grammar derives, is read as a character. -/
theorem Grammar.EscapesChar.exists_charEscape {chars : List Char} {c : Char} {rest : List Char}
    (h : EscapesChar chars c rest) (offset : Nat) :
    ∃ offset', charEscape ⟨chars, offset⟩ = .ok (c, ⟨rest, offset'⟩) := by
  cases h with
  | control h =>
    simp only [charEscape, controlLetter?_eq_some_iff.mpr h]
    exact ⟨_, rfl⟩
  | @column letter _ h =>
    have read : charEscape ⟨'c' :: letter :: rest, offset⟩ =
      controlEscape ⟨letter :: rest, offset + 1⟩ := rfl
    refine ⟨offset + 1 + 1, read.trans ?_⟩
    exact if_pos h
  | null h =>
    have read : charEscape ⟨'0' :: rest, offset⟩ = nullEscape ⟨rest, offset + 1⟩ := rfl
    refine ⟨offset + 1, read.trans ?_⟩
    cases rest with
    | nil => rfl
    | cons c rest => exact if_neg (by simp [h c rfl])
  | @short digits code _ h =>
    have read : charEscape ⟨'x' :: digits, offset⟩ = codeEscape 2 ⟨digits, offset + 1⟩ := rfl
    rw [read]
    exact h.exists_codeEscape (.inl (Nat.lt_trans h.lt (by decide))) (offset + 1)
  | @long digits code _ h scalar =>
    have read : charEscape ⟨'u' :: digits, offset⟩ = codeEscape 4 ⟨digits, offset + 1⟩ := rfl
    rw [read]
    exact h.exists_codeEscape ((isValidChar_iff h.lt).mpr scalar) (offset + 1)
  | itself h h' =>
    refine ⟨offset + 1, ?_⟩
    have other : controlLetter? c = none := by
      rcases hl : controlLetter? c with _ | control
      · rfl
      · have := controlLetter?_eq_some_iff.mp hl
        simp only [controlLetters, List.mem_cons, List.not_mem_nil, or_false, Prod.mk.injEq] at this
        rcases this with ⟨rfl, -⟩ | ⟨rfl, -⟩ | ⟨rfl, -⟩ | ⟨rfl, -⟩ | ⟨rfl, -⟩ <;> cases h
    have ne {letter : Char} (alphanum : letter.isAlphanum = true) : c ≠ letter := by
      rintro rfl
      rw [h] at alphanum
      cases alphanum
    simp only [charEscape, other]
    rw [if_neg (ne rfl), if_neg (ne rfl), if_neg (ne rfl), if_neg (ne rfl),
      if_neg (by simp [isWordChar, h, h'])]
    rfl

/-! ## Members of sets -/

/-- The character that an item is, unless it is a class or a range. -/
def ClassItem.char? : ClassItem → Option Char
  | .single c => some c
  | _ => none

theorem ClassItem.eq_single {item : ClassItem} {c : Char} (h : item.char? = some c) :
    item = .single c := by
  cases item <;> cases h
  rfl

/-- What is read behind a backslash in a set, the grammar derives. -/
theorem setMember_of_itemEscape {input after : Input} {item : ClassItem}
    (h : itemEscape input = .ok (item, after)) :
    SetMember ('\\' :: input.rest) item.char? after.rest := by
  obtain ⟨_ | ⟨letter, rest⟩, offset⟩ := input <;> simp only [itemEscape] at h
  · cases h
  rcases hl : classLetter? letter with _ | ⟨cls, positive⟩ <;> simp only [hl] at h
  · split at h
    · next backspace =>
      cases h
      rw [backspace]
      exact .backspace
    · obtain ⟨⟨c, after'⟩, hc, h⟩ := exists_of_bind_eq_ok h
      cases h
      exact .escaped (escapesChar_of_charEscape hc)
  · cases h
    exact .named (classLetter?_isSome_iff.mp (by simp [hl]))

/-- What is read as a member of a set, the grammar derives, but for the closing bracket. -/
theorem setMember_of_setAtom {input after : Input} {item : ClassItem}
    (inside : input.rest.head? ≠ some ']') (h : setAtom input = .ok (item, after)) :
    SetMember input.rest item.char? after.rest := by
  obtain ⟨chars, offset⟩ := input
  simp only [setAtom] at h
  split at h
  · cases h
  · exact setMember_of_itemEscape h
  · next c rest plain =>
    cases h
    refine .char (fun closing => inside ?_) (fun backslash => plain ?_)
    · rw [List.head?_cons, closing]
    · rw [backslash]

/-- What begins the escape of a character, begins no other. -/
theorem Grammar.EscapesChar.other {letter c : Char} {chars rest : List Char}
    (h : EscapesChar (letter :: chars) c rest) :
    letter ∉ classLetters ∧ letter ≠ 'b' ∧ letter ≠ 'B' ∧
      (letter.isDigit && letter != '0') = false := by
  cases h with
  | control h =>
    simp only [controlLetters, List.mem_cons, List.not_mem_nil, or_false, Prod.mk.injEq] at h
    rcases h with ⟨rfl, -⟩ | ⟨rfl, -⟩ | ⟨rfl, -⟩ | ⟨rfl, -⟩ | ⟨rfl, -⟩ <;> decide
  | column | null | short | long => decide
  | itself h h' =>
    refine ⟨fun named => ?_, ?_, ?_, ?_⟩
    · simp only [classLetters, List.mem_cons, List.not_mem_nil, or_false] at named
      rcases named with rfl | rfl | rfl | rfl | rfl | rfl <;> cases h
    · rintro rfl
      cases h
    · rintro rfl
      cases h
    · rw [Char.isAlphanum, Bool.or_eq_false_iff] at h
      rw [h.2, Bool.false_and]

/-- What the grammar derives, is read as a member of a set. -/
theorem Grammar.SetMember.exists_setAtom {chars : List Char} {c? : Option Char} {rest : List Char}
    (h : SetMember chars c? rest) (offset : Nat) :
    ∃ item offset', setAtom ⟨chars, offset⟩ = .ok (item, ⟨rest, offset'⟩) ∧ item.char? = c? := by
  cases h with
  | @char c _ closing backslash =>
    refine ⟨.single c, offset + 1, ?_, rfl⟩
    simp only [setAtom]
    rfl
  | @named letter _ h =>
    obtain ⟨⟨cls, positive⟩, hl⟩ := Option.isSome_iff_exists.mp (classLetter?_isSome_iff.mpr h)
    refine ⟨.named cls positive, offset + 1 + 1, ?_, rfl⟩
    have read : setAtom ⟨'\\' :: letter :: rest, offset⟩ =
      itemEscape ⟨letter :: rest, offset + 1⟩ := rfl
    rw [read]
    simp only [itemEscape, hl]
    rfl
  | backspace => exact ⟨.single '\x08', offset + 1 + 1, rfl, rfl⟩
  | @escaped chars c _ h =>
    have read : setAtom ⟨'\\' :: chars, offset⟩ = itemEscape ⟨chars, offset + 1⟩ := rfl
    rw [read]
    cases chars with
    | nil => cases h
    | cons letter chars =>
      obtain ⟨offset', hc⟩ := h.exists_charEscape (offset + 1)
      refine ⟨.single c, offset', ?_, rfl⟩
      simp only [itemEscape, classLetter?_eq_none h.other.1, if_neg h.other.2.1, hc]
      rfl

theorem Grammar.EscapesChar.length_lt {input : List Char} {c : Char} {rest : List Char}
    (h : EscapesChar input c rest) : rest.length < input.length := by
  cases h with
  | control | null | itself => exact Nat.lt_succ_self _
  | column => exact Nat.lt_succ_of_lt (Nat.lt_succ_self _)
  | short h | long h _ =>
    obtain ⟨digits, -, rfl, -⟩ := h.exists_hexValue?
    simp only [List.length_cons, List.length_append]
    omega

/-- A member takes at least one character. -/
theorem Grammar.SetMember.length_lt {input : List Char} {c? : Option Char} {rest : List Char}
    (h : SetMember input c? rest) : rest.length < input.length := by
  cases h with
  | char | named | backspace => simp only [List.length_cons]; omega
  | escaped h => exact Nat.lt_succ_of_lt h.length_lt

/-- No member begins with the closing bracket. -/
theorem Grammar.SetMember.head?_ne {input : List Char} {c? : Option Char} {rest : List Char}
    (h : SetMember input c? rest) : input.head? ≠ some ']' := by
  cases h with
  | char closing _ => simpa using closing
  | named | backspace | escaped => simp

/-! ## Items of sets -/

/-- What is read as the items of a set, the grammar derives. -/
theorem closesSet_of_setItems {n : Nat} {items : List ClassItem} {input : Input}
    {read : List ClassItem × Input} (h : setItems n items input = .ok read) :
    ClosesSet input.rest read.2.rest := by
  induction n generalizing items input with
  | zero => cases h
  | succ n ih =>
    obtain ⟨chars, offset⟩ := input
    simp only [setItems] at h
    split at h
    · cases h
    · cases h
      exact .close
    · next inside =>
      obtain ⟨⟨first, afterFirst, offset'⟩, hf, h⟩ := exists_of_bind_eq_ok h
      simp only at h
      have member : SetMember chars first.char? afterFirst :=
        setMember_of_setAtom (by simpa [List.head?_eq_some_iff] using inside) hf
      split at h
      · refine .member member ?_ (ih h)
        rintro ⟨_, eq, unclosed⟩
        cases eq
        exact unclosed rfl
      · next rest unclosed =>
        obtain ⟨⟨second, after⟩, hs, h⟩ := exists_of_bind_eq_ok h
        simp only at h
        have member' : SetMember rest second.char? after.rest :=
          setMember_of_setAtom (fun closing => by
            obtain ⟨rest', rfl⟩ := List.head?_eq_some_iff.mp closing
            exact unclosed rest' rfl) hs
        split at h
        · next lo hi =>
          split at h
          · cases h
          · next order => exact .range member member' (Char.not_lt.mp order) (ih h)
        · next apart =>
          refine .dash member member' ?_ (ih h)
          rcases hfirst : first.char? with _ | lo
          · exact .inl rfl
          rcases hsecond : second.char? with _ | hi
          · exact .inr rfl
          · exact (apart lo hi (ClassItem.eq_single hfirst) (ClassItem.eq_single hsecond)).elim
      · next alone =>
        refine .member member ?_ (ih h)
        rintro ⟨rest, eq, -⟩
        exact alone rest eq

theorem Grammar.ClosesSet.length_lt {input rest : List Char} (h : ClosesSet input rest) :
    rest.length < input.length := by
  induction h with
  | close => exact Nat.lt_succ_self _
  | member h _ _ ih => exact Nat.lt_trans ih h.length_lt
  | range h h' _ _ ih | dash h h' _ _ ih =>
    have := h.length_lt
    have := h'.length_lt
    simp only [List.length_cons] at *
    omega

theorem Input.skip_cons (c : Char) (rest : List Char) (offset : Nat) :
    Input.skip ⟨c :: rest, offset⟩ 1 = ⟨rest, offset + 1⟩ :=
  rfl

theorem setItems_of_setAtom {n : Nat} {items : List ClassItem} {input after : Input}
    {first : ClassItem} (inside : input.rest.head? ≠ some ']')
    (h : setAtom input = .ok (first, after)) :
    setItems (n + 1) items input =
      match after.rest with
      | '-' :: ']' :: _ => setItems n (first :: items) after
      | '-' :: _ => do
        let (second, after) ← setAtom (after.skip 1)
        match first, second with
        | .single lo, .single hi =>
          if hi < lo then after.fail .invalidRange else setItems n (.range lo hi :: items) after
        | _, _ => setItems n (second :: .single '-' :: first :: items) after
      | _ => setItems n (first :: items) after := by
  obtain ⟨chars, offset⟩ := input
  simp only [setItems]
  split
  · cases h
  · exact absurd rfl inside
  · rw [h]
    rfl

/-- What the grammar derives, is read as the items of a set. -/
theorem Grammar.ClosesSet.exists_setItems {input rest : List Char} (h : ClosesSet input rest)
    {n : Nat} (bound : input.length ≤ n) (items : List ClassItem) (offset : Nat) :
    ∃ read offset', setItems n items ⟨input, offset⟩ = .ok (read, ⟨rest, offset'⟩) := by
  induction h generalizing n items offset with
  | close =>
    cases n with
    | zero => cases bound
    | succ n => exact ⟨items.reverse, offset + 1, rfl⟩
  | @member input m after rest h alone more ih =>
    obtain ⟨first, offset', hf, -⟩ := h.exists_setAtom offset
    have shorter := h.length_lt
    cases n with
    | zero => omega
    | succ n =>
      rw [setItems_of_setAtom h.head?_ne hf]
      split
      · exact ih (by omega) ..
      · next dash rest' unclosed eq =>
        cases eq
        refine absurd ⟨rest', rfl, fun closing => ?_⟩ alone
        obtain ⟨rest, rfl⟩ := List.head?_eq_some_iff.mp closing
        exact unclosed rest rfl
      · exact ih (by omega) ..
  | @range input lo middle hi after rest h h' order more ih =>
    obtain ⟨first, offset', hf, hfirst⟩ := h.exists_setAtom offset
    obtain ⟨second, offset'', hs, hsecond⟩ := h'.exists_setAtom (offset' + 1)
    have := h.length_lt
    have := h'.length_lt
    cases n with
    | zero => omega
    | succ n =>
      rw [setItems_of_setAtom h.head?_ne hf]
      split
      · next eq =>
        cases eq
        exact absurd rfl h'.head?_ne
      · next eq =>
        rw [Input.skip_cons, hs, ClassItem.eq_single hfirst, ClassItem.eq_single hsecond]
        simp only [bind, Except.bind, if_neg (Char.not_lt.mpr order)]
        exact ih (by simp only [List.length_cons] at *; omega) ..
      · next alone => exact absurd rfl (alone middle)
  | @dash input m middle m' after rest h h' named more ih =>
    obtain ⟨first, offset', hf, rfl⟩ := h.exists_setAtom offset
    obtain ⟨second, offset'', hs, rfl⟩ := h'.exists_setAtom (offset' + 1)
    have := h.length_lt
    have := h'.length_lt
    cases n with
    | zero => omega
    | succ n =>
      rw [setItems_of_setAtom h.head?_ne hf]
      split
      · next eq =>
        cases eq
        exact absurd rfl h'.head?_ne
      · next eq =>
        rw [Input.skip_cons, hs]
        simp only [bind, Except.bind]
        split
        · rcases named with none | none <;> cases none
        · exact ih (by simp only [List.length_cons] at *; omega) ..
      · next alone => exact absurd rfl (alone middle)

end BacktrackRegex
