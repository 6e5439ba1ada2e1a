import BacktrackRegex.Pattern.Printer
import BacktrackRegex.Proofs.Pattern.Leaf

/-!
# What is printed is read back

`Token.print` writes a token as `Pattern.print` does. To scan what is written gives the token again,
if it is one that is ever read (`Token.Writable`) and if it is not mixed up with what stands behind
it (`Token.EndsBefore`): digits go on with a backreference, and `?` marks a quantifier as lazy or an
opening parenthesis as one that captures nothing. `Token.exists_scan?_print` says so.

No token that is written begins with a `?`, and with a digit only a character that is one.
-/

namespace BacktrackRegex

open Grammar

/-! ## Numbers -/

namespace Pattern

theorem value_printNat (n : Nat) : value (printNat n) = n :=
  Nat.ofDigitChars_ten_toDigits

theorem isNumeral_printNat (n : Nat) : IsNumeral (printNat n) :=
  ⟨Nat.toDigits_ne_nil, fun _ mem =>
    Nat.isDigit_of_mem_toDigits (Nat.succ_pos 9) (Nat.le_refl 10) mem⟩

/-- A number begins with `0` only if it is 0. -/
theorem exists_printNat_eq_cons {n : Nat} (h : 0 < n) :
    ∃ first digits, printNat n = first :: digits ∧ first ≠ '0' := by
  have digit : ∀ d < 10, 0 < d → d.digitChar ≠ '0' := by decide
  induction n using Nat.strongRecOn with
  | ind n ih =>
    rcases Nat.lt_or_ge n 10 with small | large
    · exact ⟨n.digitChar, [], Nat.toDigits_of_lt_base small, digit n small h⟩
    · obtain ⟨first, digits, written, nonzero⟩ := ih (n / 10) (by omega) (by omega)
      refine ⟨first, digits ++ [(n % 10).digitChar], ?_, nonzero⟩
      rw [printNat, Nat.toDigits_of_base_le (by decide) large, ← List.cons_append, ← written]
      rfl

end Pattern

theorem hexValue?_toDigits (n : Nat) : hexValue? (Nat.toDigits 16 n) = some n := by
  have digit : ∀ d < 16, hexDigit? d.digitChar = some d := by decide
  induction n using Nat.strongRecOn with
  | ind n ih =>
    rcases Nat.lt_or_ge n 16 with small | large
    · rw [Nat.toDigits_of_lt_base small, hexValue?]
      simp [digit n small]
    · rw [Nat.toDigits_of_base_le (by decide) large]
      have before := ih (n / 16) (by omega)
      rw [hexValue?] at before ⊢
      simp only [List.foldlM_append, before, List.foldlM_cons, List.foldlM_nil,
        digit (n % 16) (by omega), Option.bind_eq_bind, Option.bind_some, Option.map_some]
      exact congrArg some (Nat.div_add_mod n 16)

theorem hexValue?_zeros (k : Nat) (digits : List Char) :
    hexValue? (List.replicate k '0' ++ digits) = hexValue? digits := by
  induction k with
  | zero => rfl
  | succ k ih => exact ih

/-- A code of no more than four digits is written by four. -/
theorem exists_hexCode_printCode {c : Char} (h : c.toNat < 0x10000) (rest : List Char) :
    ∃ digits, Pattern.printCode c = '\\' :: 'u' :: digits ∧
      HexCode 4 (digits ++ rest) c.toNat rest := by
  have short : (Nat.toDigits 16 c.toNat).length ≤ 4 :=
    (Nat.length_toDigits_le_iff (by decide) (by decide)).mpr h
  have value := hexValue?_zeros (4 - (Nat.toDigits 16 c.toNat).length) (Nat.toDigits 16 c.toNat)
  rw [hexValue?_toDigits] at value
  refine ⟨_, rfl, ?_⟩
  have code := hexCode_of_foldlM (HexCode.nil : HexCode 0 _ 0 (_ ++ rest)) value
  rw [List.length_append, List.length_replicate, Nat.zero_add, Nat.sub_add_cancel short] at code
  exact code

/-! ## Characters -/

theorem isLiteral_of_isWordChar {c : Char} (h : isWordChar c = true) (rest : List Char) :
    IsLiteral c rest := by
  constructor
  · intro mem
    simp only [List.mem_cons, List.not_mem_nil, or_false] at mem
    rcases mem with rfl | rfl | rfl | rfl | rfl | rfl | rfl | rfl | rfl | rfl | rfl <;> cases h
  · rintro ⟨_, _, _, repeats⟩
    cases repeats <;> cases h

/-- A character that is no letter, digit or low line means itself behind a backslash. -/
theorem escapesChar_itself {c : Char} (h : isWordChar c = false) (rest : List Char) :
    EscapesChar (c :: rest) c rest := by
  rw [isWordChar, Bool.or_eq_false_iff, beq_eq_false_iff_ne] at h
  exact .itself h.1 h.2

theorem scan?_printChar (c : Char) (rest : List Char) (offset : Nat) :
    ∃ offset', Token.scan? ⟨Pattern.printChar c ++ rest, offset⟩ =
      .ok (some (.term (.char c), ⟨rest, offset'⟩)) := by
  rw [Pattern.printChar]
  split
  · next word => exact ⟨_, Token.scan?_literal (isLiteral_of_isWordChar word rest) offset⟩
  · next special =>
    rw [Bool.not_eq_true] at special
    have escapes := escapesChar_itself special rest
    obtain ⟨offset', read⟩ := escapes.exists_charEscape (offset + 1)
    have term := termEscape_of_charEscape escapes read
    rw [special] at term
    exact ⟨offset', Token.scan?_escape term⟩

theorem scan?_printCode {c : Char} (h : c.toNat < 0x10000) (rest : List Char) (offset : Nat) :
    ∃ offset', Token.scan? ⟨Pattern.printCode c ++ rest, offset⟩ =
      .ok (some (.term (.coded c), ⟨rest, offset'⟩)) := by
  obtain ⟨digits, written, code⟩ := exists_hexCode_printCode h rest
  have scalar : ¬(0xD800 ≤ c.toNat ∧ c.toNat ≤ 0xDFFF) := (isValidChar_iff h).mp c.valid
  have escapes := EscapesChar.long code scalar
  rw [Char.ofNat_toNat] at escapes
  obtain ⟨offset', read⟩ := escapes.exists_charEscape (offset + 1)
  rw [written]
  exact ⟨offset', Token.scan?_escape (termEscape_of_charEscape escapes read)⟩

theorem scan?_printBackreference {g : Nat} (positive : 0 < g) (small : g ≤ maxBackreference)
    {rest : List Char} (all : ∀ c ∈ rest.head?, c.isDigit = false) (offset : Nat) :
    ∃ offset', Token.scan? ⟨'\\' :: (Pattern.printNat g ++ rest), offset⟩ =
      .ok (some (.term (.backreference g), ⟨rest, offset'⟩)) := by
  obtain ⟨first, digits, written, nonzero⟩ := Pattern.exists_printNat_eq_cons positive
  have numeral := (Pattern.isNumeral_printNat g).2
  have value : decimal maxBackreference (first :: digits) = g := by
    rw [decimal_eq_min, ← written, Pattern.value_printNat]
    exact Nat.min_eq_right small
  rw [written] at numeral ⊢
  have read := termEscape_backreference (numeral first List.mem_cons_self) nonzero
    (fun c mem => numeral c (List.mem_cons_of_mem first mem)) all (offset + 1)
  rw [value] at read
  exact ⟨_, Token.scan?_escape read⟩

/-! ## Sets -/

theorem exists_setAtom_printChar (c : Char) (rest : List Char) (offset : Nat) :
    ∃ offset', setAtom ⟨Pattern.printChar c ++ rest, offset⟩ =
      .ok (.single c, ⟨rest, offset'⟩) := by
  have member : SetMember (Pattern.printChar c ++ rest) (some c) rest := by
    rw [Pattern.printChar]
    split
    · next word => exact .char (by rintro rfl; cases word) (by rintro rfl; cases word)
    · next special => exact .escaped (escapesChar_itself (Bool.not_eq_true _ ▸ special) rest)
  obtain ⟨item, offset', read, same⟩ := member.exists_setAtom offset
  rw [ClassItem.eq_single same] at read
  exact ⟨offset', read⟩

theorem exists_setAtom_printClass (cls : CharClass) (positive : Bool) (rest : List Char)
    (offset : Nat) : ∃ offset', setAtom ⟨Pattern.printClass cls positive ++ rest, offset⟩ =
      .ok (.named cls positive, ⟨rest, offset'⟩) := by
  cases cls <;> cases positive <;> exact ⟨_, rfl⟩

/-- A written character begins with a backslash, or is a letter, a digit or the low line. -/
theorem head?_printChar_ne {c d : Char} {rest : List Char} (h : d ≠ '\\')
    (special : isWordChar d = false) : (Pattern.printChar c ++ rest).head? ≠ some d := by
  intro begins
  rw [Pattern.printChar] at begins
  split at begins
  · next word =>
    cases begins
    rw [special] at word
    cases word
  · cases begins
    exact h rfl

/-- So do the items of a set, unless there are none. -/
theorem head?_printItems_ne {items : List ClassItem} {d : Char} {rest : List Char} (h : d ≠ '\\')
    (special : isWordChar d = false) (closing : d ≠ ']') :
    (items.flatMap Pattern.printItem ++ ']' :: rest).head? ≠ some d := by
  cases items with
  | nil =>
    intro begins
    cases begins
    exact closing rfl
  | cons item items =>
    rw [List.flatMap_cons, List.append_assoc]
    cases item with
    | single c => exact head?_printChar_ne h special
    | range lo hi =>
      rw [Pattern.printItem, List.append_assoc]
      exact head?_printChar_ne h special
    | named cls positive =>
      intro begins
      exact h (Option.some.inj begins).symm

/-- A member without a dash behind it is an item. -/
theorem setItems_of_alone {n : Nat} {items : List ClassItem} {input after : Input}
    {first : ClassItem} (inside : input.rest.head? ≠ some ']')
    (h : setAtom input = .ok (first, after)) (alone : after.rest.head? ≠ some '-') :
    setItems (n + 1) items input = setItems n (first :: items) after := by
  rw [setItems_of_setAtom inside h]
  split
  · rfl
  · next dash =>
    rw [dash] at alone
    exact absurd rfl alone
  · rfl

/-- Two characters with a dash between them are a range. -/
theorem setItems_of_range {n offset : Nat} {items : List ClassItem} {input after : Input}
    {lo hi : Char} {middle : List Char} (inside : input.rest.head? ≠ some ']')
    (h : setAtom input = .ok (.single lo, ⟨'-' :: middle, offset⟩))
    (inside' : middle.head? ≠ some ']')
    (h' : setAtom ⟨middle, offset + 1⟩ = .ok (.single hi, after)) (order : lo ≤ hi) :
    setItems (n + 1) items input = setItems n (.range lo hi :: items) after := by
  rw [setItems_of_setAtom inside h]
  split
  · next closes =>
    cases closes
    exact absurd rfl inside'
  · simp only [Input.skip_cons, h', bind, Except.bind, if_neg (Char.not_lt.mpr order)]
  · next alone => exact absurd rfl (alone middle)

theorem length_printItem_pos (item : ClassItem) : 0 < (Pattern.printItem item).length := by
  cases item with
  | single c =>
    rw [Pattern.printItem, Pattern.printChar]
    split <;> exact Nat.succ_pos _
  | range lo hi =>
    rw [Pattern.printItem, List.length_append]
    exact Nat.succ_pos _
  | named cls positive => exact Nat.succ_pos _

/-- **The items of a set are read back.** -/
theorem exists_setItems_print {items : List ClassItem}
    (ordered : ∀ lo hi, ClassItem.range lo hi ∈ items → lo ≤ hi) {n : Nat} (rest : List Char)
    (bound : (items.flatMap Pattern.printItem ++ ']' :: rest).length ≤ n) (done : List ClassItem)
    (offset : Nat) :
    ∃ offset', setItems n done ⟨items.flatMap Pattern.printItem ++ ']' :: rest, offset⟩ =
      .ok (done.reverse ++ items, ⟨rest, offset'⟩) := by
  have inside {c : Char} {rest : List Char} :
      (Pattern.printChar c ++ rest).head? ≠ some ']' := head?_printChar_ne (by decide) rfl
  induction items generalizing n done offset with
  | nil =>
    cases n with
    | zero => cases bound
    | succ n => exact ⟨offset + 1, by rw [List.append_nil]; rfl⟩
  | cons item items ih =>
    have alone : (items.flatMap Pattern.printItem ++ ']' :: rest).head? ≠ some '-' :=
      head?_printItems_ne (by decide) rfl (by decide)
    have ordered' : ∀ lo hi, ClassItem.range lo hi ∈ items → lo ≤ hi :=
      fun lo hi mem => ordered lo hi (List.mem_cons_of_mem item mem)
    have more : done.reverse ++ item :: items = (item :: done).reverse ++ items := by simp
    rw [List.flatMap_cons, List.append_assoc] at bound ⊢
    rw [more]
    have nonempty := length_printItem_pos item
    rw [List.length_append] at bound
    cases n with
    | zero => omega
    | succ n =>
      have bound' : (items.flatMap Pattern.printItem ++ ']' :: rest).length ≤ n := by omega
      cases item with
      | single c =>
        obtain ⟨offset', read⟩ := exists_setAtom_printChar c _ offset
        rw [Pattern.printItem, setItems_of_alone inside read alone]
        exact ih ordered' bound' _ offset'
      | range lo hi =>
        rw [Pattern.printItem, List.append_assoc, List.cons_append]
        obtain ⟨offset', read⟩ := exists_setAtom_printChar lo _ offset
        obtain ⟨offset'', read'⟩ := exists_setAtom_printChar hi _ (offset' + 1)
        rw [setItems_of_range inside read inside read' (ordered lo hi List.mem_cons_self)]
        exact ih ordered' bound' _ offset''
      | named cls positive =>
        obtain ⟨offset', read⟩ := exists_setAtom_printClass cls positive _ offset
        rw [Pattern.printItem, setItems_of_alone (by simp [Pattern.printClass]) read alone]
        exact ih ordered' bound' _ offset'

theorem exists_setTerm_print {items : List ClassItem}
    (ordered : ∀ lo hi, ClassItem.range lo hi ∈ items → lo ≤ hi) (negated : Bool)
    (rest : List Char) (offset : Nat) :
    ∃ offset', setTerm ⟨(if negated then ['^'] else []) ++
        (items.flatMap Pattern.printItem ++ ']' :: rest), offset⟩ =
      .ok (.set negated items, ⟨rest, offset'⟩) := by
  cases negated with
  | true =>
    obtain ⟨offset', read⟩ :=
      exists_setItems_print ordered rest (Nat.le_refl _) [] (offset + 1)
    refine ⟨offset', ?_⟩
    simp only [setTerm, if_true, List.singleton_append, Input.skip_cons, read]
    rfl
  | false =>
    obtain ⟨offset', read⟩ := exists_setItems_print ordered rest (Nat.le_refl _) [] offset
    have plain : (items.flatMap Pattern.printItem ++ ']' :: rest).head? ≠ some '^' :=
      head?_printItems_ne (by decide) rfl (by decide)
    refine ⟨offset', ?_⟩
    simp only [setTerm, Bool.false_eq_true, if_false, List.nil_append]
    split
    · next negates =>
      rw [negates] at plain
      exact absurd rfl plain
    · rw [read]
      rfl

/-! ## Quantifiers -/

theorem capped_of_le {bound : Nat} (h : bound ≤ maxBound) : capped bound = bound :=
  Nat.min_eq_right h

/-- The bounds of a quantifier are read back. -/
theorem exists_bounds?_print {min : Nat} {max : Option Nat} (small : min ≤ maxBound)
    (order : ∀ most ∈ max, min ≤ most ∧ most ≤ maxBound) (rest : List Char) (offset : Nat) :
    ∃ offset', bounds? ⟨Pattern.printNat min ++ ',' ::
      ((match max with | some most => Pattern.printNat most | none => []) ++ '}' :: rest), offset⟩ =
        some (min, max, ⟨rest, offset'⟩) := by
  have low := Pattern.isNumeral_printNat min
  cases max with
  | none =>
    have read := bounds?_comma low (List.forall_mem_nil _) rest offset
    rw [Pattern.value_printNat, capped_of_le small] at read
    exact ⟨_, read⟩
  | some most =>
    have high := Pattern.isNumeral_printNat most
    have read := bounds?_comma low high.2 rest offset
    rw [Pattern.value_printNat, Pattern.value_printNat, capped_of_le small,
      capped_of_le (order most rfl).2, if_neg (by simpa using high.1)] at read
    exact ⟨_, read⟩

theorem exists_quantifier?_print {q : Quantifier} (small : q.min ≤ maxBound)
    (order : ∀ most ∈ q.max, q.min ≤ most ∧ most ≤ maxBound) {rest : List Char}
    (unmarked : rest.head? ≠ some '?') (offset : Nat) :
    ∃ offset', quantifier? ⟨Pattern.printQuantifier q.min q.max q.greedy ++ rest, offset⟩ =
      .ok (some (q, ⟨rest, offset'⟩)) := by
  obtain ⟨min, max, greedy⟩ := q
  have inOrder : max.any (· < min) = false := by
    cases max with
    | none => rfl
    | some most => simpa using (order most rfl).1
  -- behind the bounds stands the mark of laziness, if there is one
  obtain ⟨offset', read⟩ :=
    exists_bounds?_print small order ((if greedy then [] else ['?']) ++ rest) (offset + 1)
  have repetition : repetition? ⟨Pattern.printQuantifier min max greedy ++ rest, offset⟩ =
      some (min, max, ⟨(if greedy then [] else ['?']) ++ rest, offset'⟩) := by
    rw [← read]
    simp only [Pattern.printQuantifier, List.cons_append, List.append_assoc]
    rfl
  rw [quantifier?, repetition]
  simp only [inOrder, Bool.false_eq_true, if_false]
  cases greedy with
  | true =>
    refine ⟨offset', ?_⟩
    simp only [if_true, List.nil_append]
    split
    · exact absurd rfl unmarked
    · rfl
  | false => exact ⟨offset' + 1, rfl⟩

/-! ## Tokens -/

/-- Whether a pattern is a leaf and holds what can be written: codes of no more than four digits,
ranges whose ends are in order, groups that there can be. -/
def Pattern.IsLeaf {α : Type} : Pattern α → Prop
  | char _ | named .. | dot | lineStart | lineEnd | wordBoundary _ => True
  | coded c => c.toNat < 0x10000
  | set _ items => ∀ lo hi, ClassItem.range lo hi ∈ items → lo ≤ hi
  | backreference g => 0 < g ∧ g ≤ maxBackreference
  | _ => False

namespace Token

/-- The text of a token. -/
def print : Token → List Char
  | bar => ['|']
  | opening kind => Pattern.printOpening kind
  | closing => [')']
  | quantifier q => Pattern.printQuantifier q.min q.max q.greedy
  | term p => p.print

/-- Whether a token is one that is ever read. -/
def Writable : Token → Prop
  | quantifier q => q.min ≤ maxBound ∧ ∀ most ∈ q.max, q.min ≤ most ∧ most ≤ maxBound
  | term p => p.IsLeaf
  | _ => True

/-- Whether a token ends where these characters begin. -/
structure EndsBefore (token : Token) (rest : List Char) : Prop where
  /-- a `?` would mark a quantifier or a parenthesis -/
  unmarked : rest.head? ≠ some '?'
  /-- a digit would go on with a backreference -/
  all : ∀ g, token = term (.backreference g) → ∀ c ∈ rest.head?, c.isDigit = false

/-- How the text of a token begins. -/
theorem exists_print_eq_cons {token : Token} (h : token.Writable) :
    ∃ c more, token.print = c :: more ∧ c ≠ '?' ∧ (c.isDigit = true → token = term (.char c)) := by
  cases token with
  | bar | closing => exact ⟨_, _, rfl, by decide, nofun⟩
  | opening kind => cases kind <;> exact ⟨_, _, rfl, by decide, nofun⟩
  | quantifier q => exact ⟨_, _, rfl, by decide, nofun⟩
  | term p =>
    cases p with
    | char c =>
      rw [print, Pattern.print, Pattern.printChar]
      split
      · next word =>
        refine ⟨c, [], rfl, ?_, fun _ => rfl⟩
        rintro rfl
        cases word
      · exact ⟨_, _, rfl, by decide, nofun⟩
    | empty | group | quantified | seq | choice => cases h
    | _ => exact ⟨_, _, rfl, by decide, nofun⟩

/-- **What is printed is read back.** -/
theorem exists_scan?_print {token : Token} (h : token.Writable) {rest : List Char}
    (ends : token.EndsBefore rest) (offset : Nat) :
    ∃ offset', scan? ⟨token.print ++ rest, offset⟩ = .ok (some (token, ⟨rest, offset'⟩)) := by
  cases token with
  | bar | closing => exact ⟨offset + 1, rfl⟩
  | opening kind =>
    cases kind with
    | capturing =>
      have opened : opened ⟨rest, offset + 1⟩ = (.capturing, ⟨rest, offset + 1⟩) := by
        rw [Token.opened]
        split
        case h_4 => rfl
        all_goals
          next marked =>
            exact absurd (congrArg List.head? marked) ends.unmarked
      have unrepeated : quantifier? ⟨'(' :: rest, offset⟩ = .ok none := rfl
      refine ⟨offset + 1, ?_⟩
      simp only [scan?, print, Pattern.printOpening, List.singleton_append, unrepeated]
      simp only [bind, Except.bind, Input.skip_cons, opened]
    | nonCapturing | lookahead | negativeLookahead => exact ⟨_, rfl⟩
  | quantifier q =>
    obtain ⟨offset', read⟩ := exists_quantifier?_print h.1 h.2 ends.unmarked offset
    exact ⟨offset', scan?_quantifier read⟩
  | term p =>
    cases p with
    | char c => exact scan?_printChar c rest offset
    | coded c => exact scan?_printCode h rest offset
    | named cls positive => cases cls <;> cases positive <;> exact ⟨_, rfl⟩
    | set negated items =>
      obtain ⟨offset', read⟩ := exists_setTerm_print h negated rest (offset + 1)
      rw [print, Pattern.print, List.cons_append, List.append_assoc, List.append_assoc]
      exact ⟨offset', scan?_bracket read⟩
    | dot | lineStart | lineEnd => exact ⟨offset + 1, rfl⟩
    | wordBoundary inverted => cases inverted <;> exact ⟨_, rfl⟩
    | backreference g => exact scan?_printBackreference h.1 h.2 (ends.all g rfl) offset
    | empty | group | quantified | seq | choice => cases h

end Token

end BacktrackRegex
