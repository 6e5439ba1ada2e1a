import BacktrackRegex.Pattern.Grammar

/-!
# Quantifiers are read as the grammar has them

`repetition?` finds bounds just where the grammar derives some, and reads their values up to
`maxBound`. `quantifier?` then sorts all inputs into three: no bounds begin there, a quantifier
does, or bounds do that are no quantifier, their ends being in the wrong order.

The grammar leaves open whether a `?` behind bounds belongs to the quantifier. The reader takes it,
so of what a derivation leaves it may leave one `?` less (`Grammar.Quantifies.exists_quantifier?`).
-/

namespace BacktrackRegex

open Grammar

/-! ## Digits -/

/-- What is left behind the characters that pass. -/
theorem drop_length_takeWhile {α : Type} (passes : α → Bool) (xs : List α) :
    xs.drop (xs.takeWhile passes).length = xs.dropWhile passes := by
  conv => lhs; arg 2; rw [← List.takeWhile_append_dropWhile (p := passes) (l := xs)]
  exact List.drop_left

/-- Digits are taken as far as they go. -/
theorem takeWhile_isDigit {digits rest : List Char} (h : ∀ c ∈ digits, c.isDigit = true)
    (all : ∀ c ∈ rest.head?, c.isDigit = false) :
    (digits ++ rest).takeWhile Char.isDigit = digits := by
  rw [List.takeWhile_append_of_pos h]
  cases rest with
  | nil => simp
  | cons c rest => rw [List.takeWhile_cons_of_neg (by simp [all c rfl]), List.append_nil]

/-- Characters are digits as far as digits go, and what is behind them is no digit. -/
theorem eq_takeWhile_isDigit_append (input : List Char) :
    ∃ digits rest, input = digits ++ rest ∧ input.takeWhile Char.isDigit = digits ∧
      input.drop digits.length = rest ∧ (∀ c ∈ digits, c.isDigit = true) ∧
      ∀ c ∈ rest.head?, c.isDigit = false := by
  refine ⟨_, _, (List.takeWhile_append_dropWhile (p := Char.isDigit)).symm, rfl,
    drop_length_takeWhile .., List.all_eq_true.mp List.all_takeWhile, fun c hc => ?_⟩
  have := List.head?_dropWhile_not Char.isDigit input
  rw [Option.mem_def.mp hc] at this
  simpa using this

/-! ## Bounds -/

/-- A bound as it is read. -/
def capped (bound : Nat) : Nat :=
  Nat.min maxBound bound

theorem decimal_maxBound (digits : List Char) :
    decimal maxBound digits = capped (value digits) :=
  decimal_eq_min maxBound digits

/-- What is read as bounds in braces, the grammar derives. -/
theorem repeats_of_bounds? {input after : Input} {min : Nat} {max : Option Nat}
    (h : bounds? input = some (min, max, after)) :
    ∃ least most?, Repeats ('{' :: input.rest) least most? after.rest ∧ min = capped least ∧
      max = most?.map capped := by
  obtain ⟨chars, offset⟩ := input
  obtain ⟨low, behind, rfl, hlow, hdrop, digits, -⟩ := eq_takeWhile_isDigit_append chars
  simp only [bounds?, hlow, Input.skip, hdrop, decimal_maxBound] at h
  rcases hempty : low.isEmpty with _ | _ <;> rw [hempty] at h
  · have numeral : IsNumeral low := ⟨by simpa using hempty, digits⟩
    simp only [Bool.false_eq_true, if_false] at h
    split at h
    · cases h
      exact ⟨_, _, .exactly numeral, rfl, rfl⟩
    · next behind =>
      obtain ⟨high, behind, rfl, hhigh, hdrop', digits', -⟩ := eq_takeWhile_isDigit_append behind
      simp only [hhigh, List.drop_succ_cons, hdrop'] at h
      split at h
      · cases h
        rcases hempty' : high.isEmpty with _ | _
        · exact ⟨_, _, .between numeral ⟨by simpa using hempty', digits'⟩, rfl, by simp⟩
        · rw [List.isEmpty_iff.mp hempty']
          exact ⟨_, _, .atLeast numeral, rfl, by simp⟩
      · cases h
    · cases h
  · cases h

theorem bounds?_exactly {low : List Char} (numeral : IsNumeral low) (rest : List Char)
    (offset : Nat) :
    bounds? ⟨low ++ '}' :: rest, offset⟩ =
      some (capped (value low), some (capped (value low)), ⟨rest, offset + low.length + 1⟩) := by
  have digits : (low ++ '}' :: rest).takeWhile Char.isDigit = low :=
    takeWhile_isDigit numeral.2 (by simp [Char.isDigit])
  simp only [bounds?, digits, Input.skip, List.drop_left, decimal_maxBound]
  rw [if_neg (by simpa using numeral.1)]
  rfl

/-- The digits behind the comma may be missing. -/
theorem bounds?_comma {low high : List Char} (numeral : IsNumeral low)
    (h : ∀ c ∈ high, c.isDigit = true) (rest : List Char) (offset : Nat) :
    bounds? ⟨low ++ ',' :: (high ++ '}' :: rest), offset⟩ =
      some (capped (value low), if high.isEmpty then none else some (capped (value high)),
        ⟨rest, offset + low.length + (high.length + 1) + 1⟩) := by
  have digits : (low ++ ',' :: (high ++ '}' :: rest)).takeWhile Char.isDigit = low :=
    takeWhile_isDigit numeral.2 (by simp [Char.isDigit])
  have digits' : (high ++ '}' :: rest).takeWhile Char.isDigit = high :=
    takeWhile_isDigit h (by simp [Char.isDigit])
  simp only [bounds?, digits, digits', Input.skip, List.drop_left, List.drop_succ_cons,
    decimal_maxBound]
  rw [if_neg (by simpa using numeral.1)]
  rfl

/-- What is read as bounds, the grammar derives. -/
theorem repeats_of_repetition? {input after : Input} {min : Nat} {max : Option Nat}
    (h : repetition? input = some (min, max, after)) :
    ∃ least most?, Repeats input.rest least most? after.rest ∧ min = capped least ∧
      max = most?.map capped := by
  obtain ⟨chars, offset⟩ := input
  simp only [repetition?] at h
  split at h
  · cases h
    exact ⟨_, _, .star, rfl, rfl⟩
  · cases h
    exact ⟨_, _, .plus, rfl, rfl⟩
  · cases h
    exact ⟨_, _, .optional, rfl, rfl⟩
  · exact repeats_of_bounds? h
  · cases h

/-- What the grammar derives, is read as bounds. -/
theorem Grammar.Repeats.exists_repetition? {input : Input} {least : Nat} {most? : Option Nat}
    {rest : List Char} (h : Repeats input.rest least most? rest) :
    ∃ offset, repetition? input = some (capped least, most?.map capped, ⟨rest, offset⟩) := by
  obtain ⟨chars, offset⟩ := input
  cases h with
  | star | plus | optional => exact ⟨offset + 1, rfl⟩
  | exactly numeral => exact ⟨_, bounds?_exactly numeral rest (offset + 1)⟩
  | atLeast numeral => exact ⟨_, bounds?_comma numeral (List.forall_mem_nil _) rest (offset + 1)⟩
  | @between low high _ numeral numeral' =>
    have read := bounds?_comma numeral numeral'.2 rest (offset + 1)
    rw [if_neg (by simpa using numeral'.1)] at read
    exact ⟨_, read⟩

/-- No bounds are read just where none begin. -/
theorem repetition?_eq_none {input : Input} :
    repetition? input = none ↔ ¬BeginsRepetition input.rest := by
  constructor
  · rintro none ⟨least, most?, rest, h⟩
    obtain ⟨offset, some⟩ := h.exists_repetition?
    rw [none] at some
    cases some
  · intro h
    rcases hr : repetition? input with _ | ⟨min, max, after⟩
    · rfl
    · obtain ⟨least, most?, repeats, -⟩ := repeats_of_repetition? hr
      exact absurd ⟨least, most?, _, repeats⟩ h

/-! ## Quantifiers -/

/-- Bounds are out of order as they are read if they are in the grammar. -/
theorem any_lt_capped {least : Nat} {most? : Option Nat} :
    (most?.map capped).any (· < capped least) = false ↔ InOrder least most? := by
  cases most? with
  | none => simp [InOrder]
  | some most =>
    show decide (capped most < capped least) = false ↔ ∀ m ∈ some most, capped least ≤ capped m
    simp

/-- What is read as a quantifier, the grammar derives. -/
theorem quantifies_of_quantifier? {input after : Input} {q : Quantifier}
    (h : quantifier? input = .ok (some (q, after))) : Quantifies input.rest after.rest := by
  rw [quantifier?] at h
  rcases hr : repetition? input with _ | ⟨min, max, after'⟩ <;> rw [hr] at h
  · cases h
  · obtain ⟨least, most?, repeats, rfl, rfl⟩ := repeats_of_repetition? hr
    obtain ⟨rest, offset⟩ := after'
    simp only at h
    split at h
    · cases h
    · next order =>
      rw [Bool.not_eq_true, any_lt_capped] at order
      cases h
      split
      · exact .lazily repeats order
      · exact .greedy repeats order

/-- Where nothing is read as bounds, none begin. -/
theorem quantifier?_eq_ok_none {input : Input} :
    quantifier? input = .ok none ↔ ¬BeginsRepetition input.rest := by
  rw [← repetition?_eq_none, quantifier?]
  rcases repetition? input with _ | ⟨min, max, after⟩
  · simp
  · simp only
    split <;> simp [Input.fail]

/-- Bounds in order are read as a quantifier, together with a `?` behind them. -/
theorem Grammar.Repeats.exists_quantifier? {input : Input} {least : Nat} {most? : Option Nat}
    {rest : List Char} (h : Repeats input.rest least most? rest) (order : InOrder least most?) :
    ∃ q after, quantifier? input = .ok (some (q, after)) ∧
      (rest = '?' :: after.rest ∨ rest.head? ≠ some '?' ∧ after.rest = rest) := by
  obtain ⟨offset, read⟩ := h.exists_repetition?
  rw [quantifier?, read]
  simp only [any_lt_capped.mpr order, Bool.false_eq_true, if_false]
  split
  · exact ⟨_, _, rfl, .inl rfl⟩
  · next unmarked =>
    refine ⟨_, _, rfl, .inr ⟨fun h => ?_, rfl⟩⟩
    obtain ⟨rest', rfl⟩ := List.head?_eq_some_iff.mp h
    exact unmarked rest' rfl

/-- Where the grammar derives a quantifier, one is read; it may take one `?` more. -/
theorem Grammar.Quantifies.exists_quantifier? {input : Input} {rest : List Char}
    (h : Quantifies input.rest rest) :
    ∃ q after, quantifier? input = .ok (some (q, after)) ∧
      (after.rest = rest ∨ rest = '?' :: after.rest) := by
  cases h with
  | greedy repeats order =>
    obtain ⟨q, after, read, rfl | ⟨-, rfl⟩⟩ := repeats.exists_quantifier? order
    · exact ⟨q, after, read, .inr rfl⟩
    · exact ⟨q, after, read, .inl rfl⟩
  | lazily repeats order =>
    obtain ⟨q, after, read, same | ⟨unmarked, -⟩⟩ := repeats.exists_quantifier? order
    · exact ⟨q, after, read, .inl (List.tail_eq_of_cons_eq same).symm⟩
    · exact absurd rfl unmarked

/-- A quantifier begins with its bounds. -/
theorem Grammar.Quantifies.beginsRepetition {input rest : List Char} (h : Quantifies input rest) :
    BeginsRepetition input := by
  cases h with
  | greedy repeats _ | lazily repeats _ => exact ⟨_, _, _, repeats⟩

/-- A quantifier takes at least one character. -/
theorem Grammar.Quantifies.length_lt {input rest : List Char} (h : Quantifies input rest) :
    rest.length < input.length := by
  have of_repeats {least most? rest} (h : Repeats input least most? rest) :
      rest.length < input.length := by
    cases h <;> simp only [List.length_cons, List.length_append] <;> omega
  cases h with
  | greedy repeats _ => exact of_repeats repeats
  | lazily repeats _ => exact Nat.lt_of_succ_lt (of_repeats repeats)

end BacktrackRegex
