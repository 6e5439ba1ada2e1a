import BacktrackRegex.Proofs.Text.Behind

/-!
# Two ways to compare a literal with a text

A literal is compared in bytes (`afterExact?`) or, up to case, in characters (`afterFolded?`). Both
are the same comparison of characters one by one (`stepEach`), with another idea of when two of them
agree: it passes just when the characters ahead agree with those of the literal
(`stepEach_eq_true_iff`), and the bytes of a literal agree just when its characters are the ones
ahead (`agrees_beq_iff`, `standsAt_iff_isPrefix`).

`passLiteral` is the comparison as an operation on a position that is kept, which is moved over the
literal or left where it is.

All of this is put together in `ReadsByCharacter`, which holds between any two characters of any
text (**`readsByCharacter_of_isBoundary`**). So a backreference that passes also passes without
regard to case (`Test.after?_backreference_fold`).
-/

namespace BacktrackRegex

namespace Text

variable {text literal : String} {pos next : Nat} {agree : Char → Char → Bool}

/-! ## The characters ahead -/

/-- The characters from a position on. -/
def charsFrom (text : String) (pos : Nat) : List Char :=
  (slice text ⟨pos, text.utf8ByteSize⟩).toList

theorem slice_all (text : String) : slice text ⟨0, text.utf8ByteSize⟩ = text :=
  String.extract_zero_rawEndPos text

theorem charsFrom_width {before ahead : List Char} (cut : text.toList = before ++ ahead) :
    charsFrom text (width before) = ahead := by
  have joined := eq_append_of_cut cut
  have all : (⟨width before, text.utf8ByteSize⟩ : Span) =
      Span.shift (String.ofList before).utf8ByteSize ⟨0, (String.ofList ahead).utf8ByteSize⟩ := by
    rw [joined, String.utf8ByteSize_append]
    rfl
  rw [charsFrom, all, joined, slice_append, slice_all, String.toList_ofList]

theorem charAt?_width {before ahead : List Char} (cut : text.toList = before ++ ahead) :
    charAt? text (width before) = ahead.head? := by
  ext c
  rw [charAt?_eq_some_iff, List.head?_eq_some_iff]
  constructor
  · rintro ⟨before', after, cut', same⟩
    obtain rfl : ahead = c :: after := by
      rw [← charsFrom_width cut, same, charsFrom_width cut']
    exact ⟨after, rfl⟩
  · rintro ⟨after, rfl⟩
    exact ⟨before, after, cut, rfl⟩

/-! ## Agreement -/

/-- There are as many characters ahead as in `cs`, and each of them agrees with its counterpart. -/
def Agrees (agree : Char → Char → Bool) (ahead cs : List Char) : Prop :=
  cs.length ≤ ahead.length ∧ ∀ pair ∈ ahead.zip cs, agree pair.1 pair.2 = true

theorem agrees_nil (ahead : List Char) : Agrees agree ahead [] :=
  ⟨Nat.zero_le _, by simp⟩

theorem not_agrees_nil_cons (c : Char) (cs : List Char) : ¬Agrees agree [] (c :: cs) :=
  fun h => absurd h.1 (Nat.not_succ_le_zero _)

theorem agrees_cons_cons {d c : Char} {ahead cs : List Char} :
    Agrees agree (d :: ahead) (c :: cs) ↔ agree d c = true ∧ Agrees agree ahead cs := by
  simp only [Agrees, List.length_cons, Nat.add_le_add_iff_right, List.zip_cons_cons,
    List.forall_mem_cons]
  exact and_left_comm

theorem Agrees.mono {agree' : Char → Char → Bool}
    (implies : ∀ d c, agree d c = true → agree' d c = true) {ahead cs : List Char}
    (h : Agrees agree ahead cs) : Agrees agree' ahead cs :=
  ⟨h.1, fun pair mem => implies _ _ (h.2 pair mem)⟩

/-- Characters that are equal one by one are a beginning. -/
theorem agrees_beq_iff {ahead cs : List Char} : Agrees (· == ·) ahead cs ↔ cs <+: ahead := by
  induction cs generalizing ahead with
  | nil => exact iff_of_true (agrees_nil ahead) List.nil_prefix
  | cons c cs ih =>
    cases ahead with
    | nil => exact iff_of_false (not_agrees_nil_cons c cs) (by simp)
    | cons d ahead => rw [agrees_cons_cons, ih, List.cons_prefix_cons, beq_iff_eq, eq_comm]

/-! ## One by one -/

/-- Step over the characters at a position as long as they agree, one by one, with those of `cs`.
Answers whether all of them did, and where the steps ended. -/
def stepEach (agree : Char → Char → Bool) (text : String) : List Char → Nat → Bool × Nat
  | [], pos => (true, pos)
  | c :: cs, pos =>
    match charAt? text pos with
    | some d =>
      if agree d c then stepEach agree text cs (pos + d.utf8Size) else (false, pos + d.utf8Size)
    | none => (false, pos)

/-- The steps pass just when the characters ahead agree, and then end behind as many of them. -/
theorem stepEach_eq_true_iff {before ahead cs : List Char} (cut : text.toList = before ++ ahead) :
    stepEach agree text cs (width before) = (true, next) ↔
      Agrees agree ahead cs ∧ next = width (before ++ ahead.take cs.length) := by
  induction cs generalizing before ahead with
  | nil =>
    rw [stepEach, List.length_nil, List.take_zero, List.append_nil]
    simp only [Prod.mk.injEq, true_and, agrees_nil, eq_comm]
  | cons c cs ih =>
    rw [stepEach, charAt?_width cut]
    cases ahead with
    | nil => exact iff_of_false (by simp) fun h => not_agrees_nil_cons c cs h.1
    | cons d ahead =>
      have further : width before + d.utf8Size = width (before ++ [d]) := by simp
      simp only [List.head?_cons, agrees_cons_cons, further]
      split
      · next same =>
        rw [ih (by rw [cut, List.append_assoc, List.singleton_append])]
        simp [same]
      · next other => simp [other]

theorem afterFolded?_eq_some_iff {cs : List Char} :
    afterFolded? text cs pos = some next ↔
      stepEach (sameLetter true) text cs pos = (true, next) := by
  induction cs generalizing pos with
  | nil => simp [afterFolded?, stepEach]
  | cons c cs ih =>
    rw [afterFolded?, stepEach]
    rcases charAt? text pos with _ | d
    · simp
    · dsimp only
      split
      · exact ih
      · simp

theorem sameLetter_false_eq : sameLetter false = (· == ·) :=
  funext fun d => funext (sameLetter_false d)

/-- Both ways of reading a literal compare characters one by one. -/
theorem afterLiteral?_eq_some_iff {before ahead : List Char} (cut : text.toList = before ++ ahead)
    (fold : Bool) :
    afterLiteral? fold text literal (width before) = some next ↔
      Agrees (sameLetter fold) ahead literal.toList ∧
        next = width (before ++ ahead.take literal.toList.length) := by
  cases fold with
  | true => exact afterFolded?_eq_some_iff.trans (stepEach_eq_true_iff cut)
  | false =>
    rw [sameLetter_false_eq, agrees_beq_iff, ← standsAt_iff_isPrefix cut, afterLiteral?,
      if_neg Bool.false_ne_true, afterExact?]
    split
    · next stands =>
      have taken := List.prefix_iff_eq_take.mp ((standsAt_iff_isPrefix cut).mp stands)
      rw [← taken, width_append, width_toList, Option.some_inj, and_iff_right stands, eq_comm]
    · next not => exact iff_of_false (by simp) fun h => not h.1

/-- What stands between two characters exactly stands there up to case. -/
theorem afterLiteral?_fold (boundary : isBoundary text pos = true)
    (h : afterLiteral? false text literal pos = some next) :
    afterLiteral? true text literal pos = some next := by
  obtain ⟨before, ahead, cut, rfl⟩ := isBoundary_iff.mp boundary
  obtain ⟨agrees, there⟩ := (afterLiteral?_eq_some_iff cut false).mp h
  refine (afterLiteral?_eq_some_iff cut true).mpr ⟨agrees.mono fun d c same => ?_, there⟩
  rw [sameLetter_false, beq_iff_eq] at same
  rw [same, sameLetter_refl]

/-! ## In place -/

/-- Step over the characters of a literal on a copy of a position. The copy takes the place of the
position only if all of them agreed. -/
def passEach (agree : Char → Char → Bool) (text literal : String) (pos : Nat) : Bool × Nat :=
  match stepEach agree text literal.toList pos with
  | (true, next) => (true, next)
  | (false, _) => (false, pos)

/-- Move a position over a literal, exactly or (if `fold`) up to case. Answers whether the literal
stood there, and the position from which to read on. -/
def passLiteral (fold : Bool) (text literal : String) (pos : Nat) : Bool × Nat :=
  if fold then
    passEach (sameLetter true) text literal pos
  else if standsAt text literal pos then
    (true, pos + literal.utf8ByteSize)
  else
    (false, pos)

theorem passEach_eq_true_iff :
    passEach agree text literal pos = (true, next) ↔
      stepEach agree text literal.toList pos = (true, next) := by
  rw [passEach]
  rcases stepEach agree text literal.toList pos with ⟨_ | _, stop⟩ <;> simp

/-- A comparison that fails leaves the position where it was. -/
theorem snd_passEach (h : (passEach agree text literal pos).1 = false) :
    (passEach agree text literal pos).2 = pos := by
  rcases steps : stepEach agree text literal.toList pos with ⟨_ | _, stop⟩ <;>
    rw [passEach, steps] at h ⊢
  cases h

theorem snd_passLiteral {fold : Bool} (h : (passLiteral fold text literal pos).1 = false) :
    (passLiteral fold text literal pos).2 = pos := by
  cases fold with
  | true => exact snd_passEach h
  | false =>
    rw [passLiteral, if_neg Bool.false_ne_true] at h ⊢
    split at h
    · cases h
    · next not => rw [if_neg not]

theorem passLiteral_eq_true_iff {fold : Bool} :
    passLiteral fold text literal pos = (true, next) ↔
      afterLiteral? fold text literal pos = some next := by
  cases fold with
  | true => exact passEach_eq_true_iff.trans afterFolded?_eq_some_iff.symm
  | false =>
    rw [passLiteral, afterLiteral?, if_neg Bool.false_ne_true, if_neg Bool.false_ne_true,
      afterExact?]
    split <;> simp

/-! ## Both ways together -/

/-- How a literal is read at a position. -/
structure ReadsByCharacter (text literal : String) (pos : Nat) : Prop where
  /-- bytes tell the same as characters compared one by one, and lead to the same position -/
  exact (next : Nat) : afterLiteral? false text literal pos = some next ↔
    passEach (· == ·) text literal pos = (true, next)
  /-- up to case, all characters of the literal need counterparts ahead that are the same letters,
  and it is these that are passed, however many bytes they take -/
  folded (next : Nat) : afterLiteral? true text literal pos = some next ↔
    Agrees (sameLetter true) (charsFrom text pos) literal.toList ∧
      next = pos + width ((charsFrom text pos).take literal.length)
  /-- either way, so many characters are passed as the literal has -/
  passed (fold : Bool) (next : Nat) (h : afterLiteral? fold text literal pos = some next) :
    isBoundary text next = true ∧
      charsFrom text next = (charsFrom text pos).drop literal.length
  /-- in place, the position is moved over a literal that stands there -/
  moves (fold : Bool) (next : Nat) : passLiteral fold text literal pos = (true, next) ↔
    afterLiteral? fold text literal pos = some next
  /-- and left where it is before one that does not -/
  stays (fold : Bool) (h : (passLiteral fold text literal pos).1 = false) :
    (passLiteral fold text literal pos).2 = pos
  /-- a literal that stands there exactly stands there up to case, and ends at the same position -/
  fold_of_exact (next : Nat) (h : afterLiteral? false text literal pos = some next) :
    afterLiteral? true text literal pos = some next

/-- **Bytes and characters compare alike** between any two characters of a text. -/
theorem readsByCharacter_of_isBoundary (literal : String) (boundary : isBoundary text pos = true) :
    ReadsByCharacter text literal pos := by
  obtain ⟨before, ahead, cut, rfl⟩ := isBoundary_iff.mp boundary
  constructor
  case exact =>
    intro next
    rw [afterLiteral?_eq_some_iff cut, passEach_eq_true_iff, stepEach_eq_true_iff cut,
      sameLetter_false_eq]
  case folded =>
    intro next
    rw [afterLiteral?_eq_some_iff cut, charsFrom_width cut, width_append, String.length_toList]
  case passed =>
    intro fold next h
    obtain ⟨-, rfl⟩ := (afterLiteral?_eq_some_iff cut fold).mp h
    have cut' : text.toList = before ++ ahead.take literal.length ++ ahead.drop literal.length := by
      rw [List.append_assoc, List.take_append_drop, cut]
    rw [String.length_toList, charsFrom_width cut', charsFrom_width cut]
    exact ⟨isBoundary_iff.mpr ⟨_, _, cut', rfl⟩, rfl⟩
  case moves => exact fun fold next => passLiteral_eq_true_iff
  case stays => exact fun fold => snd_passLiteral
  case fold_of_exact => exact fun next => afterLiteral?_fold boundary

/-- Three bytes of the text agree with two of the literal. -/
theorem readsByCharacter_of_isBoundary_longer :
    isBoundary "xⱥb" 1 = true ∧ ReadsByCharacter "xⱥb" "ȺB" 1 ∧
      passLiteral true "xⱥb" "ȺB" 1 = (true, 5) ∧ passLiteral false "xⱥb" "ȺB" 1 = (false, 1) := by
  have boundary : isBoundary "xⱥb" 1 = true := by cbv
  have reads := readsByCharacter_of_isBoundary "ȺB" boundary
  have folded : afterLiteral? true "xⱥb" "ȺB" 1 = some 5 := by decide +kernel
  have failed : (passLiteral false "xⱥb" "ȺB" 1).1 = false := by decide +kernel
  refine ⟨boundary, reads, (reads.moves true 5).mpr folded, ?_⟩
  exact Prod.ext failed (reads.stays false failed)

end Text

/-- A backreference that passes also passes without regard to case, and leads as far. -/
theorem Test.after?_backreference_fold {text : String} {captures : Array (Option Span)}
    {g pos next : Nat} {multiline : Bool} (boundary : Text.isBoundary text pos = true)
    (h : (Test.backreference g).after? text ⟨false, multiline⟩ captures pos = some next) :
    (Test.backreference g).after? text ⟨true, multiline⟩ captures pos = some next := by
  simp only [after?] at h ⊢
  split at h
  · exact h
  · exact Text.afterLiteral?_fold boundary h

end BacktrackRegex
