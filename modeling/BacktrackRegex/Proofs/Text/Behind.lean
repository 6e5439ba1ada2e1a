import BacktrackRegex.Proofs.StartPredicate
import BacktrackRegex.Search.Test

/-!
# Reading behind a front

What is read behind the first characters of a text does not depend on them: with the text cut in
`front ++ rest`, reading at `front.utf8ByteSize + pos` is reading `rest` at `pos`, and comes as much
further. So it is for characters, slices and literals.

Only a look back can tell what the front is, and only at its end. There it sees one character, the
last one of the front (`charBefore?_push_append`). So what a test of a position asks for
(`Test.exists_after?_push_append`) and where a match may begin
(`StartPredicate.exists_next?_push_append`) does not depend on the characters before that one.
-/

namespace BacktrackRegex

/-- The span so many bytes further. -/
def Span.shift (offset : Nat) (span : Span) : Span :=
  ⟨offset + span.start, offset + span.stop⟩

namespace Text

variable (front rest : String) (pos : Nat)

/-! ## Characters -/

theorem charAt?_append :
    charAt? (front ++ rest) (front.utf8ByteSize + pos) = charAt? rest pos := by
  ext c
  rw [charAt?_eq_some_iff, charAt?_eq_some_iff, String.toList_append, ← width_toList]
  constructor
  · rintro ⟨before, after, cut, there⟩
    obtain ⟨between, rfl, same⟩ := exists_between cut (there ▸ Nat.le_add_right ..)
    rw [width_append] at there
    exact ⟨between, after, same, Nat.add_left_cancel there⟩
  · rintro ⟨before, after, cut, rfl⟩
    exact ⟨front.toList ++ before, after, by rw [cut, List.append_assoc], (width_append ..).symm⟩

theorem afterChar?_append (passes : Char → Bool) :
    afterChar? (front ++ rest) passes (front.utf8ByteSize + pos) =
      (afterChar? rest passes pos).map (front.utf8ByteSize + ·) := by
  simp only [afterChar?, charAt?_append]
  rcases charAt? rest pos with _ | c
  · rfl
  · dsimp only
    split
    · rw [Option.map_some, Nat.add_assoc]
    · rfl

theorem after?_append :
    after? (front ++ rest) (front.utf8ByteSize + pos) =
      (after? rest pos).map (front.utf8ByteSize + ·) :=
  afterChar?_append front rest pos _

/-- The end of a front is between two characters. -/
theorem roundUp?_append (front rest : String) :
    roundUp? (front ++ rest) front.utf8ByteSize = some front.utf8ByteSize := by
  refine roundUp?_of_isBoundary (isBoundary_iff.mpr ⟨front.toList, rest.toList, ?_, ?_⟩)
  · exact String.toList_append
  · exact (width_toList front).symm

/-! ## Slices -/

theorem go₁_append {cs ds : List Char} {i b : Nat} (h : i + width cs ≤ b) (e : String.Pos.Raw) :
    String.Pos.Raw.extract.go₁ (cs ++ ds) ⟨i⟩ ⟨b⟩ e =
      String.Pos.Raw.extract.go₁ ds ⟨i + width cs⟩ ⟨b⟩ e := by
  induction cs generalizing i with
  | nil => rfl
  | cons c cs ih =>
    have := c.utf8Size_pos
    rw [width_cons] at h
    have before : (⟨i⟩ : String.Pos.Raw) ≠ ⟨b⟩ := by
      simp only [ne_eq, String.Pos.Raw.mk.injEq]
      omega
    rw [List.cons_append, String.Pos.Raw.extract.go₁, if_neg before, width_cons, ← Nat.add_assoc]
    exact ih (i := i + c.utf8Size) (by omega)

theorem slice_append (span : Span) :
    slice (front ++ rest) (span.shift front.utf8ByteSize) = slice rest span := by
  simp only [slice, Span.shift, String.Pos.Raw.extract, ge_iff_le, Nat.add_le_add_iff_left]
  split
  · rfl
  · rw [String.toList_append]
    have skipped : 0 + width front.toList ≤ front.utf8ByteSize + span.start := by simp
    refine congrArg String.ofList ((go₁_append skipped _).trans ?_)
    rw [width_toList, Nat.add_comm _ span.start, Nat.add_comm _ span.stop]
    exact String.Pos.Raw.extract.go₁_add_right_cancel ..

/-! ## Literals -/

variable (literal : String)

theorem standsAt_front_append :
    standsAt (front ++ rest) literal (front.utf8ByteSize + pos) = standsAt rest literal pos := by
  rw [Bool.eq_iff_iff, standsAt_iff, standsAt_iff]
  simp only [Nat.add_assoc, byteAt?_append_right]

theorem afterFolded?_append (cs : List Char) :
    afterFolded? (front ++ rest) cs (front.utf8ByteSize + pos) =
      (afterFolded? rest cs pos).map (front.utf8ByteSize + ·) := by
  induction cs generalizing pos with
  | nil => rfl
  | cons c cs ih =>
    simp only [afterFolded?, charAt?_append]
    rcases charAt? rest pos with _ | d
    · rfl
    · dsimp only
      split
      · rw [Nat.add_assoc, ih]
      · rfl

theorem afterLiteral?_append (fold : Bool) :
    afterLiteral? fold (front ++ rest) literal (front.utf8ByteSize + pos) =
      (afterLiteral? fold rest literal pos).map (front.utf8ByteSize + ·) := by
  cases fold with
  | true => exact afterFolded?_append ..
  | false =>
    simp only [afterLiteral?, Bool.false_eq_true, if_false, afterExact?, standsAt_front_append]
    split
    · rw [Option.map_some, Nat.add_assoc]
    · rfl

theorem findWithin?_append (n : Nat) :
    findWithin? (front ++ rest) literal n (front.utf8ByteSize + pos) =
      (findWithin? rest literal n pos).map (front.utf8ByteSize + ·) := by
  induction n generalizing pos with
  | zero => rfl
  | succ n ih =>
    simp only [findWithin?, standsAt_front_append]
    split
    · rfl
    · exact ih (pos + 1)

theorem find?_append :
    find? (front ++ rest) literal (front.utf8ByteSize + pos) =
      (find? rest literal pos).map (front.utf8ByteSize + ·) := by
  have room : (front ++ rest).utf8ByteSize + 1 - (front.utf8ByteSize + pos) =
      rest.utf8ByteSize + 1 - pos := by
    rw [String.utf8ByteSize_append]
    omega
  rw [find?, find?, room, findWithin?_append]

/-! ## Looking back -/

theorem utf8PrevAux_append {cs ds : List Char} {i p : Nat} (h : i + width cs < p) :
    String.Pos.Raw.utf8PrevAux (cs ++ ds) ⟨i⟩ ⟨p⟩ =
      String.Pos.Raw.utf8PrevAux ds ⟨i + width cs⟩ ⟨p⟩ := by
  induction cs generalizing i with
  | nil => rfl
  | cons c cs ih =>
    rw [width_cons] at h
    have ahead : ¬(⟨p⟩ : String.Pos.Raw) ≤ (⟨i⟩ : String.Pos.Raw) + c := by
      simp only [String.Pos.Raw.le_iff, String.Pos.Raw.byteIdx_add_char]
      omega
    rw [List.cons_append, String.Pos.Raw.utf8PrevAux, if_neg ahead, width_cons, ← Nat.add_assoc]
    exact ih (i := i + c.utf8Size) (by omega)

theorem utf8PrevAux_add (cs : List Char) (n i : Nat) {p : Nat} (h : 0 < p) :
    (String.Pos.Raw.utf8PrevAux cs ⟨n + i⟩ ⟨n + p⟩).byteIdx =
      n + (String.Pos.Raw.utf8PrevAux cs ⟨i⟩ ⟨p⟩).byteIdx := by
  induction cs generalizing i with
  | nil =>
    simp only [String.Pos.Raw.utf8PrevAux]
    omega
  | cons c cs ih =>
    have same : (⟨n + p⟩ : String.Pos.Raw) ≤ (⟨n + i⟩ : String.Pos.Raw) + c ↔
        (⟨p⟩ : String.Pos.Raw) ≤ (⟨i⟩ : String.Pos.Raw) + c := by
      simp only [String.Pos.Raw.le_iff, String.Pos.Raw.byteIdx_add_char]
      omega
    simp only [String.Pos.Raw.utf8PrevAux, same]
    split
    · rfl
    · have moved := ih (i + c.utf8Size)
      rwa [← Nat.add_assoc] at moved

/-- Behind a front, a look back sees what it sees without the front; at its end, the last character
of the front. -/
theorem charBefore?_push_append (c : Char) :
    charBefore? (front.push c ++ rest) ((front.push c).utf8ByteSize + pos) =
      if pos = 0 then some c else charBefore? rest pos := by
  have size : (front.push c).utf8ByteSize = width front.toList + c.utf8Size := by
    rw [String.utf8ByteSize_push, width_toList]
  have := c.utf8Size_pos
  rw [charBefore?, if_neg (by omega), String.Pos.Raw.prev]
  by_cases atEnd : pos = 0
  · subst atEnd
    have cut : (front.push c ++ rest).toList = front.toList ++ c :: rest.toList := by
      simp
    have here : (⟨width front.toList + c.utf8Size⟩ : String.Pos.Raw) ≤
        (⟨0 + width front.toList⟩ : String.Pos.Raw) + c := by
      simp [String.Pos.Raw.le_iff]
    have back : String.Pos.Raw.utf8PrevAux (front.toList ++ c :: rest.toList) 0
        ⟨width front.toList + c.utf8Size⟩ = ⟨0 + width front.toList⟩ := by
      refine (utf8PrevAux_append (i := 0) (by omega)).trans ?_
      rw [String.Pos.Raw.utf8PrevAux, if_pos here]
    rw [if_pos rfl, Nat.add_zero, size, cut, back, Nat.zero_add]
    exact charAt?_eq_some_iff.mpr ⟨_, _, cut, rfl⟩
  · rw [if_neg atEnd, charBefore?, if_neg atEnd, String.Pos.Raw.prev, String.toList_append]
    have back : String.Pos.Raw.utf8PrevAux ((front.push c).toList ++ rest.toList) 0
        ⟨(front.push c).utf8ByteSize + pos⟩ = String.Pos.Raw.utf8PrevAux rest.toList
          ⟨(front.push c).utf8ByteSize + 0⟩ ⟨(front.push c).utf8ByteSize + pos⟩ := by
      refine (utf8PrevAux_append (i := 0) (by rw [width_toList]; omega)).trans ?_
      rw [Nat.zero_add, width_toList, Nat.add_zero]
    rw [back, utf8PrevAux_add _ _ _ (Nat.pos_of_ne_zero atEnd), charAt?_append]
    rfl

/-! ## Positions

What `^`, `$` and `\b` ask of a position. Of the front they need to know its last character only. -/

theorem startsLine_push_append (c : Char) (multiline : Bool) :
    startsLine (front.push c ++ rest) multiline ((front.push c).utf8ByteSize + pos) =
      (multiline && (if pos = 0 then some c else charBefore? rest pos).any isLineTerminator) := by
  have := c.utf8Size_pos
  have inside : (front.push c).utf8ByteSize + pos ≠ 0 := by
    rw [String.utf8ByteSize_push]
    omega
  rw [startsLine, charBefore?_push_append, beq_false_of_ne inside, Bool.false_or]

theorem endsLine_append (multiline : Bool) :
    endsLine (front ++ rest) multiline (front.utf8ByteSize + pos) =
      endsLine rest multiline pos := by
  have atEnd : (front.utf8ByteSize + pos == (front ++ rest).utf8ByteSize) =
      (pos == rest.utf8ByteSize) := by
    rw [Bool.eq_iff_iff, beq_iff_eq, beq_iff_eq, String.utf8ByteSize_append]
    omega
  rw [endsLine, endsLine, charAt?_append, atEnd]

theorem isWordBoundary_push_append (c : Char) :
    isWordBoundary (front.push c ++ rest) ((front.push c).utf8ByteSize + pos) =
      ((if pos = 0 then some c else charBefore? rest pos).any isWordChar !=
        (charAt? rest pos).any isWordChar) := by
  rw [isWordBoundary, charBefore?_push_append, charAt?_append]

end Text

/-! ## Tests and start predicates -/

variable (rest : String) (c : Char) (mode : Mode) (pos : Nat)

/-- What a test asks of a position behind `c` does not depend on the characters before `c`. -/
theorem Test.exists_after?_push_append (condition : Test) (captures : Array (Option Span)) :
    ∃ next? : Option Nat, ∀ front : String,
      condition.after? (front.push c ++ rest) mode
          (captures.map (·.map (Span.shift (front.push c).utf8ByteSize)))
          ((front.push c).utf8ByteSize + pos) =
        next?.map ((front.push c).utf8ByteSize + ·) := by
  have stay (passes : Bool) : ∃ next? : Option Nat, ∀ front : String,
      (if passes then some ((front.push c).utf8ByteSize + pos) else none) =
        next?.map ((front.push c).utf8ByteSize + ·) := by
    refine ⟨if passes then some pos else none, fun front => ?_⟩
    cases passes <;> rfl
  cases condition with
  | lineStart =>
    simp only [after?, Text.startsLine_push_append]
    exact stay _
  | lineEnd =>
    simp only [after?, Text.endsLine_append]
    exact stay _
  | wordBoundary inverted =>
    simp only [after?, Text.isWordBoundary_push_append]
    exact stay _
  | backreference g =>
    rcases held : captures[g]?.join with _ | span
    · refine ⟨some pos, fun front => ?_⟩
      simp only [after?, Array.getElem?_map, Option.join_map_eq_map_join, held]
      rfl
    · refine ⟨Text.afterLiteral? mode.fold rest (Text.slice rest span) pos, fun front => ?_⟩
      simp only [after?, Array.getElem?_map, Option.join_map_eq_map_join, held, Option.map_some,
        Text.slice_append, Text.afterLiteral?_append]

/-- Nor does it matter for where a match may begin. -/
theorem StartPredicate.exists_next?_push_append (start : StartPredicate) :
    ∃ next? : Option Nat, ∀ front : String,
      start.next? (front.push c ++ rest) mode.fold mode.multiline
          ((front.push c).utf8ByteSize + pos) =
        next?.map ((front.push c).utf8ByteSize + ·) := by
  cases start with
  | anywhere => exact ⟨some pos, fun front => rfl⟩
  | literal lead =>
    refine ⟨if mode.fold then some pos else Text.find? rest lead pos, fun front => ?_⟩
    simp only [next?, Text.find?_append]
    split <;> rfl
  | textStart =>
    refine ⟨if mode.multiline then some pos else none, fun front => ?_⟩
    have := c.utf8Size_pos
    have inside : (front.push c).utf8ByteSize + pos ≠ 0 := by
      rw [String.utf8ByteSize_push]
      omega
    simp only [next?, beq_false_of_ne inside, Bool.or_false]
    split <;> rfl

end BacktrackRegex
