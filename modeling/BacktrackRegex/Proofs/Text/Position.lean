import Mathlib
import BacktrackRegex.Text.Literal

/-!
# Positions between the characters of a text

A boundary is the width in bytes of the characters before it, so a text is cut in two there
(`isBoundary_iff`), and what is read at a boundary is the first character behind the cut
(`charAt?_eq_some_iff`). From this follows what the rest of the library uses:

* `le_size_of_afterChar?`, `le_of_afterLiteral?`: reading never runs over the end of the text;
* `exists_after?`: the character behind a boundary leads to the next one, and skips none;
* `isBoundary_of_roundUp?`, `le_of_isBoundary_of_boundaryFrom`: rounding up ends at a boundary and
  passes over none.
-/

namespace BacktrackRegex

namespace Text

/-! ## Widths -/

/-- The number of bytes that some characters take. -/
def width (cs : List Char) : Nat :=
  (String.ofList cs).utf8ByteSize

@[simp] theorem width_nil : width [] = 0 := rfl

@[simp] theorem width_append (cs ds : List Char) : width (cs ++ ds) = width cs + width ds := by
  simp [width, String.ofList_append]

@[simp] theorem width_cons (c : Char) (cs : List Char) :
    width (c :: cs) = c.utf8Size + width cs := by
  rw [← List.singleton_append, width_append, width, ← String.singleton_eq_ofList,
    String.utf8ByteSize_singleton]

@[simp] theorem width_toList (text : String) : width text.toList = text.utf8ByteSize := by
  rw [width, String.ofList_toList]

/-! ## Cuts -/

/-- A text whose characters are cut in two is two texts. -/
theorem eq_append_of_cut {text : String} {before after : List Char}
    (cut : text.toList = before ++ after) :
    text = String.ofList before ++ String.ofList after := by
  rw [← String.ofList_append, ← cut, String.ofList_toList]

/-- A boundary cuts the text in two. -/
theorem isBoundary_iff {text : String} {pos : Nat} :
    isBoundary text pos = true ↔
      ∃ before after, text.toList = before ++ after ∧ pos = width before := by
  rw [isBoundary, String.Pos.Raw.isValid_eq_true_iff, String.Pos.Raw.isValid_iff_exists_append]
  constructor
  · rintro ⟨s, t, rfl, h⟩
    exact ⟨s.toList, t.toList, String.toList_append, by simpa [String.Pos.Raw.ext_iff] using h⟩
  · rintro ⟨before, after, h, rfl⟩
    exact ⟨String.ofList before, String.ofList after, eq_append_of_cut h, rfl⟩

theorem le_size_of_isBoundary {text : String} {pos : Nat} (h : isBoundary text pos = true) :
    pos ≤ text.utf8ByteSize := by
  obtain ⟨before, after, cut, rfl⟩ := isBoundary_iff.mp h
  rw [← width_toList, cut, width_append]
  exact Nat.le_add_right ..

theorem isBoundary_size (text : String) : isBoundary text text.utf8ByteSize = true :=
  isBoundary_iff.mpr ⟨text.toList, [], (List.append_nil _).symm, (width_toList text).symm⟩

theorem utf8GetAux?_eq_some_iff {cs : List Char} {i pos : Nat} {c : Char} :
    String.Pos.Raw.utf8GetAux? cs ⟨i⟩ ⟨pos⟩ = some c ↔
      ∃ before after, cs = before ++ c :: after ∧ pos = i + width before := by
  induction cs generalizing i with
  | nil => simp [String.Pos.Raw.utf8GetAux?]
  | cons d cs ih =>
    rw [String.Pos.Raw.utf8GetAux?]
    by_cases here : i = pos
    · subst here
      rw [if_pos rfl]
      constructor
      · rintro h
        cases h
        exact ⟨[], cs, rfl, rfl⟩
      · rintro ⟨before, after, h, hw⟩
        cases before with
        | nil => cases h; rfl
        | cons e before =>
          have := e.utf8Size_pos
          rw [width_cons] at hw
          omega
    · rw [if_neg (by simpa using here)]
      change String.Pos.Raw.utf8GetAux? cs ⟨i + d.utf8Size⟩ ⟨pos⟩ = some c ↔ _
      rw [ih]
      constructor
      · rintro ⟨before, after, rfl, rfl⟩
        exact ⟨d :: before, after, rfl, by rw [width_cons, Nat.add_assoc]⟩
      · rintro ⟨before, after, h, rfl⟩
        cases before with
        | nil => exact absurd rfl here
        | cons e before =>
          cases h
          exact ⟨before, after, rfl, by rw [width_cons, Nat.add_assoc]⟩

/-- The character at a position begins what is behind the cut. -/
theorem charAt?_eq_some_iff {text : String} {pos : Nat} {c : Char} :
    charAt? text pos = some c ↔
      ∃ before after, text.toList = before ++ c :: after ∧ pos = width before := by
  refine (utf8GetAux?_eq_some_iff (i := 0)).trans ?_
  simp only [Nat.zero_add]

theorem isBoundary_add_of_charAt? {text : String} {pos : Nat} {c : Char}
    (h : charAt? text pos = some c) : isBoundary text (pos + c.utf8Size) = true := by
  obtain ⟨before, after, cut, rfl⟩ := charAt?_eq_some_iff.mp h
  exact isBoundary_iff.mpr ⟨before ++ [c], after, by simp [cut], by simp⟩

/-! ## Reading on -/

theorem afterChar?_eq_some_iff {text : String} {passes : Char → Bool} {pos next : Nat} :
    afterChar? text passes pos = some next ↔
      ∃ c, charAt? text pos = some c ∧ passes c = true ∧ next = pos + c.utf8Size := by
  rw [afterChar?]
  rcases charAt? text pos with _ | d
  · simp
  · dsimp only
    split
    · next passed =>
      constructor
      · intro h
        cases h
        exact ⟨d, rfl, passed, rfl⟩
      · rintro ⟨c, hc, -, rfl⟩
        cases hc
        rfl
    · next failed =>
      refine ⟨nofun, ?_⟩
      rintro ⟨c, hc, passed, -⟩
      cases hc
      exact absurd passed failed

/-- A character that is read lies before the end. -/
theorem le_size_of_afterChar? {text : String} {passes : Char → Bool} {pos next : Nat}
    (h : afterChar? text passes pos = some next) : next ≤ text.utf8ByteSize := by
  obtain ⟨c, hc, -, rfl⟩ := afterChar?_eq_some_iff.mp h
  exact le_size_of_isBoundary (isBoundary_add_of_charAt? hc)

theorem le_of_afterFolded? {text : String} {cs : List Char} {pos next : Nat}
    (h : afterFolded? text cs pos = some next) :
    pos ≤ next ∧ next ≤ max text.utf8ByteSize pos := by
  induction cs generalizing pos with
  | nil =>
    cases h
    exact ⟨Nat.le_refl _, Nat.le_max_right ..⟩
  | cons c cs ih =>
    rw [afterFolded?] at h
    split at h
    · next d hd =>
      split at h
      · have hle := le_size_of_isBoundary (isBoundary_add_of_charAt? hd)
        have := ih h
        omega
      · cases h
    · cases h

theorem byteAt?_isSome_iff {text : String} {i : Nat} :
    (byteAt? text i).isSome = true ↔ i < text.utf8ByteSize := by
  rw [byteAt?]
  split
  · next h => exact ⟨fun _ => h, fun _ => rfl⟩
  · next h => exact ⟨nofun, fun h' => absurd h' h⟩

/-- The bytes of a literal that stands somewhere lie before the end. -/
theorem le_size_of_bytesAgree {text literal : String} {n pos i : Nat}
    (h : bytesAgree text literal n pos i = true) (hi : i + n ≤ literal.utf8ByteSize) :
    pos + n ≤ max text.utf8ByteSize pos := by
  induction n generalizing pos i with
  | zero => exact Nat.le_max_right ..
  | succ n ih =>
    rw [bytesAgree, Bool.and_eq_true, beq_iff_eq] at h
    have inText : pos < text.utf8ByteSize := by
      rw [← byteAt?_isSome_iff, h.1, byteAt?_isSome_iff]
      omega
    have := ih h.2 (by omega)
    omega

/-- A literal ends at or after the position at which it stands, and not behind the end. -/
theorem le_of_afterLiteral? {fold : Bool} {text literal : String} {pos next : Nat}
    (h : afterLiteral? fold text literal pos = some next) :
    pos ≤ next ∧ next ≤ max text.utf8ByteSize pos := by
  cases fold with
  | true => exact le_of_afterFolded? h
  | false =>
    rw [afterLiteral?, if_neg Bool.false_ne_true, afterExact?] at h
    split at h
    · next stands =>
      cases h
      exact ⟨Nat.le_add_right .., le_size_of_bytesAgree stands (by omega)⟩
    · cases h

/-! ## From boundary to boundary -/

theorem length_le_width (cs : List Char) : cs.length ≤ width cs := by
  induction cs with
  | nil => exact Nat.le_refl 0
  | cons c cs ih =>
    have := c.utf8Size_pos
    rw [List.length_cons, width_cons]
    omega

/-- Of two cuts of a text, the later one lies behind the characters between them. -/
theorem exists_between {before after before' after' : List Char}
    (same : before ++ after = before' ++ after') (le : width before ≤ width before') :
    ∃ between, before' = before ++ between ∧ after = between ++ after' := by
  obtain cut | ⟨between, rfl, rfl⟩ := List.append_eq_append_iff.mp same
  · exact cut
  · have short := length_le_width between
    rw [width_append] at le
    obtain rfl : between = [] := List.eq_nil_of_length_eq_zero (by omega)
    exact ⟨[], by simp, by simp⟩

/-- Behind a later cut there are fewer characters. -/
theorem length_lt_of_width_lt {before after before' after' : List Char}
    (same : before ++ after = before' ++ after') (lt : width before < width before') :
    after'.length < after.length := by
  obtain ⟨between, rfl, rfl⟩ := exists_between same (Nat.le_of_lt lt)
  cases between with
  | nil => simp at lt
  | cons c between =>
    simp only [List.cons_append, List.length_cons, List.length_append]
    omega

theorem isBoundary_of_after? {text : String} {pos next : Nat} (h : after? text pos = some next) :
    isBoundary text next = true := by
  obtain ⟨c, hc, -, rfl⟩ := afterChar?_eq_some_iff.mp h
  exact isBoundary_add_of_charAt? hc

/-- Stepping over a character skips no boundary. -/
theorem exists_after? {text : String} {pos later : Nat} (h : isBoundary text pos = true)
    (h' : isBoundary text later = true) (lt : pos < later) :
    ∃ next, after? text pos = some next ∧ next ≤ later := by
  obtain ⟨before, after, cut, rfl⟩ := isBoundary_iff.mp h
  obtain ⟨before', after', cut', rfl⟩ := isBoundary_iff.mp h'
  rw [cut] at cut'
  obtain ⟨between, rfl, rfl⟩ := exists_between cut' (Nat.le_of_lt lt)
  cases between with
  | nil => simp at lt
  | cons c between =>
    have hc : charAt? text (width before) = some c :=
      charAt?_eq_some_iff.mpr ⟨before, between ++ after', cut, rfl⟩
    refine ⟨width before + c.utf8Size, afterChar?_eq_some_iff.mpr ⟨c, hc, rfl, rfl⟩, ?_⟩
    simp only [width_append, width_cons]
    omega

/-- There is no character behind the end only. -/
theorem after?_eq_none_iff {text : String} {pos : Nat} (h : isBoundary text pos = true) :
    after? text pos = none ↔ pos = text.utf8ByteSize := by
  constructor
  · intro last
    rcases Nat.lt_or_eq_of_le (le_size_of_isBoundary h) with lt | eq
    · obtain ⟨next, further, -⟩ := exists_after? h (isBoundary_size text) lt
      rw [last] at further
      cases further
    · exact eq
  · rintro rfl
    rcases ha : after? text text.utf8ByteSize with _ | next
    · rfl
    · have lt := lt_of_afterChar? ha
      have le := le_size_of_afterChar? ha
      omega

theorem isBoundary_boundaryFrom {text : String} {n pos : Nat} (h : pos + n = text.utf8ByteSize) :
    isBoundary text (boundaryFrom text n pos) = true := by
  induction n generalizing pos with
  | zero =>
    rw [boundaryFrom, ← Nat.add_zero pos, h]
    exact isBoundary_size text
  | succ n ih =>
    rw [boundaryFrom]
    split
    · assumption
    · exact ih (by omega)

/-- Rounding up passes over no boundary. -/
theorem le_of_isBoundary_of_boundaryFrom {text : String} {n pos q : Nat} (le : pos ≤ q)
    (h : isBoundary text q = true) : boundaryFrom text n pos ≤ q := by
  induction n generalizing pos with
  | zero => exact le
  | succ n ih =>
    rw [boundaryFrom]
    split
    · exact le
    · next not =>
      rcases Nat.lt_or_eq_of_le le with lt | rfl
      · exact ih lt
      · exact absurd h not

/-- Rounding up ends at a boundary. -/
theorem isBoundary_of_roundUp? {text : String} {pos rounded : Nat}
    (h : roundUp? text pos = some rounded) : isBoundary text rounded = true := by
  rw [roundUp?] at h
  split at h
  · cases h
    exact isBoundary_boundaryFrom (by omega)
  · cases h

/-- It ends at the first boundary from there on. -/
theorem le_of_roundUp? {text : String} {pos rounded : Nat} (h : roundUp? text pos = some rounded) :
    pos ≤ rounded ∧ ∀ q, pos ≤ q → isBoundary text q = true → rounded ≤ q := by
  rw [roundUp?] at h
  split at h
  · cases h
    exact ⟨le_boundaryFrom .., fun q => le_of_isBoundary_of_boundaryFrom⟩
  · cases h

/-- There is no rounding where no boundary is left. -/
theorem lt_of_roundUp?_eq_none {text : String} {pos q : Nat} (h : roundUp? text pos = none)
    (there : isBoundary text q = true) : q < pos := by
  have inside := le_size_of_isBoundary there
  rw [roundUp?] at h
  split at h
  · cases h
  · omega

/-- A boundary is its own rounding. -/
theorem roundUp?_of_isBoundary {text : String} {pos : Nat} (h : isBoundary text pos = true) :
    roundUp? text pos = some pos := by
  rw [roundUp?, if_pos (le_size_of_isBoundary h), boundaryFrom_of_isBoundary h]

end Text

end BacktrackRegex
