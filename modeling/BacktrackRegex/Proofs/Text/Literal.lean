import BacktrackRegex.Proofs.Text.Position

/-!
# Where a literal stands

A literal stands at an offset if its bytes do (`standsAt_iff`), so literals can be put together
(`standsAt_append`) with no regard to characters. Characters come in at two places. A literal can
stand only between two characters (`isBoundary_of_standsAt`), for its first byte begins a character
of the text. And there it stands just when the characters behind begin with its own
(`standsAt_iff_isPrefix`), so from between two characters it reaches to between two characters
(`isBoundary_of_afterLiteral?`).

`find?` gives the first offset at which a literal stands and passes over none.
-/

namespace BacktrackRegex

namespace Text

variable {text literal : String} {pos : Nat}

/-! ## Bytes -/

theorem byteAt?_eq_getElem? (text : String) (i : Nat) :
    byteAt? text i = text.toByteArray.data[i]? := by
  rw [byteAt?]
  split
  · next inside => exact (Array.getElem?_eq_getElem inside).symm
  · next outside => exact (Array.getElem?_eq_none (Nat.le_of_not_lt outside)).symm

theorem byteAt?_append_left {x : String} {k : Nat} (h : k < x.utf8ByteSize) (y : String) :
    byteAt? (x ++ y) k = byteAt? x k := by
  rw [byteAt?_eq_getElem?, byteAt?_eq_getElem?, String.toByteArray_append, ByteArray.data_append]
  exact Array.getElem?_append_left h

theorem byteAt?_append_right (x y : String) (k : Nat) :
    byteAt? (x ++ y) (x.utf8ByteSize + k) = byteAt? y k := by
  rw [byteAt?_eq_getElem?, byteAt?_eq_getElem?, String.toByteArray_append, ByteArray.data_append]
  refine (Array.getElem?_append_right (Nat.le_add_right ..)).trans ?_
  exact congrArg (y.toByteArray.data[·]?) (Nat.add_sub_cancel_left ..)

theorem bytesAgree_iff {n i : Nat} :
    bytesAgree text literal n pos i = true ↔
      ∀ k < n, byteAt? text (pos + k) = byteAt? literal (i + k) := by
  induction n generalizing pos i with
  | zero => exact ⟨fun _ _ h => absurd h (Nat.not_lt_zero _), fun _ => rfl⟩
  | succ n ih =>
    rw [bytesAgree, Bool.and_eq_true, beq_iff_eq, ih]
    constructor
    · rintro ⟨first, rest⟩ k hk
      cases k with
      | zero => exact first
      | succ k =>
        have := rest k (Nat.lt_of_succ_lt_succ hk)
        rwa [Nat.add_right_comm, Nat.add_right_comm i] at this
    · intro h
      refine ⟨h 0 (Nat.succ_pos n), fun k hk => ?_⟩
      have := h (k + 1) (Nat.succ_lt_succ hk)
      rwa [Nat.add_right_comm, Nat.add_right_comm i]

theorem standsAt_iff :
    standsAt text literal pos = true ↔
      ∀ k < literal.utf8ByteSize, byteAt? text (pos + k) = byteAt? literal k := by
  rw [standsAt, bytesAgree_iff]
  simp only [Nat.zero_add]

/-- Characters begin with those of a literal just when their bytes begin with its bytes. -/
theorem isPrefix_iff_byteAt? {cs : List Char} :
    literal.toList <+: cs ↔
      ∀ k < literal.utf8ByteSize, byteAt? (String.ofList cs) k = byteAt? literal k := by
  constructor
  · rintro ⟨behind, rfl⟩ k hk
    rw [String.ofList_append, String.ofList_toList, byteAt?_append_left hk]
  · intro agree
    have bytes : literal.toByteArray ++ (String.ofList cs).toByteArray.extract
        literal.utf8ByteSize (String.ofList cs).utf8ByteSize =
          (String.ofList cs).toByteArray := by
      refine ByteArray.ext (Array.ext_getElem? fun k => ?_)
      rw [ByteArray.data_append, ByteArray.data_extract]
      rcases Nat.lt_or_ge k literal.utf8ByteSize with inside | behind
      · rw [Array.getElem?_append_left inside, ← byteAt?_eq_getElem?, ← byteAt?_eq_getElem?,
          agree k inside]
      · rw [Array.getElem?_append_right behind, Array.getElem?_extract]
        have size : literal.toByteArray.data.size = literal.utf8ByteSize := rfl
        have total : (String.ofList cs).toByteArray.data.size =
          (String.ofList cs).utf8ByteSize := rfl
        rw [size, total]
        split
        · rw [Nat.add_sub_cancel' behind]
        · exact (Array.getElem?_eq_none (by omega)).symm
    -- the bytes of one character never begin those of another
    rw [← String.ofList_toList (s := literal), String.toByteArray_ofList,
      String.toByteArray_ofList] at bytes
    exact List.isPrefix_of_utf8Encode_append_eq_utf8Encode _ bytes

/-! ## Literals -/

theorem standsAt_empty (text : String) (pos : Nat) : standsAt text "" pos = true := rfl

/-- Literals stand one behind the other. -/
theorem standsAt_append {x y : String} (hx : standsAt text x pos = true)
    (hy : standsAt text y (pos + x.utf8ByteSize) = true) : standsAt text (x ++ y) pos = true := by
  rw [standsAt_iff] at hx hy ⊢
  intro k hk
  rw [String.utf8ByteSize_append] at hk
  rcases Nat.lt_or_ge k x.utf8ByteSize with inside | behind
  · rw [hx k inside, byteAt?_append_left inside]
  · obtain ⟨j, rfl⟩ := Nat.exists_eq_add_of_le behind
    rw [← Nat.add_assoc, hy j (by omega), byteAt?_append_right]

/-- A literal stands between two characters just when those behind begin with its own. -/
theorem standsAt_iff_isPrefix {before after : List Char} (cut : text.toList = before ++ after) :
    standsAt text literal (width before) = true ↔ literal.toList <+: after := by
  rw [standsAt_iff, isPrefix_iff_byteAt?, eq_append_of_cut cut, width]
  simp only [byteAt?_append_right]

/-- A character stands where it is read. -/
theorem standsAt_of_charAt? {c : Char} (h : charAt? text pos = some c) :
    standsAt text (String.singleton c) pos = true := by
  obtain ⟨before, after, cut, rfl⟩ := charAt?_eq_some_iff.mp h
  rw [standsAt_iff_isPrefix cut, String.toList_singleton]
  exact ⟨after, List.singleton_append⟩

theorem byteAt?_eq_some_iff {i : Nat} {byte : UInt8} :
    byteAt? text i = some byte ↔
      ∃ inside : (⟨i⟩ : String.Pos.Raw) < text.rawEndPos, text.getUTF8Byte ⟨i⟩ inside = byte := by
  rw [byteAt?]
  split
  · next inside =>
    constructor
    · exact fun h => ⟨inside, Option.some.inj h⟩
    · rintro ⟨_, h⟩
      exact congrArg some h
  · next outside =>
    constructor
    · intro h
      cases h
    · rintro ⟨inside, _⟩
      exact absurd inside outside

/-- A literal stands only between two characters. -/
theorem isBoundary_of_standsAt (stands : standsAt text literal pos = true) (ne : literal ≠ "") :
    isBoundary text pos = true := by
  have pos_size : 0 < literal.utf8ByteSize := by
    rcases Nat.eq_zero_or_pos literal.utf8ByteSize with none | some
    · exact absurd (String.utf8ByteSize_eq_zero_iff.mp none) ne
    · exact some
  -- the byte of the text is the first of the literal, and that one begins a character
  have first := byteAt?_eq_some_iff.mpr ⟨pos_size, rfl⟩
  rw [← standsAt_iff.mp stands 0 pos_size, Nat.add_zero] at first
  obtain ⟨inside, same⟩ := byteAt?_eq_some_iff.mp first
  rw [isBoundary, String.Pos.Raw.isValid_eq_true_iff, String.Pos.Raw.isValid_iff_isUTF8FirstByte]
  refine .inr ⟨inside, ?_⟩
  rw [same]
  exact String.isUTF8FirstByte_getUTF8Byte_zero

/-- A literal that stands between two characters ends between two characters. -/
theorem isBoundary_add_of_standsAt (stands : standsAt text literal pos = true)
    (boundary : isBoundary text pos = true) :
    isBoundary text (pos + literal.utf8ByteSize) = true := by
  obtain ⟨before, after, cut, rfl⟩ := isBoundary_iff.mp boundary
  obtain ⟨behind, rfl⟩ := (standsAt_iff_isPrefix cut).mp stands
  refine isBoundary_iff.mpr ⟨before ++ literal.toList, behind, by rw [cut, List.append_assoc], ?_⟩
  rw [width_append, width_toList]

theorem isBoundary_of_afterFolded? {cs : List Char} {next : Nat}
    (h : afterFolded? text cs pos = some next) (boundary : isBoundary text pos = true) :
    isBoundary text next = true := by
  induction cs generalizing pos with
  | nil =>
    cases h
    exact boundary
  | cons c cs ih =>
    rw [afterFolded?] at h
    split at h
    · next d hd =>
      split at h
      · exact ih h (isBoundary_add_of_charAt? hd)
      · cases h
    · cases h

/-- From between two characters, reading a literal leads between two characters. -/
theorem isBoundary_of_afterLiteral? {fold : Bool} {next : Nat}
    (h : afterLiteral? fold text literal pos = some next) (boundary : isBoundary text pos = true) :
    isBoundary text next = true := by
  cases fold with
  | true => exact isBoundary_of_afterFolded? h boundary
  | false =>
    rw [afterLiteral?, if_neg Bool.false_ne_true, afterExact?] at h
    split at h
    · next stands =>
      cases h
      exact isBoundary_add_of_standsAt stands boundary
    · cases h

/-! ## The first offset -/

theorem findWithin?_eq_none_iff {n : Nat} :
    findWithin? text literal n pos = none ↔
      ∀ q, pos ≤ q → q < pos + n → standsAt text literal q = false := by
  induction n generalizing pos with
  | zero => exact ⟨fun _ q h h' => absurd h' (Nat.not_lt.mpr h), fun _ => rfl⟩
  | succ n ih =>
    rw [findWithin?]
    split
    · next stands =>
      refine ⟨fun found => absurd found (by simp), fun h => ?_⟩
      rw [h pos (Nat.le_refl _) (by omega)] at stands
      cases stands
    · next not =>
      rw [ih]
      constructor
      · intro h q hq hq'
        rcases Nat.lt_or_eq_of_le hq with lt | rfl
        · exact h q lt (by omega)
        · exact Bool.eq_false_iff.mpr not
      · exact fun h q hq hq' => h q (by omega) (by omega)

/-- A literal stands where it is found. -/
theorem standsAt_of_findWithin? {n found : Nat}
    (h : findWithin? text literal n pos = some found) : standsAt text literal found = true := by
  induction n generalizing pos with
  | zero => cases h
  | succ n ih =>
    rw [findWithin?] at h
    split at h
    · next stands =>
      cases h
      exact stands
    · exact ih h

/-- And at no offset before. -/
theorem not_standsAt_of_findWithin? {n found : Nat}
    (h : findWithin? text literal n pos = some found) {q : Nat} (le : pos ≤ q) (lt : q < found) :
    standsAt text literal q = false := by
  induction n generalizing pos with
  | zero => cases h
  | succ n ih =>
    rw [findWithin?] at h
    split at h
    · cases h
      omega
    · next not =>
      rcases Nat.lt_or_eq_of_le le with lt | rfl
      · exact ih h lt
      · exact Bool.eq_false_iff.mpr not

end Text

end BacktrackRegex
