import BacktrackRegex.CharClass
import BacktrackRegex.Proofs.Text.Behind

/-!
# Reading a text in lower case

The lower case of a text, `String.toLower`, changes the capitals of ASCII and nothing else. So it
has the boundaries of the text (`isBoundary_toLower`), and what is read at one of them is the lower
case of what is read there in the text (`charAt?_toLower`, `slice_toLower`).

With folding, nothing that is asked of a character tells a capital from its small letter: not its
canonical form, nor which characters are its variants, nor the classes that tests look at. It is
enough to see that for the 26 capitals (`eq_of_capitals`). So with folding a test finds in the lower
case of a text what it finds in the text (`Test.after?_toLower`).
-/

namespace BacktrackRegex

namespace Text

/-! ## Characters -/

/-- A character is its own lower case or one of the capitals. -/
theorem toLower_eq_or (c : Char) : c.toLower = c ∨ ∃ n : Fin 26, c = Char.ofNat (65 + n) := by
  by_cases capital : c.val ≥ 'A'.val ∧ c.val ≤ 'Z'.val
  · have first : 65 ≤ c.toNat := capital.1
    have last : c.toNat ≤ 90 := capital.2
    refine .inr ⟨⟨c.toNat - 65, by omega⟩, ?_⟩
    rw [Nat.add_sub_cancel' first, Char.ofNat_toNat]
  · exact .inl (by rw [Char.toLower, dif_neg capital])

/-- What is the same for each capital and its small letter is the same for all characters and their
lower cases. -/
theorem eq_of_capitals {β : Type} {f : Char → β}
    (h : ∀ n : Fin 26, f (Char.ofNat (65 + n)).toLower = f (Char.ofNat (65 + n))) (c : Char) :
    f c.toLower = f c := by
  obtain same | ⟨n, rfl⟩ := toLower_eq_or c
  · rw [same]
  · exact h n

theorem utf8Size_toLower (c : Char) : c.toLower.utf8Size = c.utf8Size :=
  eq_of_capitals (by decide) c

theorem canonical_toLower (c : Char) : canonical c.toLower = canonical c :=
  eq_of_capitals (by decide) c

theorem isWordChar_toLower (c : Char) : isWordChar c.toLower = isWordChar c :=
  eq_of_capitals (by decide) c

theorem isLineTerminator_toLower (c : Char) : isLineTerminator c.toLower = isLineTerminator c :=
  eq_of_capitals (by decide) c

/-- The variants of a capital are those of its small letter, in another order. -/
theorem mem_variants_toLower {c d : Char} : d ∈ variants c.toLower ↔ d ∈ variants c := by
  obtain same | ⟨n, rfl⟩ := toLower_eq_or c
  · rw [same]
  · have there : ∀ n : Fin 26, variants (Char.ofNat (65 + n)).toLower ⊆
        variants (Char.ofNat (65 + n)) := by decide
    have back : ∀ n : Fin 26, variants (Char.ofNat (65 + n)) ⊆
        variants (Char.ofNat (65 + n)).toLower := by decide
    exact ⟨fun h => there n h, fun h => back n h⟩

/-- With folding, a character and its lower case agree with the same characters. -/
theorem sameLetter_toLower (c d : Char) : sameLetter true c.toLower d = sameLetter true c d := by
  rw [Bool.eq_iff_iff, sameLetter_true_iff, sameLetter_true_iff, canonical_toLower]

theorem sameLetter_toLower_toLower (c d : Char) :
    sameLetter true c.toLower d.toLower = sameLetter true c d := by
  rw [Bool.eq_iff_iff, sameLetter_true_iff, sameLetter_true_iff, canonical_toLower,
    canonical_toLower]

end Text

theorem ClassItem.containsFolded_toLower (item : ClassItem) (c : Char) :
    item.containsFolded c.toLower = item.containsFolded c := by
  cases item with
  | single a => simp only [containsFolded, Text.canonical_toLower]
  | range lo hi | named cls positive =>
    rw [Bool.eq_iff_iff]
    simp only [containsFolded, List.any_eq_true, Text.mem_variants_toLower]

/-- With folding, a set accepts a character if it accepts its lower case. -/
theorem accepts_toLower (negated : Bool) (items : List ClassItem) (c : Char) :
    accepts true negated items c.toLower = accepts true negated items c := by
  simp only [accepts, if_true, ClassItem.containsFolded_toLower]

namespace Text

variable (text : String) (pos : Nat)

/-! ## Positions -/

theorem toList_toLower : text.toLower.toList = text.toList.map Char.toLower :=
  String.toList_map

theorem width_map_toLower (cs : List Char) : width (cs.map Char.toLower) = width cs := by
  induction cs with
  | nil => rfl
  | cons c cs ih => rw [List.map_cons, width_cons, width_cons, utf8Size_toLower, ih]

theorem utf8ByteSize_toLower : text.toLower.utf8ByteSize = text.utf8ByteSize := by
  rw [← width_toList, toList_toLower, width_map_toLower, width_toList]

theorem isBoundary_toLower : isBoundary text.toLower pos = isBoundary text pos := by
  rw [Bool.eq_iff_iff, isBoundary_iff, isBoundary_iff, toList_toLower]
  constructor
  · rintro ⟨_, _, cut, rfl⟩
    obtain ⟨before, after, cut', rfl, rfl⟩ := List.map_eq_append_iff.mp cut
    exact ⟨before, after, cut', width_map_toLower before⟩
  · rintro ⟨before, after, cut, rfl⟩
    exact ⟨before.map Char.toLower, after.map Char.toLower, by rw [cut, List.map_append],
      (width_map_toLower before).symm⟩

theorem boundaryFrom_toLower (n : Nat) :
    boundaryFrom text.toLower n pos = boundaryFrom text n pos := by
  induction n generalizing pos with
  | zero => rfl
  | succ n ih => rw [boundaryFrom, boundaryFrom, isBoundary_toLower, ih]

theorem roundUp?_toLower : roundUp? text.toLower pos = roundUp? text pos := by
  rw [roundUp?, roundUp?, utf8ByteSize_toLower, boundaryFrom_toLower]

theorem charAt?_toLower : charAt? text.toLower pos = (charAt? text pos).map Char.toLower := by
  ext c
  rw [charAt?_eq_some_iff, Option.map_eq_some_iff, toList_toLower]
  constructor
  · rintro ⟨_, _, cut, rfl⟩
    obtain ⟨before, _, cut', rfl, rest⟩ := List.map_eq_append_iff.mp cut
    obtain ⟨d, after, rfl, rfl, rfl⟩ := List.map_eq_cons_iff.mp rest
    exact ⟨d, charAt?_eq_some_iff.mpr ⟨before, after, cut', width_map_toLower before⟩, rfl⟩
  · rintro ⟨d, there, rfl⟩
    obtain ⟨before, after, cut, rfl⟩ := charAt?_eq_some_iff.mp there
    exact ⟨before.map Char.toLower, after.map Char.toLower,
      by rw [cut, List.map_append, List.map_cons], (width_map_toLower before).symm⟩

theorem add_toLower (i : String.Pos.Raw) (c : Char) : i + c.toLower = i + c := by
  rw [String.Pos.Raw.ext_iff, String.Pos.Raw.byteIdx_add_char, String.Pos.Raw.byteIdx_add_char,
    utf8Size_toLower]

/-- To look back is to count bytes. -/
theorem utf8PrevAux_map_toLower (cs : List Char) (i p : String.Pos.Raw) :
    String.Pos.Raw.utf8PrevAux (cs.map Char.toLower) i p = String.Pos.Raw.utf8PrevAux cs i p := by
  induction cs generalizing i with
  | nil => rfl
  | cons c cs ih =>
    rw [List.map_cons, String.Pos.Raw.utf8PrevAux, String.Pos.Raw.utf8PrevAux,
      add_toLower, ih]

theorem charBefore?_toLower :
    charBefore? text.toLower pos = (charBefore? text pos).map Char.toLower := by
  rw [charBefore?, charBefore?, String.Pos.Raw.prev, toList_toLower, utf8PrevAux_map_toLower,
    ← String.Pos.Raw.prev]
  split
  · rfl
  · exact charAt?_toLower ..

theorem any_map_toLower {passes : Char → Bool} (h : ∀ c, passes c.toLower = passes c)
    (c? : Option Char) : (c?.map Char.toLower).any passes = c?.any passes := by
  rcases c? with _ | c
  · rfl
  · exact h c

theorem afterChar?_toLower {passes : Char → Bool} (h : ∀ c, passes c.toLower = passes c) :
    afterChar? text.toLower passes pos = afterChar? text passes pos := by
  rw [afterChar?, afterChar?, charAt?_toLower]
  rcases charAt? text pos with _ | c
  · rfl
  · simp only [Option.map_some, h, utf8Size_toLower]

theorem after?_toLower : after? text.toLower pos = after? text pos :=
  afterChar?_toLower text pos fun _ => rfl

/-! ## Slices and literals -/

theorem go₂_map_toLower (cs : List Char) (i e : String.Pos.Raw) :
    String.Pos.Raw.extract.go₂ (cs.map Char.toLower) i e =
      (String.Pos.Raw.extract.go₂ cs i e).map Char.toLower := by
  induction cs generalizing i with
  | nil => rfl
  | cons c cs ih =>
    rw [List.map_cons, String.Pos.Raw.extract.go₂, String.Pos.Raw.extract.go₂,
      add_toLower, ih]
    split <;> rfl

theorem go₁_map_toLower (cs : List Char) (i b e : String.Pos.Raw) :
    String.Pos.Raw.extract.go₁ (cs.map Char.toLower) i b e =
      (String.Pos.Raw.extract.go₁ cs i b e).map Char.toLower := by
  induction cs generalizing i with
  | nil => rfl
  | cons c cs ih =>
    rw [List.map_cons, String.Pos.Raw.extract.go₁, String.Pos.Raw.extract.go₁,
      add_toLower, ih]
    split
    · exact go₂_map_toLower (c :: cs) i e
    · rfl

theorem slice_toLower (span : Span) : slice text.toLower span = (slice text span).toLower := by
  rw [← String.toList_inj, toList_toLower, slice, slice, String.Pos.Raw.extract,
    String.Pos.Raw.extract, toList_toLower]
  dsimp only
  split
  · rfl
  · rw [String.toList_ofList, String.toList_ofList, go₁_map_toLower]

theorem afterFolded?_toLower (cs : List Char) :
    afterFolded? text.toLower (cs.map Char.toLower) pos = afterFolded? text cs pos := by
  induction cs generalizing pos with
  | nil => rfl
  | cons c cs ih =>
    rw [List.map_cons, afterFolded?, afterFolded?, charAt?_toLower]
    rcases charAt? text pos with _ | d
    · rfl
    · simp only [Option.map_some, sameLetter_toLower_toLower, utf8Size_toLower, ih]

theorem afterLiteral?_toLower (literal : String) :
    afterLiteral? true text.toLower literal.toLower pos = afterLiteral? true text literal pos := by
  simp only [afterLiteral?, if_true, toList_toLower, afterFolded?_toLower]

/-! ## Tests -/

theorem startsLine_toLower (multiline : Bool) :
    startsLine text.toLower multiline pos = startsLine text multiline pos := by
  rw [startsLine, startsLine, charBefore?_toLower, any_map_toLower isLineTerminator_toLower]

theorem endsLine_toLower (multiline : Bool) :
    endsLine text.toLower multiline pos = endsLine text multiline pos := by
  rw [endsLine, endsLine, utf8ByteSize_toLower, charAt?_toLower,
    any_map_toLower isLineTerminator_toLower]

theorem isWordBoundary_toLower : isWordBoundary text.toLower pos = isWordBoundary text pos := by
  rw [isWordBoundary, isWordBoundary, charBefore?_toLower, charAt?_toLower,
    any_map_toLower isWordChar_toLower, any_map_toLower isWordChar_toLower]

end Text

/-- With folding, a test passes in the lower case of a text where it passes in the text. -/
theorem Test.after?_toLower {mode : Mode} (fold : mode.fold = true) (text : String) (pos : Nat)
    (captures : Array (Option Span)) (condition : Test) :
    condition.after? text.toLower mode captures pos = condition.after? text mode captures pos := by
  cases condition with
  | lineStart => rw [after?, after?, Text.startsLine_toLower]
  | lineEnd => rw [after?, after?, Text.endsLine_toLower]
  | wordBoundary inverted => rw [after?, after?, Text.isWordBoundary_toLower]
  | backreference g =>
    simp only [after?, fold, Text.slice_toLower, Text.afterLiteral?_toLower]

end BacktrackRegex
