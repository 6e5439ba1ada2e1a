import BacktrackRegex.Text.CaseMapping

/-!
# Comparison without regard to case

Two characters count as one letter when they have the same canonical form, which is the upper case
of the character with two exceptions: an upper case of several characters does not count, and a
character outside ASCII never folds into ASCII.

* `canonical` is the canonical form, and `sameLetter` compares with or without it;
* `variants` lists the characters that stand in for a character when a whole range of them is
  probed: itself, its canonical form, and the lower cases of both.
-/

namespace BacktrackRegex

namespace Text

/-- Whether a character is below U+0080. -/
def isAscii (c : Char) : Bool :=
  c.toNat < 128

/-- The representative of a character among those that differ from it in case only. -/
def canonical (c : Char) : Char :=
  if isAscii c then
    c.toUpper
  else
    let raised := upper c
    if isAscii raised then c else raised

/-- Whether two characters agree, exactly or (if `fold`) up to case. -/
@[inline] def sameLetter (fold : Bool) (a b : Char) : Bool :=
  a == b || (fold && canonical a == canonical b)

/-- The case variants of a character that share its canonical form: the character, the form itself
and the lower cases of both. It need not hold every character with that form: `σ` does not bring
`ς`. -/
def variants (c : Char) : List Char :=
  let form := canonical c
  c :: form :: (lowerForms form ++ lowerForms c).filter (canonical · == form)

theorem sameLetter_false (a b : Char) : sameLetter false a b = (a == b) := by
  simp [sameLetter]

theorem sameLetter_refl (fold : Bool) (a : Char) : sameLetter fold a a = true := by
  simp [sameLetter]

/-- With folding, two characters agree just when their canonical forms do. -/
theorem sameLetter_true_iff {a b : Char} :
    sameLetter true a b = true ↔ canonical a = canonical b := by
  constructor
  · intro h
    rcases (by simpa [sameLetter] using h : a = b ∨ canonical a = canonical b) with rfl | h
    · rfl
    · exact h
  · intro h
    simp [sameLetter, h]

end Text

end BacktrackRegex
