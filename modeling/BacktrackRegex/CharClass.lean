import BacktrackRegex.Text.CaseFolding

/-!
# Classes of characters

The three named classes (`digits`, `spaces`, `words`), the line terminators, and sets of characters
as a pattern writes them between brackets.

`ClassItem.contains` says which characters an item holds. `accepts` is membership in a set, which
may be negated and may disregard case: then a single character is compared by canonical form, while
ranges and classes are probed with the case variants of the character at hand.
-/

namespace BacktrackRegex

/-! ## Named classes -/

/-- A class of characters that has a letter of its own. -/
inductive CharClass where
  /-- the ASCII digits -/
  | digits
  /-- white space and line terminators -/
  | spaces
  /-- the ASCII letters and digits and the low line -/
  | words
  deriving DecidableEq, Repr

/-- Whether a character's code lies in an inclusive range. -/
def inRange (first last : Nat) (c : Char) : Bool :=
  first ≤ c.toNat && c.toNat ≤ last

/-- The characters that end a line. -/
def isLineTerminator (c : Char) : Bool :=
  c == '\n' || c == '\r' || inRange 0x2028 0x2029 c

/-- Horizontal white space: tabulators, form feed, the Unicode space separators and the byte order
mark. -/
def isBlank (c : Char) : Bool :=
  inRange 0x9 0xC c || c == ' ' || c.toNat == 0xA0 || c.toNat == 0x1680 ||
    inRange 0x2000 0x200A c || c.toNat == 0x202F || c.toNat == 0x205F || c.toNat == 0x3000 ||
    c.toNat == 0xFEFF

/-- The ASCII letters and digits and the low line. -/
def isWordChar (c : Char) : Bool :=
  c.isAlphanum || c == '_'

/-- Whether a class holds a character. -/
def CharClass.contains : CharClass → Char → Bool
  | .digits, c => c.isDigit
  | .spaces, c => isBlank c || isLineTerminator c
  | .words, c => isWordChar c

/-! ## Sets -/

/-- A member of a bracketed set. -/
inductive ClassItem where
  /-- one character -/
  | single (c : Char)
  /-- the characters from `lo` to `hi` -/
  | range (lo hi : Char)
  /-- a named class, or its complement -/
  | named (cls : CharClass) (positive : Bool)
  deriving DecidableEq, Repr

/-- Whether an item holds a character. -/
def ClassItem.contains : ClassItem → Char → Bool
  | .single a, c => a == c
  | .range lo hi, c => lo ≤ c && c ≤ hi
  | .named cls positive, c => cls.contains c == positive

/-- Whether an item holds a character up to case. -/
def ClassItem.containsFolded (item : ClassItem) (c : Char) : Bool :=
  match item with
  | .single a => Text.canonical a == Text.canonical c
  | _ => (Text.variants c).any item.contains

/-- Whether a set accepts a character, exactly or (if `fold`) up to case. -/
def accepts (fold negated : Bool) (items : List ClassItem) (c : Char) : Bool :=
  let found := if fold then items.any (·.containsFolded c) else items.any (·.contains c)
  found != negated

/-- The set that `.` stands for leaves out these items. -/
def lineTerminatorItems : List ClassItem :=
  [.single '\n', .single '\r', .range '\u2028' '\u2029']

/-- The items beside `.` are the line terminators. -/
theorem any_lineTerminatorItems (c : Char) :
    lineTerminatorItems.any (·.contains c) = isLineTerminator c := by
  have first : '\u2028' ≤ c ↔ 0x2028 ≤ c.toNat := Iff.rfl
  have last : c ≤ '\u2029' ↔ c.toNat ≤ 0x2029 := Iff.rfl
  simp [lineTerminatorItems, ClassItem.contains, isLineTerminator, inRange, first, last,
    Bool.or_assoc, BEq.comm]

end BacktrackRegex
