import BacktrackRegex.Text.CaseFolding
import BacktrackRegex.Text.Cursor

/-!
# Reading a given literal

Whether a literal stands at a position of a text, in two readings:

* `afterExact?` compares bytes;
* `afterFolded?` compares characters up to case, so the stretch of text that agrees with a literal
  may have another length in bytes than the literal.

Both answer with the position behind the literal.

`find?` gives the first exact occurrence. It stands for a search for substrings that is known by
what is documented of it, which is just this answer. Here offsets are tried one by one; any search
that gives the same answers may take its place.
-/

namespace BacktrackRegex

namespace Text

/-! ## Exact comparison -/

/-- The byte at an offset; none at or beyond the end of the text. -/
@[inline] def byteAt? (text : String) (i : Nat) : Option UInt8 :=
  if h : (⟨i⟩ : String.Pos.Raw) < text.rawEndPos then some (text.getUTF8Byte ⟨i⟩ h) else none

/-- Whether `n` bytes agree, those of `text` from `pos` on with those of `literal` from `i` on. -/
def bytesAgree (text literal : String) : Nat → Nat → Nat → Bool
  | 0, _, _ => true
  | n + 1, pos, i =>
    byteAt? text pos == byteAt? literal i && bytesAgree text literal n (pos + 1) (i + 1)

/-- Whether the bytes of `literal` stand at `pos`. -/
def standsAt (text literal : String) (pos : Nat) : Bool :=
  bytesAgree text literal literal.utf8ByteSize pos 0

/-- The position behind `literal`, if exactly its bytes stand at `pos`. -/
def afterExact? (text literal : String) (pos : Nat) : Option Nat :=
  if standsAt text literal pos then some (pos + literal.utf8ByteSize) else none

/-! ## Comparison up to case -/

/-- The position behind the characters at `pos` that agree, one by one and up to case, with those
of the literal. -/
def afterFolded? (text : String) : List Char → Nat → Option Nat
  | [], pos => some pos
  | c :: rest, pos =>
    match charAt? text pos with
    | some d => if sameLetter true d c then afterFolded? text rest (pos + d.utf8Size) else none
    | none => none

/-- The position behind a literal that stands at `pos`, exactly or (if `fold`) up to case. -/
def afterLiteral? (fold : Bool) (text literal : String) (pos : Nat) : Option Nat :=
  if fold then afterFolded? text literal.toList pos else afterExact? text literal pos

/-! ## Search -/

/-- The first of the `n` offsets from `pos` on at which the literal stands. This is the documented
answer of a search for a substring, not the way such a search goes. -/
def findWithin? (text literal : String) : Nat → Nat → Option Nat
  | 0, _ => none
  | n + 1, pos =>
    if standsAt text literal pos then some pos else findWithin? text literal n (pos + 1)

/-- The first offset at or after `pos` at which the literal stands, as a search for a substring is
documented to give it. -/
def find? (text literal : String) (pos : Nat) : Option Nat :=
  findWithin? text literal (text.utf8ByteSize + 1 - pos) pos

/-- What is found lies at or after the start of the search. -/
theorem le_of_findWithin? {text literal : String} {n pos found : Nat}
    (h : findWithin? text literal n pos = some found) : pos ≤ found := by
  induction n generalizing pos with
  | zero => simp [findWithin?] at h
  | succ n ih =>
    rw [findWithin?] at h
    split at h
    · exact Nat.le_of_eq (Option.some.inj h)
    · exact Nat.le_trans (Nat.le_succ pos) (ih h)

end Text

end BacktrackRegex
