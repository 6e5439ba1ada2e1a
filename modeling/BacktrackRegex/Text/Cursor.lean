/-!
# Positions in a text

A position is an offset into the UTF-8 bytes of a text. Positions that matter lie on a boundary
between two characters, and from a boundary every step below leads to a boundary:

* `charAt?` and `charBefore?` look at the two neighbours of a position;
* `after?` steps over one character, `afterChar?` over one that passes a test;
* `roundUp?` moves an arbitrary offset up to the nearest boundary;
* `slice` reads the characters of a `Span`.
-/

namespace BacktrackRegex

/-- A half-open stretch of a text, as byte offsets. -/
structure Span where
  /-- where the stretch begins -/
  start : Nat
  /-- the offset just past its last byte -/
  stop : Nat
  deriving DecidableEq, Repr, Inhabited

namespace Text

/-! ## Neighbours of a position -/

/-- The character that begins at `pos`; none at the end of the text. -/
@[inline] def charAt? (text : String) (pos : Nat) : Option Char :=
  String.Pos.Raw.get? text ⟨pos⟩

/-- The character that ends at `pos`; none at the start of the text. -/
def charBefore? (text : String) (pos : Nat) : Option Char :=
  if pos = 0 then none else charAt? text (String.Pos.Raw.prev text ⟨pos⟩).byteIdx

/-- The position behind the character that begins at `pos`, if there is one that passes. -/
@[inline] def afterChar? (text : String) (passes : Char → Bool) (pos : Nat) : Option Nat :=
  match charAt? text pos with
  | some c => if passes c then some (pos + c.utf8Size) else none
  | none => none

/-- The position one character after `pos`; none at the end of the text. -/
def after? (text : String) (pos : Nat) : Option Nat :=
  afterChar? text (fun _ => true) pos

/-- Reading a character moves on. -/
theorem lt_of_afterChar? {text : String} {passes : Char → Bool} {pos after : Nat}
    (h : afterChar? text passes pos = some after) : pos < after := by
  unfold afterChar? at h
  split at h
  · rename_i c _
    split at h
    · have := c.utf8Size_pos
      grind
    · exact absurd h (by simp)
  · exact absurd h (by simp)

/-! ## Boundaries -/

/-- Whether `pos` lies between two characters, or at either end of the text. -/
def isBoundary (text : String) (pos : Nat) : Bool :=
  String.Pos.Raw.isValid text ⟨pos⟩

/-- The first boundary among the `n` offsets from `pos` on, or the offset after them. -/
def boundaryFrom (text : String) : Nat → Nat → Nat
  | 0, pos => pos
  | n + 1, pos => if isBoundary text pos then pos else boundaryFrom text n (pos + 1)

/-- The first boundary at or after `pos`; none if `pos` is beyond the end. The end of a text is a
boundary, so the offsets short of it are the only ones that need a test. -/
def roundUp? (text : String) (pos : Nat) : Option Nat :=
  if pos ≤ text.utf8ByteSize then
    some (boundaryFrom text (text.utf8ByteSize - pos) pos)
  else
    none

/-- A boundary below the end is its own rounding. -/
theorem boundaryFrom_of_isBoundary {text : String} {n pos : Nat}
    (h : isBoundary text pos = true) : boundaryFrom text n pos = pos := by
  cases n <;> simp [boundaryFrom, h]

/-- Rounding never moves to the left. -/
theorem le_boundaryFrom (text : String) (n pos : Nat) : pos ≤ boundaryFrom text n pos := by
  induction n generalizing pos with
  | zero => exact Nat.le_refl pos
  | succ n ih =>
    rw [boundaryFrom]
    split
    · exact Nat.le_refl pos
    · exact Nat.le_trans (Nat.le_succ pos) (ih (pos + 1))

/-! ## Slices -/

/-- The characters of a span. -/
def slice (text : String) (span : Span) : String :=
  String.Pos.Raw.extract text ⟨span.start⟩ ⟨span.stop⟩

end Text

end BacktrackRegex
