import BacktrackRegex.Graph
import BacktrackRegex.Text.Cursor

/-!
# Tests of a position

What `^`, `$`, `\b` and backreferences ask of a position in a text. `Test.after?` gives the position
behind a test that passes: the same position, except behind a backreference, which reads the
captured text once more.
-/

namespace BacktrackRegex

/-- How characters and line ends are taken. -/
structure Mode where
  /-- whether letters are compared without regard to case -/
  fold : Bool
  /-- whether `^` and `$` also match beside line terminators -/
  multiline : Bool
  deriving DecidableEq, Repr

namespace Text

/-- Whether a line starts at a position. -/
def startsLine (text : String) (multiline : Bool) (pos : Nat) : Bool :=
  pos == 0 || (multiline && (charBefore? text pos).any isLineTerminator)

/-- Whether a line ends at a position. -/
def endsLine (text : String) (multiline : Bool) (pos : Nat) : Bool :=
  pos == text.utf8ByteSize || (multiline && (charAt? text pos).any isLineTerminator)

/-- Whether exactly one neighbour of a position is part of a word. -/
def isWordBoundary (text : String) (pos : Nat) : Bool :=
  (charBefore? text pos).any isWordChar != (charAt? text pos).any isWordChar

end Text

/-- The position behind a test at `pos`, if it passes. A backreference to a group that captured
nothing, or that does not exist, passes everywhere. -/
def Test.after? (text : String) (mode : Mode) (captures : Array (Option Span)) (pos : Nat) :
    Test → Option Nat
  | lineStart => if Text.startsLine text mode.multiline pos then some pos else none
  | lineEnd => if Text.endsLine text mode.multiline pos then some pos else none
  | wordBoundary inverted => if Text.isWordBoundary text pos != inverted then some pos else none
  | backreference g =>
    match captures[g]?.join with
    | none => some pos
    | some span => Text.afterLiteral? mode.fold text (Text.slice text span) pos

end BacktrackRegex
