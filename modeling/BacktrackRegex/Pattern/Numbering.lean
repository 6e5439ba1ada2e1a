import BacktrackRegex.Pattern

/-!
# Numbering the groups of a pattern

Capturing groups are numbered in the order of their opening parentheses. `Pattern.number` does so
from a given number on and labels every group and quantifier with the range of numbers inside it,
its own included. The range says all there is to say about a node:

* `GroupRange.index` is the number of the group itself, 0 if it does not capture;
* `GroupRange.lastIndex` is the highest number inside.
-/

namespace BacktrackRegex

/-- The numbers of the capturing groups inside a node. -/
structure GroupRange where
  /-- the first number -/
  first : Nat
  /-- the number after the last -/
  next : Nat
  deriving DecidableEq, Repr, Inhabited

namespace GroupRange

/-- The number of a group of this kind that encloses the range; 0 if it captures nothing. -/
def index (groups : GroupRange) (kind : GroupKind) : Nat :=
  if kind.isCapturing then groups.first else 0

/-- The highest number in the range; 0 if it is empty. -/
def lastIndex (groups : GroupRange) : Nat :=
  if groups.first < groups.next then groups.next - 1 else 0

/-- The numbers in the range, in increasing order. -/
def toList (groups : GroupRange) : List Nat :=
  List.range' groups.first (groups.next - groups.first)

theorem mem_toList {groups : GroupRange} {g : Nat} :
    g ∈ groups.toList ↔ groups.first ≤ g ∧ g < groups.next := by
  simp only [toList, List.mem_range'_1]
  omega

end GroupRange

namespace Pattern

variable {α : Type}

mutual

/-- Number the capturing groups from `next` on. The second part is the first number left over. -/
def number : Pattern α → Nat → Pattern GroupRange × Nat
  | empty, next => (empty, next)
  | char c, next => (char c, next)
  | coded c, next => (coded c, next)
  | named cls positive, next => (named cls positive, next)
  | set negated items, next => (set negated items, next)
  | dot, next => (dot, next)
  | lineStart, next => (lineStart, next)
  | lineEnd, next => (lineEnd, next)
  | wordBoundary inverted, next => (wordBoundary inverted, next)
  | backreference g, next => (backreference g, next)
  | group _ kind body, next =>
    let numbered := number body (if kind.isCapturing then next + 1 else next)
    (group ⟨next, numbered.2⟩ kind numbered.1, numbered.2)
  | quantified _ min max greedy body, next =>
    let numbered := number body next
    (quantified ⟨next, numbered.2⟩ min max greedy numbered.1, numbered.2)
  | seq terms, next =>
    let numbered := numberList terms next []
    (seq numbered.1, numbered.2)
  | choice alternatives, next =>
    let numbered := numberList alternatives next []
    (choice numbered.1, numbered.2)
termination_by structural p => p

/-- Number a list of patterns from left to right; `done` holds the numbered ones, last first. -/
def numberList : List (Pattern α) → Nat → List (Pattern GroupRange) →
    List (Pattern GroupRange) × Nat
  | [], next, done => (done.reverse, next)
  | p :: rest, next, done =>
    let numbered := number p next
    numberList rest numbered.2 (numbered.1 :: done)
termination_by structural ps => ps

end

/-- What is already numbered stays in front. -/
theorem numberList_eq (ps : List (Pattern α)) (next : Nat) (done : List (Pattern GroupRange)) :
    numberList ps next done =
      (done.reverse ++ (numberList ps next []).1, (numberList ps next []).2) := by
  induction ps generalizing next done with
  | nil => simp [numberList]
  | cons p rest ih =>
    simp only [numberList]
    rw [ih _ (_ :: done), ih _ [_]]
    simp

end Pattern

/-- A pattern with numbered groups. -/
structure NumberedPattern where
  /-- the tree, labelled with the groups inside each node -/
  tree : Pattern GroupRange
  /-- how many groups capture -/
  groupCount : Nat
  /-- how many quantifiers there are -/
  loopCount : Nat
  deriving Repr

end BacktrackRegex
