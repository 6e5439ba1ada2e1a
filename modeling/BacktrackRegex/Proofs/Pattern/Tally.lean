import BacktrackRegex.Proofs.Pattern.Leaf
import BacktrackRegex.Proofs.Pattern.Numbered

/-!
# Counting groups and quantifiers

`Pattern.tally` adds up a weight for each group of a pattern and one for each quantifier. With the
weights chosen right it counts the capturing groups, or the quantifiers.

The groups of a pattern are numbered through, so numbering comes out at the first number plus the
count of the capturing ones (`number_snd`). While a pattern is read, a `Reader` keeps both counts by
itself; that they are those of what it has read so far (`Reader.Counted`) is kept by every token.
Hence a pattern that is read has just as many groups as it says
(`NumberedPattern.numbered_groupCount`).
-/

namespace BacktrackRegex

namespace Pattern

variable {α : Type}

/-! ## Weights -/

section

variable (ofGroup : GroupKind → Nat) (ofQuantifier : Nat)

mutual

/-- The sum of the weights of the groups and quantifiers in a pattern. -/
def tally : Pattern α → Nat
  | group _ kind body => ofGroup kind + tally body
  | quantified _ _ _ _ body => ofQuantifier + tally body
  | seq terms => tallyAll terms
  | choice alternatives => tallyAll alternatives
  | _ => 0
termination_by structural p => p

/-- The sum of the weights in a list of patterns. -/
def tallyAll : List (Pattern α) → Nat
  | [] => 0
  | p :: rest => tally p + tallyAll rest
termination_by structural ps => ps

end

theorem tally_of_isFlat {p : Pattern α} (h : p.isFlat = true) :
    p.tally ofGroup ofQuantifier = 0 := by
  cases p <;> first | rfl | cases h

theorem tallyAll_append (ps qs : List (Pattern α)) :
    tallyAll ofGroup ofQuantifier (ps ++ qs) =
      tallyAll ofGroup ofQuantifier ps + tallyAll ofGroup ofQuantifier qs := by
  induction ps with
  | nil => simp [tallyAll]
  | cons p rest ih => simp [tallyAll, ih, Nat.add_assoc]

@[simp] theorem tallyAll_reverse (ps : List (Pattern α)) :
    tallyAll ofGroup ofQuantifier ps.reverse = tallyAll ofGroup ofQuantifier ps := by
  induction ps with
  | nil => rfl
  | cons p rest ih =>
    rw [List.reverse_cons, tallyAll_append, ih, tallyAll, tallyAll, tallyAll]
    omega

@[simp] theorem tally_ofTerms (terms : List (Pattern α)) :
    (ofTerms terms).tally ofGroup ofQuantifier = tallyAll ofGroup ofQuantifier terms := by
  match terms with
  | [] | [_] | _ :: _ :: _ => simp [ofTerms, tally, tallyAll]

@[simp] theorem tally_ofChoices (alternatives : List (Pattern α)) :
    (ofChoices alternatives).tally ofGroup ofQuantifier =
      tallyAll ofGroup ofQuantifier alternatives := by
  match alternatives with
  | [] | [_] | _ :: _ :: _ => simp [ofChoices, tally, tallyAll]

end

/-! ## Counts -/

theorem numberList_snd {ps : List (Pattern α)}
    (h : ∀ p ∈ ps, ∀ next, (number p next).2 = next + p.tally GroupKind.captures 0) (next : Nat) :
    (numberList ps next []).2 = next + tallyAll GroupKind.captures 0 ps := by
  induction ps generalizing next with
  | nil => rfl
  | cons p rest ih =>
    simp only [numberList, tallyAll]
    rw [numberList_eq, ih (fun q hq => h q (List.mem_cons_of_mem p hq)), h p List.mem_cons_self,
      Nat.add_assoc]

/-- The first number left over comes after one number for each capturing group. -/
theorem number_snd (p : Pattern α) (next : Nat) :
    (number p next).2 = next + p.tally GroupKind.captures 0 := by
  induction p generalizing next with
  | group label kind body ih =>
    simp only [number, ih, tally, GroupKind.captures]
    split <;> omega
  | quantified label min max greedy body ih => simp only [number, ih, tally, Nat.zero_add]
  | seq terms ih => exact numberList_snd ih next
  | choice alternatives ih => exact numberList_snd ih next
  | _ => rfl

end Pattern

/-! ## Counts while reading -/

/-- The weight that a token adds. -/
def Token.weight (ofGroup : GroupKind → Nat) (ofQuantifier : Nat) : Token → Nat
  | .opening kind => ofGroup kind
  | .quantifier _ => ofQuantifier
  | _ => 0

namespace Reader

section

variable (ofGroup : GroupKind → Nat) (ofQuantifier : Nat)

/-- The sum of the weights in all that was read so far. -/
def tally (reader : Reader) : Nat :=
  Pattern.tallyAll ofGroup ofQuantifier reader.alternatives +
    Pattern.tallyAll ofGroup ofQuantifier reader.terms +
    reader.enclosing.foldr (fun outer total => ofGroup outer.kind +
      Pattern.tallyAll ofGroup ofQuantifier outer.alternatives +
      Pattern.tallyAll ofGroup ofQuantifier outer.terms + total) 0

theorem tally_body (reader : Reader) :
    reader.body.tally ofGroup ofQuantifier =
      Pattern.tallyAll ofGroup ofQuantifier reader.alternatives +
        Pattern.tallyAll ofGroup ofQuantifier reader.terms := by
  simp only [body, Pattern.tally_ofChoices, Pattern.tallyAll_reverse, Pattern.tallyAll,
    Pattern.tally_ofTerms, Nat.add_comm]

end

/-- The counts that a reader keeps are those of what it has read. -/
structure Counted (reader : Reader) : Prop where
  /-- the capturing groups -/
  groups : reader.groupCount = reader.tally GroupKind.captures 0
  /-- the quantifiers -/
  loops : reader.loopCount = reader.tally (fun _ => 0) 1

theorem counted_start : Reader.start.Counted :=
  ⟨rfl, rfl⟩

variable {reader after : Reader} {token : Token}

/-- What a token adds to the counts. -/
theorem Takes.counts (taken : reader.Takes token after) :
    after.groupCount = reader.groupCount + token.weight GroupKind.captures 0 ∧
      after.loopCount = reader.loopCount + token.weight (fun _ => 0) 1 := by
  cases taken <;> exact ⟨rfl, rfl⟩

/-- What a token adds to the sum of the weights. The weight of a group is added when it opens. -/
theorem Takes.tally (ofGroup : GroupKind → Nat) (ofQuantifier : Nat)
    (flat : ∀ p, token = .term p → p.isFlat = true) (taken : reader.Takes token after) :
    after.tally ofGroup ofQuantifier =
      reader.tally ofGroup ofQuantifier + token.weight ofGroup ofQuantifier := by
  cases taken with
  | term p =>
    simp only [Reader.tally, push, Pattern.tallyAll, Pattern.tally_of_isFlat _ _ (flat p rfl),
      Token.weight, Nat.zero_add, Nat.add_zero]
  | bar =>
    simp only [Reader.tally, Pattern.tallyAll, Pattern.tally_ofTerms, Pattern.tallyAll_reverse,
      Token.weight]
    omega
  | opening =>
    simp only [Reader.tally, Pattern.tallyAll, List.foldr_cons, Token.weight]
    omega
  | closing opened =>
    simp only [Reader.tally, opened, Pattern.tallyAll, Pattern.tally, tally_body, List.foldr_cons,
      Token.weight]
    omega
  | quantifier fresh last =>
    simp only [Reader.tally, last, Pattern.tallyAll, Pattern.tally, Token.weight]
    omega

/-- Every token keeps the counts right. -/
theorem Counted.take {input behind : Input} (h : reader.Counted)
    (scanned : Token.scan? input = .ok (some (token, behind)))
    (taken : reader.Takes token after) : after.Counted := by
  have flat : ∀ p, token = .term p → p.isFlat = true := by
    rintro p rfl
    cases reads_of_scan? scanned with
    | term flat _ => exact flat
  obtain ⟨groups, loops⟩ := taken.counts
  constructor
  · rw [groups, taken.tally _ _ flat, h.groups]
  · rw [loops, taken.tally _ _ flat, h.loops]

end Reader

namespace NumberedPattern

variable {source : String} {pattern : NumberedPattern}

/-- The groups of a pattern that is read are numbered from 1 up to their count. -/
theorem numbered_groupCount (h : parse source = .ok pattern) :
    pattern.tree.Numbered 1 (pattern.groupCount + 1) := by
  obtain ⟨reader, counted, closed, rfl⟩ :=
    Reader.exists_of_read (motive := Reader.Counted) Reader.Counted.take Reader.counted_start h
  have numbered := Pattern.numbered_number reader.body 1
  rw [Pattern.number_snd, Reader.tally_body, Nat.add_comm] at numbered
  rw [counted.groups, Reader.tally, closed]
  exact numbered

end NumberedPattern

end BacktrackRegex
