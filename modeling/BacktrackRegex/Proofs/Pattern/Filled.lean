import BacktrackRegex.Proofs.Pattern.Tally

/-!
# No empty sequences or choices

A pattern is `Filled` if no sequence and no choice in it is empty. A sequence of no terms is read as
the empty pattern, so all that a `Reader` puts together is filled, and numbering keeps the form of a
pattern. Hence a pattern that is read is filled (`NumberedPattern.filled_of_parse`).
-/

namespace BacktrackRegex

namespace Pattern

variable {α : Type}

mutual

/-- Whether no sequence and no choice in a pattern is empty. -/
def Filled : Pattern α → Prop
  | group _ _ body => Filled body
  | quantified _ _ _ _ body => Filled body
  | seq terms => terms ≠ [] ∧ FilledAll terms
  | choice alternatives => alternatives ≠ [] ∧ FilledAll alternatives
  | _ => True
termination_by structural p => p

/-- Whether all patterns of a list are filled. -/
def FilledAll : List (Pattern α) → Prop
  | [] => True
  | p :: rest => Filled p ∧ FilledAll rest
termination_by structural ps => ps

end

theorem filledAll_iff {ps : List (Pattern α)} : FilledAll ps ↔ ∀ p ∈ ps, p.Filled := by
  induction ps with
  | nil => exact ⟨fun _ => nofun, fun _ => trivial⟩
  | cons p rest ih => rw [FilledAll, ih, List.forall_mem_cons]

theorem filled_of_isFlat {p : Pattern α} (h : p.isFlat = true) : p.Filled := by
  cases p <;> trivial

theorem filled_ofTerms {terms : List (Pattern α)} (h : ∀ p ∈ terms, p.Filled) :
    (ofTerms terms).Filled := by
  match terms with
  | [] => trivial
  | [p] => exact h p List.mem_cons_self
  | _ :: _ :: _ => exact ⟨nofun, filledAll_iff.mpr h⟩

theorem filled_ofChoices {alternatives : List (Pattern α)} (h : ∀ p ∈ alternatives, p.Filled) :
    (ofChoices alternatives).Filled := by
  match alternatives with
  | [] => trivial
  | [p] => exact h p List.mem_cons_self
  | _ :: _ :: _ => exact ⟨nofun, filledAll_iff.mpr h⟩

/-- The members of a list keep their form when they are numbered. -/
theorem filledAll_numberList {ps : List (Pattern α)}
    (h : ∀ p ∈ ps, p.Filled → ∀ next, (number p next).1.Filled) (filled : FilledAll ps)
    (next : Nat) :
    FilledAll (numberList ps next []).1 ∧ (ps ≠ [] → (numberList ps next []).1 ≠ []) := by
  induction ps generalizing next with
  | nil => exact ⟨trivial, fun ne => absurd rfl ne⟩
  | cons p rest ih =>
    obtain ⟨first, others⟩ := filled
    simp only [numberList]
    rw [numberList_eq]
    refine ⟨⟨h p List.mem_cons_self first next, ?_⟩, fun _ => List.cons_ne_nil _ _⟩
    exact (ih (fun q hq => h q (List.mem_cons_of_mem p hq)) others _).1

theorem Filled.number {p : Pattern α} (filled : p.Filled) (next : Nat) :
    (number p next).1.Filled := by
  induction p generalizing next with
  | group label kind body ih => exact ih filled _
  | quantified label min max greedy body ih => exact ih filled next
  | seq terms ih =>
    obtain ⟨others, ne⟩ := filledAll_numberList ih filled.2 next
    exact ⟨ne filled.1, others⟩
  | choice alternatives ih =>
    obtain ⟨others, ne⟩ := filledAll_numberList ih filled.2 next
    exact ⟨ne filled.1, others⟩
  | _ => trivial

end Pattern

namespace Reader

/-- All that was read so far is filled. -/
structure Filled (reader : Reader) : Prop where
  /-- the finished alternatives of the innermost group -/
  alternatives : ∀ p ∈ reader.alternatives, p.Filled
  /-- the terms of its alternative in progress -/
  terms : ∀ p ∈ reader.terms, p.Filled
  /-- what was read before the open groups -/
  enclosing : ∀ outer ∈ reader.enclosing,
    (∀ p ∈ outer.alternatives, p.Filled) ∧ ∀ p ∈ outer.terms, p.Filled

variable {reader after : Reader}

theorem filled_start : Reader.start.Filled :=
  ⟨nofun, nofun, nofun⟩

theorem Filled.ofTerms (h : reader.Filled) :
    (Pattern.ofTerms reader.terms.reverse).Filled :=
  Pattern.filled_ofTerms fun p mem => h.terms p (List.mem_reverse.mp mem)

theorem Filled.body (h : reader.Filled) : reader.body.Filled := by
  refine Pattern.filled_ofChoices fun p mem => ?_
  rcases List.mem_cons.mp (List.mem_reverse.mp mem) with rfl | mem
  · exact h.ofTerms
  · exact h.alternatives p mem

/-- Every token keeps what was read filled. -/
theorem Filled.take {token : Token} {input behind : Input} (h : reader.Filled)
    (scanned : Token.scan? input = .ok (some (token, behind))) (taken : reader.Takes token after) :
    after.Filled := by
  cases taken with
  | term p =>
    have flat : p.isFlat = true := by
      cases reads_of_scan? scanned with
      | term flat _ => exact flat
    exact ⟨h.alternatives, List.forall_mem_cons.mpr ⟨Pattern.filled_of_isFlat flat, h.terms⟩,
      h.enclosing⟩
  | bar =>
    exact ⟨List.forall_mem_cons.mpr ⟨h.ofTerms, h.alternatives⟩, List.forall_mem_nil _, h.enclosing⟩
  | opening =>
    exact ⟨List.forall_mem_nil _, List.forall_mem_nil _,
      List.forall_mem_cons.mpr ⟨⟨h.alternatives, h.terms⟩, h.enclosing⟩⟩
  | closing opened =>
    have around := h.enclosing
    rw [opened, List.forall_mem_cons] at around
    exact ⟨around.1.1, List.forall_mem_cons.mpr ⟨h.body, around.1.2⟩, around.2⟩
  | quantifier fresh last =>
    have read := h.terms
    rw [last, List.forall_mem_cons] at read
    exact ⟨h.alternatives, List.forall_mem_cons.mpr read, h.enclosing⟩

end Reader

/-- A pattern that is read is filled. -/
theorem NumberedPattern.filled_of_parse {source : String} {pattern : NumberedPattern}
    (h : parse source = .ok pattern) : pattern.tree.Filled := by
  obtain ⟨reader, filled, -, rfl⟩ :=
    Reader.exists_of_read (motive := Reader.Filled) Reader.Filled.take Reader.filled_start h
  exact filled.body.number 1

end BacktrackRegex
