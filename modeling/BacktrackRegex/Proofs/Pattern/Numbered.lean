import BacktrackRegex.Pattern.Reader

/-!
# Patterns with right labels

`Numbered p first next` says that the labels in `p` are those of a numbering that starts at `first`
and has `next` left over: every group and every quantifier is labelled with the numbers of the
capturing groups inside it. Numbering a pattern makes it so, hence it is so of every pattern that
is read.

Patterns hold lists of patterns, so the induction that comes with the type has a second part for
these lists; `Pattern.induction` is the one that gives a hypothesis for each member instead.
-/

namespace BacktrackRegex

namespace Pattern

variable {α : Type}

/-! ## Induction -/

section

variable {motive : Pattern α → Prop}
  (empty : motive .empty)
  (char : ∀ c, motive (.char c))
  (coded : ∀ c, motive (.coded c))
  (named : ∀ cls positive, motive (.named cls positive))
  (set : ∀ negated items, motive (.set negated items))
  (dot : motive .dot)
  (lineStart : motive .lineStart)
  (lineEnd : motive .lineEnd)
  (wordBoundary : ∀ inverted, motive (.wordBoundary inverted))
  (backreference : ∀ g, motive (.backreference g))
  (group : ∀ label kind body, motive body → motive (.group label kind body))
  (quantified : ∀ label min max greedy body, motive body →
    motive (.quantified label min max greedy body))
  (seq : ∀ terms, (∀ p ∈ terms, motive p) → motive (.seq terms))
  (choice : ∀ alternatives, (∀ p ∈ alternatives, motive p) → motive (.choice alternatives))

include empty char coded named set dot lineStart lineEnd wordBoundary backreference group
  quantified seq choice

-- the part for lists uses them all, but only through the other part, which the linter does not see
set_option linter.unusedSectionVars false in
mutual

/-- Induction over patterns, where a list of patterns has a hypothesis for each of its members. -/
@[induction_eliminator, elab_as_elim]
theorem induction : ∀ p, motive p
  | .empty => empty
  | .char c => char c
  | .coded c => coded c
  | .named cls positive => named cls positive
  | .set negated items => set negated items
  | .dot => dot
  | .lineStart => lineStart
  | .lineEnd => lineEnd
  | .wordBoundary inverted => wordBoundary inverted
  | .backreference g => backreference g
  | .group label kind body => group label kind body (induction body)
  | .quantified label min max greedy body => quantified label min max greedy body (induction body)
  | .seq terms => seq terms (inductionList terms)
  | .choice alternatives => choice alternatives (inductionList alternatives)
termination_by structural p => p

/-- The members of a list of patterns. -/
theorem inductionList : ∀ ps : List (Pattern α), ∀ p ∈ ps, motive p
  | [], _, h => absurd h List.not_mem_nil
  | p :: rest, q, h =>
    (List.mem_cons.mp h).elim (fun same => same ▸ induction p) (inductionList rest q)
termination_by structural ps => ps

end

end

/-! ## Labels -/

mutual

/-- The groups in a pattern are numbered from `first` on, and `next` is the first number left
over. -/
def Numbered : Pattern GroupRange → Nat → Nat → Prop
  | group label kind body, first, next =>
    label = ⟨first, next⟩ ∧ Numbered body (if kind.isCapturing then first + 1 else first) next
  | quantified label _ _ _ body, first, next => label = ⟨first, next⟩ ∧ Numbered body first next
  | seq terms, first, next => NumberedList terms first next
  | choice alternatives, first, next => NumberedList alternatives first next
  | _, first, next => first = next
termination_by structural p => p

/-- The groups in a list of patterns are numbered from left to right. -/
def NumberedList : List (Pattern GroupRange) → Nat → Nat → Prop
  | [], first, next => first = next
  | p :: rest, first, next => ∃ middle, Numbered p first middle ∧ NumberedList rest middle next
termination_by structural ps => ps

end

theorem numberedList_numberList {ps : List (Pattern α)}
    (h : ∀ p ∈ ps, ∀ next, (number p next).1.Numbered next (number p next).2) (next : Nat) :
    NumberedList (numberList ps next []).1 next (numberList ps next []).2 := by
  induction ps generalizing next with
  | nil => rfl
  | cons p rest ih =>
    simp only [numberList]
    rw [numberList_eq]
    exact ⟨(number p next).2, h p List.mem_cons_self next,
      ih (fun q hq => h q (List.mem_cons_of_mem p hq)) _⟩

/-- Numbering labels a pattern right. -/
theorem numbered_number (p : Pattern α) (next : Nat) :
    (number p next).1.Numbered next (number p next).2 := by
  induction p generalizing next with
  | group label kind body ih => exact ⟨rfl, ih _⟩
  | quantified label min max greedy body ih => exact ⟨rfl, ih next⟩
  | seq terms ih => exact numberedList_numberList ih next
  | choice alternatives ih => exact numberedList_numberList ih next
  | _ => rfl

theorem NumberedList.le {ps : List (Pattern GroupRange)}
    (h : ∀ p ∈ ps, ∀ {first next}, Numbered p first next → first ≤ next) {first next : Nat}
    (hn : NumberedList ps first next) : first ≤ next := by
  induction ps generalizing first with
  | nil => exact Nat.le_of_eq hn
  | cons p rest ih =>
    obtain ⟨middle, hp, hrest⟩ := hn
    exact Nat.le_trans (h p List.mem_cons_self hp)
      (ih (fun q hq => h q (List.mem_cons_of_mem p hq)) hrest)

/-- Numbers are given in increasing order. -/
theorem Numbered.le {p : Pattern GroupRange} {first next : Nat} (h : p.Numbered first next) :
    first ≤ next := by
  induction p generalizing first next with
  | group label kind body ih =>
    have := ih h.2
    split at this <;> omega
  | quantified label min max greedy body ih => exact ih h.2
  | seq terms ih => exact NumberedList.le ih h
  | choice alternatives ih => exact NumberedList.le ih h
  | _ => exact Nat.le_of_eq h

end Pattern

/-! ## Patterns that are read -/

/-- What holds at the start and after every token holds at the end, where no group is open. -/
theorem Reader.exists_of_read {motive : Reader → Prop}
    (step : ∀ {reader token input behind after}, motive reader →
      Token.scan? input = .ok (some (token, behind)) → reader.Takes token after → motive after)
    {n : Nat} {reader : Reader} {input : Input} {pattern : NumberedPattern} (start : motive reader)
    (h : read n reader input = .ok pattern) :
    ∃ reader, motive reader ∧ reader.enclosing = [] ∧
      pattern = ⟨(reader.body.number 1).1, reader.groupCount, reader.loopCount⟩ := by
  have ends {reader : Reader} {input : Input} (holds : motive reader)
      (finished : reader.finish input = .ok pattern) :
      ∃ reader, motive reader ∧ reader.enclosing = [] ∧
        pattern = ⟨(reader.body.number 1).1, reader.groupCount, reader.loopCount⟩ := by
    obtain ⟨closed, -, same⟩ := finish_eq_ok_iff.mp finished
    exact ⟨reader, holds, closed, same⟩
  induction n generalizing reader input with
  | zero => exact ends start h
  | succ n ih =>
    rw [read] at h
    rcases hs : Token.scan? input with fault | _ | ⟨token, after⟩ <;> rw [hs] at h
    · cases h
    · exact ends start h
    · rcases ht : reader.take token input.offset after.offset with fault | _ | reader'
      all_goals simp only [bind, Except.bind, ht] at h
      · cases h
      · exact ends start h
      · exact ih (step start hs (take_eq_some_iff.mp ht)) h

/-- The groups of a pattern that is read are numbered from 1 on. -/
theorem NumberedPattern.numbered_of_parse {source : String} {pattern : NumberedPattern}
    (h : parse source = .ok pattern) : ∃ next, pattern.tree.Numbered 1 next := by
  obtain ⟨reader, -, -, rfl⟩ :=
    Reader.exists_of_read (motive := fun _ => True) (fun _ _ _ => trivial) trivial h
  exact ⟨_, Pattern.numbered_number reader.body 1⟩

end BacktrackRegex
