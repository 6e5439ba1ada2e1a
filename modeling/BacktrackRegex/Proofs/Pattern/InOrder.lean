import BacktrackRegex.Proofs.Graph.Fragment
import BacktrackRegex.Proofs.Pattern.Nested
import BacktrackRegex.Proofs.Pattern.Spelled
import BacktrackRegex.Proofs.Pattern.Tally

/-!
# Groups are numbered in the order of their parentheses

`Pattern.captureLabels` lists the labels of the capturing groups in a pattern, each before those
inside it. For the labels of a pattern that a text spells this is the order of the parentheses
(`Spells.opened`), and for the labels of a numbered pattern it is that of the numbers
(`Numbered.captureNumbers_eq`). As both labels can stand in one tree (`exists_map_fst_snd`), the
k-th parenthesis that opens a capturing group opens the one with number k
(**`NumberedPattern.numbered_in_order`**).

The numbers in a part of the pattern follow one another in the same way, and the label of the part
is their range.
-/

namespace BacktrackRegex

/-- The largest number in a range. -/
theorem GroupRange.max?_toList (groups : GroupRange) :
    groups.toList.max? = if groups.first < groups.next then some (groups.next - 1) else none := by
  split
  · refine List.max?_eq_some_iff.mpr ⟨mem_toList.mpr ?_, fun g mem => ?_⟩
    · omega
    · have := mem_toList.mp mem
      omega
  · rw [toList, Nat.sub_eq_zero_of_le (by omega)]
    rfl

theorem GroupRange.toList_append {first middle next : Nat} (low : first ≤ middle)
    (high : middle ≤ next) : toList ⟨first, middle⟩ ++ toList ⟨middle, next⟩ =
      toList ⟨first, next⟩ := by
  obtain ⟨n, rfl⟩ := Nat.exists_eq_add_of_le low
  obtain ⟨m, rfl⟩ := Nat.exists_eq_add_of_le high
  simp only [toList]
  rw [Nat.add_sub_cancel_left, Nat.add_sub_cancel_left, Nat.add_assoc, Nat.add_sub_cancel_left,
    List.range'_append_1]

namespace Pattern

variable {α β : Type}

/-! ## Labels in order -/

mutual

/-- The labels of the capturing groups in a pattern, each before those of the groups inside it. -/
def captureLabels : Pattern α → List α
  | group label kind body => (if kind.isCapturing then [label] else []) ++ captureLabels body
  | quantified _ _ _ _ body => captureLabels body
  | seq terms => captureLabelsAll terms
  | choice alternatives => captureLabelsAll alternatives
  | _ => []
termination_by structural p => p

/-- Those in the patterns of a list. -/
def captureLabelsAll : List (Pattern α) → List α
  | [] => []
  | p :: rest => captureLabels p ++ captureLabelsAll rest
termination_by structural ps => ps

end

/-- The numbers of the capturing groups in a pattern. -/
def captureNumbers (p : Pattern GroupRange) : List Nat :=
  p.captureLabels.map (GroupRange.index · .capturing)

theorem captureLabels_of_isFlat {p : Pattern α} (h : p.isFlat = true) : p.captureLabels = [] := by
  cases p <;> first | rfl | cases h

theorem captureLabelsAll_append (ps qs : List (Pattern α)) :
    captureLabelsAll (ps ++ qs) = captureLabelsAll ps ++ captureLabelsAll qs := by
  induction ps with
  | nil => rfl
  | cons p rest ih =>
    rw [List.cons_append, captureLabelsAll, captureLabelsAll, ih, List.append_assoc]

@[simp] theorem captureLabelsAll_singleton (p : Pattern α) :
    captureLabelsAll [p] = p.captureLabels :=
  List.append_nil _

@[simp] theorem captureLabels_ofTerms (terms : List (Pattern α)) :
    (ofTerms terms).captureLabels = captureLabelsAll terms := by
  match terms with
  | [] | [_] | _ :: _ :: _ => simp [ofTerms, captureLabels, captureLabelsAll]

@[simp] theorem captureLabels_ofChoices (alternatives : List (Pattern α)) :
    (ofChoices alternatives).captureLabels = captureLabelsAll alternatives := by
  match alternatives with
  | [] | [_] | _ :: _ :: _ => simp [ofChoices, captureLabels, captureLabelsAll]

theorem captureLabels_map (f : α → β) (p : Pattern α) :
    (p.map f).captureLabels = p.captureLabels.map f := by
  have list {ps : List (Pattern α)}
      (h : ∀ p ∈ ps, (p.map f).captureLabels = p.captureLabels.map f) :
      captureLabelsAll (mapAll f ps) = (captureLabelsAll ps).map f := by
    induction ps with
    | nil => rfl
    | cons p rest ih =>
      rw [mapAll, captureLabelsAll, captureLabelsAll, List.map_append, h p List.mem_cons_self,
        ih fun q hq => h q (List.mem_cons_of_mem p hq)]
  induction p with
  | group label kind body ih =>
    rw [map, captureLabels, captureLabels, ih, List.map_append]
    split <;> rfl
  | quantified label min max greedy body ih => exact ih
  | seq terms ih => exact list ih
  | choice alternatives ih => exact list ih
  | _ => rfl

/-! ## The order of the parentheses -/

/-- Whether these places lie between two others, in order, with a parenthesis at each. -/
structure OpenedBetween (text : List Char) (places : List Nat) (start stop : Nat) : Prop where
  /-- the two are in order -/
  le : start ≤ stop
  /-- the places are in order -/
  increasing : places.Pairwise (· < ·)
  /-- they lie between -/
  between : ∀ place ∈ places, start ≤ place ∧ place < stop
  /-- a group is opened there -/
  opening : ∀ place ∈ places, text[place]? = some '('

namespace OpenedBetween

variable {text : List Char} {places places' : List Nat} {start middle stop : Nat}

theorem nil (le : start ≤ stop) : OpenedBetween text [] start stop :=
  ⟨le, .nil, nofun, nofun⟩

theorem upTo (h : OpenedBetween text places start middle) (le : middle ≤ stop) :
    OpenedBetween text places start stop :=
  ⟨Nat.le_trans h.le le, h.increasing,
    fun place mem => (h.between place mem).imp_right (Nat.lt_of_lt_of_le · le), h.opening⟩

theorem append (h : OpenedBetween text places start middle)
    (h' : OpenedBetween text places' middle stop) :
    OpenedBetween text (places ++ places') start stop := by
  refine ⟨Nat.le_trans h.le h'.le, ?_, fun place mem => ?_, fun place mem => ?_⟩
  · refine List.pairwise_append.mpr ⟨h.increasing, h'.increasing, fun place mem place' mem' => ?_⟩
    exact Nat.lt_of_lt_of_le (h.between place mem).2 (h'.between place' mem').1
  · rcases List.mem_append.mp mem with mem | mem
    · exact ⟨(h.between place mem).1, Nat.lt_of_lt_of_le (h.between place mem).2 h'.le⟩
    · exact ⟨Nat.le_trans h.le (h'.between place mem).1, (h'.between place mem).2⟩
  · rcases List.mem_append.mp mem with mem | mem
    · exact h.opening place mem
    · exact h'.opening place mem

/-- What a parenthesis opens. -/
theorem of_opening {kind : GroupKind} (h : (Token.opening kind).Between text start stop) :
    OpenedBetween text (if kind.isCapturing then [start] else []) start stop := by
  split
  · refine ⟨Nat.le_of_lt h.lt, List.pairwise_singleton .., fun place mem => ?_, fun place mem => ?_⟩
    · obtain rfl := List.mem_singleton.mp mem
      exact ⟨Nat.le_refl _, h.lt⟩
    · obtain rfl := List.mem_singleton.mp mem
      exact h.getElem?_opening
  · exact nil (Nat.le_of_lt h.lt)

end OpenedBetween

/-- **Groups are listed in the order of their parentheses.** -/
theorem Spells.opened {text : List Char} {part : Grammar.Part} {ps : List (Pattern Nat)}
    {start stop : Nat} (h : Spells text part ps start stop) :
    OpenedBetween text (captureLabelsAll ps) start stop := by
  induction h with
  | nil | none => exact .nil (Nat.le_refl _)
  | concat _ _ before last =>
    rw [captureLabelsAll_append]
    exact before.append last
  | bar _ _ bar before last =>
    rw [captureLabelsAll_append, captureLabelsAll_singleton, captureLabels_ofTerms]
    exact (before.append last).upTo (Nat.le_of_lt bar.lt)
  | leaf flat leaf =>
    have shorter := leaf.length_lt
    simp only [List.length_drop] at shorter
    rw [captureLabelsAll_singleton, captureLabels_of_isFlat flat]
    exact .nil (by omega)
  | group opening _ _ closing before last =>
    rw [captureLabelsAll_singleton, captureLabels, captureLabels_ofChoices,
      captureLabelsAll_append, captureLabelsAll_singleton, captureLabels_ofTerms]
    exact (OpenedBetween.of_opening opening).append
      ((before.append last).upTo (Nat.le_of_lt closing.lt))
  | quantified _ quantifier body => exact body.upTo (Nat.le_of_lt quantifier.lt)

/-! ## The order of the numbers -/

theorem NumberedList.captureNumbers_eq {ps : List (Pattern GroupRange)}
    (h : ∀ p ∈ ps, ∀ {first next}, p.Numbered first next →
      p.captureNumbers = GroupRange.toList ⟨first, next⟩) {first next : Nat}
    (numbered : NumberedList ps first next) :
    (captureLabelsAll ps).map (GroupRange.index · .capturing) =
      GroupRange.toList ⟨first, next⟩ := by
  induction ps generalizing first with
  | nil =>
    obtain rfl : first = next := numbered
    rw [GroupRange.toList, Nat.sub_self]
    rfl
  | cons p rest ih =>
    obtain ⟨middle, hp, hrest⟩ := numbered
    rw [captureLabelsAll, List.map_append, ih (fun q hq => h q (List.mem_cons_of_mem p hq)) hrest,
      ← GroupRange.toList_append hp.le (hrest.le fun _ _ => Numbered.le)]
    exact congrArg (· ++ _) (h p List.mem_cons_self hp)

/-- **Groups are listed in the order of their numbers**, and these follow one another. -/
theorem Numbered.captureNumbers_eq {p : Pattern GroupRange} {first next : Nat}
    (h : p.Numbered first next) : p.captureNumbers = GroupRange.toList ⟨first, next⟩ := by
  induction p generalizing first next with
  | group groups kind body ih =>
    obtain ⟨rfl, inner⟩ := h
    rw [captureNumbers, captureLabels, List.map_append]
    have inside := ih inner
    rw [captureNumbers] at inside
    rw [inside]
    cases kind with
    | capturing =>
      rw [← GroupRange.toList_append (Nat.le_succ first) inner.le]
      refine congrArg (· ++ _) ?_
      simp [GroupRange.toList, GroupRange.index, GroupKind.isCapturing]
    | nonCapturing | lookahead | negativeLookahead => rfl
  | quantified groups min max greedy body ih => exact ih h.2
  | seq terms ih => exact NumberedList.captureNumbers_eq ih h
  | choice alternatives ih => exact NumberedList.captureNumbers_eq ih h
  | _ =>
    obtain rfl : first = next := h
    rw [GroupRange.toList, Nat.sub_self]
    rfl

/-! ## Both labels in one tree -/

/-- Numbers can stand beside the labels that there were. -/
theorem exists_map_fst_snd (p : Pattern α) (next : Nat) :
    ∃ q : Pattern (α × GroupRange), q.map Prod.fst = p ∧ q.map Prod.snd = (p.number next).1 := by
  have list {ps : List (Pattern α)} (h : ∀ p ∈ ps, ∀ next, ∃ q : Pattern (α × GroupRange),
      q.map Prod.fst = p ∧ q.map Prod.snd = (p.number next).1) (next : Nat) :
      ∃ qs : List (Pattern (α × GroupRange)), mapAll Prod.fst qs = ps ∧
        mapAll Prod.snd qs = (numberList ps next []).1 := by
    induction ps generalizing next with
    | nil => exact ⟨[], rfl, rfl⟩
    | cons p rest ih =>
      obtain ⟨q, first, second⟩ := h p List.mem_cons_self next
      obtain ⟨qs, firsts, seconds⟩ :=
        ih (fun q hq => h q (List.mem_cons_of_mem p hq)) (p.number next).2
      refine ⟨q :: qs, ?_, ?_⟩
      · rw [mapAll, first, firsts]
      · rw [mapAll, second, seconds, numberList, numberList_eq rest _ [_]]
        rfl
  have flat {p : Pattern α} (h : p.isFlat = true) (next : Nat) :
      ∃ q : Pattern (α × GroupRange), q.map Prod.fst = p ∧ q.map Prod.snd = (p.number next).1 := by
    obtain ⟨q, -, -, first, second⟩ := exists_map_of_isFlat h
    exact ⟨q, first _, second _ next⟩
  induction p generalizing next with
  | group label kind body ih =>
    obtain ⟨q, first, second⟩ := ih (if kind.isCapturing then next + 1 else next)
    refine ⟨.group (label, ⟨next, ((group label kind body).number next).2⟩) kind q, ?_, ?_⟩
    · rw [map, first]
    · rw [map, second, number]
  | quantified label min max greedy body ih =>
    obtain ⟨q, first, second⟩ := ih next
    refine ⟨.quantified (label, ⟨next, (body.number next).2⟩) min max greedy q, ?_, ?_⟩
    · rw [map, first]
    · rw [map, second, number]
  | seq terms ih =>
    obtain ⟨qs, rfl, seconds⟩ := list ih next
    exact ⟨.seq qs, rfl, congrArg Pattern.seq seconds⟩
  | choice alternatives ih =>
    obtain ⟨qs, rfl, seconds⟩ := list ih next
    exact ⟨.choice qs, rfl, congrArg Pattern.choice seconds⟩
  | _ => exact flat rfl next

/-- The last number of a group is the largest inside, or its own if there are none. -/
theorem Numbered.lastIndex_eq {groups : GroupRange} {kind : GroupKind} {body : Pattern GroupRange}
    {first next : Nat} (h : (group groups kind body).Numbered first next) :
    groups.lastIndex =
      (group groups kind body).captureNumbers.max?.getD (groups.index kind) := by
  rw [h.captureNumbers_eq, GroupRange.max?_toList]
  obtain ⟨rfl, inner⟩ := h
  rw [GroupRange.lastIndex]
  split
  · rfl
  · next empty =>
    cases kind with
    | capturing => exact absurd inner.le empty
    | nonCapturing | lookahead | negativeLookahead => rfl

/-! ## Counts -/

section

variable (ofGroup : GroupKind → Nat) (ofQuantifier : Nat)

/-- Numbering changes no count. -/
theorem tally_number (p : Pattern α) (next : Nat) :
    (p.number next).1.tally ofGroup ofQuantifier = p.tally ofGroup ofQuantifier := by
  have list {ps : List (Pattern α)} (h : ∀ p ∈ ps, ∀ next,
      (p.number next).1.tally ofGroup ofQuantifier = p.tally ofGroup ofQuantifier) (next : Nat) :
      tallyAll ofGroup ofQuantifier (numberList ps next []).1 =
        tallyAll ofGroup ofQuantifier ps := by
    induction ps generalizing next with
    | nil => rfl
    | cons p rest ih =>
      rw [numberList, numberList_eq rest _ [_], tallyAll_append, tallyAll_reverse, tallyAll,
        tallyAll, tallyAll, Nat.add_zero, h p List.mem_cons_self,
        ih fun q hq => h q (List.mem_cons_of_mem p hq)]
  induction p generalizing next with
  | group label kind body ih => rw [number, tally, tally, ih]
  | quantified label min max greedy body ih => rw [number, tally, tally, ih]
  | seq terms ih => exact list ih next
  | choice alternatives ih => exact list ih next
  | _ => rfl

end

end Pattern

/-- A pattern brings a loop for each of its quantifiers. -/
theorem Draft.loops_emit (p : Pattern GroupRange) (draft : Draft) :
    (emit p draft).loops = draft.loops + p.tally (fun _ => 0) 1 := by
  induction p generalizing draft with
  | group groups kind body ih =>
    cases kind with
    | nonCapturing =>
      rw [emit, ih, Pattern.tally, Nat.zero_add]
    | capturing | lookahead | negativeLookahead =>
      rw [Pattern.tally, Nat.zero_add]
      exact ih _
  | quantified groups min max greedy body ih =>
    rw [Pattern.tally, ← Nat.add_assoc]
    exact ih _
  | seq terms ih =>
    rw [emit_seq, Pattern.tally]
    induction terms with
    | nil => rfl
    | cons p rest ih' =>
      rw [List.foldr_cons, ih p List.mem_cons_self, Pattern.tallyAll,
        ih' fun q hq => ih q (List.mem_cons_of_mem p hq)]
      omega
  | choice alternatives ih =>
    have all {ps : List (Pattern GroupRange)} (h : ∀ p ∈ ps, ∀ draft : Draft,
        (emit p draft).loops = draft.loops + p.tally (fun _ => 0) 1) (next : Nat)
        (entries : List Nat) (draft : Draft) : (emitAll ps next entries draft).2.loops =
          draft.loops + Pattern.tallyAll (fun _ => 0) 1 ps := by
      induction ps generalizing entries draft with
      | nil => rfl
      | cons p rest ih' =>
        rw [emitAll, ih' fun q hq => h q (List.mem_cons_of_mem p hq)]
        rw [h p List.mem_cons_self, Pattern.tallyAll, Nat.add_assoc]
    exact all ih ..
  | _ => rfl

namespace NumberedPattern

variable {source : String} {pattern : NumberedPattern}

/-- A pattern that is read counts its own groups and quantifiers. -/
theorem counts_of_parse (h : parse source = .ok pattern) :
    pattern.groupCount = pattern.tree.tally GroupKind.captures 0 ∧
      pattern.loopCount = pattern.tree.tally (fun _ => 0) 1 := by
  obtain ⟨reader, counted, closed, rfl⟩ :=
    Reader.exists_of_read (motive := Reader.Counted) Reader.Counted.take Reader.counted_start h
  simp only [Pattern.tally_number, Reader.tally_body]
  constructor
  · rw [counted.groups, Reader.tally, closed]
    rfl
  · rw [counted.loops, Reader.tally, closed]
    rfl

/-- Whether a tree is that of a pattern, with the places of its parentheses in a text beside the
numbers of its groups, and both in order. -/
structure Located (text : List Char) (pattern : NumberedPattern)
    (tree : Pattern (Nat × GroupRange)) : Prop where
  /-- the tree is spelled by the text -/
  spelled : (tree.map Prod.fst).SpelledBy text
  /-- it is that of the pattern -/
  same : tree.map Prod.snd = pattern.tree
  /-- each capturing group begins at a parenthesis -/
  opening : ∀ label ∈ tree.captureLabels, text[label.1]? = some '('
  /-- they are listed in the order of these -/
  increasing : tree.captureLabels.Pairwise fun label label' => label.1 < label'.1
  /-- the k-th of them has the number k -/
  numbers : tree.captureLabels.map (fun label => label.2.index .capturing) =
    List.range' 1 pattern.groupCount

theorem exists_located (h : parse source = .ok pattern) :
    ∃ tree, pattern.Located source.toList tree := by
  obtain ⟨p, spelled, same⟩ := spelled_of_parse h
  obtain ⟨tree, rfl, numbered⟩ := p.exists_map_fst_snd 1
  have same : tree.map Prod.snd = pattern.tree := numbered.trans same.symm
  have ⟨alternatives, terms, middle, stop, choices, sequence, _, parts⟩ := spelled
  have opened := choices.opened.append sequence.opened
  have places : tree.captureLabels.map Prod.fst =
      Pattern.captureLabelsAll alternatives ++ Pattern.captureLabelsAll terms := by
    rw [← Pattern.captureLabels_map, parts, Pattern.captureLabels_ofChoices,
      Pattern.captureLabelsAll_append, Pattern.captureLabelsAll_singleton,
      Pattern.captureLabels_ofTerms]
  rw [← places] at opened
  refine ⟨tree, spelled, same, fun label mem => ?_, List.pairwise_map.mp opened.increasing, ?_⟩
  · exact opened.opening label.1 (List.mem_map_of_mem mem)
  · have numbers := (numbered_groupCount h).captureNumbers_eq
    rw [Pattern.captureNumbers, ← same, Pattern.captureLabels_map, List.map_map] at numbers
    exact numbers

/-- **The groups of a pattern that is read are numbered in the order of their parentheses.** All
groups and quantifiers are labelled with the numbers of the capturing groups inside them, their own
included, and the pattern and its graph count what there is. -/
theorem numbered_in_order (h : parse source = .ok pattern) :
    (∃ tree, pattern.Located source.toList tree) ∧
    (∀ {looks groups kind body}, pattern.tree.Holds looks (.group groups kind body) →
      groups.toList = (Pattern.group groups kind body).captureNumbers ∧
      groups.lastIndex =
        (Pattern.group groups kind body).captureNumbers.max?.getD (groups.index kind) ∧
      (kind.isCapturing = false → groups.index kind = 0)) ∧
    (∀ {looks groups min max greedy body},
      pattern.tree.Holds looks (.quantified groups min max greedy body) →
      groups.toList = (Pattern.quantified groups min max greedy body).captureNumbers) ∧
    pattern.groupCount = pattern.tree.tally GroupKind.captures 0 ∧
    pattern.loopCount = pattern.tree.tally (fun _ => 0) 1 ∧
    (Graph.ofPattern pattern).slots = pattern.groupCount + 1 ∧
    (Graph.ofPattern pattern).loops = pattern.loopCount + 1 := by
  have numbered := numbered_groupCount h
  obtain ⟨groups, loops⟩ := counts_of_parse h
  refine ⟨exists_located h, fun holds => ?_, fun holds => ?_, groups, loops, rfl, ?_⟩
  · obtain ⟨first, next, -, -, part⟩ := numbered.of_holds holds
    refine ⟨?_, part.lastIndex_eq, fun silent => ?_⟩
    · rw [part.captureNumbers_eq, part.1]
    · rw [GroupRange.index, silent]
      rfl
  · obtain ⟨first, next, -, -, part⟩ := numbered.of_holds holds
    rw [part.captureNumbers_eq, part.1]
  · show (Draft.emit Graph.skipAhead _).loops = _
    rw [Draft.loops_emit, loops]
    show (Draft.emit pattern.tree _).loops + 1 = _
    rw [Draft.loops_emit]
    exact congrArg (· + 1) (Nat.zero_add _)

theorem numbered_in_order_nested :
    let inner : Pattern GroupRange := .group ⟨2, 3⟩ .capturing (.char 'b')
    let body : Pattern GroupRange :=
      .quantified ⟨2, 3⟩ 0 none true (.group ⟨2, 3⟩ .nonCapturing inner)
    let tree : Pattern GroupRange :=
      .seq [.group ⟨1, 3⟩ .capturing (.seq [.char 'a', body]),
        .group ⟨3, 4⟩ .lookahead (.group ⟨3, 4⟩ .capturing (.char 'c'))]
    let pattern : NumberedPattern := ⟨tree, 3, 1⟩
    NumberedPattern.parse "(a(?:(b))*)(?=(c))" = .ok pattern ∧
      (∃ tree, pattern.Located "(a(?:(b))*)(?=(c))".toList tree) ∧
      GroupRange.lastIndex ⟨2, 3⟩ =
        (Pattern.group ⟨2, 3⟩ .nonCapturing inner).captureNumbers.max?.getD 0 ∧
      (Graph.ofPattern pattern).loops = 2 := by
  intro inner body tree pattern
  have parsed : NumberedPattern.parse "(a(?:(b))*)(?=(c))" = .ok pattern := rfl
  have holds : pattern.tree.Holds [] (.group ⟨2, 3⟩ .nonCapturing inner) :=
    .seq List.mem_cons_self (.capturing (.seq (List.mem_cons_of_mem _ List.mem_cons_self)
      (.quantified (.self _))))
  obtain ⟨located, labels, -, -, -, -, loops⟩ := numbered_in_order parsed
  exact ⟨parsed, located, (labels holds).2.1, loops⟩

end NumberedPattern

end BacktrackRegex
