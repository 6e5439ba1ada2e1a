import BacktrackRegex.Proofs.Graph.Closed
import BacktrackRegex.Proofs.Graph.WellFormed
import BacktrackRegex.Proofs.Pattern.Accepts
import BacktrackRegex.Proofs.Pattern.InOrder

/-!
# How large a graph becomes

The number of nodes that a pattern brings can be read off the pattern (`Pattern.weight`): one for
each part without parts, and those around a group, a quantifier or a choice. Between two places of a
text there are not more of them than three for each character, but one more for the last
alternative, which may be empty (`Pattern.Spells.weight_le`). So the graph of a pattern of `n`
characters has at most `3 * n + 6` nodes, and without groups, quantifiers or choices fewer.

All numbers in it then fit the words that are meant for them (**`Graph.wordSized_of_parse`**).
-/

namespace BacktrackRegex

/-! ## Weights -/

/-- The number of nodes around the body of a group. -/
def GroupKind.weight : GroupKind → Nat
  | .nonCapturing => 0
  | _ => 2

/-- The nodes that are counted beside the weight of each pattern of a part: for alternatives the two
around them, though they come only once. -/
def Grammar.Part.surplus : Grammar.Part → Nat
  | .choice => 2
  | _ => 0

namespace Pattern

variable {α β : Type}

mutual

/-- The number of nodes that a pattern brings. -/
def weight : Pattern α → Nat
  | group _ kind body => kind.weight + weight body
  | quantified _ _ _ _ body => 1 + weight body
  | seq terms => weightAll terms
  | choice alternatives => 2 + weightAll alternatives
  | _ => 1
termination_by structural p => p

/-- The number of nodes that the patterns of a list bring. -/
def weightAll : List (Pattern α) → Nat
  | [] => 0
  | p :: rest => weight p + weightAll rest
termination_by structural ps => ps

end

theorem weightAll_append (ps qs : List (Pattern α)) :
    weightAll (ps ++ qs) = weightAll ps + weightAll qs := by
  induction ps with
  | nil => exact (Nat.zero_add _).symm
  | cons p rest ih => rw [List.cons_append, weightAll, weightAll, ih, Nat.add_assoc]

theorem weight_of_isFlat {p : Pattern α} (h : p.isFlat = true) : p.weight = 1 := by
  cases p <;> first | rfl | cases h

/-- No terms bring a node for the empty pattern. -/
theorem weight_ofTerms_le (terms : List (Pattern α)) :
    (ofTerms terms).weight ≤ weightAll terms + 1 := by
  match terms with
  | [] | [_] | _ :: _ :: _ => simp [ofTerms, weight, weightAll]

/-- Alternatives bring two nodes around them, unless there is only one. -/
theorem weight_ofChoices_le (alternatives : List (Pattern α)) (last : Pattern α) :
    (ofChoices (alternatives ++ [last])).weight ≤
      2 * alternatives.length + weightAll alternatives + last.weight := by
  match alternatives with
  | [] => simp [ofChoices, weightAll]
  | [first] =>
    simp only [List.cons_append, List.nil_append, ofChoices, weight, weightAll, List.length_cons,
      List.length_nil]
    omega
  | first :: second :: others =>
    simp only [List.cons_append, ofChoices, weight, weightAll, weightAll_append, List.length_cons]
    omega

/-- The labels make no difference. -/
theorem weight_map (f : α → β) (p : Pattern α) : (p.map f).weight = p.weight := by
  have list {ps : List (Pattern α)} (h : ∀ p ∈ ps, (p.map f).weight = p.weight) :
      weightAll (mapAll f ps) = weightAll ps := by
    induction ps with
    | nil => rfl
    | cons p rest ih =>
      rw [mapAll, weightAll, weightAll, h p List.mem_cons_self,
        ih fun q hq => h q (List.mem_cons_of_mem p hq)]
  induction p with
  | group label kind body ih => rw [map, weight, weight, ih]
  | quantified label min max greedy body ih => rw [map, weight, weight, ih]
  | seq terms ih => rw [map, weight, weight, list ih]
  | choice alternatives ih => rw [map, weight, weight, list ih]
  | _ => rfl

/-! ## Weights and characters -/

/-- What stands between two places of a text brings at most three nodes for each character. -/
theorem Spells.weight_le {text : List Char} {part : Grammar.Part} {ps : List (Pattern Nat)}
    {start stop : Nat} (h : Spells text part ps start stop) :
    part.surplus * ps.length + weightAll ps + 3 * (text.drop stop).length ≤
      3 * (text.drop start).length := by
  induction h with
  | nil | none => simp [weightAll]
  | concat _ _ ih ih' =>
    simp only [Grammar.Part.surplus, weightAll_append, weightAll] at ih ih' ⊢
    omega
  | @bar alternatives terms _ _ _ _ _ _ bar ih ih' =>
    have room := Token.Reads.length_lt bar
    have last := weight_ofTerms_le terms
    simp only [Grammar.Part.surplus, weightAll_append, weightAll, List.length_append,
      List.length_singleton] at ih ih' ⊢
    omega
  | leaf flat leaf =>
    have room := leaf.length_lt
    simp only [Grammar.Part.surplus, weightAll, weight_of_isFlat flat]
    omega
  | @group kind alternatives terms _ _ _ _ _ opening _ _ closing ih ih' =>
    have room := Token.Reads.length_lt opening
    have room' := Token.Reads.length_lt closing
    have last := weight_ofTerms_le terms
    have body := weight_ofChoices_le alternatives (ofTerms terms)
    have around : kind.weight ≤ 2 := by cases kind <;> decide
    simp only [Grammar.Part.surplus, weightAll, weight] at ih ih' ⊢
    omega
  | quantified _ quantifier ih =>
    have room := Token.Reads.length_lt quantifier
    simp only [Grammar.Part.surplus, weightAll, weight] at ih ⊢
    omega

/-- A pattern brings at most three nodes for each character of its text, and one more. -/
theorem SpelledBy.weight_le {text : List Char} {p : Pattern Nat} (h : p.SpelledBy text) :
    p.weight ≤ 3 * text.length + 1 := by
  obtain ⟨alternatives, terms, middle, stop, choices, sequence, ends, rfl⟩ := h
  have before := choices.weight_le
  have behind := sequence.weight_le
  have last := weight_ofTerms_le terms
  have whole := weight_ofChoices_le alternatives (ofTerms terms)
  simp only [Grammar.Part.surplus, ends, List.length_nil, List.drop_zero] at before behind
  omega

end Pattern

/-- A pattern that is read brings at most three nodes for each character, and one more. -/
theorem NumberedPattern.weight_le_of_parse {source : String} {pattern : NumberedPattern}
    (h : parse source = .ok pattern) : pattern.tree.weight ≤ 3 * source.length + 1 := by
  obtain ⟨tree, located⟩ := exists_located h
  have le := located.spelled.weight_le
  rwa [Pattern.weight_map, ← Pattern.weight_map Prod.snd tree, located.same,
    String.length_toList] at le

/-! ## Sizes -/

namespace Draft

/-- A pattern brings as many nodes as its weight says. -/
theorem size_emit (p : Pattern GroupRange) (draft : Draft) :
    (emit p draft).nodes.size = draft.nodes.size + p.weight := by
  induction p generalizing draft with
  | group groups kind body ih =>
    cases kind with
    | nonCapturing => rw [emit, ih, Pattern.weight, GroupKind.weight, Nat.zero_add]
    | capturing | lookahead | negativeLookahead =>
      simp only [emit, prepend, size_add, ih, Pattern.weight, GroupKind.weight]
      omega
  | quantified groups min max greedy body ih =>
    simp only [emit, size_closeLoop, size_openLoop, ih, Pattern.weight]
    omega
  | seq terms ih =>
    rw [emit_seq, Pattern.weight]
    induction terms with
    | nil => rfl
    | cons p rest ih' =>
      rw [List.foldr_cons, ih p List.mem_cons_self, Pattern.weightAll,
        ih' fun q hq => ih q (List.mem_cons_of_mem p hq)]
      omega
  | choice alternatives ih =>
    have all {ps : List (Pattern GroupRange)} (h : ∀ p ∈ ps, ∀ draft : Draft,
        (emit p draft).nodes.size = draft.nodes.size + p.weight) (next : Nat)
        (entries : List Nat) (draft : Draft) : (emitAll ps next entries draft).2.nodes.size =
          draft.nodes.size + Pattern.weightAll ps := by
      induction ps generalizing entries draft with
      | nil => rfl
      | cons p rest ih' =>
        rw [emitAll, ih' fun q hq => h q (List.mem_cons_of_mem p hq)]
        rw [h p List.mem_cons_self, Pattern.weightAll, Nat.add_assoc]
    simp only [emit_choice, prepend, size_add, all ih, Pattern.weight]
    omega
  | _ => exact size_add ..

end Draft

/-- A pattern that is read keeps within the limits. -/
theorem NumberedPattern.inBounds_of_parse {source : String} {pattern : NumberedPattern}
    (h : parse source = .ok pattern) :
    pattern.groupCount ≤ maxGroups ∧ pattern.loopCount ≤ maxLoops := by
  have empty : Reader.start.InBounds := ⟨Nat.zero_le _, Nat.zero_le _⟩
  obtain ⟨reader, bounds, -, rfl⟩ :=
    Reader.exists_of_read (motive := Reader.InBounds) (fun h _ taken => h.take taken) empty h
  exact bounds

/-! ## Words -/

/-- The word for a node that is not known yet. -/
def unresolved : UInt32 :=
  .ofNat (UInt32.size - 1)

/-- Whether the numbers of a graph fit the words that are meant for them: of 32 bits for nodes, with
one word left over, and of 16 bits for quantifiers and for slots, the end of the slots included. -/
structure Graph.WordSized (graph : Graph) : Prop where
  /-- the names of nodes -/
  nodes : ∀ id < graph.nodes.size, (UInt32.ofNat id).toNat = id ∧ UInt32.ofNat id ≠ unresolved
  /-- the numbers of quantifiers -/
  loops : ∀ id < graph.loops, (UInt16.ofNat id).toNat = id
  /-- the numbers of groups, and where ranges of them end -/
  slots : ∀ slot ≤ graph.slots, (UInt16.ofNat slot).toNat = slot

/-- Whether all labels in a tree are ranges of slots, and all capturing groups have a slot. -/
structure Pattern.Labelled (p : Pattern GroupRange) (slots : Nat) : Prop where
  /-- the labels of groups -/
  groups : ∀ {looks groups kind body}, p.Holds looks (.group groups kind body) →
    groups.Within slots ∧ groups.index kind < slots ∧ groups.lastIndex < slots
  /-- the labels of quantifiers -/
  quantifiers : ∀ {looks groups min max greedy body},
    p.Holds looks (.quantified groups min max greedy body) → groups.Within slots

namespace Graph

variable {source : String} {pattern : NumberedPattern}

/-- The nodes of a graph are those of the tree and five around them. -/
theorem size_ofPattern (pattern : NumberedPattern) :
    (ofPattern pattern).nodes.size = pattern.tree.weight + 5 := by
  have ending : ending.nodes.size = 2 := rfl
  have skip : skipAhead.weight = 2 := rfl
  show (Draft.emit skipAhead (whole pattern)).nodes.size = _
  rw [Draft.size_emit, skip, whole, Draft.prepend, Draft.size_add, Draft.size_emit, ending]
  omega

/-- The graph of a pattern of so many characters has at most three times as many nodes and six. -/
theorem size_le_of_parse (parsed : NumberedPattern.parse source = .ok pattern) :
    (ofPattern pattern).nodes.size ≤ 3 * source.length + 6 := by
  have weight := NumberedPattern.weight_le_of_parse parsed
  rw [size_ofPattern]
  omega

/-- The quantifier that skips characters comes last. -/
theorem loops_ofPattern (parsed : NumberedPattern.parse source = .ok pattern) :
    (ofPattern pattern).loops = pattern.loopCount + 1 := by
  have skip : skipAhead.tally (fun _ => 0) 1 = 1 := rfl
  have ending : ending.loops = 0 := rfl
  obtain ⟨-, loops⟩ := NumberedPattern.counts_of_parse parsed
  show (Draft.emit skipAhead (whole pattern)).loops = _
  rw [Draft.loops_emit, skip]
  show (Draft.emit pattern.tree _).loops + 1 = _
  rw [Draft.loops_emit, ending, loops, Nat.zero_add]

theorem exists_start (parsed : NumberedPattern.parse source = .ok pattern) :
    ∃ body, (ofPattern pattern).nodes[(ofPattern pattern).start]? =
      some (.loop ⟨pattern.loopCount, 0, none, false, ⟨0, 0⟩⟩ body
        (ofPattern pattern).anchored) := by
  have filled := NumberedPattern.filled_of_parse parsed
  have skip : Emits pattern skipAhead (whole pattern) := .inr (.self ..)
  have any : Pattern.Filled (.set true [] : Pattern GroupRange) := trivial
  have loop := (Draft.loopsBack_of_inPlace any (part_of_emits filled skip).2).node
  have last : (whole pattern).loops = pattern.loopCount :=
    Nat.succ.inj (loops_ofPattern parsed)
  rw [last] at loop
  exact ⟨_, loop⟩

/-- **The numbers of a graph fit their words** if the pattern is not too long. -/
theorem wordSized_of_parse (parsed : NumberedPattern.parse source = .ok pattern)
    (short : source.length < 2 ^ 30) : (ofPattern pattern).WordSized := by
  have size := size_le_of_parse parsed
  have loops := loops_ofPattern parsed
  obtain ⟨groups, quantifiers⟩ := NumberedPattern.inBounds_of_parse parsed
  have slots : (ofPattern pattern).slots = pattern.groupCount + 1 := rfl
  constructor
  case nodes =>
    intro id lt
    have below : id < UInt32.size - 1 := by
      simp only [UInt32.size]
      omega
    have same : (UInt32.ofNat id).toNat = id :=
      UInt32.toNat_ofNat_of_lt (Nat.lt_of_lt_of_le below (Nat.sub_le ..))
    refine ⟨same, fun none => Nat.ne_of_lt below ?_⟩
    rw [← same, none]
    rfl
  case loops =>
    intro id lt
    apply UInt16.toNat_ofNat_of_lt
    simp only [UInt16.size, maxLoops] at quantifiers ⊢
    omega
  case slots =>
    intro slot le
    apply UInt16.toNat_ofNat_of_lt
    simp only [UInt16.size, maxGroups] at groups ⊢
    omega

end Graph

/-- The labels of a numbered tree are ranges of its slots. -/
theorem Pattern.Numbered.labelled {p : Pattern GroupRange} {first next : Nat}
    (h : p.Numbered first next) (positive : 0 < next) : p.Labelled next := by
  constructor
  case groups =>
    intro looks groups kind body holds
    obtain ⟨first', next', -, le, part⟩ := h.of_holds holds
    have ordered := part.le
    obtain ⟨rfl, inner⟩ := part
    refine ⟨⟨ordered, le⟩, ?_, ?_⟩
    · rw [GroupRange.index]
      cases kind with
      | capturing => exact Nat.lt_of_lt_of_le (Nat.lt_of_succ_le inner.le) le
      | nonCapturing | lookahead | negativeLookahead => exact positive
    · rw [GroupRange.lastIndex]
      split
      · next some => exact Nat.lt_of_lt_of_le (Nat.sub_one_lt_of_lt some) le
      · exact positive
  case quantifiers =>
    intro looks groups min max greedy body holds
    obtain ⟨first', next', -, le, part⟩ := h.of_holds holds
    have ordered := part.le
    obtain ⟨rfl, -⟩ := part
    exact ⟨ordered, le⟩

end BacktrackRegex
