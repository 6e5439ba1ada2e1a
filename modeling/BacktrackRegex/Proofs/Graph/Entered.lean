import BacktrackRegex.Proofs.Graph.WellFormed

/-!
# Parts are entered at their entries

The nodes of a part of a pattern are a block, so edges lead out of it to one node only. Into it they
lead to one node only as well: whatever is emitted later knows the part by its entry
(**`Draft.Emits.entered`**, and `Graph.into_of_emits` in the graph of a pattern).

`Entered` says so of a part in what was emitted so far, and there is a lemma for each way in which
more is put around it.
-/

namespace BacktrackRegex

namespace Draft

variable {draft : Draft}

/-- From the place `base` on, `after` holds a part that was put in front of `before`, and knows it
by its entry only. -/
structure Entered (base : Nat) (after before part : Draft) : Prop where
  /-- the part is inside -/
  low : base ≤ before.nodes.size
  /-- all of it -/
  high : part.nodes.size ≤ after.nodes.size
  /-- if `after` is entered in the part, then at the entry of the part -/
  entry : before.nodes.size ≤ after.entry → after.entry < part.nodes.size →
    after.entry = part.entry
  /-- other nodes lead into the part at its entry -/
  into : ∀ {i j}, base ≤ i → Leads after.nodes i j → before.nodes.size ≤ j →
    j < part.nodes.size → before.nodes.size ≤ i ∧ i < part.nodes.size ∨ j = part.entry

theorem entered_self (before part : Draft) :
    Entered before.nodes.size part before part :=
  ⟨Nat.le_refl _, Nat.le_refl _, fun _ _ => rfl, fun le leads _ _ => .inl ⟨le, leads.lt_size⟩⟩

/-- More nodes are put around what holds a part: each edge that they bring leads to the entry of
what is there, below it, or above it. -/
theorem Entered.grow {base base' : Nat} {inner after before part : Draft}
    (h : Entered base inner before part) (le : base' ≤ base)
    (size : inner.nodes.size ≤ after.nodes.size)
    (entry : after.entry = inner.entry ∨ after.entry < base ∨ inner.nodes.size ≤ after.entry)
    (edges : ∀ {i j}, base' ≤ i → Leads after.nodes i j → (base ≤ i ∧ Leads inner.nodes i j) ∨
      j = inner.entry ∨ j < base ∨ inner.nodes.size ≤ j) :
    Entered base' after before part := by
  have below := h.low
  have above := h.high
  refine ⟨Nat.le_trans le below, Nat.le_trans above size, ?_, ?_⟩
  · intro hlow hhigh
    rcases entry with same | beyond
    · rw [same] at hlow hhigh ⊢
      exact h.entry hlow hhigh
    · omega
  · intro i j hi leads hlow hhigh
    obtain ⟨hi, leads⟩ | rfl | beyond := edges hi leads
    · exact h.into hi leads hlow hhigh
    · exact .inr (h.entry hlow hhigh)
    · omega

/-- All edges of the nodes that were added to `before` lead to nodes that exist. -/
theorem Block.lt_size {before after : Draft} (h : Block before after)
    (valid : before.entry < before.nodes.size) {i j : Nat} (new : before.nodes.size ≤ i)
    (leads : Leads after.nodes i j) : j < after.nodes.size := by
  have grown := h.grown.size
  have := h.inside new leads
  omega

theorem Branches.lt_size {before after : Draft} {next : Nat} {entries : List Nat}
    (h : Branches before after next entries) (valid : next < before.nodes.size) {i j : Nat}
    (new : before.nodes.size ≤ i) (leads : Leads after.nodes i j) : j < after.nodes.size := by
  have grown := h.grown.size
  have := h.inside new leads
  omega

/-- A node in front of what holds a part, and what lies below it. -/
theorem Entered.add {base : Nat} {opened inner before part : Draft} {node : Node}
    (h : Entered opened.nodes.size inner before part) (grown : Extends opened inner)
    (le : base ≤ opened.nodes.size)
    (below : ∀ {i j}, base ≤ i → Leads opened.nodes i j → j < opened.nodes.size)
    (successors : ∀ j ∈ node.successors, j = inner.entry ∨ j < opened.nodes.size) :
    Entered base (inner.add node) before part := by
  have size : (inner.add node).nodes.size = inner.nodes.size + 1 := size_add ..
  refine h.grow le (by omega) (.inr (.inr (Nat.le_refl _))) ?_
  intro i j hi leads
  obtain old | ⟨rfl, mem⟩ := leads_or_of_leads_add leads
  · by_cases lower : i < opened.nodes.size
    · exact .inr (.inr (.inl (below hi ((grown.leads_iff lower).mp old))))
    · exact .inl ⟨Nat.le_of_not_lt lower, old⟩
  · rcases successors j mem with same | lt
    · exact .inr (.inl same)
    · exact .inr (.inr (.inl lt))

/-- A quantifier around what holds a part. -/
theorem Entered.loop {min : Nat} {max : Option Nat} {greedy : Bool} {groups : GroupRange}
    {inner before part : Draft}
    (h : Entered (draft.openLoop min max greedy groups).nodes.size inner before part)
    (grown : Extends (draft.openLoop min max greedy groups) inner)
    (valid : draft.entry < draft.nodes.size) :
    Entered draft.nodes.size (inner.closeLoop draft.nodes.size) before part := by
  have opened := size_openLoop draft min max greedy groups
  have size := size_closeLoop inner draft.nodes.size
  have entered : (inner.closeLoop draft.nodes.size).entry = draft.nodes.size := rfl
  have filled := getElem?_closeLoop_self inner grown.reserved
  refine h.grow (by omega) (Nat.le_of_eq size.symm) (by omega) ?_
  intro i j hi leads
  by_cases here : i = draft.nodes.size
  · subst here
    obtain ⟨node, there, mem⟩ := leads
    cases filled.symm.trans there
    obtain rfl | mem := List.mem_cons.mp mem
    · exact .inr (.inl rfl)
    · rw [List.mem_singleton.mp mem]
      exact .inr (.inr (.inl (by omega)))
  · rw [leads_congr (getElem?_closeLoop_of_ne inner here)] at leads
    exact .inl ⟨by omega, leads⟩

/-- A block in front of what holds a part. -/
theorem Entered.block {base : Nat} {inner after before part : Draft}
    (h : Entered base inner before part) (block : Block inner after) :
    Entered base after before part := by
  refine h.grow (Nat.le_refl _) block.grown.size (.inr (.inr block.low)) ?_
  intro i j hi leads
  by_cases lower : i < inner.nodes.size
  · exact .inl ⟨hi, (block.grown.leads_iff lower).mp leads⟩
  · have := block.inside (Nat.le_of_not_lt lower) leads
    omega

/-- A block behind what holds a part. -/
theorem Entered.behind {opened inner before part : Draft}
    (h : Entered opened.nodes.size inner before part) (grown : Extends opened inner)
    (le : draft.nodes.size ≤ opened.nodes.size)
    (below : ∀ {i j}, draft.nodes.size ≤ i → Leads opened.nodes i j → j < opened.nodes.size) :
    Entered draft.nodes.size inner before part := by
  refine h.grow le (Nat.le_refl _) (.inl rfl) ?_
  intro i j hi leads
  by_cases lower : i < opened.nodes.size
  · exact .inr (.inr (.inl (below hi ((grown.leads_iff lower).mp leads))))
  · exact .inl ⟨Nat.le_of_not_lt lower, leads⟩

/-- A term of a sequence. -/
theorem entered_seq {terms rest : List (Pattern GroupRange)} {p : Pattern GroupRange}
    {before part : Draft} (filled : ∀ q ∈ terms ++ p :: rest, q.Filled)
    (valid : draft.entry < draft.nodes.size)
    (h : Entered (rest.foldr emit draft).nodes.size (emit p (rest.foldr emit draft)) before part) :
    Entered draft.nodes.size (emit (.seq (terms ++ p :: rest)) draft) before part := by
  have later : ∀ q ∈ rest, q.Filled := fun q hq => filled q (by simp [hq])
  have earlier : ∀ q ∈ terms, q.Filled := fun q hq => filled q (by simp [hq])
  have grown := extends_foldr_emit (fun q (_ : q ∈ rest) => extends_emit q) draft
  have inner := (block_emit p (filled p (by simp)) _ (valid_foldr_emit later valid)).high
  have here : Entered draft.nodes.size (emit p (rest.foldr emit draft)) before part := by
    refine h.behind (extends_emit ..) grown.size fun {i j} hi leads => ?_
    rcases foldr_emit_eq_or_block later valid with none | block
    · rw [none] at leads
      exact absurd leads.lt_size (Nat.not_lt_of_le hi)
    · exact block.lt_size valid hi leads
  rw [emit_seq, List.foldr_append, List.foldr_cons]
  rcases foldr_emit_eq_or_block earlier inner with none | block
  · rwa [none]
  · exact here.block block

/-- The entries of alternatives in a row. -/
theorem entries_emitAll_append (ps : List (Pattern GroupRange)) (p : Pattern GroupRange)
    (rest : List (Pattern GroupRange)) (next : Nat) (draft : Draft) :
    let emitted := emit p { (emitAll ps next [] draft).2 with entry := next }
    (emitAll (ps ++ p :: rest) next [] draft).1 =
      (emitAll ps next [] draft).1 ++ emitted.entry :: (emitAll rest next [] emitted).1 := by
  induction ps generalizing draft with
  | nil =>
    simp only [List.nil_append, emitAll]
    rw [emitAll_eq]
    rfl
  | cons q others ih =>
    simp only [List.cons_append, emitAll] at ih ⊢
    rw [emitAll_eq, emitAll_eq others, ih]
    rfl

/-- An alternative of a choice. -/
theorem entered_choice {alternatives rest : List (Pattern GroupRange)} {p : Pattern GroupRange}
    {before part : Draft} (filled : ∀ q ∈ alternatives ++ p :: rest, q.Filled)
    (valid : draft.entry < draft.nodes.size)
    (h : Entered
      (emitAll alternatives (draft.prepend .join).entry [] (draft.prepend .join)).2.nodes.size
      (emit p { (emitAll alternatives (draft.prepend .join).entry [] (draft.prepend .join)).2 with
        entry := (draft.prepend .join).entry }) before part) :
    Entered draft.nodes.size (emit (.choice (alternatives ++ p :: rest)) draft) before part := by
  have joined : Block draft (draft.prepend .join) := block_prepend valid rfl
  have blocks {ps : List (Pattern GroupRange)} (sub : ∀ q ∈ ps, q ∈ alternatives ++ p :: rest)
      {draft : Draft} {next : Nat} (valid : next < draft.nodes.size) :
      Branches draft (emitAll ps next [] draft).2 next (emitAll ps next [] draft).1 :=
    branches_emitAll (fun q _ => block_emit q)
      (Pattern.filledAll_iff.mpr fun q hq => filled q (sub q hq)) valid
  rw [emit_choice, entries_emitAll_append, emitAll_append, emitAll, emitAll_eq]
  generalize draft.prepend .join = join at joined h ⊢
  have earlier : Branches join (emitAll alternatives join.entry [] join).2 join.entry _ :=
    blocks (by simp +contextual) joined.high
  generalize emitAll alternatives join.entry [] join = opened at earlier h ⊢
  have here : Block { opened.2 with entry := join.entry }
      (emit p { opened.2 with entry := join.entry }) :=
    block_emit p (filled p (by simp)) _ (Nat.lt_of_lt_of_le joined.high earlier.grown.size)
  generalize emit p { opened.2 with entry := join.entry } = inner at here h ⊢
  have later : Branches inner (emitAll rest join.entry [] inner).2 join.entry _ :=
    blocks (by simp +contextual) (Nat.lt_of_lt_of_le joined.high
      (Nat.le_trans earlier.grown.size here.grown.size))
  generalize emitAll rest join.entry [] inner = after at later ⊢
  have sizes : draft.nodes.size ≤ join.nodes.size ∧ join.nodes.size ≤ opened.2.nodes.size ∧
      opened.2.nodes.size ≤ inner.nodes.size ∧ inner.nodes.size ≤ after.2.nodes.size :=
    ⟨joined.grown.size, earlier.grown.size, here.grown.size, later.grown.size⟩
  have size : ∀ node, (after.2.add node).nodes.size = after.2.nodes.size + 1 := size_add after.2
  refine h.grow (by omega) (by rw [size]; omega) (.inr (.inr sizes.2.2.2)) ?_
  intro i j hi leads
  obtain old | ⟨-, mem⟩ := leads_or_of_leads_add leads
  · by_cases lower : i < inner.nodes.size
    · rw [later.grown.leads_iff lower] at old
      by_cases lower : i < opened.2.nodes.size
      · -- among the alternatives before this one, or the node that joins them
        have old : Leads opened.2.nodes i j := (here.grown.leads_iff lower).mp old
        by_cases lower : i < join.nodes.size
        · have := joined.lt_size valid hi ((earlier.grown.leads_iff lower).mp old)
          omega
        · have := earlier.lt_size joined.high (Nat.le_of_not_lt lower) old
          omega
      · exact .inl ⟨Nat.le_of_not_lt lower, old⟩
    · have := later.inside (Nat.le_of_not_lt lower) old
      have := joined.high
      omega
  · rcases List.mem_append.mp mem with mem | mem
    · exact .inr (.inr (.inl (earlier.high j mem)))
    · rcases List.mem_cons.mp mem with rfl | mem
      · exact .inr (.inl rfl)
      · exact .inr (.inr (.inr (later.low j mem)))

/-- **Every part of a pattern is entered at its entry**, wherever it stands. -/
theorem Emits.entered {p q : Pattern GroupRange} {before : Draft} (h : Emits p draft q before)
    (filled : p.Filled) (valid : draft.entry < draft.nodes.size) :
    Entered draft.nodes.size (emit p draft) before (emit q before) := by
  induction h with
  | self p draft => exact entered_self draft (emit p draft)
  | capturing h ih =>
    rename_i groups body draft q before
    have closed : Block draft (draft.prepend (.closeGroup groups.first)) := block_prepend valid rfl
    refine (ih filled closed.high).add (extends_emit ..) closed.grown.size
      (closed.lt_size valid) ?_
    exact fun j mem => .inl (List.mem_singleton.mp mem)
  | nonCapturing h ih => exact ih filled valid
  | lookahead h ih | negativeLookahead h ih =>
    rename_i groups body draft q before
    have ended := size_add draft .goal
    refine (ih filled (entry_lt_add ..)).add (extends_emit ..) (by omega) ?_ ?_
    · intro i j hi leads
      obtain old | ⟨-, mem⟩ := leads_or_of_leads_add leads
      · exact absurd old.lt_size (Nat.not_lt_of_le hi)
      · exact absurd mem List.not_mem_nil
    · intro j mem
      rcases List.mem_cons.mp mem with rfl | mem
      · exact .inl rfl
      · rw [List.mem_singleton.mp mem]
        exact .inr (by omega)
  | quantified h ih => exact (ih filled (entry_lt_openLoop ..)).loop (extends_emit ..) valid
  | seq h ih =>
    rename_i terms p rest draft q before
    have all := Pattern.filledAll_iff.mp filled.2
    have later := valid_foldr_emit (fun q (hq : q ∈ rest) => all q (by simp [hq])) valid
    exact entered_seq all valid (ih (all _ (by simp)) later)
  | choice h ih =>
    rename_i alternatives p rest draft q before
    have all := Pattern.filledAll_iff.mp filled.2
    have earlier := extends_emitAll (fun q (_ : q ∈ alternatives) => extends_emit q)
      (draft.prepend .join).entry [] (draft.prepend .join)
    have high : (draft.prepend .join).entry < (draft.prepend .join).nodes.size := entry_lt_add ..
    exact entered_choice all valid
      (ih (all p (by simp)) (Nat.lt_of_lt_of_le high earlier.size))

/-- The goal leads nowhere, so all edges of a draft with a block in front of it lead to nodes that
exist. -/
theorem Block.lt_size_of_start {after : Draft} (h : Block Draft.start after) {i j : Nat}
    (leads : Leads after.nodes i j) : j < after.nodes.size := by
  cases i with
  | zero =>
    obtain ⟨node, there, mem⟩ := leads
    cases (h.grown.same 0 Nat.one_pos).symm.trans there
    exact absurd mem List.not_mem_nil
  | succ i => exact h.lt_size Nat.one_pos (Nat.succ_le_succ (Nat.zero_le i)) leads

end Draft

namespace Graph

open Draft

variable {pattern : NumberedPattern}

theorem block_start_ending : Block Draft.start ending :=
  block_prepend (by decide) rfl

/-- In the graph of a pattern every part is entered at its entry. -/
theorem entered_of_emits (filled : pattern.tree.Filled) {q : Pattern GroupRange} {before : Draft}
    (h : Emits pattern q before) :
    Entered 0 (emit skipAhead (whole pattern)) before (emit q before) := by
  have whole := block_whole filled
  rcases h with tree | skip
  · have inner := tree.entered filled (by decide)
    have all : Entered 0 (Graph.whole pattern) before (emit q before) := by
      refine inner.add (extends_emit ..) (Nat.zero_le _)
        (fun _ leads => block_start_ending.lt_size_of_start leads) ?_
      exact fun j mem => .inl (List.mem_singleton.mp mem)
    exact all.block (block_emit skipAhead trivial _ whole.high)
  · refine (skip.entered trivial whole.high).grow (Nat.zero_le _) (Nat.le_refl _) (.inl rfl) ?_
    intro i j _ leads
    by_cases lower : i < (Graph.whole pattern).nodes.size
    · have old := ((extends_emit skipAhead (Graph.whole pattern)).leads_iff lower).mp leads
      exact .inr (.inr (.inl ((block_start_ending.trans whole).lt_size_of_start old)))
    · exact .inl ⟨Nat.le_of_not_lt lower, leads⟩

theorem into_of_emits (filled : pattern.tree.Filled) {q : Pattern GroupRange} {before after : Draft}
    (h : Emits pattern q before) (emitted : emit q before = after) {i j : Nat}
    (leads : Leads (ofPattern pattern).nodes i j) (low : before.nodes.size ≤ j)
    (high : j < after.nodes.size) :
    before.nodes.size ≤ i ∧ i < after.nodes.size ∨ j = after.entry := by
  subst emitted
  exact (entered_of_emits filled h).into (Nat.zero_le i) leads low high

end Graph

end BacktrackRegex
