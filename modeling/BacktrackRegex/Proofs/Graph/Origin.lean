import BacktrackRegex.Proofs.Graph.WellFormed

/-!
# The parts that nodes come from

A quantifier of a graph, a lookahead of it, and a node at which a capture begins or ends, all come
from a part of the pattern (**`Graph.origin_of_getElem?`**). `Draft.Emits` gives the nodes of a
part; `Origin` is the way back.
-/

namespace BacktrackRegex

/-- The kind of a group that is a lookahead, negated or not. -/
def GroupKind.look (negated : Bool) : GroupKind :=
  if negated then .negativeLookahead else .lookahead

namespace Draft

variable {p q r : Pattern GroupRange} {draft before before' : Draft}

/-- What is emitted in a part is emitted in the whole. -/
theorem Emits.trans (h : Emits p draft q before) (h' : Emits q before r before') :
    Emits p draft r before' := by
  induction h with
  | self p draft => exact h'
  | capturing h ih => exact .capturing (ih h')
  | nonCapturing h ih => exact .nonCapturing (ih h')
  | lookahead h ih => exact .lookahead (ih h')
  | negativeLookahead h ih => exact .negativeLookahead (ih h')
  | quantified h ih => exact .quantified (ih h')
  | seq h ih => exact .seq (ih h')
  | choice h ih => exact .choice (ih h')

/-- What is emitted with a pattern stands in it. -/
theorem Emits.holds (h : Emits p draft q before) : ∃ looks, p.Holds looks q := by
  induction h with
  | self p draft => exact ⟨[], .self p⟩
  | capturing h ih => exact ih.imp fun _ => .capturing
  | nonCapturing h ih => exact ih.imp fun _ => .nonCapturing
  | lookahead h ih => exact ih.elim fun looks holds => ⟨false :: looks, .lookahead holds⟩
  | negativeLookahead h ih =>
    exact ih.elim fun looks holds => ⟨true :: looks, .negativeLookahead holds⟩
  | quantified h ih => exact ih.imp fun _ => .quantified
  | seq h ih => exact ih.imp fun _ => .seq (by simp)
  | choice h ih => exact ih.imp fun _ => .choice (by simp)

theorem emit_look (groups : GroupRange) (negated : Bool) (body : Pattern GroupRange)
    (draft : Draft) : emit (.group groups (.look negated) body) draft =
      (emit body (draft.add .goal)).prepend (.lookahead negated groups · draft.entry) := by
  cases negated <;> rfl

theorem Emits.look {groups : GroupRange} (negated : Bool) {body : Pattern GroupRange}
    (h : Emits body (draft.add .goal) q before) :
    Emits (.group groups (.look negated) body) draft q before := by
  cases negated with
  | false => exact .lookahead h
  | true => exact .negativeLookahead h

/-- Among the parts that `Part` allows there is one that the node at the place `i` comes from. -/
def Origin (Part : Pattern GroupRange → Draft → Prop) (i : Nat) : Node → Prop
  | .loop _ _ _ => ∃ groups min max greedy body before,
    Part (.quantified groups min max greedy body) before ∧ i = before.nodes.size
  | .lookahead negated _ _ _ => ∃ groups body before,
    Part (.group groups (.look negated) body) before ∧
      i = (emit body (before.add .goal)).nodes.size
  | .openGroup slot _ => ∃ groups body before, Part (.group groups .capturing body) before ∧
    slot = groups.first ∧ i = (emit body (before.prepend (.closeGroup slot))).nodes.size
  | .closeGroup slot _ => ∃ groups body before, Part (.group groups .capturing body) before ∧
    slot = groups.first ∧ i = before.nodes.size
  | _ => True

theorem Origin.mono {Part Part' : Pattern GroupRange → Draft → Prop} {i : Nat} {node : Node}
    (h : Origin Part i node) (imp : ∀ {q before}, Part q before → Part' q before) :
    Origin Part' i node := by
  cases node with
  | loop quantifier body next =>
    obtain ⟨groups, min, max, greedy, body, before, part, here⟩ := h
    exact ⟨groups, min, max, greedy, body, before, imp part, here⟩
  | lookahead negated groups body next =>
    obtain ⟨groups, body, before, part, here⟩ := h
    exact ⟨groups, body, before, imp part, here⟩
  | openGroup slot next | closeGroup slot next =>
    obtain ⟨groups, body, before, part, here⟩ := h
    exact ⟨groups, body, before, imp part, here⟩
  | _ => trivial

/-- Whether all nodes that a pattern brings come from parts of it. -/
def Sourced (p : Pattern GroupRange) : Prop :=
  ∀ {draft : Draft} {i : Nat} {node : Node}, (emit p draft).nodes[i]? = some node →
    draft.nodes.size ≤ i → Origin (Emits p draft) i node

theorem sourced_seq {terms : List (Pattern GroupRange)} (h : ∀ p ∈ terms, Sourced p)
    (front : List (Pattern GroupRange)) {i : Nat} {node : Node}
    (there : (terms.foldr emit draft).nodes[i]? = some node) (new : draft.nodes.size ≤ i) :
    Origin (Emits (.seq (front ++ terms)) draft) i node := by
  induction terms generalizing front with
  | nil => exact absurd (Array.getElem?_eq_some_iff.mp there).1 (Nat.not_lt_of_le new)
  | cons p rest ih =>
    by_cases later : i < (rest.foldr emit draft).nodes.size
    · -- the terms behind the first were there before it
      rw [List.foldr_cons, (extends_emit p _).same i later] at there
      have origin := ih (fun q mem => h q (List.mem_cons_of_mem p mem)) (front ++ [p]) there
      rwa [List.append_assoc] at origin
    · exact (h p List.mem_cons_self there (Nat.le_of_not_lt later)).mono .seq

theorem sourced_emitAll {alternatives : List (Pattern GroupRange)}
    (h : ∀ p ∈ alternatives, Sourced p) (front : List (Pattern GroupRange)) {i : Nat} {node : Node}
    (there : (emitAll (front ++ alternatives) (draft.prepend .join).entry []
      (draft.prepend .join)).2.nodes[i]? = some node)
    (new : (emitAll front (draft.prepend .join).entry [] (draft.prepend .join)).2.nodes.size ≤ i) :
    Origin (Emits (.choice (front ++ alternatives)) draft) i node := by
  induction alternatives generalizing front with
  | nil =>
    rw [List.append_nil] at there
    exact absurd (Array.getElem?_eq_some_iff.mp there).1 (Nat.not_lt_of_le new)
  | cons p rest ih =>
    have split : front ++ p :: rest = (front ++ [p]) ++ rest := by simp
    by_cases here : i < (emitAll (front ++ [p]) (draft.prepend .join).entry []
      (draft.prepend .join)).2.nodes.size
    · -- the alternatives behind the first are put beside it later
      rw [split, emitAll_append, (extends_emitAll (fun q _ => extends_emit q) ..).same i here,
        emitAll_append] at there
      exact (h p List.mem_cons_self there new).mono .choice
    · rw [split] at there ⊢
      exact ih (fun q mem => h q (List.mem_cons_of_mem p mem)) (front ++ [p]) there
        (Nat.le_of_not_lt here)

/-- The body of a lookahead, behind the goal that it ends at. -/
theorem sourced_look {body : Pattern GroupRange} (h : Sourced body) (groups : GroupRange)
    (negated : Bool) : Sourced (.group groups (.look negated) body) := by
  intro draft i node there new
  rw [emit_look] at there
  obtain old | ⟨here, rfl⟩ := eq_or_of_getElem?_add there
  · by_cases goal : i = draft.nodes.size
    · rw [goal, (extends_emit body (draft.add .goal)).same _ (by rw [size_add]; omega)] at old
      cases old.symm.trans (getElem?_add draft .goal)
      trivial
    · exact (h old (by rw [size_add]; omega)).mono (.look negated)
  · exact ⟨groups, body, draft, .self .., here⟩

/-- **What a pattern brings comes from its parts.** -/
theorem sourced (p : Pattern GroupRange) : Sourced p := by
  induction p with
  | group groups kind body ih =>
    cases kind with
    | capturing =>
      intro draft i node there new
      obtain old | ⟨here, rfl⟩ := eq_or_of_getElem?_add there
      · by_cases close : i = draft.nodes.size
        · rw [close, (extends_emit body _).same _ (by rw [prepend, size_add]; omega)] at old
          cases old.symm.trans (getElem?_add draft _)
          exact ⟨groups, body, draft, .self .., rfl, close⟩
        · exact (ih old (by rw [prepend, size_add]; omega)).mono .capturing
      · exact ⟨groups, body, draft, .self .., rfl, here⟩
    | nonCapturing => exact fun there new => (ih there new).mono .nonCapturing
    | lookahead => exact sourced_look ih groups false
    | negativeLookahead => exact sourced_look ih groups true
  | quantified groups min max greedy body ih =>
    intro draft i node there new
    have opened := size_openLoop draft min max greedy groups
    by_cases here : i = draft.nodes.size
    · rw [here, emit, getElem?_closeLoop_self _ (extends_emit body _).reserved] at there
      cases there
      exact ⟨groups, min, max, greedy, body, draft, .self .., here⟩
    · rw [emit, getElem?_closeLoop_of_ne _ here] at there
      exact (ih there (by omega)).mono .quantified
  | seq terms ih =>
    intro draft i node there new
    rw [emit_seq] at there
    exact sourced_seq ih [] there new
  | choice alternatives ih =>
    intro draft i node there new
    rw [emit_choice] at there
    obtain old | ⟨-, rfl⟩ := eq_or_of_getElem?_add there
    · by_cases join : i = draft.nodes.size
      · rw [join, (extends_emitAll (fun q _ => extends_emit q) ..).same _
          (by rw [prepend, size_add]; omega)] at old
        cases old.symm.trans (getElem?_add draft _)
        trivial
      · exact sourced_emitAll ih [] old (by simp only [emitAll, prepend, size_add]; omega)
    · trivial
  | _ =>
    intro draft i node there new
    obtain old | ⟨-, rfl⟩ := eq_or_of_getElem?_add there
    · exact absurd (Array.getElem?_eq_some_iff.mp old).1 (Nat.not_lt_of_le new)
    · trivial

/-! ## Quantifiers by their numbers -/

/-- Among the parts that `Part` allows there is the quantifier with the number `id`. -/
def HasLoop (Part : Pattern GroupRange → Draft → Prop) (id : Nat) : Prop :=
  ∃ groups min max greedy body before,
    Part (.quantified groups min max greedy body) before ∧ before.loops = id

theorem HasLoop.mono {Part Part' : Pattern GroupRange → Draft → Prop} {id : Nat}
    (h : HasLoop Part id) (imp : ∀ {q before}, Part q before → Part' q before) :
    HasLoop Part' id := by
  obtain ⟨groups, min, max, greedy, body, before, part, same⟩ := h
  exact ⟨groups, min, max, greedy, body, before, imp part, same⟩

/-- Whether each number that a pattern uses for quantifiers is that of a quantifier in it. -/
def Counted (p : Pattern GroupRange) : Prop :=
  ∀ (draft : Draft) {id : Nat}, draft.loops ≤ id → id < (emit p draft).loops →
    HasLoop (Emits p draft) id

theorem counted_seq {terms : List (Pattern GroupRange)} (h : ∀ p ∈ terms, Counted p)
    (front : List (Pattern GroupRange)) {id : Nat} (low : draft.loops ≤ id)
    (high : id < (terms.foldr emit draft).loops) :
    HasLoop (Emits (.seq (front ++ terms)) draft) id := by
  induction terms generalizing front with
  | nil => exact absurd high (Nat.not_lt_of_le low)
  | cons p rest ih =>
    by_cases later : id < (rest.foldr emit draft).loops
    · have inner := ih (fun q mem => h q (List.mem_cons_of_mem p mem)) (front ++ [p]) later
      rwa [List.append_assoc] at inner
    · exact (h p List.mem_cons_self _ (Nat.le_of_not_lt later) high).mono .seq

theorem counted_emitAll {alternatives : List (Pattern GroupRange)}
    (h : ∀ p ∈ alternatives, Counted p) (front : List (Pattern GroupRange)) {id : Nat}
    (low : (emitAll front (draft.prepend .join).entry [] (draft.prepend .join)).2.loops ≤ id)
    (high : id < (emitAll (front ++ alternatives) (draft.prepend .join).entry []
      (draft.prepend .join)).2.loops) :
    HasLoop (Emits (.choice (front ++ alternatives)) draft) id := by
  induction alternatives generalizing front with
  | nil =>
    rw [List.append_nil] at high
    exact absurd high (Nat.not_lt_of_le low)
  | cons p rest ih =>
    have split : front ++ p :: rest = (front ++ [p]) ++ rest := by simp
    by_cases here : id < (emitAll (front ++ [p]) (draft.prepend .join).entry []
      (draft.prepend .join)).2.loops
    · rw [emitAll_append] at here
      exact (h p List.mem_cons_self
        { (emitAll front (draft.prepend .join).entry [] (draft.prepend .join)).2 with
          entry := (draft.prepend .join).entry } low here).mono .choice
    · rw [split] at high ⊢
      exact ih (fun q mem => h q (List.mem_cons_of_mem p mem)) (front ++ [p])
        (Nat.le_of_not_lt here) high

/-- **Each number that a pattern uses for quantifiers is that of a quantifier in it.** -/
theorem counted (p : Pattern GroupRange) : Counted p := by
  induction p with
  | group groups kind body ih =>
    intro draft id low high
    cases kind with
    | capturing => exact (ih (draft.prepend (.closeGroup groups.first)) low high).mono .capturing
    | nonCapturing => exact (ih draft low high).mono .nonCapturing
    | lookahead => exact (ih (draft.add .goal) low high).mono .lookahead
    | negativeLookahead => exact (ih (draft.add .goal) low high).mono .negativeLookahead
  | quantified groups min max greedy body ih =>
    intro draft id low high
    by_cases own : draft.loops = id
    · exact ⟨groups, min, max, greedy, body, draft, .self .., own⟩
    · have inside : draft.loops + 1 ≤ id := Nat.lt_of_le_of_ne low own
      exact (ih (draft.openLoop min max greedy groups) inside high).mono .quantified
  | seq terms ih =>
    intro draft id low high
    rw [emit_seq] at high
    exact counted_seq ih [] low high
  | choice alternatives ih =>
    intro draft id low high
    exact counted_emitAll ih [] low high
  | _ => exact fun draft id low high => absurd high (Nat.not_lt_of_le low)

end Draft

namespace Graph

open Draft

variable {pattern : NumberedPattern}

/-- What is emitted in a part of a pattern is emitted in the pattern. -/
theorem Emits.trans {q r : Pattern GroupRange} {before before' : Draft}
    (h : Emits pattern q before) (h' : Draft.Emits q before r before') :
    Emits pattern r before' :=
  h.imp (·.trans h') (·.trans h')

/-- **The nodes of a graph come from parts of the pattern**, but for the beginning and the end of
the capture of the whole match. -/
theorem origin_of_getElem? {i : Nat} {node : Node}
    (there : (ofPattern pattern).nodes[i]? = some node) :
    (∃ next, i = 1 ∧ node = .closeGroup 0 next) ∨
      (∃ next, i = (emit pattern.tree ending).nodes.size ∧ node = .openGroup 0 next) ∨
      Origin (Emits pattern) i node := by
  by_cases skip : (whole pattern).nodes.size ≤ i
  · exact .inr (.inr ((sourced skipAhead there skip).mono .inr))
  have lower := Nat.lt_of_not_le skip
  have inside : (whole pattern).nodes[i]? = some node :=
    ((extends_emit skipAhead _).same i lower).symm.trans there
  obtain tree | ⟨here, rfl⟩ := eq_or_of_getElem?_add inside
  · by_cases low : ending.nodes.size ≤ i
    · exact .inr (.inr ((sourced pattern.tree tree low).mono .inl))
    · have before : ending.nodes[i]? = some node :=
        ((extends_emit pattern.tree _).same i (Nat.lt_of_not_le low)).symm.trans tree
      match i with
      | 0 =>
        cases before
        exact .inr (.inr trivial)
      | 1 =>
        cases before
        exact .inl ⟨_, rfl, rfl⟩
      | i + 2 => cases before
  · exact .inr (.inl ⟨_, here, rfl⟩)

/-- The parts of a lookahead in the graph of a pattern. -/
theorem enclosed_of_emits (filled : pattern.tree.Filled) {groups : GroupRange} {negated : Bool}
    {body : Pattern GroupRange} {before : Draft}
    (h : Emits pattern (.group groups (.look negated) body) before) :
    Enclosed (ofPattern pattern).nodes negated groups before (emit body (before.add .goal)) ∧
      InPlace (ofPattern pattern).nodes (before.add .goal).nodes.size
        (emit body (before.add .goal)) := by
  obtain ⟨part, placed⟩ := part_of_emits filled h
  have filledBody : body.Filled := part
  rw [emit_look] at placed
  have inner := (placed.before (extends_add ..)).above (extends_add before .goal).size
  exact ⟨enclosed_of_inPlace filledBody placed, inner⟩

/-- A lookahead of a graph comes from one of the pattern. -/
theorem exists_emits_of_lookahead (filled : pattern.tree.Filled) {i inside next : Nat}
    {negated : Bool} {groups : GroupRange}
    (there : (ofPattern pattern).nodes[i]? = some (.lookahead negated groups inside next)) :
    ∃ body before, Emits pattern (.group groups (.look negated) body) before ∧
      i = (emit body (before.add .goal)).nodes.size ∧
      inside = (emit body (before.add .goal)).entry := by
  obtain ⟨_, _, other⟩ | ⟨_, _, other⟩ | origin := origin_of_getElem? there
  · cases other
  · cases other
  · obtain ⟨groups', body, before, emits, rfl⟩ := origin
    cases (enclosed_of_emits filled emits).1.node.symm.trans there
    exact ⟨body, before, emits, rfl, rfl⟩

end Graph

end BacktrackRegex
