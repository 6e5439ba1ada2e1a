import BacktrackRegex.Proofs.Graph.Block
import BacktrackRegex.Proofs.Pattern.Nested

/-!
# The nodes of a part of a pattern

`Emits` tells which patterns are put in front of which drafts while a pattern is emitted. The nodes
of such a part are those that come behind the draft, and later they stay as they are
(`Emits.part`).

Of the parts, two are bodies that are closed: from the body of a quantifier edges lead back to the
quantifier (`LoopsBack`), and from the body of a lookahead they lead nowhere else (`Enclosed`).
-/

namespace BacktrackRegex

namespace Draft

/-! ## Parts -/

/-- `Emits p draft q before` says that while `p` is put in front of `draft`, at some time `q` is put
in front of `before`. -/
inductive Emits : Pattern GroupRange → Draft → Pattern GroupRange → Draft → Prop where
  /-- it is the pattern itself -/
  | self (p draft) : Emits p draft p draft
  /-- in a group that captures -/
  | capturing {groups body draft q before}
    (h : Emits body (draft.prepend (.closeGroup groups.first)) q before) :
    Emits (.group groups .capturing body) draft q before
  /-- in a group that does nothing -/
  | nonCapturing {groups body draft q before} (h : Emits body draft q before) :
    Emits (.group groups .nonCapturing body) draft q before
  /-- in a lookahead -/
  | lookahead {groups body draft q before} (h : Emits body (draft.add .goal) q before) :
    Emits (.group groups .lookahead body) draft q before
  /-- in a negated lookahead -/
  | negativeLookahead {groups body draft q before} (h : Emits body (draft.add .goal) q before) :
    Emits (.group groups .negativeLookahead body) draft q before
  /-- in the body of a quantifier -/
  | quantified {groups min max greedy body draft q before}
    (h : Emits body (draft.openLoop min max greedy groups) q before) :
    Emits (.quantified groups min max greedy body) draft q before
  /-- in a term of a sequence, behind which the later terms are already there -/
  | seq {terms p rest draft q before} (h : Emits p (rest.foldr emit draft) q before) :
    Emits (.seq (terms ++ p :: rest)) draft q before
  /-- in an alternative of a choice, when the alternatives before it are there -/
  | choice {alternatives p rest draft q before}
    (h : Emits p
      { (emitAll alternatives (draft.prepend .join).entry [] (draft.prepend .join)).2 with
        entry := (draft.prepend .join).entry } q before) :
    Emits (.choice (alternatives ++ p :: rest)) draft q before

/-- What stands in a pattern is emitted with it. -/
theorem exists_emits_of_holds {p q : Pattern GroupRange} {looks : List Bool}
    (h : p.Holds looks q) (draft : Draft) : ∃ before, Emits p draft q before := by
  induction h generalizing draft with
  | self p => exact ⟨draft, .self p draft⟩
  | capturing h ih => exact (ih _).imp fun _ => .capturing
  | nonCapturing h ih => exact (ih _).imp fun _ => .nonCapturing
  | lookahead h ih => exact (ih _).imp fun _ => .lookahead
  | negativeLookahead h ih => exact (ih _).imp fun _ => .negativeLookahead
  | quantified h ih => exact (ih _).imp fun _ => .quantified
  | seq mem h ih =>
    obtain ⟨terms, rest, rfl⟩ := List.append_of_mem mem
    exact (ih _).imp fun _ => .seq
  | choice mem h ih =>
    obtain ⟨alternatives, rest, rfl⟩ := List.append_of_mem mem
    exact (ih _).imp fun _ => .choice

theorem emitAll_append (ps qs : List (Pattern GroupRange)) (next : Nat) (draft : Draft) :
    (emitAll (ps ++ qs) next [] draft).2 =
      (emitAll qs next [] (emitAll ps next [] draft).2).2 := by
  induction ps generalizing draft with
  | nil => rfl
  | cons p rest ih =>
    simp only [List.cons_append, emitAll]
    rw [emitAll_eq, emitAll_eq rest, ih]

/-- What has to be known of a part that is emitted. -/
structure Part (p : Pattern GroupRange) (draft : Draft) (q : Pattern GroupRange)
    (before : Draft) : Prop where
  /-- it is filled -/
  filled : q.Filled
  /-- the entry before it exists -/
  valid : before.entry < before.nodes.size
  /-- it is no nearer to the front -/
  size : draft.nodes.size ≤ before.nodes.size
  /-- its nodes are in place if those of the whole are -/
  inPlace : ∀ {nodes}, InPlace nodes draft.nodes.size (emit p draft) →
    InPlace nodes before.nodes.size (emit q before)

theorem Part.widen {p p' q : Pattern GroupRange} {draft draft' before : Draft}
    (h : Part p' draft' q before) (size : draft.nodes.size ≤ draft'.nodes.size)
    (inPlace : ∀ {nodes}, InPlace nodes draft.nodes.size (emit p draft) →
      InPlace nodes draft'.nodes.size (emit p' draft')) : Part p draft q before :=
  ⟨h.filled, h.valid, Nat.le_trans size h.size, fun placed => h.inPlace (inPlace placed)⟩

theorem Emits.part {p q : Pattern GroupRange} {draft before : Draft} (h : Emits p draft q before)
    (filled : p.Filled) (valid : draft.entry < draft.nodes.size) : Part p draft q before := by
  induction h with
  | self p draft => exact ⟨filled, valid, Nat.le_refl _, id⟩
  | capturing h ih =>
    rename_i groups body draft q before
    have closed := extends_add draft (.closeGroup groups.first draft.entry)
    refine (ih filled (entry_lt_add ..)).widen closed.size fun placed => ?_
    exact (placed.before (extends_add ..)).above closed.size
  | nonCapturing h ih => exact (ih filled valid).widen (Nat.le_refl _) id
  | lookahead h ih | negativeLookahead h ih =>
    rename_i groups body draft q before
    have ended := extends_add draft .goal
    refine (ih filled (entry_lt_add ..)).widen ended.size fun placed => ?_
    exact (placed.before (extends_add ..)).above ended.size
  | quantified h ih =>
    rename_i groups min max greedy body draft q before
    have opened := size_openLoop draft min max greedy groups
    refine (ih filled (entry_lt_openLoop ..)).widen (by omega) fun placed i low high => ?_
    rw [opened] at low
    rw [placed i (by omega) (by rwa [emit, size_closeLoop]), emit,
      getElem?_closeLoop_of_ne _ (by omega)]
  | seq h ih =>
    rename_i terms p rest draft q before
    have later := extends_foldr_emit (fun q (_ : q ∈ rest) => extends_emit q) draft
    have filled := Pattern.filledAll_iff.mp filled.2
    have valid' := valid_foldr_emit (fun q (hq : q ∈ rest) => filled q (by simp [hq])) valid
    refine (ih (filled p (by simp)) valid').widen later.size fun placed => ?_
    rw [emit_seq, List.foldr_append] at placed
    exact (placed.before (extends_foldr_emit (fun q _ => extends_emit q) _)).above later.size
  | choice h ih =>
    rename_i alternatives p rest draft q before
    have joined := extends_add draft (.join draft.entry)
    have earlier := extends_emitAll (fun q (_ : q ∈ alternatives) => extends_emit q)
      (draft.prepend .join).entry [] (draft.prepend .join)
    have size := Nat.le_trans joined.size earlier.size
    have filled := Pattern.filledAll_iff.mp filled.2
    have valid' : (draft.prepend .join).entry < (draft.prepend .join).nodes.size :=
      entry_lt_add ..
    refine (ih (filled p (by simp)) (Nat.lt_of_lt_of_le valid' earlier.size)).widen size
      fun placed => ?_
    rw [emit_choice, emitAll_append] at placed
    have emitted := placed.before (extends_add ..)
    simp only [emitAll] at emitted
    exact (emitted.before (extends_emitAll (fun q _ => extends_emit q) ..)).above size

/-! ## Bodies -/

/-- A quantifier was put in front of `before`, with a body in front of `opened` that made it
`child`. -/
structure LoopsBack (nodes : Array Node) (quantifier : Loop) (before opened child : Draft) :
    Prop where
  /-- the quantifier is in place and has the body and what comes behind it as its successors -/
  node : nodes[before.nodes.size]? = some (.loop quantifier child.entry before.entry)
  /-- the nodes of the body lead to each other or to the quantifier -/
  inside : ∀ {i j}, opened.nodes.size ≤ i → i < child.nodes.size → Leads nodes i j →
    j = before.nodes.size ∨ opened.nodes.size ≤ j ∧ j < child.nodes.size

/-- A lookahead was put in front of `before`, with a body that made it `child`. -/
structure Enclosed (nodes : Array Node) (negated : Bool) (groups : GroupRange)
    (before child : Draft) : Prop where
  /-- the body has a goal of its own -/
  goal : nodes[before.nodes.size]? = some .goal
  /-- the lookahead is in place and has the body and what comes behind it as its successors -/
  node : nodes[child.nodes.size]? = some (.lookahead negated groups child.entry before.entry)
  /-- the nodes of the body, its goal among them, lead to each other only -/
  inside : ∀ {i j}, before.nodes.size ≤ i → i < child.nodes.size → Leads nodes i j →
    before.nodes.size ≤ j ∧ j < child.nodes.size

variable {nodes : Array Node} {body : Pattern GroupRange} {groups : GroupRange} {before : Draft}

theorem loopsBack_of_inPlace {min : Nat} {max : Option Nat} {greedy : Bool} (filled : body.Filled)
    (placed : InPlace nodes before.nodes.size
      (emit (.quantified groups min max greedy body) before)) :
    LoopsBack nodes ⟨before.loops, min, max, greedy, groups⟩ before
      (before.openLoop min max greedy groups)
      (emit body (before.openLoop min max greedy groups)) := by
  have opened := size_openLoop before min max greedy groups
  have block := block_emit body filled (before.openLoop min max greedy groups)
    (entry_lt_openLoop ..)
  have inner := block.grown.size
  constructor
  case node =>
    refine (placed _ (Nat.le_refl _) ?_).trans (getElem?_closeLoop_self _ block.grown.reserved)
    rw [emit, size_closeLoop]
    omega
  case inside =>
    intro i j low high leads
    have same : nodes[i]? = (emit body (before.openLoop min max greedy groups)).nodes[i]? := by
      rw [placed i (by omega) (by rwa [emit, size_closeLoop]), emit,
        getElem?_closeLoop_of_ne _ (by omega)]
    exact block.inside low ((leads_congr same).mp leads)

theorem enclosed_of_inPlace {negated : Bool} (filled : body.Filled)
    (placed : InPlace nodes before.nodes.size
      ((emit body (before.add .goal)).prepend (.lookahead negated groups · before.entry))) :
    Enclosed nodes negated groups before (emit body (before.add .goal)) := by
  have ended := size_add before .goal
  have block := block_emit body filled (before.add .goal) (entry_lt_add ..)
  have inner := block.grown.size
  have placed' := placed.before (extends_add ..)
  have goal : nodes[before.nodes.size]? = some .goal :=
    (placed'.before block.grown).added (Nat.le_refl _)
  constructor
  case goal => exact goal
  case node => exact placed.added (by omega)
  case inside =>
    intro i j low high leads
    by_cases atGoal : i = before.nodes.size
    · subst atGoal
      obtain ⟨node, there, mem⟩ := leads
      cases goal.symm.trans there
      exact absurd mem List.not_mem_nil
    · have back : (before.add .goal).entry = before.nodes.size := rfl
      have := block.inside (by omega) ((leads_congr (placed' i low high)).mp leads)
      omega

end Draft

end BacktrackRegex
