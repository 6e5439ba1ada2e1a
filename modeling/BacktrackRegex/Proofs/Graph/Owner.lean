import BacktrackRegex.Proofs.Graph.WellFormed
import Mathlib.Logic.Function.Basic

/-!
# The goal that a node leads to

A graph has several goals, one for the pattern and one for the body of each lookahead. Still every
node leads to one of them only, if the edges to the bodies of lookaheads are left out: a part of a
pattern leads to where its last part leads. `Owned` says so by giving each node an owner, and the
graph of a pattern is owned in such a way that both ways in belong to the goal at place 0
(`Graph.exists_owned`).

A graph looks ahead only if the pattern does (`Graph.not_lookAhead_ofPattern`).
-/

namespace BacktrackRegex

/-- The nodes that may follow in the same walk, which is all but the body of a lookahead. -/
def Node.onward : Node → List Nat
  | lookahead _ _ _ next => [next]
  | node => node.successors

theorem Node.mem_successors_of_onward {node : Node} {next : Nat} (h : next ∈ node.onward) :
    next ∈ node.successors := by
  cases node with
  | lookahead negated groups body behind => exact List.mem_cons_of_mem _ h
  | _ => exact h

/-- Each of the nodes has an owner, which is a goal for goals and the same along all edges that stay
in a walk. -/
structure Owned (nodes : Array Node) (owner : Nat → Nat) : Prop where
  /-- a goal belongs to itself -/
  goal : ∀ {i}, nodes[i]? = some .goal → owner i = i
  /-- what follows in the same walk has the same owner -/
  onward : ∀ {i next} {node : Node}, nodes[i]? = some node → next ∈ node.onward →
    owner next = owner i
  /-- all successors exist -/
  valid : ∀ {i next}, Leads nodes i next → next < nodes.size

/-- A node is added that belongs to `goal`. It may name itself. -/
theorem Owned.push {nodes : Array Node} {owner : Nat → Nat} (h : Owned nodes owner) {node : Node}
    {goal : Nat} (self : node = .goal → goal = nodes.size)
    (follows : ∀ next ∈ node.onward, next ≠ nodes.size → owner next = goal)
    (valid : ∀ next ∈ node.successors, next ≤ nodes.size) :
    Owned (nodes.push node) (Function.update owner nodes.size goal) := by
  have old {i : Nat} {found : Node} (ne : i ≠ nodes.size)
      (there : (nodes.push node)[i]? = some found) : nodes[i]? = some found := by
    rwa [Array.getElem?_push, if_neg ne] at there
  have new {found : Node} (there : (nodes.push node)[nodes.size]? = some found) : found = node := by
    rw [Array.getElem?_push, if_pos rfl] at there
    exact (Option.some.inj there).symm
  refine ⟨?_, ?_, ?_⟩
  · intro i there
    by_cases here : i = nodes.size
    · subst here
      rw [Function.update_self, self (new there).symm]
    · rw [Function.update_of_ne here, h.goal (old here there)]
  · intro i next found there mem
    by_cases here : i = nodes.size
    · subst here
      obtain rfl := new there
      rw [Function.update_self]
      by_cases back : next = nodes.size
      · rw [back, Function.update_self]
      · rw [Function.update_of_ne back, follows next mem back]
    · have inside := h.valid ⟨found, old here there, Node.mem_successors_of_onward mem⟩
      rw [Function.update_of_ne here, Function.update_of_ne (Nat.ne_of_lt inside),
        h.onward (old here there) mem]
  · rintro i next ⟨found, there, mem⟩
    rw [Array.size_push]
    by_cases here : i = nodes.size
    · subst here
      obtain rfl := new there
      exact Nat.lt_succ_of_le (valid next mem)
    · exact Nat.lt_succ_of_lt (h.valid ⟨found, old here there, mem⟩)

namespace Draft

/-- The nodes that were added to `before` are owned as well, and the new entry by the owner of the
old one. -/
structure Inherits (before after : Draft) (owner owner' : Nat → Nat) : Prop where
  /-- there are as many nodes as before, or more -/
  size : before.nodes.size ≤ after.nodes.size
  /-- they are owned -/
  owned : Owned after.nodes owner'
  /-- the nodes from before as they were -/
  same : ∀ i < before.nodes.size, owner' i = owner i
  /-- the entry exists -/
  valid : after.entry < after.nodes.size
  /-- the entries have the same owner -/
  entry : owner' after.entry = owner before.entry

/-- Whether the nodes of a draft can be owned by more when `p` is put in front of it. -/
def Inherited (p : Pattern GroupRange) : Prop :=
  ∀ {draft : Draft} {owner : Nat → Nat}, Owned draft.nodes owner →
    draft.entry < draft.nodes.size → ∃ owner', Inherits draft (emit p draft) owner owner'

variable {draft : Draft} {owner : Nat → Nat}

theorem Inherits.refl (owned : Owned draft.nodes owner) (valid : draft.entry < draft.nodes.size) :
    Inherits draft draft owner owner :=
  ⟨Nat.le_refl _, owned, fun _ _ => rfl, valid, rfl⟩

theorem Inherits.trans {a b c : Draft} {owner owner' owner'' : Nat → Nat}
    (h : Inherits a b owner owner') (h' : Inherits b c owner' owner'') :
    Inherits a c owner owner'' := by
  refine ⟨Nat.le_trans h.size h'.size, h'.owned, ?_, h'.valid, h'.entry.trans h.entry⟩
  intro i lt
  rw [h'.same i (Nat.lt_of_lt_of_le lt h.size), h.same i lt]

/-- A node whose onward successors belong to `goal` belongs to it too. -/
theorem inherits_add (owned : Owned draft.nodes owner) {node : Node}
    (self : node = .goal → owner draft.entry = draft.nodes.size)
    (follows : ∀ next ∈ node.onward, owner next = owner draft.entry)
    (valid : ∀ next ∈ node.successors, next < draft.nodes.size) :
    Inherits draft (draft.add node) owner
      (Function.update owner draft.nodes.size (owner draft.entry)) := by
  refine ⟨?_, owned.push self (fun next mem _ => follows next mem)
    (fun next mem => Nat.le_of_lt (valid next mem)), ?_, entry_lt_add ..,
    Function.update_self ..⟩
  · rw [size_add]
    exact Nat.le_succ _
  · intro i lt
    exact Function.update_of_ne (Nat.ne_of_lt lt) ..

theorem inherits_prepend (owned : Owned draft.nodes owner)
    (valid : draft.entry < draft.nodes.size) {node : Nat → Node}
    (successors : (node draft.entry).successors = [draft.entry]) :
    Inherits draft (draft.prepend node) owner
      (Function.update owner draft.nodes.size (owner draft.entry)) := by
  have only {next : Nat} (mem : next ∈ (node draft.entry).successors) : next = draft.entry := by
    rwa [successors, List.mem_singleton] at mem
  refine inherits_add owned ?_ ?_ ?_
  · intro goal
    rw [goal] at successors
    cases successors
  · intro next mem
    rw [only (Node.mem_successors_of_onward mem)]
  · intro next mem
    rwa [only mem]

/-- The body of a lookahead has a goal of its own, and the lookahead belongs to what follows. -/
theorem exists_inherits_look {body : Pattern GroupRange} (h : Inherited body)
    (owned : Owned draft.nodes owner) (valid : draft.entry < draft.nodes.size) (negated : Bool)
    (groups : GroupRange) : ∃ owner', Inherits draft
      ((emit body (draft.add .goal)).prepend (.lookahead negated groups · draft.entry))
      owner owner' := by
  have size := size_add draft .goal
  have ended : Owned (draft.add .goal).nodes
      (Function.update owner draft.nodes.size draft.nodes.size) :=
    owned.push (fun _ => rfl) nofun nofun
  obtain ⟨inside, inner⟩ := h ended (entry_lt_add ..)
  have grown := inner.size
  have inner_valid := inner.valid
  have same {i : Nat} (lt : i < draft.nodes.size) : inside i = owner i := by
    rw [inner.same i (by omega), Function.update_of_ne (Nat.ne_of_lt lt)]
  refine ⟨Function.update inside (emit body (draft.add .goal)).nodes.size (owner draft.entry),
    ?_, inner.owned.push nofun ?_ ?_, ?_, entry_lt_add .., Function.update_self ..⟩
  · rw [prepend, size_add]
    omega
  · intro next mem _
    rw [List.mem_singleton.mp mem, same valid]
  · intro next mem
    simp only [Node.successors, List.mem_cons, List.not_mem_nil, or_false] at mem
    omega
  · intro i lt
    have ne : i ≠ (emit body (draft.add .goal)).nodes.size := by omega
    rw [Function.update_of_ne ne, same lt]

/-- A quantifier is given a body that has the owner it has itself. -/
theorem owned_closeLoop (owned : Owned draft.nodes owner) {place : Nat} {quantifier : Loop}
    {body next : Nat} (reserved : draft.nodes[place]? = some (.loop quantifier body next))
    (entry : owner draft.entry = owner place) (valid : draft.entry < draft.nodes.size) :
    Owned (draft.closeLoop place).nodes owner := by
  have filled := getElem?_closeLoop_self draft reserved
  have other {i : Nat} {node : Node} (ne : i ≠ place)
      (there : (draft.closeLoop place).nodes[i]? = some node) : draft.nodes[i]? = some node :=
    (getElem?_closeLoop_of_ne draft ne).symm.trans there
  have behind : next ∈ (Node.loop quantifier body next).onward :=
    List.mem_cons_of_mem _ List.mem_cons_self
  refine ⟨?_, ?_, ?_⟩
  · intro i there
    by_cases here : i = place
    · subst here
      cases filled.symm.trans there
    · exact owned.goal (other here there)
  · intro i after node there mem
    by_cases here : i = place
    · subst here
      cases filled.symm.trans there
      rcases List.mem_cons.mp mem with rfl | mem
      · exact entry
      · obtain rfl := List.mem_singleton.mp mem
        exact owned.onward reserved behind
    · exact owned.onward (other here there) mem
  · rintro i after ⟨node, there, mem⟩
    rw [size_closeLoop]
    by_cases here : i = place
    · subst here
      cases filled.symm.trans there
      rcases List.mem_cons.mp mem with rfl | mem
      · exact valid
      · obtain rfl := List.mem_singleton.mp mem
        exact owned.valid ⟨_, reserved, behind⟩
    · exact owned.valid ⟨node, other here there, mem⟩

/-- The body of a quantifier leads back to the quantifier, and that to what follows. -/
theorem exists_inherits_loop {body : Pattern GroupRange} (h : Inherited body)
    (owned : Owned draft.nodes owner) (valid : draft.entry < draft.nodes.size) (min : Nat)
    (max : Option Nat) (greedy : Bool) (groups : GroupRange) : ∃ owner', Inherits draft
      ((emit body (draft.openLoop min max greedy groups)).closeLoop draft.nodes.size)
      owner owner' := by
  have size := size_openLoop draft min max greedy groups
  have opened : Owned (draft.openLoop min max greedy groups).nodes
      (Function.update owner draft.nodes.size (owner draft.entry)) := by
    refine owned.push nofun ?_ ?_
    · intro next mem ne
      simp only [Node.onward, Node.successors, List.mem_cons, List.not_mem_nil, or_false] at mem
      rcases mem with rfl | rfl
      · exact absurd rfl ne
      · rfl
    · intro next mem
      simp only [Node.successors, List.mem_cons, List.not_mem_nil, or_false] at mem
      omega
  obtain ⟨inside, inner⟩ := h opened (entry_lt_openLoop ..)
  have grown := inner.size
  have closed := size_closeLoop (emit body (draft.openLoop min max greedy groups)) draft.nodes.size
  have reserved := (extends_emit body (draft.openLoop min max greedy groups)).reserved
  have here : inside draft.nodes.size = owner draft.entry := by
    rw [inner.same _ (by omega), Function.update_self]
  have back : inside (emit body (draft.openLoop min max greedy groups)).entry =
      inside draft.nodes.size := inner.entry.trans ((Function.update_self ..).trans here.symm)
  have high : draft.nodes.size < ((emit body (draft.openLoop min max greedy groups)).closeLoop
      draft.nodes.size).nodes.size := by
    omega
  refine ⟨inside, Nat.le_of_lt high, owned_closeLoop inner.owned reserved back inner.valid, ?_,
    high, here⟩
  intro i lt
  rw [inner.same i (by omega), Function.update_of_ne (Nat.ne_of_lt lt)]

theorem exists_inherits_foldr_emit {terms : List (Pattern GroupRange)}
    (h : ∀ p ∈ terms, Inherited p) (owned : Owned draft.nodes owner)
    (valid : draft.entry < draft.nodes.size) :
    ∃ owner', Inherits draft (terms.foldr emit draft) owner owner' := by
  induction terms with
  | nil => exact ⟨owner, .refl owned valid⟩
  | cons p rest ih =>
    obtain ⟨between, later⟩ := ih fun q hq => h q (List.mem_cons_of_mem p hq)
    obtain ⟨owner', now⟩ := h p List.mem_cons_self later.owned later.valid
    exact ⟨owner', later.trans now⟩

/-- The alternatives of a choice, with what they all lead to. -/
theorem exists_inherits_emitAll {alternatives : List (Pattern GroupRange)}
    (h : ∀ p ∈ alternatives, Inherited p) (owned : Owned draft.nodes owner) {next : Nat}
    (valid : next < draft.nodes.size) :
    ∃ owner', Inherits { draft with entry := next }
        { (emitAll alternatives next [] draft).2 with entry := next } owner owner' ∧
      ∀ entry ∈ (emitAll alternatives next [] draft).1,
        entry < (emitAll alternatives next [] draft).2.nodes.size ∧ owner' entry = owner next := by
  induction alternatives generalizing draft owner with
  | nil => exact ⟨owner, .refl owned valid, nofun⟩
  | cons p rest ih =>
    simp only [emitAll]
    rw [emitAll_eq]
    let entered : Draft := { draft with entry := next }
    have owned' : Owned entered.nodes owner := owned
    obtain ⟨between, now⟩ := h p List.mem_cons_self owned' valid
    obtain ⟨owner', later, entries⟩ := ih (fun q hq => h q (List.mem_cons_of_mem p hq)) now.owned
      (Nat.lt_of_lt_of_le valid now.size)
    have next_same : between next = owner next := now.same next valid
    refine ⟨owner', ⟨Nat.le_trans now.size later.size, later.owned, ?_, later.valid, ?_⟩, ?_⟩
    · intro i lt
      rw [later.same i (Nat.lt_of_lt_of_le lt now.size), now.same i lt]
    · exact later.entry.trans next_same
    · intro entry mem
      rcases List.mem_cons.mp mem with rfl | mem
      · refine ⟨Nat.lt_of_lt_of_le now.valid later.size, ?_⟩
        rw [later.same _ now.valid, now.entry]
      · exact ⟨(entries entry mem).1, (entries entry mem).2.trans next_same⟩

/-- **What is put in front of a draft belongs to the owner of its entry**, but for the bodies of
lookaheads. -/
theorem inherited (p : Pattern GroupRange) : Inherited p := by
  induction p with
  | group groups kind body ih =>
    intro draft owner owned valid
    cases kind with
    | capturing =>
      have closed : Inherits draft (draft.prepend (.closeGroup groups.first)) owner _ :=
        inherits_prepend owned valid rfl
      obtain ⟨inside, inner⟩ := ih closed.owned closed.valid
      exact ⟨_, (closed.trans inner).trans (inherits_prepend inner.owned inner.valid rfl)⟩
    | nonCapturing => exact ih owned valid
    | lookahead | negativeLookahead => exact exists_inherits_look ih owned valid ..
  | quantified groups min max greedy body ih =>
    intro draft owner owned valid
    exact exists_inherits_loop ih owned valid ..
  | seq terms ih =>
    intro draft owner owned valid
    rw [emit_seq]
    exact exists_inherits_foldr_emit ih owned valid
  | choice alternatives ih =>
    intro draft owner owned valid
    rw [emit_choice]
    have joined : Inherits draft (draft.prepend .join) owner _ := inherits_prepend owned valid rfl
    obtain ⟨inside, inner, entries⟩ := exists_inherits_emitAll ih joined.owned joined.valid
    have next := inner.entry
    refine ⟨_, (joined.trans inner).trans (inherits_add inner.owned nofun ?_ ?_)⟩
    · intro entry mem
      exact (entries entry mem).2.trans next.symm
    · exact fun entry mem => (entries entry mem).1
  | _ =>
    intro draft owner owned valid
    exact ⟨_, inherits_prepend owned valid rfl⟩

end Draft

namespace Graph

/-- **The goal at place 0 owns both ways into the graph of a pattern.** -/
theorem exists_owned (pattern : NumberedPattern) :
    ∃ owner, Owned (ofPattern pattern).nodes owner ∧ owner (ofPattern pattern).start = 0 := by
  have only {i : Nat} {node : Node} (there : Draft.start.nodes[i]? = some node) :
      i = 0 ∧ node = .goal := by
    cases i with
    | zero =>
      cases there
      exact ⟨rfl, rfl⟩
    | succ i => cases there
  have start : Owned Draft.start.nodes (fun _ => 0) := by
    refine ⟨?_, ?_, ?_⟩
    · intro i there
      exact (only there).1.symm
    · exact fun _ _ => rfl
    · rintro i next ⟨node, there, mem⟩
      rw [(only there).2] at mem
      cases mem
  have closing : Draft.Inherits Draft.start ending (fun _ => 0) _ :=
    Draft.inherits_prepend start (by decide) rfl
  obtain ⟨tree, inner⟩ := Draft.inherited pattern.tree closing.owned closing.valid
  have whole : Draft.Inherits _ (whole pattern) tree _ :=
    Draft.inherits_prepend inner.owned inner.valid rfl
  obtain ⟨owner, all⟩ := Draft.inherited skipAhead whole.owned whole.valid
  exact ⟨owner, all.owned, (((closing.trans inner).trans whole).trans all).entry⟩

end Graph

/-! ## Graphs without lookaheads -/

/-- Whether there is a lookahead in a pattern. -/
def Pattern.LooksAhead {α : Type} (p : Pattern α) : Prop :=
  ∃ looks label kind body, p.Holds looks (.group label kind body) ∧ kind.isLookahead = true

/-- Whether there is a lookahead among some nodes. -/
def LookAhead (nodes : Array Node) : Prop :=
  ∃ (i : Nat) (negated : Bool) (groups : GroupRange) (body next : Nat),
    nodes[i]? = some (.lookahead negated groups body next)

theorem Pattern.LooksAhead.of_part {α : Type} {p q : Pattern α} (h : q.LooksAhead)
    {looks : List Bool} (part : p.Holds looks q) : p.LooksAhead := by
  obtain ⟨looks', label, kind, body, holds, look⟩ := h
  exact ⟨_, label, kind, body, part.trans holds, look⟩

namespace Draft

variable {draft : Draft}

theorem not_lookAhead_add (none : ¬LookAhead draft.nodes) {node : Node}
    (other : ∀ negated groups body next, node ≠ .lookahead negated groups body next) :
    ¬LookAhead (draft.add node).nodes := by
  rintro ⟨i, negated, groups, body, next, there⟩
  obtain old | ⟨-, same⟩ := eq_or_of_getElem?_add there
  · exact none ⟨i, negated, groups, body, next, old⟩
  · exact other negated groups body next same.symm

theorem not_lookAhead_closeLoop (none : ¬LookAhead draft.nodes) (place : Nat) :
    ¬LookAhead (draft.closeLoop place).nodes := by
  rintro ⟨i, negated, groups, body, next, there⟩
  simp only [closeLoop, Array.getElem?_modify] at there
  split at there
  · obtain ⟨node, before, closed⟩ := Option.map_eq_some_iff.mp there
    cases node with
    | lookahead negated' groups' body' next' =>
      exact none ⟨i, negated', groups', body', next', before⟩
    | _ => cases closed
  · exact none ⟨i, negated, groups, body, next, there⟩

/-- A pattern without lookaheads adds none. -/
theorem not_lookAhead_emit {p : Pattern GroupRange} (plain : ¬p.LooksAhead)
    (none : ¬LookAhead draft.nodes) : ¬LookAhead (emit p draft).nodes := by
  induction p generalizing draft with
  | group groups kind body ih =>
    cases kind with
    | capturing =>
      have inside : ¬body.LooksAhead := fun h => plain (h.of_part (.capturing (.self body)))
      have closed : ¬LookAhead (draft.prepend (.closeGroup groups.first)).nodes :=
        not_lookAhead_add none nofun
      exact not_lookAhead_add (ih inside closed) nofun
    | nonCapturing => exact ih (fun h => plain (h.of_part (.nonCapturing (.self body)))) none
    | lookahead | negativeLookahead => exact absurd ⟨_, _, _, _, .self _, rfl⟩ plain
  | quantified groups min max greedy body ih =>
    have inside : ¬body.LooksAhead := fun h => plain (h.of_part (.quantified (.self body)))
    have opened : ¬LookAhead (draft.openLoop min max greedy groups).nodes :=
      not_lookAhead_add none nofun
    exact not_lookAhead_closeLoop (ih inside opened) _
  | seq terms ih =>
    rw [emit_seq]
    refine foldr_emit_induction (motive := fun draft => ¬LookAhead draft.nodes) ?_ none
    intro p mem draft none
    exact ih p mem (fun h => plain (h.of_part (.seq mem (.self p)))) none
  | choice alternatives ih =>
    rw [emit_choice]
    refine not_lookAhead_add ?_ nofun
    refine emitAll_induction (motive := fun draft => ¬LookAhead draft.nodes) id ?_ ?_ _ _
    · intro p mem draft none
      exact ih p mem (fun h => plain (h.of_part (.choice mem (.self p)))) none
    · exact not_lookAhead_add none nofun
  | _ => exact not_lookAhead_add none nofun

end Draft

/-- The graph of a pattern without lookaheads has none. -/
theorem Graph.not_lookAhead_ofPattern {pattern : NumberedPattern}
    (plain : ¬pattern.tree.LooksAhead) : ¬LookAhead (ofPattern pattern).nodes := by
  have start : ¬LookAhead Draft.start.nodes := by
    rintro ⟨i, negated, groups, body, next, there⟩
    cases i with
    | zero => cases there
    | succ i => cases there
  have closing : ¬LookAhead ending.nodes := Draft.not_lookAhead_add start nofun
  have tree := Draft.not_lookAhead_emit plain closing
  refine Draft.not_lookAhead_emit ?_ (Draft.not_lookAhead_add tree nofun)
  rintro ⟨looks, label, kind, body, holds, -⟩
  cases holds with
  | quantified inner => cases inner

end BacktrackRegex
