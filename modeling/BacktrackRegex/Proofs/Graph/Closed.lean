import BacktrackRegex.Proofs.Graph.Fragment
import BacktrackRegex.Proofs.Pattern.Tally

/-!
# Compiled graphs are closed

A graph is `Closed` if every node that it names exists, and every slot and quantifier as well. A
draft is closed from the start and stays so with every node (`Draft.Closed`); what has to be known
of a pattern is only that its labels do not go beyond the slots. Patterns that are read are numbered
up to the count of their groups, so their graphs are closed (**`Graph.closed_of_parse`**).
-/

namespace BacktrackRegex

/-! ## What a node names -/

/-- Whether there are slots for all groups of a range. -/
structure GroupRange.Within (groups : GroupRange) (slots : Nat) : Prop where
  /-- the ends are in order -/
  ordered : groups.first ≤ groups.next
  /-- the last slot exists -/
  bounded : groups.next ≤ slots

/-- Whether the slots and the quantifier that a node uses exist. -/
def Node.Uses (slots loops : Nat) : Node → Prop
  | openGroup slot _ | closeGroup slot _ => slot < slots
  | loop quantifier _ _ => quantifier.id < loops ∧ quantifier.groups.Within slots
  | lookahead _ groups _ _ => groups.Within slots
  | _ => True

/-- Whether all that a node names exists. -/
structure Node.Closed (size slots loops : Nat) (node : Node) : Prop where
  /-- the nodes that may follow -/
  successors : ∀ next ∈ node.successors, next < size
  /-- slots and quantifiers -/
  uses : node.Uses slots loops

theorem Node.Closed.mono {size size' slots loops loops' : Nat} {node : Node}
    (h : node.Closed size slots loops) (more : size ≤ size') (more' : loops ≤ loops') :
    node.Closed size' slots loops' := by
  refine ⟨fun next mem => Nat.lt_of_lt_of_le (h.successors next mem) more, ?_⟩
  have uses := h.uses
  cases node with
  | loop quantifier body next => exact ⟨Nat.lt_of_lt_of_le uses.1 more', uses.2⟩
  | _ => exact uses

theorem Node.closed_goal (size slots loops : Nat) : Node.goal.Closed size slots loops :=
  ⟨nofun, trivial⟩

/-- Whether all that a graph names exists. -/
structure Graph.Closed (graph : Graph) : Prop where
  /-- by a node -/
  nodes : ∀ (i : Nat) (node : Node), graph.nodes[i]? = some node →
    node.Closed graph.nodes.size graph.slots graph.loops
  /-- as the way in that skips characters -/
  start : graph.start < graph.nodes.size
  /-- as the way in that matches at one position -/
  anchored : graph.anchored < graph.nodes.size

/-! ## Drafts -/

namespace Draft

/-- Whether all that a draft names exists. -/
structure Closed (slots : Nat) (draft : Draft) : Prop where
  /-- by a node -/
  nodes : ∀ (i : Nat) (node : Node), draft.nodes[i]? = some node →
    node.Closed draft.nodes.size slots draft.loops
  /-- as the entry -/
  entry : draft.entry < draft.nodes.size

variable {slots : Nat} {draft : Draft}

/-- A node is added that names what exists. -/
theorem Closed.add {node : Node} (h : draft.Closed slots)
    (closed : node.Closed draft.nodes.size slots draft.loops) : (draft.add node).Closed slots := by
  have size : (draft.add node).nodes.size = draft.nodes.size + 1 := by simp [Draft.add]
  have loops : (draft.add node).loops = draft.loops := rfl
  constructor
  · intro i found at_i
    rw [size, loops]
    simp only [Draft.add, Array.getElem?_push] at at_i
    split at at_i
    · cases at_i
      exact closed.mono (Nat.le_succ _) (Nat.le_refl _)
    · exact (h.nodes i found at_i).mono (Nat.le_succ _) (Nat.le_refl _)
  · rw [size]
    exact Nat.lt_succ_self _

theorem closed_start (slots : Nat) : Draft.start.Closed slots := by
  constructor
  · intro i node at_i
    cases i with
    | zero =>
      cases at_i
      exact Node.closed_goal ..
    | succ i => cases at_i
  · exact Nat.one_pos

/-- A node whose successor is the entry. -/
theorem Closed.prepend (h : draft.Closed slots) (node : Nat → Node)
    (successors : (node draft.entry).successors = [draft.entry])
    (uses : (node draft.entry).Uses slots draft.loops) : (draft.prepend node).Closed slots := by
  refine h.add ⟨fun next mem => ?_, uses⟩
  rw [successors, List.mem_singleton] at mem
  rw [mem]
  exact h.entry

/-- The place of a quantifier is reserved; until it is filled, it names itself. -/
theorem Closed.openLoop (h : draft.Closed slots) (min : Nat) (max : Option Nat) (greedy : Bool)
    {groups : GroupRange} (within : groups.Within slots) :
    (draft.openLoop min max greedy groups).Closed slots := by
  have size : (draft.openLoop min max greedy groups).nodes.size = draft.nodes.size + 1 := by
    simp [Draft.openLoop]
  have loops : (draft.openLoop min max greedy groups).loops = draft.loops + 1 := rfl
  have entry := h.entry
  constructor
  · intro i found at_i
    rw [size, loops]
    simp only [Draft.openLoop, Array.getElem?_push] at at_i
    split at at_i
    · cases at_i
      refine ⟨fun next mem => ?_, Nat.lt_succ_self _, within⟩
      simp only [Node.successors, List.mem_cons, List.not_mem_nil, or_false] at mem
      omega
    · exact (h.nodes i found at_i).mono (Nat.le_succ _) (Nat.le_succ _)
  · rw [size]
    exact Nat.lt_succ_self _

/-- A quantifier's place is filled. -/
theorem Closed.closeLoop {place : Nat} (h : draft.Closed slots)
    (inside : place < draft.nodes.size) :
    (draft.closeLoop place).Closed slots := by
  have size := size_closeLoop draft place
  have loops : (draft.closeLoop place).loops = draft.loops := rfl
  constructor
  · intro i found at_i
    rw [size, loops]
    by_cases here : i = place
    · subst here
      simp only [Draft.closeLoop, Array.getElem?_modify, if_true] at at_i
      obtain ⟨node, before, rfl⟩ := Option.map_eq_some_iff.mp at_i
      have closed := h.nodes i node before
      cases node with
      | loop quantifier body next =>
        refine ⟨fun later mem => ?_, closed.uses⟩
        have := h.entry
        have := closed.successors next (List.mem_cons_of_mem body (List.mem_singleton_self next))
        simp only [Node.successors, List.mem_cons, List.not_mem_nil, or_false] at mem
        omega
      | _ => exact closed
    · rw [getElem?_closeLoop_of_ne draft here] at at_i
      exact h.nodes i found at_i
  · rw [size]
    exact inside

theorem Closed.enterAt {next : Nat} (h : draft.Closed slots) (inside : next < draft.nodes.size) :
    Draft.Closed slots { draft with entry := next } :=
  ⟨h.nodes, inside⟩

variable {first next : Nat}

/-- The patterns of a sequence, one after the other. -/
theorem closed_foldr_emit {terms : List (Pattern GroupRange)}
    (h : ∀ p ∈ terms, ∀ {draft first next}, p.Numbered first next → next ≤ slots →
      Draft.Closed slots draft → (emit p draft).Closed slots)
    (numbered : Pattern.NumberedList terms first next) (le : next ≤ slots)
    (closed : draft.Closed slots) : (terms.foldr emit draft).Closed slots := by
  induction terms generalizing first with
  | nil => exact closed
  | cons p rest ih =>
    obtain ⟨middle, hp, hrest⟩ := numbered
    have middle_le : middle ≤ next := Pattern.NumberedList.le (fun _ _ => Pattern.Numbered.le) hrest
    exact h p List.mem_cons_self hp (Nat.le_trans middle_le le)
      (ih (fun q hq => h q (List.mem_cons_of_mem p hq)) hrest)

/-- The patterns of a choice, side by side. -/
theorem closed_emitAll {alternatives : List (Pattern GroupRange)}
    (h : ∀ p ∈ alternatives, ∀ {draft first next}, p.Numbered first next → next ≤ slots →
      Draft.Closed slots draft → (emit p draft).Closed slots)
    (numbered : Pattern.NumberedList alternatives first next) (le : next ≤ slots)
    {behind : Nat} (closed : draft.Closed slots) (inside : behind < draft.nodes.size) :
    (emitAll alternatives behind [] draft).2.Closed slots ∧
      ∀ entry ∈ (emitAll alternatives behind [] draft).1,
        entry < (emitAll alternatives behind [] draft).2.nodes.size := by
  induction alternatives generalizing first draft with
  | nil => exact ⟨closed, nofun⟩
  | cons p rest ih =>
    obtain ⟨middle, hp, hrest⟩ := numbered
    simp only [emitAll]
    rw [emitAll_eq]
    have middle_le : middle ≤ next := Pattern.NumberedList.le (fun _ _ => Pattern.Numbered.le) hrest
    have emitted := h p List.mem_cons_self hp (Nat.le_trans middle_le le) (closed.enterAt inside)
    have grown := extends_emit p { draft with entry := behind }
    have grown' := extends_emitAll (fun q (_ : q ∈ rest) => extends_emit q) behind []
      (emit p { draft with entry := behind })
    obtain ⟨closed, entries⟩ := ih (fun q hq => h q (List.mem_cons_of_mem p hq)) hrest emitted
      (Nat.lt_of_lt_of_le inside grown.size)
    refine ⟨closed, fun entry mem => ?_⟩
    rcases List.mem_cons.mp mem with rfl | mem
    · exact Nat.lt_of_lt_of_le emitted.entry grown'.size
    · exact entries entry mem

/-- **A pattern compiles to nodes that name what exists**, if its labels do not go beyond the
slots. -/
theorem closed_emit (p : Pattern GroupRange) (numbered : p.Numbered first next) (le : next ≤ slots)
    (closed : draft.Closed slots) : (emit p draft).Closed slots := by
  induction p generalizing first next draft with
  | group groups kind body ih =>
    obtain ⟨rfl, inner⟩ := numbered
    have inner_le := inner.le
    -- in front of the body of a lookahead, whose goal stands behind the entry
    have look (negated : Bool) (inner : body.Numbered first next) :
        Closed slots ((emit body (draft.add .goal)).prepend
          (.lookahead negated ⟨first, next⟩ · draft.entry)) := by
      have emitted := ih inner le (closed.add (Node.closed_goal ..))
      have grown := (extends_add draft .goal).trans (extends_emit body _)
      refine emitted.add ⟨fun later mem => ?_, inner.le, le⟩
      have := closed.entry
      have := emitted.entry
      have := grown.size
      simp only [Node.successors, List.mem_cons, List.not_mem_nil, or_false] at mem
      omega
    cases kind with
    | capturing =>
      have slot : first < slots := Nat.lt_of_lt_of_le inner_le le
      have inside := ih inner le (closed.prepend (.closeGroup first) rfl slot)
      exact inside.prepend (.openGroup first) rfl slot
    | nonCapturing => exact ih inner le closed
    | lookahead => exact look false inner
    | negativeLookahead => exact look true inner
  | quantified groups min max greedy body ih =>
    obtain ⟨rfl, inner⟩ := numbered
    have within : GroupRange.Within ⟨first, next⟩ slots := ⟨inner.le, le⟩
    have opened := closed.openLoop min max greedy within
    have grown := extends_emit body (draft.openLoop min max greedy ⟨first, next⟩)
    refine (ih inner le opened).closeLoop (Nat.lt_of_lt_of_le ?_ grown.size)
    simp [Draft.openLoop]
  | seq terms ih =>
    rw [emit_seq]
    exact closed_foldr_emit ih numbered le closed
  | choice alternatives ih =>
    rw [emit_choice]
    have joined : Closed slots (draft.prepend .join) := closed.prepend _ rfl trivial
    obtain ⟨inner, entries⟩ := closed_emitAll ih numbered le joined joined.entry
    exact inner.add ⟨entries, trivial⟩
  | _ => exact closed.prepend _ rfl trivial

end Draft

/-! ## Graphs -/

/-- The graph of a pattern is closed if its groups are numbered up to their count. -/
theorem Graph.closed_ofPattern {pattern : NumberedPattern}
    (numbered : pattern.tree.Numbered 1 (pattern.groupCount + 1)) :
    (Graph.ofPattern pattern).Closed := by
  have slot : 0 < pattern.groupCount + 1 := Nat.succ_pos _
  have closed := (Draft.closed_start (pattern.groupCount + 1)).prepend
    (.closeGroup 0) rfl slot
  have anchored := (Draft.closed_emit pattern.tree numbered (Nat.le_refl _) closed).prepend
    (.openGroup 0) rfl slot
  have skip : skipAhead.Numbered 0 0 := ⟨rfl, rfl⟩
  have searching := Draft.closed_emit skipAhead skip (Nat.zero_le _) anchored
  have grown := Draft.extends_emit skipAhead
    ((Draft.emit pattern.tree (Draft.start.prepend (.closeGroup 0))).prepend (.openGroup 0))
  exact ⟨searching.nodes, searching.entry, Nat.lt_of_lt_of_le anchored.entry grown.size⟩

/-- **All that the graph of a pattern names exists**, once the pattern is read. -/
theorem Graph.closed_of_parse {source : String} {pattern : NumberedPattern}
    (parsed : NumberedPattern.parse source = .ok pattern) : (Graph.ofPattern pattern).Closed :=
  closed_ofPattern (NumberedPattern.numbered_groupCount parsed)

end BacktrackRegex
