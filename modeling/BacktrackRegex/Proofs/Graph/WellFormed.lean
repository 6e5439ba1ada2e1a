import BacktrackRegex.Proofs.Graph.Parts
import Mathlib.Data.List.Count

/-!
# Compiled graphs are well-formed

What can be said of the graph of every pattern that is read (**`Graph.wellFormed_of_parse`**): where
its edges lead and where they do not, which numbers its quantifiers and captures have, and that
there is a way to every node.

The edges are those of the one block that all nodes but the goal make up. The numbers are counted:
quantifiers are numbered as they are made, whatever the pattern (`numbers_loopId?_emit`), and a
pattern brings a node to open and one to close each capture that it is numbered with
(`brings_emit`).
-/

namespace BacktrackRegex

open Relation

/-! ## Numbers -/

/-- The number of a node that is a quantifier. -/
def Node.loopId? : Node → Option Nat
  | loop quantifier _ _ => some quantifier.id
  | _ => none

/-- The slot of a node at which a capture begins, or (if `closing`) at which one ends. -/
def Node.slot? (closing : Bool) : Node → Option Nat
  | openGroup slot _ => if closing then none else some slot
  | closeGroup slot _ => if closing then some slot else none
  | _ => none

namespace Draft

/-- The numbers that the nodes of a draft have, where they have one. -/
def numbers (number? : Node → Option Nat) (draft : Draft) : List Nat :=
  draft.nodes.toList.filterMap number?

theorem filterMap_modify {α β : Type} {f : α → Option β} {g : α → α} (h : ∀ x, f (g x) = f x)
    (xs : List α) (i : Nat) : (xs.modify i g).filterMap f = xs.filterMap f := by
  induction xs generalizing i with
  | nil => simp
  | cons x xs ih =>
    cases i with
    | zero => simp [List.filterMap_cons, h]
    | succ i => simp [List.filterMap_cons, ih]

section

variable (number? : Node → Option Nat) (draft : Draft)

theorem numbers_add (node : Node) :
    (draft.add node).numbers number? = draft.numbers number? ++ (number? node).toList := by
  simp only [numbers, add, Array.toList_push, List.filterMap_append]
  rcases h : number? node with _ | n <;> simp [h]

theorem numbers_openLoop (min : Nat) (max : Option Nat) (greedy : Bool) (groups : GroupRange) :
    (draft.openLoop min max greedy groups).numbers number? = draft.numbers number? ++
      (number? (.loop ⟨draft.loops, min, max, greedy, groups⟩ draft.nodes.size
        draft.entry)).toList :=
  numbers_add number? draft _

/-- To fill in the body of a quantifier does not change its number. -/
theorem numbers_closeLoop (h : ∀ quantifier body body' next,
    number? (.loop quantifier body next) = number? (.loop quantifier body' next)) (place : Nat) :
    (draft.closeLoop place).numbers number? = draft.numbers number? := by
  simp only [numbers, closeLoop, Array.toList_modify]
  refine filterMap_modify (fun node => ?_) ..
  cases node with
  | loop quantifier body next => exact h ..
  | _ => rfl

end

section

variable {motive : Draft → Prop}

theorem foldr_emit_induction {terms : List (Pattern GroupRange)}
    (h : ∀ p ∈ terms, ∀ {draft}, motive draft → motive (emit p draft)) {draft : Draft}
    (start : motive draft) : motive (terms.foldr emit draft) := by
  induction terms with
  | nil => exact start
  | cons p rest ih =>
    exact h p List.mem_cons_self (ih fun q hq => h q (List.mem_cons_of_mem p hq))

variable (enterAt : ∀ {draft : Draft} {next}, motive draft → motive { draft with entry := next })

include enterAt

theorem emitAll_induction {alternatives : List (Pattern GroupRange)}
    (h : ∀ p ∈ alternatives, ∀ {draft}, motive draft → motive (emit p draft)) {draft : Draft}
    (start : motive draft) (next : Nat) (entries : List Nat) :
    motive (emitAll alternatives next entries draft).2 := by
  induction alternatives generalizing draft entries with
  | nil => exact start
  | cons p rest ih =>
    refine ih (fun q hq => h q (List.mem_cons_of_mem p hq)) ?_ _
    exact h p List.mem_cons_self (enterAt start)

/-- What holds of a draft whatever is done to it holds when a pattern was emitted. -/
theorem emit_induction
    (add : ∀ {draft node}, node.loopId? = none → motive draft → motive (draft.add node))
    (openLoop : ∀ {draft min max greedy groups}, motive draft →
      motive (draft.openLoop min max greedy groups))
    (closeLoop : ∀ {draft place}, motive draft → motive (draft.closeLoop place))
    (p : Pattern GroupRange) {draft : Draft} (start : motive draft) : motive (emit p draft) := by
  induction p generalizing draft with
  | group groups kind body ih =>
    cases kind with
    | nonCapturing => exact ih start
    | capturing | lookahead | negativeLookahead => exact add rfl (ih (add rfl start))
  | quantified groups min max greedy body ih => exact closeLoop (ih (openLoop start))
  | seq terms ih =>
    rw [emit_seq]
    exact foldr_emit_induction ih start
  | choice alternatives ih =>
    rw [emit_choice]
    exact add rfl (emitAll_induction enterAt ih (add rfl start) ..)
  | _ => exact add rfl start

end

/-- Quantifiers are numbered in the order of their nodes. -/
theorem numbers_loopId?_emit (p : Pattern GroupRange) {draft : Draft}
    (h : draft.numbers Node.loopId? = List.range draft.loops) :
    (emit p draft).numbers Node.loopId? = List.range (emit p draft).loops := by
  refine emit_induction (motive := fun draft =>
    draft.numbers Node.loopId? = List.range draft.loops) id ?add ?openLoop ?closeLoop p h
  case add =>
    intro draft node none h
    rw [numbers_add, none, Option.toList_none, List.append_nil, h]
    rfl
  case openLoop =>
    intro draft min max greedy groups h
    rw [numbers_openLoop, h]
    exact List.range_succ.symm
  case closeLoop =>
    intro draft place h
    rw [numbers_closeLoop _ _ fun _ _ _ _ => rfl, h]
    rfl

section

variable {closing : Bool} {slot : Nat}

/-- Whether `draft` came to be `after` by what brings a slot once if it is among those from `first`
to `next`, and not at all otherwise. -/
def Brings (closing : Bool) (slot first next : Nat) (draft after : Draft) : Prop :=
  (after.numbers (Node.slot? closing)).count slot =
    (draft.numbers (Node.slot? closing)).count slot +
      if first ≤ slot ∧ slot < next then 1 else 0

theorem count_numbers_add (draft : Draft) (node : Node) :
    ((draft.add node).numbers (Node.slot? closing)).count slot =
      (draft.numbers (Node.slot? closing)).count slot +
        if node.slot? closing = some slot then 1 else 0 := by
  rw [numbers_add, List.count_append]
  rcases node.slot? closing with _ | other <;> simp [List.count_singleton]

/-- What leaves the slots as they are brings none. -/
theorem brings_of_eq {first next : Nat} {draft after : Draft} (none : first = next)
    (same : after.numbers (Node.slot? closing) = draft.numbers (Node.slot? closing)) :
    Brings closing slot first next draft after := by
  rw [Brings, same, if_neg (by omega), Nat.add_zero]

theorem brings_add {first next : Nat} (none : first = next) (draft : Draft) {node : Node}
    (other : node.slot? closing = .none) :
    Brings closing slot first next draft (draft.add node) := by
  refine brings_of_eq none ?_
  rw [numbers_add, other, Option.toList_none, List.append_nil]

theorem Brings.trans {first middle next : Nat} {draft inner after : Draft}
    (h : Brings closing slot first middle draft inner)
    (h' : Brings closing slot middle next inner after) (le : first ≤ middle) (le' : middle ≤ next) :
    Brings closing slot first next draft after := by
  unfold Brings at h h' ⊢
  grind

/-- The order in which slots are brought does not matter. -/
theorem Brings.swap {first middle next : Nat} {draft inner after : Draft}
    (h : Brings closing slot middle next draft inner)
    (h' : Brings closing slot first middle inner after) (le : first ≤ middle)
    (le' : middle ≤ next) : Brings closing slot first next draft after := by
  unfold Brings at h h' ⊢
  grind

theorem brings_foldr_emit {terms : List (Pattern GroupRange)}
    (h : ∀ p ∈ terms, ∀ {first next}, p.Numbered first next → ∀ draft,
      Brings closing slot first next draft (emit p draft))
    {first next : Nat} (numbered : Pattern.NumberedList terms first next) (draft : Draft) :
    Brings closing slot first next draft (terms.foldr emit draft) := by
  induction terms generalizing first with
  | nil => exact brings_of_eq numbered rfl
  | cons p rest ih =>
    obtain ⟨middle, hp, hrest⟩ := numbered
    -- the terms behind the first are put in place before it
    have behind := ih (fun q hq => h q (List.mem_cons_of_mem p hq)) hrest
    exact behind.swap (h p List.mem_cons_self hp _) hp.le (hrest.le fun _ _ => Pattern.Numbered.le)

theorem brings_emitAll {alternatives : List (Pattern GroupRange)}
    (h : ∀ p ∈ alternatives, ∀ {first next}, p.Numbered first next → ∀ draft,
      Brings closing slot first next draft (emit p draft))
    {first next : Nat} (numbered : Pattern.NumberedList alternatives first next) (behind : Nat)
    (entries : List Nat) (draft : Draft) :
    Brings closing slot first next draft (emitAll alternatives behind entries draft).2 := by
  induction alternatives generalizing first entries draft with
  | nil => exact brings_of_eq numbered rfl
  | cons p rest ih =>
    obtain ⟨middle, hp, hrest⟩ := numbered
    have one : Brings closing slot first middle draft (emit p { draft with entry := behind }) :=
      h p List.mem_cons_self hp { draft with entry := behind }
    have others := ih (fun q hq => h q (List.mem_cons_of_mem p hq)) hrest
    exact one.trans (others _ _) hp.le (hrest.le fun _ _ => Pattern.Numbered.le)

/-- A pattern brings each of the slots that it is numbered with, once. -/
theorem brings_emit {p : Pattern GroupRange} {first next : Nat} (numbered : p.Numbered first next)
    (draft : Draft) : Brings closing slot first next draft (emit p draft) := by
  induction p generalizing first next draft with
  | group groups kind body ih =>
    obtain ⟨rfl, inner⟩ := numbered
    cases kind with
    | capturing =>
      have inner : body.Numbered (first + 1) next := inner
      have le := inner.le
      have body := ih inner (draft.prepend (.closeGroup first))
      unfold Brings at body ⊢
      rw [emit]
      dsimp only
      rw [prepend, count_numbers_add, body, prepend, count_numbers_add]
      simp only [Node.slot?]
      cases closing <;> grind
    | nonCapturing => exact ih inner draft
    | lookahead | negativeLookahead =>
      have goal : Brings closing slot first first draft (draft.add .goal) :=
        brings_add rfl draft rfl
      have body := goal.trans (ih inner _) (Nat.le_refl _) inner.le
      exact body.trans (brings_add rfl _ rfl) inner.le (Nat.le_refl _)
  | quantified groups min max greedy body ih =>
    obtain ⟨rfl, inner⟩ := numbered
    have opened : Brings closing slot first first draft
        (draft.openLoop min max greedy ⟨first, next⟩) := brings_add rfl draft rfl
    have body := opened.trans (ih inner _) (Nat.le_refl _) inner.le
    refine body.trans (brings_of_eq rfl ?_) inner.le (Nat.le_refl _)
    exact numbers_closeLoop _ _ (fun _ _ _ _ => rfl) _
  | seq terms ih =>
    rw [emit_seq]
    exact brings_foldr_emit ih numbered draft
  | choice alternatives ih =>
    have le : first ≤ next := numbered.le
    have join : Brings closing slot first first draft (draft.prepend .join) :=
      brings_add rfl draft rfl
    rw [emit_choice]
    refine Brings.trans ?_ (brings_add rfl _ rfl) le (Nat.le_refl _)
    exact join.trans (brings_emitAll ih numbered ..) (Nat.le_refl _) le
  | _ => exact brings_add numbered draft rfl

end

end Draft

/-! ## Graphs -/

/-- Whether the node at `i` is a quantifier with its body at `j`. -/
def Repeats (nodes : Array Node) (i j : Nat) : Prop :=
  ∃ quantifier next, nodes[i]? = some (.loop quantifier j next)

namespace Graph

/-- The draft in front of which the tree of a pattern is put. -/
def ending : Draft :=
  Draft.start.prepend (.closeGroup 0)

/-- The draft of a whole pattern, but for the quantifier that skips characters. -/
def whole (pattern : NumberedPattern) : Draft :=
  (Draft.emit pattern.tree ending).prepend (.openGroup 0)

/-- Whether `q` is put in front of `before` when the pattern is compiled. -/
def Emits (pattern : NumberedPattern) (q : Pattern GroupRange) (before : Draft) : Prop :=
  Draft.Emits pattern.tree ending q before ∨ Draft.Emits skipAhead (whole pattern) q before

/-- Whether a graph is as the graph of a pattern should be. -/
structure WellFormed (graph : Graph) (pattern : NumberedPattern) : Prop where
  /-- all successors exist -/
  valid : ∀ {i j}, Leads graph.nodes i j → j < graph.nodes.size
  /-- no quantifier is left without its body -/
  closed : ∀ {i}, ¬Repeats graph.nodes i i
  /-- all edges lead down, but for those from a quantifier to its body, which lead up -/
  descends : ∀ {i} {node : Node}, graph.nodes[i]? = some node → node.Descends i
  /-- there is no cycle without an edge from a quantifier to its body -/
  cycles : ∀ {i}, ¬TransGen (fun i j => Leads graph.nodes i j ∧ ¬Repeats graph.nodes i j) i i
  /-- quantifiers are numbered from 0 on, in the order of their nodes -/
  loops : graph.nodes.toList.filterMap Node.loopId? = List.range graph.loops
  /-- for each slot there is one node at which the capture begins, and one at which it ends -/
  slots : ∀ closing,
    (graph.nodes.toList.filterMap (Node.slot? closing)).Perm (List.range graph.slots)
  /-- every part of the pattern is emitted -/
  parts : ∀ {looks q}, pattern.tree.Holds looks q → ∃ before, Emits pattern q before
  /-- from the body of a quantifier there is no way out but through the quantifier -/
  body : ∀ {groups min max greedy body before},
    Emits pattern (.quantified groups min max greedy body) before →
      Draft.LoopsBack graph.nodes ⟨before.loops, min, max, greedy, groups⟩ before
        (before.openLoop min max greedy groups)
        (Draft.emit body (before.openLoop min max greedy groups))
  /-- from the body of a lookahead there is no way out -/
  lookahead : ∀ {groups body before}, Emits pattern (.group groups .lookahead body) before →
    Draft.Enclosed graph.nodes false groups before (Draft.emit body (before.add .goal))
  /-- nor from the body of a negated one -/
  negativeLookahead : ∀ {groups body before},
    Emits pattern (.group groups .negativeLookahead body) before →
      Draft.Enclosed graph.nodes true groups before (Draft.emit body (before.add .goal))
  /-- there is a way to every node -/
  reaches : ∀ {i}, i < graph.nodes.size → ReflTransGen (Leads graph.nodes) graph.start i

end Graph

/-- An edge other than one from a quantifier to its body leads down. -/
theorem lt_of_leads {nodes : Array Node}
    (descends : ∀ {i} {node : Node}, nodes[i]? = some node → node.Descends i) {i j : Nat}
    (leads : Leads nodes i j) (other : ¬Repeats nodes i j) : j < i := by
  obtain ⟨node, there, mem⟩ := leads
  have down := descends there
  cases node with
  | loop quantifier body next =>
    simp only [Node.successors, List.mem_cons, List.not_mem_nil, or_false] at mem
    rcases mem with rfl | rfl
    · exact absurd ⟨quantifier, next, there⟩ other
    · exact down.2
  | _ => exact down j mem

/-- So every way that does without those edges leads down. -/
theorem lt_of_transGen {nodes : Array Node}
    (descends : ∀ {i} {node : Node}, nodes[i]? = some node → node.Descends i) {i j : Nat}
    (way : TransGen (fun i j => Leads nodes i j ∧ ¬Repeats nodes i j) i j) : j < i := by
  induction way with
  | single edge => exact lt_of_leads descends edge.1 edge.2
  | tail way edge ih => exact Nat.lt_trans (lt_of_leads descends edge.1 edge.2) ih

namespace Graph

open Draft

variable {pattern : NumberedPattern}

theorem block_whole (filled : pattern.tree.Filled) : Block ending (whole pattern) := by
  have tree := block_emit pattern.tree filled ending (by decide)
  exact tree.trans (block_prepend tree.high rfl)

/-- All that comes in front of the goal is one block. -/
theorem block_ofPattern (filled : pattern.tree.Filled) :
    Block Draft.start (emit skipAhead (whole pattern)) := by
  have closing : Block Draft.start ending := block_prepend (by decide) rfl
  have all := closing.trans (block_whole filled)
  exact all.trans (block_emit skipAhead trivial _ all.high)

/-- What is emitted on the way is in place in the graph. -/
theorem part_of_emits (filled : pattern.tree.Filled) {q : Pattern GroupRange} {before : Draft}
    (h : Emits pattern q before) :
    q.Filled ∧ InPlace (ofPattern pattern).nodes before.nodes.size (emit q before) := by
  have high := (block_whole filled).high
  rcases h with tree | skip
  · have part := tree.part filled (by decide)
    have grown : Extends (emit pattern.tree ending) (emit skipAhead (whole pattern)) :=
      (extends_add ..).trans (extends_emit ..)
    exact ⟨part.filled, part.inPlace fun i _ high => grown.same i high⟩
  · have part := skip.part trivial high
    exact ⟨part.filled, part.inPlace fun i _ _ => rfl⟩

theorem perm_range_of_count {xs : List Nat} {n : Nat}
    (h : ∀ slot, xs.count slot = if slot < n then 1 else 0) : xs.Perm (List.range n) := by
  refine List.perm_iff_count.mpr fun slot => ?_
  rw [h, List.count_range]

/-- The goal leads nowhere, and all other nodes are in the block. -/
theorem descends_ofPattern (filled : pattern.tree.Filled) {i : Nat} {node : Node}
    (there : (ofPattern pattern).nodes[i]? = some node) : node.Descends i := by
  have block := block_ofPattern filled
  cases i with
  | zero =>
    cases (block.grown.same 0 Nat.one_pos).symm.trans there
    exact nofun
  | succ i => exact block.descends (Nat.succ_le_succ (Nat.zero_le i)) there

theorem valid_ofPattern (filled : pattern.tree.Filled) {i j : Nat}
    (leads : Leads (ofPattern pattern).nodes i j) : j < (ofPattern pattern).nodes.size := by
  have block := block_ofPattern filled
  cases i with
  | zero =>
    obtain ⟨node, there, mem⟩ := leads
    cases (block.grown.same 0 Nat.one_pos).symm.trans there
    exact absurd mem List.not_mem_nil
  | succ i =>
    rcases block.inside (Nat.succ_le_succ (Nat.zero_le i)) leads with rfl | ⟨-, lt⟩
    · exact Nat.lt_of_lt_of_le Nat.one_pos block.grown.size
    · exact lt

/-- The quantifiers of a graph, the one that skips characters included, are numbered in order. -/
theorem loopIds_ofPattern (pattern : NumberedPattern) :
    (ofPattern pattern).nodes.toList.filterMap Node.loopId? =
      List.range (ofPattern pattern).loops := by
  have tree : (emit pattern.tree ending).numbers Node.loopId? =
      List.range (emit pattern.tree ending).loops := numbers_loopId?_emit pattern.tree rfl
  have whole : (whole pattern).numbers Node.loopId? = List.range (whole pattern).loops := by
    rw [whole, prepend, numbers_add, tree]
    exact List.append_nil _
  exact numbers_loopId?_emit skipAhead whole

/-- Each slot of a graph is brought once, slot 0 by the nodes around the tree. -/
theorem slots_ofPattern (numbered : pattern.tree.Numbered 1 (pattern.groupCount + 1))
    (closing : Bool) : ((ofPattern pattern).nodes.toList.filterMap (Node.slot? closing)).Perm
      (List.range (ofPattern pattern).slots) := by
  refine perm_range_of_count fun slot => ?_
  have skip : skipAhead.Numbered 0 0 := ⟨rfl, rfl⟩
  have start : Draft.start.numbers (Node.slot? closing) = [] := rfl
  have slots : (ofPattern pattern).slots = pattern.groupCount + 1 := rfl
  have tree : Brings closing slot 1 (pattern.groupCount + 1) ending (emit pattern.tree ending) :=
    brings_emit numbered ending
  have searching : Brings closing slot 0 0 (whole pattern) (emit skipAhead (whole pattern)) :=
    brings_emit skip _
  refine Eq.trans searching ?_
  rw [whole, prepend, count_numbers_add, tree, ending, prepend, count_numbers_add, start, slots,
    List.count_nil]
  simp only [Node.slot?]
  cases closing <;> grind

/-- **The graph of a pattern that is read is well-formed.** -/
theorem wellFormed_of_parse {source : String}
    (parsed : NumberedPattern.parse source = .ok pattern) :
    (ofPattern pattern).WellFormed pattern := by
  have filled := NumberedPattern.filled_of_parse parsed
  have block := block_ofPattern filled
  have descends {i : Nat} {node : Node} (there : (ofPattern pattern).nodes[i]? = some node) :
      node.Descends i := descends_ofPattern filled there
  constructor
  case valid => exact valid_ofPattern filled
  case closed =>
    rintro i ⟨quantifier, next, there⟩
    exact Nat.lt_irrefl i (descends there).1
  case descends => exact descends
  case cycles => exact fun {i} cycle => Nat.lt_irrefl i (lt_of_transGen descends cycle)
  case loops => exact loopIds_ofPattern pattern
  case slots => exact slots_ofPattern (NumberedPattern.numbered_groupCount parsed)
  case parts =>
    intro looks q holds
    exact (exists_emits_of_holds holds ending).imp fun _ => .inl
  case body =>
    intro groups min max greedy body before emits
    obtain ⟨filled, placed⟩ := part_of_emits filled emits
    exact loopsBack_of_inPlace filled placed
  case lookahead =>
    intro groups body before emits
    obtain ⟨filled, placed⟩ := part_of_emits filled emits
    exact enclosed_of_inPlace filled placed
  case negativeLookahead =>
    intro groups body before emits
    obtain ⟨filled, placed⟩ := part_of_emits filled emits
    exact enclosed_of_inPlace filled placed
  case reaches =>
    intro i lt
    cases i with
    | zero => exact block.through
    | succ i => exact block.reaches (Nat.succ_le_succ (Nat.zero_le i)) lt

theorem wellFormed_of_parse_lookahead :
    let body : Pattern GroupRange := .seq [.char 'a', .group ⟨1, 1⟩ .lookahead (.char 'b')]
    let pattern : NumberedPattern :=
      ⟨.quantified ⟨1, 1⟩ 2 (some 2) true (.group ⟨1, 1⟩ .nonCapturing body), 0, 1⟩
    let graph : Graph := ofPattern pattern
    NumberedPattern.parse "(?:a(?=b)){2}" = .ok pattern ∧ graph.WellFormed pattern ∧
      (∃ opened child, opened.nodes.size = 3 ∧ child.nodes.size = 7 ∧
        Draft.LoopsBack graph.nodes ⟨0, 2, some 2, true, ⟨1, 1⟩⟩ ending opened child) ∧
      (∃ before child, before.nodes.size = 3 ∧ child.nodes.size = 5 ∧
        Draft.Enclosed graph.nodes false ⟨1, 1⟩ before child) ∧
      ReflTransGen (Leads graph.nodes) 8 3 := by
  intro body pattern graph
  have parsed : NumberedPattern.parse "(?:a(?=b)){2}" = .ok pattern := rfl
  have wellFormed : graph.WellFormed pattern := wellFormed_of_parse parsed
  have loop : Emits pattern pattern.tree ending := .inl (.self ..)
  have looks : Draft.Emits body (ending.openLoop 2 (some 2) true ⟨1, 1⟩)
      (.group ⟨1, 1⟩ .lookahead (.char 'b')) (ending.openLoop 2 (some 2) true ⟨1, 1⟩) :=
    @Draft.Emits.seq [.char 'a'] _ [] _ _ _ (.self ..)
  refine ⟨parsed, wellFormed, ⟨_, _, ?_, ?_, wellFormed.body loop⟩, ?_, wellFormed.reaches ?_⟩
  · rfl
  · rfl
  · exact ⟨_, _, rfl, rfl, wellFormed.lookahead (.inl (.quantified (.nonCapturing looks)))⟩
  · decide

end Graph

end BacktrackRegex
