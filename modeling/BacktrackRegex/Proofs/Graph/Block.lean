import Mathlib.Logic.Relation
import BacktrackRegex.Proofs.Graph.Fragment
import BacktrackRegex.Proofs.Pattern.Filled

/-!
# The nodes of a pattern lie together

Whatever is emitted for a pattern comes behind the nodes that are there. So its nodes form a block,
and the only edges out of the block lead to the node that was the entry before. In the block every
edge leads down, to a place that was filled before, except those from a quantifier to its body; and
from the entry of the block there is a way to each of its nodes, and on to the entry before.

`Block` says so of two drafts, one grown from the other. Blocks can be put one upon the other
(`Block.trans`), and there is a lemma for each way in which a pattern is made from its parts, so
every filled pattern emits a block (`block_emit`).

`Emits` tells which patterns are emitted on the way, and in front of what.
-/

namespace BacktrackRegex

open Relation

/-- Whether the node at `i` names `j` among its successors. -/
def Leads (nodes : Array Node) (i j : Nat) : Prop :=
  ∃ node, nodes[i]? = some node ∧ j ∈ node.successors

/-- Whether a node at the place `here` leads down, but for the edge of a quantifier to its body,
which leads up. -/
def Node.Descends (here : Nat) : Node → Prop
  | loop _ body next => here < body ∧ next < here
  | node => ∀ next ∈ node.successors, next < here

theorem Leads.lt_size {nodes : Array Node} {i j : Nat} (h : Leads nodes i j) : i < nodes.size := by
  obtain ⟨node, there, -⟩ := h
  exact (Array.getElem?_eq_some_iff.mp there).1

theorem leads_congr {nodes nodes' : Array Node} {i j : Nat} (same : nodes[i]? = nodes'[i]?) :
    Leads nodes i j ↔ Leads nodes' i j := by
  rw [Leads, Leads, same]

/-- A node with one successor is no quantifier. -/
theorem Node.descends_of_successors {node : Node} {here next : Nat}
    (successors : node.successors = [next]) (lt : next < here) : node.Descends here := by
  have down : ∀ j ∈ node.successors, j < here := by
    intro j mem
    rw [successors, List.mem_singleton] at mem
    rwa [mem]
  cases node with
  | loop quantifier body behind => cases successors
  | _ => exact down

namespace Draft

/-! ## Edges while a draft grows -/

theorem size_add (draft : Draft) (node : Node) :
    (draft.add node).nodes.size = draft.nodes.size + 1 :=
  Array.size_push ..

theorem size_openLoop (draft : Draft) (min : Nat) (max : Option Nat) (greedy : Bool)
    (groups : GroupRange) :
    (draft.openLoop min max greedy groups).nodes.size = draft.nodes.size + 1 :=
  Array.size_push ..

/-- The entry of a draft to which a node was added is that node. -/
theorem entry_lt_add (draft : Draft) (node : Node) :
    (draft.add node).entry < (draft.add node).nodes.size := by
  rw [size_add]
  exact Nat.lt_succ_self _

theorem entry_lt_openLoop (draft : Draft) (min : Nat) (max : Option Nat) (greedy : Bool)
    (groups : GroupRange) : (draft.openLoop min max greedy groups).entry <
      (draft.openLoop min max greedy groups).nodes.size := by
  rw [size_openLoop]
  exact Nat.lt_succ_self _

/-- The nodes of a draft to which one was added. -/
theorem eq_or_of_getElem?_add {draft : Draft} {node found : Node} {i : Nat}
    (there : (draft.add node).nodes[i]? = some found) :
    draft.nodes[i]? = some found ∨ i = draft.nodes.size ∧ found = node := by
  simp only [add, Array.getElem?_push] at there
  split at there
  · next here => exact .inr ⟨here, (Option.some.inj there).symm⟩
  · exact .inl there

/-- A quantifier that was opened stays as it is until it is closed. -/
theorem Extends.reserved {draft after : Draft} {min : Nat} {max : Option Nat} {greedy : Bool}
    {groups : GroupRange} (h : Extends (draft.openLoop min max greedy groups) after) :
    after.nodes[draft.nodes.size]? =
      some (.loop ⟨draft.loops, min, max, greedy, groups⟩ draft.nodes.size draft.entry) := by
  rw [h.same _ (by rw [size_openLoop]; exact Nat.lt_succ_self _)]
  exact getElem?_add draft _

theorem Extends.leads_iff {before after : Draft} (h : Extends before after) {i j : Nat}
    (lt : i < before.nodes.size) : Leads after.nodes i j ↔ Leads before.nodes i j :=
  leads_congr (h.same i lt)

/-- A way through a draft is still there when it has grown. -/
theorem Extends.way {before after : Draft} (h : Extends before after) {i j : Nat}
    (way : ReflTransGen (Leads before.nodes) i j) : ReflTransGen (Leads after.nodes) i j :=
  way.lift id fun _ _ leads => (h.leads_iff leads.lt_size).mpr leads

/-- The edges of a draft to which a node was added. -/
theorem leads_or_of_leads_add {draft : Draft} {node : Node} {i j : Nat}
    (leads : Leads (draft.add node).nodes i j) :
    Leads draft.nodes i j ∨ i = draft.nodes.size ∧ j ∈ node.successors := by
  obtain ⟨found, there, mem⟩ := leads
  obtain old | ⟨rfl, rfl⟩ := eq_or_of_getElem?_add there
  · exact .inl ⟨found, old, mem⟩
  · exact .inr ⟨rfl, mem⟩

theorem leads_add {draft : Draft} {node : Node} {j : Nat} (mem : j ∈ node.successors) :
    Leads (draft.add node).nodes draft.nodes.size j :=
  ⟨node, getElem?_add draft node, mem⟩

/-! ## Blocks -/

/-- What was added to `before` is a block in front of its entry. -/
structure Block (before after : Draft) : Prop where
  /-- nothing else has changed -/
  grown : Extends before after
  /-- the block is entered at one of its nodes -/
  low : before.nodes.size ≤ after.entry
  /-- and that exists -/
  high : after.entry < after.nodes.size
  /-- edges stay in the block or lead to the entry before -/
  inside : ∀ {i j}, before.nodes.size ≤ i → Leads after.nodes i j →
    j = before.entry ∨ before.nodes.size ≤ j ∧ j < after.nodes.size
  /-- edges lead down, but for those from a quantifier to its body -/
  descends : ∀ {i node}, before.nodes.size ≤ i → after.nodes[i]? = some node → node.Descends i
  /-- there is a way through the block -/
  through : ReflTransGen (Leads after.nodes) after.entry before.entry
  /-- there is a way to each node of the block -/
  reaches : ∀ {i}, before.nodes.size ≤ i → i < after.nodes.size →
    ReflTransGen (Leads after.nodes) after.entry i

variable {draft before after : Draft}

/-- Blocks can be put one upon the other. -/
theorem Block.trans {a b c : Draft} (h : Block a b) (h' : Block b c) : Block a c := by
  have grown := h.grown.trans h'.grown
  have le := h'.grown.size
  constructor
  case grown => exact grown
  case low => exact Nat.le_trans h.grown.size h'.low
  case high => exact h'.high
  case inside =>
    intro i j hi leads
    by_cases lower : i < b.nodes.size
    · have := h.inside hi ((h'.grown.leads_iff lower).mp leads)
      omega
    · have := h'.inside (Nat.le_of_not_lt lower) leads
      have := h.low
      have := h.high
      have := h.grown.size
      omega
  case descends =>
    intro i node hi there
    by_cases lower : i < b.nodes.size
    · rw [h'.grown.same i lower] at there
      exact h.descends hi there
    · exact h'.descends (Nat.le_of_not_lt lower) there
  case through => exact h'.through.trans (h'.grown.way h.through)
  case reaches =>
    intro i hi hi'
    by_cases lower : i < b.nodes.size
    · exact h'.through.trans (h'.grown.way (h.reaches hi lower))
    · exact h'.reaches (Nat.le_of_not_lt lower) hi'

/-- A node whose successor is the entry is a block. -/
theorem block_prepend {node : Nat → Node} (valid : draft.entry < draft.nodes.size)
    (successors : (node draft.entry).successors = [draft.entry]) :
    Block draft (draft.prepend node) := by
  have first : (draft.prepend node).entry = draft.nodes.size := rfl
  constructor
  case grown => exact extends_add ..
  case low => exact Nat.le_refl _
  case high => exact entry_lt_add ..
  case inside =>
    intro i j new leads
    obtain old | ⟨rfl, mem⟩ := leads_or_of_leads_add leads
    · exact absurd old.lt_size (Nat.not_lt_of_le new)
    · rw [successors] at mem
      exact .inl (List.mem_singleton.mp mem)
  case descends =>
    intro i found new there
    obtain old | ⟨rfl, rfl⟩ := eq_or_of_getElem?_add there
    · exact absurd (Array.getElem?_eq_some_iff.mp old).1 (Nat.not_lt_of_le new)
    · exact Node.descends_of_successors successors valid
  case through => exact .single (leads_add (successors ▸ List.mem_cons_self))
  case reaches =>
    intro i new here
    have : i = draft.nodes.size := by
      rw [prepend, size_add] at here
      omega
    rw [first, this]

/-- A lookahead, in front of whose goal the body is a block. The block has no way out but the
lookahead itself. -/
theorem Block.look (h : Block (draft.add .goal) after) (valid : draft.entry < draft.nodes.size)
    (negated : Bool) (groups : GroupRange) :
    Block draft (after.prepend (.lookahead negated groups · draft.entry)) := by
  have ended := size_add draft .goal
  have back : (draft.add .goal).entry = draft.nodes.size := rfl
  have first : (after.prepend (.lookahead negated groups · draft.entry)).entry =
      after.nodes.size := rfl
  have size : (after.prepend (.lookahead negated groups · draft.entry)).nodes.size =
      after.nodes.size + 1 := size_add ..
  have grown : Extends after (after.prepend (.lookahead negated groups · draft.entry)) :=
    extends_add ..
  have around := (extends_add draft .goal).trans h.grown
  have goal : after.nodes[draft.nodes.size]? = some .goal :=
    (h.grown.same _ (by omega)).trans (getElem?_add ..)
  have low := h.low
  have high := h.high
  have into : Leads (after.prepend (.lookahead negated groups · draft.entry)).nodes
      after.nodes.size after.entry := leads_add List.mem_cons_self
  constructor
  case grown => exact around.trans grown
  case low => exact around.size
  case high => exact entry_lt_add ..
  case inside =>
    intro i j new leads
    obtain old | ⟨rfl, mem⟩ := leads_or_of_leads_add leads
    · by_cases atGoal : i = draft.nodes.size
      · obtain ⟨node, there, mem⟩ := old
        cases goal.symm.trans (atGoal ▸ there)
        exact absurd mem List.not_mem_nil
      · have := h.inside (by omega) old
        omega
    · obtain rfl | mem := List.mem_cons.mp mem
      · exact .inr (by omega)
      · exact .inl (List.mem_singleton.mp mem)
  case descends =>
    intro i node new there
    obtain old | ⟨rfl, rfl⟩ := eq_or_of_getElem?_add there
    · by_cases atGoal : i = draft.nodes.size
      · cases goal.symm.trans (atGoal ▸ old)
        exact nofun
      · exact h.descends (by omega) old
    · intro next mem
      obtain rfl | mem := List.mem_cons.mp mem
      · exact high
      · rw [List.mem_singleton.mp mem]
        exact Nat.lt_of_lt_of_le valid around.size
  case through => exact .single (leads_add (List.mem_cons_of_mem _ List.mem_cons_self))
  case reaches =>
    intro i new here
    rw [first]
    by_cases lower : i < after.nodes.size
    · refine .head into (grown.way ?_)
      by_cases atGoal : i = draft.nodes.size
      · exact atGoal ▸ h.through
      · exact h.reaches (by omega) lower
    · have : i = after.nodes.size := by omega
      rw [this]

/-- A way through a draft with a quantifier that names itself is still there when the quantifier was
given its body. -/
theorem way_closeLoop {place next : Nat} {loop : Loop}
    (reserved : draft.nodes[place]? = some (.loop loop place next)) {i j : Nat}
    (way : ReflTransGen (Leads draft.nodes) i j) :
    ReflTransGen (Leads (draft.closeLoop place).nodes) i j := by
  refine way.lift' id fun k l leads => ?_
  by_cases here : k = place
  · subst here
    obtain ⟨node, there, mem⟩ := leads
    cases reserved.symm.trans there
    obtain rfl | mem := List.mem_cons.mp mem
    · exact .refl
    · exact .single ⟨_, getElem?_closeLoop_self draft reserved, List.mem_cons_of_mem _ mem⟩
  · exact .single ((leads_congr (getElem?_closeLoop_of_ne draft here)).mpr leads)

/-- A quantifier whose place was reserved, in front of which the body is a block. -/
theorem Block.loop {min : Nat} {max : Option Nat} {greedy : Bool} {groups : GroupRange}
    (h : Block (draft.openLoop min max greedy groups) after)
    (valid : draft.entry < draft.nodes.size) :
    Block draft (after.closeLoop draft.nodes.size) := by
  have opened := size_openLoop draft min max greedy groups
  have back : (draft.openLoop min max greedy groups).entry = draft.nodes.size := rfl
  have first : (after.closeLoop draft.nodes.size).entry = draft.nodes.size := rfl
  have size := size_closeLoop after draft.nodes.size
  have low := h.low
  have high := h.high
  have inner := h.grown.size
  have reserved := h.grown.reserved
  have filled := getElem?_closeLoop_self after reserved
  constructor
  case grown =>
    refine ⟨by omega, fun i hi => ?_⟩
    rw [getElem?_closeLoop_of_ne after (Nat.ne_of_lt hi), h.grown.same i (by omega)]
    exact (extends_openLoop draft min max greedy groups).same i hi
  case low => exact Nat.le_refl _
  case high => omega
  case inside =>
    intro i j new leads
    by_cases here : i = draft.nodes.size
    · subst here
      obtain ⟨node, there, mem⟩ := leads
      cases filled.symm.trans there
      obtain rfl | mem := List.mem_cons.mp mem
      · exact .inr (by omega)
      · exact .inl (List.mem_singleton.mp mem)
    · rw [leads_congr (getElem?_closeLoop_of_ne after here)] at leads
      have := h.inside (by omega) leads
      exact .inr (by omega)
  case descends =>
    intro i node new there
    by_cases here : i = draft.nodes.size
    · subst here
      cases filled.symm.trans there
      exact ⟨by omega, valid⟩
    · rw [getElem?_closeLoop_of_ne after here] at there
      exact h.descends (by omega) there
  case through => exact .single ⟨_, filled, List.mem_cons_of_mem _ List.mem_cons_self⟩
  case reaches =>
    intro i new lt
    rw [first]
    by_cases here : i = draft.nodes.size
    · rw [here]
    · refine .head ⟨_, filled, List.mem_cons_self⟩ (way_closeLoop reserved ?_)
      exact h.reaches (by omega) (by omega)

/-- What was added to `before` are blocks side by side, each in front of `next`. -/
structure Branches (before after : Draft) (next : Nat) (entries : List Nat) : Prop where
  /-- nothing else has changed -/
  grown : Extends before after
  /-- each is entered at one of the nodes that were added -/
  low : ∀ entry ∈ entries, before.nodes.size ≤ entry
  /-- and that exists -/
  high : ∀ entry ∈ entries, entry < after.nodes.size
  /-- edges stay among these nodes or lead to `next` -/
  inside : ∀ {i j}, before.nodes.size ≤ i → Leads after.nodes i j →
    j = next ∨ before.nodes.size ≤ j ∧ j < after.nodes.size
  /-- edges lead down, but for those from a quantifier to its body -/
  descends : ∀ {i node}, before.nodes.size ≤ i → after.nodes[i]? = some node → node.Descends i
  /-- there is a way through each of them -/
  through : ∀ entry ∈ entries, ReflTransGen (Leads after.nodes) entry next
  /-- there is a way to each node from one of the entries -/
  reaches : ∀ {i}, before.nodes.size ≤ i → i < after.nodes.size →
    ∃ entry ∈ entries, ReflTransGen (Leads after.nodes) entry i

theorem branches_nil (draft : Draft) (next : Nat) : Branches draft draft next [] where
  grown := .refl draft
  low := nofun
  high := nofun
  inside := fun new leads => absurd leads.lt_size (Nat.not_lt_of_le new)
  descends := fun new there =>
    absurd (Array.getElem?_eq_some_iff.mp there).1 (Nat.not_lt_of_le new)
  through := nofun
  reaches := fun new lt => absurd lt (Nat.not_lt_of_le new)

/-- A block beside others. -/
theorem Branches.cons {emitted : Draft} {next : Nat} {entries : List Nat}
    (h : Block { draft with entry := next } emitted) (h' : Branches emitted after next entries) :
    Branches draft after next (emitted.entry :: entries) := by
  have grown := h.grown.size
  have grown' := h'.grown.size
  have low := h.low
  have high := h.high
  dsimp only at grown low
  constructor
  case grown => exact Extends.trans ⟨grown, h.grown.same⟩ h'.grown
  case low =>
    exact List.forall_mem_cons.mpr ⟨low, fun entry mem => Nat.le_trans grown (h'.low entry mem)⟩
  case high => exact List.forall_mem_cons.mpr ⟨Nat.lt_of_lt_of_le high grown', h'.high⟩
  case inside =>
    intro i j new leads
    by_cases lower : i < emitted.nodes.size
    · have := h.inside new ((h'.grown.leads_iff lower).mp leads)
      dsimp only at this
      omega
    · have := h'.inside (Nat.le_of_not_lt lower) leads
      omega
  case descends =>
    intro i node new there
    by_cases lower : i < emitted.nodes.size
    · rw [h'.grown.same i lower] at there
      exact h.descends new there
    · exact h'.descends (Nat.le_of_not_lt lower) there
  case through =>
    exact List.forall_mem_cons.mpr ⟨h'.grown.way h.through, h'.through⟩
  case reaches =>
    intro i new lt
    by_cases lower : i < emitted.nodes.size
    · exact ⟨_, List.mem_cons_self, h'.grown.way (h.reaches new lower)⟩
    · obtain ⟨entry, mem, way⟩ := h'.reaches (Nat.le_of_not_lt lower) lt
      exact ⟨entry, List.mem_cons_of_mem _ mem, way⟩

/-- A choice between blocks side by side. -/
theorem Branches.choose {next : Nat} {entries : List Nat}
    (h : Branches draft after next entries) (ne : entries ≠ [])
    (valid : next < draft.nodes.size) :
    Block { draft with entry := next } (after.add (.choice entries)) := by
  have size := size_add after (.choice entries)
  have first : (after.add (.choice entries)).entry = after.nodes.size := rfl
  have grown : Extends after (after.add (.choice entries)) := extends_add ..
  have le := h.grown.size
  constructor
  case grown => exact Extends.trans ⟨le, h.grown.same⟩ grown
  case low => exact le
  case high => exact entry_lt_add ..
  case inside =>
    intro i j new leads
    obtain old | ⟨rfl, mem⟩ := leads_or_of_leads_add leads
    · have := h.inside new old
      dsimp only
      omega
    · exact .inr ⟨h.low j mem, size ▸ Nat.lt_succ_of_lt (h.high j mem)⟩
  case descends =>
    intro i node new there
    obtain old | ⟨rfl, rfl⟩ := eq_or_of_getElem?_add there
    · exact h.descends new old
    · exact h.high
  case through =>
    obtain ⟨entry, others, rfl⟩ := List.exists_cons_of_ne_nil ne
    exact .head (leads_add List.mem_cons_self) (grown.way (h.through entry List.mem_cons_self))
  case reaches =>
    intro i new lt
    rw [first]
    by_cases lower : i < after.nodes.size
    · obtain ⟨entry, mem, way⟩ := h.reaches new lower
      exact .head (leads_add mem) (grown.way way)
    · have : i = after.nodes.size := by omega
      rw [this]

/-! ## Patterns emit blocks -/

theorem block_foldr_emit {terms : List (Pattern GroupRange)}
    (h : ∀ p ∈ terms, p.Filled → ∀ draft : Draft, draft.entry < draft.nodes.size →
      Block draft (emit p draft)) (ne : terms ≠ []) (filled : Pattern.FilledAll terms)
    (valid : draft.entry < draft.nodes.size) : Block draft (terms.foldr emit draft) := by
  induction terms with
  | nil => exact absurd rfl ne
  | cons p rest ih =>
    rw [List.foldr_cons]
    rcases eq : rest with _ | ⟨q, others⟩
    · exact h p List.mem_cons_self filled.1 draft valid
    · rw [← eq]
      have later := ih (fun q hq => h q (List.mem_cons_of_mem p hq)) (eq ▸ nofun) filled.2
      exact later.trans (h p List.mem_cons_self filled.1 _ later.high)

theorem branches_emitAll {alternatives : List (Pattern GroupRange)}
    (h : ∀ p ∈ alternatives, p.Filled → ∀ draft : Draft, draft.entry < draft.nodes.size →
      Block draft (emit p draft)) (filled : Pattern.FilledAll alternatives) {next : Nat}
    (valid : next < draft.nodes.size) :
    Branches draft (emitAll alternatives next [] draft).2 next
      (emitAll alternatives next [] draft).1 := by
  induction alternatives generalizing draft with
  | nil => exact branches_nil draft next
  | cons p rest ih =>
    simp only [emitAll]
    rw [emitAll_eq]
    have first := h p List.mem_cons_self filled.1 { draft with entry := next } valid
    exact .cons first (ih (fun q hq => h q (List.mem_cons_of_mem p hq)) filled.2
      (Nat.lt_of_lt_of_le valid first.grown.size))

theorem entries_ne_nil {alternatives : List (Pattern GroupRange)} (ne : alternatives ≠ [])
    (next : Nat) (draft : Draft) : (emitAll alternatives next [] draft).1 ≠ [] := by
  obtain ⟨p, rest, rfl⟩ := List.exists_cons_of_ne_nil ne
  simp only [emitAll]
  rw [emitAll_eq]
  exact List.cons_ne_nil _ _

/-- **A filled pattern emits a block.** -/
theorem block_emit (p : Pattern GroupRange) (filled : p.Filled) (draft : Draft)
    (valid : draft.entry < draft.nodes.size) : Block draft (emit p draft) := by
  induction p generalizing draft with
  | group groups kind body ih =>
    cases kind with
    | capturing =>
      have closed : Block draft (draft.prepend (.closeGroup groups.first)) :=
        block_prepend valid rfl
      have inner := closed.trans (ih filled _ closed.high)
      exact inner.trans (block_prepend inner.high rfl)
    | nonCapturing => exact ih filled draft valid
    | lookahead | negativeLookahead => exact (ih filled _ (entry_lt_add ..)).look valid ..
  | quantified groups min max greedy body ih =>
    exact (ih filled _ (entry_lt_openLoop ..)).loop valid
  | seq terms ih =>
    rw [emit_seq]
    exact block_foldr_emit ih filled.1 filled.2 valid
  | choice alternatives ih =>
    rw [emit_choice]
    have joined : Block draft (draft.prepend .join) := block_prepend valid rfl
    have inner := branches_emitAll ih filled.2 joined.high
    exact joined.trans (inner.choose (entries_ne_nil filled.1 _ _) joined.high)
  | _ => exact block_prepend valid rfl

/-- A sequence of filled patterns emits a block, or nothing if it is empty. -/
theorem foldr_emit_eq_or_block {terms : List (Pattern GroupRange)} (filled : ∀ p ∈ terms, p.Filled)
    (valid : draft.entry < draft.nodes.size) :
    terms.foldr emit draft = draft ∨ Block draft (terms.foldr emit draft) := by
  cases terms with
  | nil => exact .inl rfl
  | cons p rest =>
    exact .inr (block_foldr_emit (fun q _ => block_emit q) (List.cons_ne_nil _ _)
      (Pattern.filledAll_iff.mpr filled) valid)

theorem valid_foldr_emit {terms : List (Pattern GroupRange)} (filled : ∀ p ∈ terms, p.Filled)
    (valid : draft.entry < draft.nodes.size) :
    (terms.foldr emit draft).entry < (terms.foldr emit draft).nodes.size := by
  rcases foldr_emit_eq_or_block filled valid with none | block
  · rwa [none]
  · exact block.high

end Draft

end BacktrackRegex
