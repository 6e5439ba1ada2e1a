import BacktrackRegex.Proofs.Graph.Entered
import BacktrackRegex.Proofs.Graph.Origin

/-!
# The scopes of quantifiers and captures

A quantifier has an iteration in progress where a walk is in its body, and a capture is open where a
walk is behind the node at which it begins and not yet past the one at which it ends. These are the
scopes of `Graph.Quantifies` and `Graph.Captures`, as ranges of nodes.

No edge leads into a scope or out of it but past the nodes that belong to it (`Cycle`, `Bracket`).
-/

namespace BacktrackRegex

/-! ## Scopes -/

/-- Whether a quantifier with the number `id` stands at `place`, and the nodes behind it up to
`high` are its body. -/
structure Cycle (nodes : Array Node) (id place high : Nat) : Prop where
  /-- the quantifier leads up into its body, and down to what comes behind it -/
  node : ∃ quantifier body next, nodes[place]? = some (.loop quantifier body next) ∧
    quantifier.id = id ∧ place < body ∧ body < high ∧ next < place
  /-- only the quantifier leads into the body -/
  inward : ∀ {i j}, Leads nodes i j → place < j → j < high → place ≤ i ∧ i < high
  /-- and the body only leads to the quantifier -/
  outward : ∀ {i j}, Leads nodes i j → place < i → i < high → place ≤ j ∧ j < high

/-- Whether a capture begins at the node `high`, and is taken at the node `low`, below which the
nodes between them lead only from there. -/
structure Bracket (nodes : Array Node) (slot low high : Nat) : Prop where
  /-- behind the node at which it begins the capture is open -/
  opening : ∃ next, nodes[high]? = some (.openGroup slot next) ∧ low ≤ next ∧ next < high
  /-- behind the node at which it ends it is not -/
  closing : ∃ next, nodes[low]? = some (.closeGroup slot next) ∧ next < low
  /-- it begins before it ends -/
  lt : low < high
  /-- where it is open there is no way but through its beginning -/
  inward : ∀ {i j}, Leads nodes i j → low ≤ j → j < high → low ≤ i ∧ i ≤ high
  /-- and there is no way out but through its end -/
  outward : ∀ {i j}, Leads nodes i j → low < i → i < high → low ≤ j ∧ j < high

namespace Graph

/-- When the pattern is compiled, the quantifier with the number `id` is put at `place`, and then
its body up to `high`. -/
def Quantifies (pattern : NumberedPattern) (id place high : Nat) : Prop :=
  ∃ groups min max greedy body before,
    Emits pattern (.quantified groups min max greedy body) before ∧
      id = before.loops ∧ place = before.nodes.size ∧
      high = (Draft.emit body (before.openLoop min max greedy groups)).nodes.size

/-- When the pattern is compiled, the end of the capture `slot` is put at `low`, then what it
captures, and its beginning at `high`. -/
inductive Captures (pattern : NumberedPattern) : (slot low high : Nat) → Prop
  /-- slot 0 captures the whole match -/
  | whole : Captures pattern 0 Draft.start.nodes.size (Draft.emit pattern.tree ending).nodes.size
  /-- the others are those of groups -/
  | group {groups body before} (h : Emits pattern (.group groups .capturing body) before) :
    Captures pattern groups.first before.nodes.size
      (Draft.emit body (before.prepend (.closeGroup groups.first))).nodes.size

open Draft

variable {pattern : NumberedPattern}

/-- **Only the quantifier leads into its body, and the body only to the quantifier.** -/
theorem cycle_of_quantifies (filled : pattern.tree.Filled) {id place high : Nat}
    (h : Quantifies pattern id place high) : Cycle (ofPattern pattern).nodes id place high := by
  obtain ⟨groups, min, max, greedy, body, before, emits, rfl, rfl, rfl⟩ := h
  obtain ⟨part, placed⟩ := part_of_emits filled emits
  have filledBody : body.Filled := part
  have loops := loopsBack_of_inPlace filledBody placed
  have block := block_emit body filledBody (before.openLoop min max greedy groups)
    (entry_lt_openLoop ..)
  have opened := size_openLoop before min max greedy groups
  have size := size_closeLoop (emit body (before.openLoop min max greedy groups)) before.nodes.size
  have down := descends_ofPattern filled loops.node
  have low := block.low
  constructor
  case node => exact ⟨_, _, _, loops.node, rfl, by omega, block.high, down.2⟩
  case inward =>
    intro i j leads above below
    rw [← size] at below ⊢
    rcases into_of_emits filled emits rfl leads (Nat.le_of_lt above) below with inside | entry
    · exact inside
    · exact absurd entry (Nat.ne_of_gt above)
  case outward =>
    intro i j leads above below
    have := loops.inside (by omega) below leads
    omega

/-- A capture whose nodes are in place is bracketed by them. -/
theorem bracket_of_inPlace {nodes : Array Node} {body : Pattern GroupRange} {slot : Nat}
    {before : Draft} (filled : body.Filled) (valid : before.entry < before.nodes.size)
    (placed : InPlace nodes before.nodes.size
      ((emit body (before.prepend (.closeGroup slot))).prepend (.openGroup slot)))
    (into : ∀ {i j}, Leads nodes i j → before.nodes.size ≤ j →
      j < (emit body (before.prepend (.closeGroup slot))).nodes.size →
      before.nodes.size ≤ i ∧ i ≤ (emit body (before.prepend (.closeGroup slot))).nodes.size) :
    Bracket nodes slot before.nodes.size
      (emit body (before.prepend (.closeGroup slot))).nodes.size := by
  have closed : (before.prepend (.closeGroup slot)).nodes.size = before.nodes.size + 1 :=
    size_add ..
  have ending : (before.prepend (.closeGroup slot)).entry = before.nodes.size := rfl
  have block := block_emit body filled (before.prepend (.closeGroup slot)) (entry_lt_add ..)
  have inner := block.grown.size
  have low := block.low
  have placed' := placed.before (extends_add ..)
  constructor
  case opening => exact ⟨_, placed.added (by omega), by omega, block.high⟩
  case closing => exact ⟨_, (placed'.before block.grown).added (Nat.le_refl _), valid⟩
  case lt => omega
  case inward => exact into
  case outward =>
    intro i j leads above below
    have := block.inside (by omega) ((leads_congr (placed' i (Nat.le_of_lt above) below)).mp leads)
    omega

theorem valid_of_emits (filled : pattern.tree.Filled) {q : Pattern GroupRange} {before : Draft}
    (h : Emits pattern q before) : before.entry < before.nodes.size := by
  rcases h with tree | skip
  · exact (tree.part filled (by decide)).valid
  · exact (skip.part trivial (block_whole filled).high).valid

/-- **The beginning of a capture is the only way to where it is open, and its end the only way
out.** -/
theorem bracket_of_captures (filled : pattern.tree.Filled) {slot low high : Nat}
    (h : Captures pattern slot low high) : Bracket (ofPattern pattern).nodes slot low high := by
  cases h with
  | whole =>
    have inner := block_whole filled
    have skip := block_emit skipAhead trivial _ inner.high
    refine bracket_of_inPlace filled (by decide) (fun i _ lt => skip.grown.same i lt) ?_
    intro i j leads (low : 1 ≤ j) (high : j < (emit pattern.tree ending).nodes.size)
    show 1 ≤ i ∧ i ≤ (emit pattern.tree ending).nodes.size
    have entry : (Graph.whole pattern).entry = (emit pattern.tree ending).nodes.size := rfl
    have size : (Graph.whole pattern).nodes.size = (emit pattern.tree ending).nodes.size + 1 :=
      size_add ..
    by_cases zero : i = 0
    · subst zero
      obtain ⟨node, there, mem⟩ := leads
      have goal : Draft.start.nodes[0]? = some node :=
        ((block_ofPattern filled).grown.same 0 Nat.one_pos).symm.trans there
      cases goal
      exact absurd mem List.not_mem_nil
    · by_cases above : (Graph.whole pattern).nodes.size ≤ i
      · have := skip.inside above leads
        exact absurd high (by omega)
      · exact ⟨by omega, by omega⟩
  | @group groups body before emits =>
    obtain ⟨part, placed⟩ := part_of_emits filled emits
    have filledBody : body.Filled := part
    refine bracket_of_inPlace filledBody (valid_of_emits filled emits) placed ?_
    intro i j leads low high
    have emitted : emit (.group groups .capturing body) before =
      (emit body (before.prepend (.closeGroup groups.first))).prepend
        (.openGroup groups.first) := rfl
    have size : ((emit body (before.prepend (.closeGroup groups.first))).prepend
        (.openGroup groups.first)).nodes.size =
      (emit body (before.prepend (.closeGroup groups.first))).nodes.size + 1 := size_add ..
    rcases into_of_emits filled emits emitted leads low (by omega) with inside | entry
    · exact ⟨inside.1, by omega⟩
    · exact absurd entry (Nat.ne_of_lt high)

/-- Neither way into a graph is inside a quantifier. -/
theorem le_or_le_of_quantifies (filled : pattern.tree.Filled) {id place high : Nat}
    (h : Quantifies pattern id place high) :
    high ≤ (ofPattern pattern).anchored ∨ (ofPattern pattern).start ≤ place := by
  obtain ⟨groups, min, max, greedy, body, before, tree | skip, rfl, rfl, rfl⟩ := h
  · have inside := (tree.entered filled (by decide)).high
    rw [emit, size_closeLoop] at inside
    exact .inl inside
  · exact .inr (skip.part trivial (block_whole filled).high).size

/-- Nor inside a capture. -/
theorem le_of_captures (filled : pattern.tree.Filled) {slot low high : Nat}
    (h : Captures pattern slot low high) : high ≤ (ofPattern pattern).anchored := by
  cases h with
  | whole => exact Nat.le_refl _
  | group emits =>
    rcases emits with tree | skip
    · have inside := (tree.entered filled (by decide)).high
      exact Nat.le_of_succ_le (Nat.le_trans (Nat.le_of_eq (size_add ..).symm) inside)
    · obtain ⟨looks, holds⟩ := skip.holds
      cases holds with
      | quantified inner => cases inner

/-! ## Numbers and places -/

/-- If no two nodes have the same number, the number tells where the node is. -/
theorem eq_of_nodup_numbers {nodes : Array Node} {number? : Node → Option Nat}
    (nodup : (nodes.toList.filterMap number?).Nodup) {i j n : Nat} {node node' : Node}
    (hi : nodes[i]? = some node) (hj : nodes[j]? = some node') (number : number? node = some n)
    (number' : number? node' = some n) : i = j := by
  have apart {i j : Nat} {node node' : Node} (hi : nodes[i]? = some node)
      (hj : nodes[j]? = some node') (number : number? node = some n)
      (number' : number? node' = some n) : ¬i < j := by
    intro lt
    obtain ⟨insideI, rfl⟩ := Array.getElem?_eq_some_iff.mp hi
    obtain ⟨insideJ, rfl⟩ := Array.getElem?_eq_some_iff.mp hj
    have pairwise := List.pairwise_filterMap.mp nodup
    exact List.pairwise_iff_getElem.mp pairwise i j insideI insideJ lt n number n number' rfl
  exact Nat.le_antisymm (Nat.le_of_not_lt (apart hj hi number' number))
    (Nat.le_of_not_lt (apart hi hj number number'))

theorem exists_of_mem_numbers {nodes : Array Node} {number? : Node → Option Nat} {n : Nat}
    (h : n ∈ nodes.toList.filterMap number?) :
    ∃ (i : Nat) (node : Node), nodes[i]? = some node ∧ number? node = some n := by
  obtain ⟨node, mem, number⟩ := List.mem_filterMap.mp h
  obtain ⟨i, there⟩ := List.mem_iff_getElem?.mp mem
  exact ⟨i, node, Array.getElem?_toList.symm.trans there, number⟩

/-- The number of a quantifier tells where it stands. -/
theorem place_of_loopId (filled : pattern.tree.Filled) {id place high i : Nat}
    (h : Quantifies pattern id place high) {quantifier : Loop} {body next : Nat}
    (there : (ofPattern pattern).nodes[i]? = some (.loop quantifier body next))
    (same : quantifier.id = id) : i = place := by
  obtain ⟨quantifier', _, _, here, number, -⟩ := (cycle_of_quantifies filled h).node
  have nodup := loopIds_ofPattern pattern ▸ List.nodup_range
  exact eq_of_nodup_numbers nodup there here (congrArg some same) (congrArg some number)

/-- A quantifier of a graph comes from one of the pattern, with its number and its groups. -/
theorem exists_emits_of_loop (filled : pattern.tree.Filled) {i body next : Nat} {quantifier : Loop}
    (there : (ofPattern pattern).nodes[i]? = some (.loop quantifier body next)) :
    ∃ min max greedy inner before,
      Emits pattern (.quantified quantifier.groups min max greedy inner) before ∧
        quantifier.id = before.loops ∧ i = before.nodes.size := by
  obtain ⟨_, _, other⟩ | ⟨_, _, other⟩ | origin := origin_of_getElem? there
  · cases other
  · cases other
  · obtain ⟨groups, min, max, greedy, inner, before, emits, rfl⟩ := origin
    obtain ⟨part, placed⟩ := part_of_emits filled emits
    have filledInner : inner.Filled := part
    cases (loopsBack_of_inPlace filledInner placed).node.symm.trans there
    exact ⟨min, max, greedy, inner, before, emits, rfl, rfl⟩

/-- Each number that a graph has for quantifiers is that of one. -/
theorem exists_quantifies (filled : pattern.tree.Filled) {id : Nat}
    (h : id < (ofPattern pattern).loops) : ∃ place high, Quantifies pattern id place high := by
  have mem : id ∈ (ofPattern pattern).nodes.toList.filterMap Node.loopId? := by
    rw [loopIds_ofPattern]
    exact List.mem_range.mpr h
  obtain ⟨i, node, there, number⟩ := exists_of_mem_numbers mem
  cases node with
  | loop quantifier body next =>
    obtain ⟨min, max, greedy, inner, before, emits, same, -⟩ := exists_emits_of_loop filled there
    cases number
    exact ⟨_, _, _, min, max, greedy, inner, before, emits, same, rfl, rfl⟩
  | _ => cases number

theorem lt_loops_of_quantifies (filled : pattern.tree.Filled) {id place high : Nat}
    (h : Quantifies pattern id place high) : id < (ofPattern pattern).loops := by
  obtain ⟨quantifier, body, next, there, same, -⟩ := (cycle_of_quantifies filled h).node
  have mem : id ∈ (ofPattern pattern).nodes.toList.filterMap Node.loopId? :=
    List.mem_filterMap.mpr ⟨_, List.mem_of_getElem? (Array.getElem?_toList.trans there),
      congrArg some same⟩
  rw [loopIds_ofPattern] at mem
  exact List.mem_range.mp mem

/-- A node at which a capture ends is the end of one of the captures of the graph. -/
theorem exists_captures_of_closeGroup {i slot next : Nat}
    (there : (ofPattern pattern).nodes[i]? = some (.closeGroup slot next)) :
    ∃ high, Captures pattern slot i high := by
  obtain ⟨_, rfl, same⟩ | ⟨_, _, other⟩ | origin := origin_of_getElem? there
  · cases same
    exact ⟨_, .whole⟩
  · cases other
  · obtain ⟨groups, body, before, emits, rfl, rfl⟩ := origin
    exact ⟨_, .group emits⟩

section

variable (numbered : pattern.tree.Numbered 1 (pattern.groupCount + 1))

include numbered

/-- Every part of a pattern is numbered. -/
theorem numbered_of_emits {q : Pattern GroupRange} {before : Draft} (h : Emits pattern q before) :
    ∃ first next, q.Numbered first next := by
  rcases h with tree | skip
  · obtain ⟨looks, holds⟩ := tree.holds
    obtain ⟨first, next, -, -, part⟩ := numbered.of_holds holds
    exact ⟨first, next, part⟩
  · obtain ⟨looks, holds⟩ := skip.holds
    have skipped : skipAhead.Numbered 0 0 := ⟨rfl, rfl⟩
    obtain ⟨first, next, -, -, part⟩ := skipped.of_holds holds
    exact ⟨first, next, part⟩

theorem nodup_slots (closing : Bool) :
    ((ofPattern pattern).nodes.toList.filterMap (Node.slot? closing)).Nodup :=
  (slots_ofPattern numbered closing).nodup_iff.mpr List.nodup_range

variable (filled : pattern.tree.Filled)

include filled

/-- The slot of a capture tells where it begins. -/
theorem high_of_openGroup {slot low high i next : Nat} (h : Captures pattern slot low high)
    (there : (ofPattern pattern).nodes[i]? = some (.openGroup slot next)) : i = high := by
  obtain ⟨next', here, -⟩ := (bracket_of_captures filled h).opening
  exact eq_of_nodup_numbers (nodup_slots numbered false) there here rfl rfl

/-- And where it ends. -/
theorem low_of_closeGroup {slot low high i next : Nat} (h : Captures pattern slot low high)
    (there : (ofPattern pattern).nodes[i]? = some (.closeGroup slot next)) : i = low := by
  obtain ⟨next', here, -⟩ := (bracket_of_captures filled h).closing
  exact eq_of_nodup_numbers (nodup_slots numbered true) there here rfl rfl

/-- **A quantifier clears only captures that lie in its body.** -/
theorem lt_of_cleared {slot low high i body next : Nat} {quantifier : Loop}
    (there : (ofPattern pattern).nodes[i]? = some (.loop quantifier body next))
    (first : quantifier.groups.first ≤ slot) (last : slot < quantifier.groups.next)
    (h : Captures pattern slot low high) : i < low := by
  obtain ⟨min, max, greedy, inner, before, emits, -, rfl⟩ := exists_emits_of_loop filled there
  have filledInner : inner.Filled := (part_of_emits filled emits).1
  obtain ⟨a, b, range, part⟩ := numbered_of_emits numbered emits
  rw [range] at first last
  -- the group with this number stands in the body, and no other group has the number
  obtain ⟨looks, groups, body, holds, same⟩ := part.exists_holds_capturing first last
  obtain ⟨within, emitted⟩ :=
    exists_emits_of_holds holds (before.openLoop min max greedy quantifier.groups)
  have above := (emitted.part filledInner (entry_lt_openLoop ..)).size
  rw [size_openLoop] at above
  have captures : Captures pattern groups.first within.nodes.size _ :=
    .group (emits.trans (.quantified emitted))
  obtain ⟨close, closing, -⟩ := (bracket_of_captures filled captures).closing
  rw [same] at closing
  have := low_of_closeGroup numbered filled h closing
  omega

omit filled in
/-- Each slot of a graph is that of a capture. -/
theorem exists_captures {slot : Nat} (h : slot < (ofPattern pattern).slots) :
    ∃ low high, Captures pattern slot low high := by
  have mem : slot ∈ (ofPattern pattern).nodes.toList.filterMap (Node.slot? true) :=
    (slots_ofPattern numbered true).mem_iff.mpr (List.mem_range.mpr h)
  obtain ⟨i, node, there, number⟩ := exists_of_mem_numbers mem
  cases node with
  | closeGroup slot' next =>
    cases number
    exact ⟨i, exists_captures_of_closeGroup there⟩
  | _ => cases number

theorem lt_slots_of_captures {slot low high : Nat} (h : Captures pattern slot low high) :
    slot < (ofPattern pattern).slots := by
  obtain ⟨next, there, -⟩ := (bracket_of_captures filled h).closing
  have mem : slot ∈ (ofPattern pattern).nodes.toList.filterMap (Node.slot? true) :=
    List.mem_filterMap.mpr ⟨_, List.mem_of_getElem? (Array.getElem?_toList.trans there), rfl⟩
  exact List.mem_range.mp ((slots_ofPattern numbered true).mem_iff.mp mem)

end

end Graph

end BacktrackRegex
