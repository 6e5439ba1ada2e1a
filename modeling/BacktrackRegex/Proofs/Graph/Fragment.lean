import BacktrackRegex.Graph.Compile
import BacktrackRegex.Proofs.Pattern.Numbered

/-!
# Patterns inside a graph

`Fragment nodes p next loops entry loops'` says that among these nodes there are some that stand
for the pattern `p`: they are entered at `entry`, they lead to `next`, and their quantifiers have
the numbers from `loops` up to `loops'`. It names no places other than those, so it leaves open in
what order the nodes were made.

The main statement is `fragment_emit`: putting a pattern in front of a draft makes such nodes. A
draft only ever grows (`Draft.extends_emit`), except that a quantifier's node is filled in when its
body is done; so the nodes are spoken of when all of them are in place.
-/

namespace BacktrackRegex

/-! ## What it is to stand for a pattern -/

mutual

/-- Among the nodes, `p` is entered at `entry` and leads to `next`; its quantifiers are numbered
from `loops` up to `loops'`. -/
def Fragment (nodes : Array Node) : Pattern GroupRange → (next loops entry loops' : Nat) → Prop
  | .empty, next, loops, entry, loops' => nodes[entry]? = some (.pass next) ∧ loops' = loops
  | .char c, next, loops, entry, loops' => nodes[entry]? = some (.char c next) ∧ loops' = loops
  | .coded c, next, loops, entry, loops' => nodes[entry]? = some (.char c next) ∧ loops' = loops
  | .named cls positive, next, loops, entry, loops' =>
    nodes[entry]? = some (.set false [.named cls positive] next) ∧ loops' = loops
  | .set negated items, next, loops, entry, loops' =>
    nodes[entry]? = some (.set negated items next) ∧ loops' = loops
  | .dot, next, loops, entry, loops' =>
    nodes[entry]? = some (.set true lineTerminatorItems next) ∧ loops' = loops
  | .lineStart, next, loops, entry, loops' =>
    nodes[entry]? = some (.test .lineStart next) ∧ loops' = loops
  | .lineEnd, next, loops, entry, loops' =>
    nodes[entry]? = some (.test .lineEnd next) ∧ loops' = loops
  | .wordBoundary inverted, next, loops, entry, loops' =>
    nodes[entry]? = some (.test (.wordBoundary inverted) next) ∧ loops' = loops
  | .backreference g, next, loops, entry, loops' =>
    nodes[entry]? = some (.test (.backreference g) next) ∧ loops' = loops
  | .group groups kind body, next, loops, entry, loops' =>
    match kind with
    | .capturing => ∃ inside close,
      nodes[entry]? = some (.openGroup groups.first inside) ∧
        Fragment nodes body close loops inside loops' ∧
        nodes[close]? = some (.closeGroup groups.first next)
    | .nonCapturing => Fragment nodes body next loops entry loops'
    | .lookahead => ∃ inside goal,
      nodes[entry]? = some (.lookahead false groups inside next) ∧
        Fragment nodes body goal loops inside loops' ∧ nodes[goal]? = some .goal
    | .negativeLookahead => ∃ inside goal,
      nodes[entry]? = some (.lookahead true groups inside next) ∧
        Fragment nodes body goal loops inside loops' ∧ nodes[goal]? = some .goal
  | .quantified groups min max greedy body, next, loops, entry, loops' => ∃ inside,
    nodes[entry]? = some (.loop ⟨loops, min, max, greedy, groups⟩ inside next) ∧
      Fragment nodes body entry (loops + 1) inside loops'
  | .seq terms, next, loops, entry, loops' => FragmentSeq nodes terms next loops entry loops'
  | .choice alternatives, next, loops, entry, loops' => ∃ entries join,
    nodes[entry]? = some (.choice entries) ∧
      FragmentAll nodes alternatives join loops entries loops' ∧ nodes[join]? = some (.join next)
termination_by structural p => p

/-- The patterns of a list, one leading to the other; the last one was made first. -/
def FragmentSeq (nodes : Array Node) : List (Pattern GroupRange) →
    (next loops entry loops' : Nat) → Prop
  | [], next, loops, entry, loops' => entry = next ∧ loops' = loops
  | p :: rest, next, loops, entry, loops' => ∃ middle between,
    FragmentSeq nodes rest next loops middle between ∧
      Fragment nodes p middle between entry loops'
termination_by structural ps => ps

/-- The patterns of a list side by side, all leading to the same node. -/
def FragmentAll (nodes : Array Node) : List (Pattern GroupRange) → (next loops : Nat) →
    (entries : List Nat) → (loops' : Nat) → Prop
  | [], _, loops, entries, loops' => entries = [] ∧ loops' = loops
  | p :: rest, next, loops, entries, loops' => ∃ entry others between,
    entries = entry :: others ∧ Fragment nodes p next loops entry between ∧
      FragmentAll nodes rest next between others loops'
termination_by structural ps => ps

end

theorem FragmentSeq.loops_le {nodes : Array Node} {terms : List (Pattern GroupRange)}
    (h : ∀ p ∈ terms, ∀ {next loops entry loops'},
      Fragment nodes p next loops entry loops' → loops ≤ loops')
    {next loops entry loops' : Nat} (fragment : FragmentSeq nodes terms next loops entry loops') :
    loops ≤ loops' := by
  induction terms generalizing entry loops' with
  | nil => exact Nat.le_of_eq fragment.2.symm
  | cons p rest ih =>
    obtain ⟨middle, between, later, now⟩ := fragment
    exact Nat.le_trans (ih (fun q hq => h q (List.mem_cons_of_mem p hq)) later)
      (h p List.mem_cons_self now)

theorem FragmentAll.loops_le {nodes : Array Node} {alternatives : List (Pattern GroupRange)}
    (h : ∀ p ∈ alternatives, ∀ {next loops entry loops'},
      Fragment nodes p next loops entry loops' → loops ≤ loops')
    {next loops loops' : Nat} {entries : List Nat}
    (fragment : FragmentAll nodes alternatives next loops entries loops') : loops ≤ loops' := by
  induction alternatives generalizing loops entries with
  | nil => exact Nat.le_of_eq fragment.2.symm
  | cons p rest ih =>
    obtain ⟨_, _, between, _, now, later⟩ := fragment
    exact Nat.le_trans (h p List.mem_cons_self now)
      (ih (fun q hq => h q (List.mem_cons_of_mem p hq)) later)

/-- Quantifiers are numbered upwards. -/
theorem Fragment.loops_le {nodes : Array Node} {p : Pattern GroupRange}
    {next loops entry loops' : Nat} (h : Fragment nodes p next loops entry loops') :
    loops ≤ loops' := by
  induction p generalizing next loops entry loops' with
  | group groups kind body ih =>
    cases kind with
    | nonCapturing => exact ih h
    | capturing | lookahead | negativeLookahead =>
      obtain ⟨_, _, _, inner, _⟩ := h
      exact ih inner
  | quantified groups min max greedy body ih =>
    obtain ⟨_, _, inner⟩ := h
    exact Nat.le_of_succ_le (ih inner)
  | seq terms ih => exact FragmentSeq.loops_le ih h
  | choice alternatives ih =>
    obtain ⟨_, _, _, inner, _⟩ := h
    exact FragmentAll.loops_le ih inner
  | _ => exact Nat.le_of_eq h.2.symm

/-! ## Drafts grow -/

namespace Draft

/-- `after` has the nodes of `before` and perhaps more. -/
structure Extends (before after : Draft) : Prop where
  /-- no node is taken away -/
  size : before.nodes.size ≤ after.nodes.size
  /-- no node is changed -/
  same : ∀ i < before.nodes.size, after.nodes[i]? = before.nodes[i]?

theorem Extends.refl (draft : Draft) : Extends draft draft :=
  ⟨Nat.le_refl _, fun _ _ => rfl⟩

theorem Extends.trans {a b c : Draft} (h : Extends a b) (h' : Extends b c) : Extends a c :=
  ⟨Nat.le_trans h.size h'.size,
    fun i hi => (h'.same i (Nat.lt_of_lt_of_le hi h.size)).trans (h.same i hi)⟩

theorem extends_add (draft : Draft) (node : Node) : Extends draft (draft.add node) := by
  refine ⟨by simp [add], fun i hi => ?_⟩
  simp only [add, Array.getElem?_push]
  rw [if_neg (Nat.ne_of_lt hi)]

theorem getElem?_add (draft : Draft) (node : Node) :
    (draft.add node).nodes[(draft.add node).entry]? = some node := by
  simp [add]

/-- Filling in a quantifier's node leaves the others as they are. -/
theorem getElem?_closeLoop_of_ne (draft : Draft) {place i : Nat} (h : i ≠ place) :
    (draft.closeLoop place).nodes[i]? = draft.nodes[i]? := by
  simp only [closeLoop, Array.getElem?_modify]
  rw [if_neg (Ne.symm h)]

theorem getElem?_closeLoop_self (draft : Draft) {place body next : Nat} {loop : Loop}
    (h : draft.nodes[place]? = some (.loop loop body next)) :
    (draft.closeLoop place).nodes[place]? = some (.loop loop draft.entry next) := by
  simp only [closeLoop, Array.getElem?_modify, if_true, h]
  rfl

theorem size_closeLoop (draft : Draft) (place : Nat) :
    (draft.closeLoop place).nodes.size = draft.nodes.size := by
  simp [closeLoop]

theorem extends_openLoop (draft : Draft) (min : Nat) (max : Option Nat) (greedy : Bool)
    (groups : GroupRange) : Extends draft (draft.openLoop min max greedy groups) := by
  refine ⟨by simp [openLoop], fun i hi => ?_⟩
  simp only [openLoop, Array.getElem?_push]
  rw [if_neg (Nat.ne_of_lt hi)]

theorem emitAll_eq (ps : List (Pattern GroupRange)) (next : Nat) (entries : List Nat)
    (draft : Draft) :
    emitAll ps next entries draft =
      (entries.reverse ++ (emitAll ps next [] draft).1, (emitAll ps next [] draft).2) := by
  induction ps generalizing entries draft with
  | nil => simp [emitAll]
  | cons p rest ih =>
    simp only [emitAll]
    rw [ih (_ :: entries), ih [_]]
    simp

theorem emit_choice (alternatives : List (Pattern GroupRange)) (draft : Draft) :
    emit (.choice alternatives) draft =
      (emitAll alternatives (draft.prepend .join).entry [] (draft.prepend .join)).2.add
        (.choice (emitAll alternatives (draft.prepend .join).entry [] (draft.prepend .join)).1) :=
  rfl

theorem extends_foldr_emit {terms : List (Pattern GroupRange)}
    (h : ∀ p ∈ terms, ∀ draft, Extends draft (emit p draft)) (draft : Draft) :
    Extends draft (terms.foldr emit draft) := by
  induction terms with
  | nil => exact .refl draft
  | cons p rest ih =>
    exact (ih (fun q hq => h q (List.mem_cons_of_mem p hq))).trans (h p List.mem_cons_self _)

theorem extends_emitAll {alternatives : List (Pattern GroupRange)}
    (h : ∀ p ∈ alternatives, ∀ draft, Extends draft (emit p draft)) (next : Nat)
    (entries : List Nat) (draft : Draft) :
    Extends draft (emitAll alternatives next entries draft).2 := by
  induction alternatives generalizing entries draft with
  | nil => exact .refl draft
  | cons p rest ih =>
    have first := h p List.mem_cons_self { draft with entry := next }
    exact Extends.trans ⟨first.size, first.same⟩
      (ih (fun q hq => h q (List.mem_cons_of_mem p hq)) _ _)

/-- Putting a pattern in front of a draft changes no node that is already there. -/
theorem extends_emit (p : Pattern GroupRange) (draft : Draft) : Extends draft (emit p draft) := by
  induction p generalizing draft with
  | group groups kind body ih =>
    cases kind with
    | capturing => exact ((extends_add ..).trans (ih _)).trans (extends_add ..)
    | nonCapturing => exact ih draft
    | lookahead => exact ((extends_add ..).trans (ih _)).trans (extends_add ..)
    | negativeLookahead => exact ((extends_add ..).trans (ih _)).trans (extends_add ..)
  | quantified groups min max greedy body ih =>
    have inner := (extends_openLoop draft min max greedy groups).trans (ih _)
    refine ⟨?_, fun i hi => ?_⟩
    · rw [emit, size_closeLoop]
      exact inner.size
    · rw [emit, getElem?_closeLoop_of_ne _ (Nat.ne_of_lt hi)]
      exact inner.same i hi
  | seq terms ih =>
    rw [emit_seq]
    exact extends_foldr_emit ih draft
  | choice alternatives ih =>
    rw [emit_choice]
    exact ((extends_add ..).trans (extends_emitAll ih _ _ _)).trans (extends_add ..)
  | _ => exact extends_add ..

/-! ## Nodes that are in place -/

/-- From the place `low` on, `nodes` are those of the draft, as far as the draft goes. -/
def InPlace (nodes : Array Node) (low : Nat) (draft : Draft) : Prop :=
  ∀ i, low ≤ i → i < draft.nodes.size → nodes[i]? = draft.nodes[i]?

variable {nodes : Array Node} {low : Nat} {draft draft' : Draft}

/-- What is in place was in place before the draft grew. -/
theorem InPlace.before (h : InPlace nodes low draft') (grown : Extends draft draft') :
    InPlace nodes low draft :=
  fun i hi hi' => (h i hi (Nat.lt_of_lt_of_le hi' grown.size)).trans (grown.same i hi')

theorem InPlace.above (h : InPlace nodes low draft) {low' : Nat} (le : low ≤ low') :
    InPlace nodes low' draft :=
  fun i hi => h i (Nat.le_trans le hi)

/-- The node that was added last is in place. -/
theorem InPlace.added {node : Node} (h : InPlace nodes low (draft.add node))
    (le : low ≤ draft.nodes.size) : nodes[(draft.add node).entry]? = some node :=
  (h _ le (by simp [add])).trans (getElem?_add draft node)

end Draft

open Draft

/-- The terms of a sequence stand one behind the other. -/
theorem fragmentSeq_foldr_emit {terms : List (Pattern GroupRange)} {nodes : Array Node}
    (h : ∀ p ∈ terms, ∀ draft, InPlace nodes draft.nodes.size (emit p draft) →
      Fragment nodes p draft.entry draft.loops (emit p draft).entry (emit p draft).loops)
    {draft : Draft} (placed : InPlace nodes draft.nodes.size (terms.foldr emit draft)) :
    FragmentSeq nodes terms draft.entry draft.loops (terms.foldr emit draft).entry
      (terms.foldr emit draft).loops := by
  induction terms with
  | nil => exact ⟨rfl, rfl⟩
  | cons p rest ih =>
    have grown : Extends draft (rest.foldr emit draft) :=
      extends_foldr_emit (fun q _ => extends_emit q) draft
    exact ⟨_, _, ih (fun q hq => h q (List.mem_cons_of_mem p hq))
      (placed.before (extends_emit p _)), h p List.mem_cons_self _ (placed.above grown.size)⟩

/-- The alternatives of a choice stand side by side. -/
theorem fragmentAll_emitAll {alternatives : List (Pattern GroupRange)} {nodes : Array Node}
    (h : ∀ p ∈ alternatives, ∀ draft, InPlace nodes draft.nodes.size (emit p draft) →
      Fragment nodes p draft.entry draft.loops (emit p draft).entry (emit p draft).loops)
    {next : Nat} {draft : Draft}
    (placed : InPlace nodes draft.nodes.size (emitAll alternatives next [] draft).2) :
    FragmentAll nodes alternatives next draft.loops (emitAll alternatives next [] draft).1
      (emitAll alternatives next [] draft).2.loops := by
  induction alternatives generalizing draft with
  | nil => exact ⟨rfl, rfl⟩
  | cons p rest ih =>
    simp only [emitAll] at placed ⊢
    rw [emitAll_eq] at placed ⊢
    have grown := extends_emit p { draft with entry := next }
    have first : InPlace nodes draft.nodes.size (emit p { draft with entry := next }) :=
      placed.before (extends_emitAll (fun q _ => extends_emit q) ..)
    exact ⟨_, _, _, rfl, h p List.mem_cons_self { draft with entry := next } first,
      ih (fun q hq => h q (List.mem_cons_of_mem p hq)) (placed.above grown.size)⟩

/-- **What a pattern compiles to.** Once all nodes are in place, those that a pattern put in front
of a draft stand for the pattern, and lead to where the draft was entered. -/
theorem fragment_emit (p : Pattern GroupRange) {nodes : Array Node} (draft : Draft)
    (placed : InPlace nodes draft.nodes.size (emit p draft)) :
    Fragment nodes p draft.entry draft.loops (emit p draft).entry (emit p draft).loops := by
  induction p generalizing draft with
  | group groups kind body ih =>
    cases kind with
    | nonCapturing => exact ih draft placed
    | capturing =>
      -- the closing node comes first, the body in front of it, the opening node last
      have closed := extends_add draft (.closeGroup groups.first draft.entry)
      have inner := extends_emit body (draft.prepend (.closeGroup groups.first))
      have placed' := placed.before (extends_add ..)
      exact ⟨_, _, placed.added (Nat.le_trans closed.size inner.size),
        ih _ (placed'.above closed.size), (placed'.before inner).added (Nat.le_refl _)⟩
    | lookahead =>
      have ended := extends_add draft .goal
      have inner := extends_emit body (draft.add .goal)
      have placed' := placed.before (extends_add ..)
      exact ⟨_, _, placed.added (Nat.le_trans ended.size inner.size),
        ih _ (placed'.above ended.size), (placed'.before inner).added (Nat.le_refl _)⟩
    | negativeLookahead =>
      have ended := extends_add draft .goal
      have inner := extends_emit body (draft.add .goal)
      have placed' := placed.before (extends_add ..)
      exact ⟨_, _, placed.added (Nat.le_trans ended.size inner.size),
        ih _ (placed'.above ended.size), (placed'.before inner).added (Nat.le_refl _)⟩
  | quantified groups min max greedy body ih =>
    -- the quantifier has its place in front of the body, and is filled in last
    have inner := extends_emit body (draft.openLoop min max greedy groups)
    have here : draft.nodes.size < (draft.openLoop min max greedy groups).nodes.size := by
      simp [openLoop]
    have reserved : (emit body (draft.openLoop min max greedy groups)).nodes[draft.nodes.size]? =
        some (.loop ⟨draft.loops, min, max, greedy, groups⟩ draft.nodes.size draft.entry) := by
      rw [inner.same _ here]
      simp [openLoop]
    refine ⟨_, (placed _ (Nat.le_refl _) ?_).trans (getElem?_closeLoop_self _ reserved),
      ih (draft.openLoop min max greedy groups) fun i hi hi' => ?_⟩
    · rw [emit, size_closeLoop]
      exact Nat.lt_of_lt_of_le here inner.size
    · have ne : i ≠ draft.nodes.size := by omega
      rw [placed i (by omega) (by rwa [emit, size_closeLoop]), emit,
        getElem?_closeLoop_of_ne _ ne]
  | seq terms ih =>
    rw [emit_seq] at placed ⊢
    exact fragmentSeq_foldr_emit ih placed
  | choice alternatives ih =>
    rw [emit_choice] at placed ⊢
    have joined := extends_add draft (.join draft.entry)
    have inner := extends_emitAll (fun p (_ : p ∈ alternatives) => extends_emit p)
      (draft.prepend .join).entry [] (draft.prepend .join)
    have placed' := placed.before (extends_add ..)
    exact ⟨_, _, placed.added (Nat.le_trans joined.size inner.size),
      fragmentAll_emitAll ih (placed'.above joined.size),
      (placed'.before inner).added (Nat.le_refl _)⟩
  | _ => exact ⟨placed.added (Nat.le_refl _), rfl⟩

end BacktrackRegex
