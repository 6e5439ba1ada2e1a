import BacktrackRegex.Graph

/-!
# From patterns to graphs

A graph is drafted from its end. A `Draft` holds the nodes made so far and the one at which they
are entered; `Draft.emit` puts a pattern in front of that entry. So a sequence emits its last term
first, and every term knows what follows it.

A quantifier is the exception: its node comes before its body, because the body leads back to it.
Its place is reserved first and filled when the body's entry is known.
-/

namespace BacktrackRegex

/-- A graph in the making. -/
structure Draft where
  /-- the nodes made so far -/
  nodes : Array Node
  /-- how many quantifiers were made -/
  loops : Nat
  /-- the node at which the nodes made last are entered -/
  entry : Nat

namespace Draft

/-- The draft that holds nothing but a goal. -/
def start : Draft :=
  ⟨#[.goal], 0, 0⟩

/-- Add a node, which becomes the entry. -/
def add (draft : Draft) (node : Node) : Draft :=
  let place := draft.nodes.size
  { draft with nodes := draft.nodes.push node, entry := place }

/-- Add a node in front of the entry. -/
def prepend (draft : Draft) (node : Nat → Node) : Draft :=
  draft.add (node draft.entry)

/-- Reserve a place for a quantifier in front of the entry. Until `closeLoop` it is its own body. -/
def openLoop (draft : Draft) (min : Nat) (max : Option Nat) (greedy : Bool) (groups : GroupRange) :
    Draft :=
  let place := draft.nodes.size
  let node := Node.loop ⟨draft.loops, min, max, greedy, groups⟩ place draft.entry
  { nodes := draft.nodes.push node, loops := draft.loops + 1, entry := place }

/-- Let the quantifier at `place` run the body that the draft is entered at, and enter the draft at
the quantifier. -/
def closeLoop (draft : Draft) (place : Nat) : Draft :=
  let body := draft.entry
  let close : Node → Node
    | .loop quantifier _ next => .loop quantifier body next
    | node => node
  { draft with nodes := draft.nodes.modify place close, entry := place }

mutual

/-- Put a pattern in front of the entry. -/
def emit : Pattern GroupRange → Draft → Draft
  | .empty, draft => draft.prepend .pass
  | .char c, draft => draft.prepend (.char c)
  | .coded c, draft => draft.prepend (.char c)
  | .named cls positive, draft => draft.prepend (.set false [.named cls positive])
  | .set negated items, draft => draft.prepend (.set negated items)
  | .dot, draft => draft.prepend (.set true lineTerminatorItems)
  | .lineStart, draft => draft.prepend (.test .lineStart)
  | .lineEnd, draft => draft.prepend (.test .lineEnd)
  | .wordBoundary inverted, draft => draft.prepend (.test (.wordBoundary inverted))
  | .backreference g, draft => draft.prepend (.test (.backreference g))
  | .group groups kind body, draft =>
    match kind with
    | .capturing =>
      (emit body (draft.prepend (.closeGroup groups.first))).prepend (.openGroup groups.first)
    | .nonCapturing => emit body draft
    | .lookahead =>
      let next := draft.entry
      (emit body (draft.add .goal)).prepend (.lookahead false groups · next)
    | .negativeLookahead =>
      let next := draft.entry
      (emit body (draft.add .goal)).prepend (.lookahead true groups · next)
  | .quantified groups min max greedy body, draft =>
    let place := draft.nodes.size
    (emit body (draft.openLoop min max greedy groups)).closeLoop place
  | .seq terms, draft => (emitters terms []).foldl (fun draft emitTerm => emitTerm draft) draft
  | .choice alternatives, draft =>
    let joined := draft.prepend .join
    let (entries, draft) := emitAll alternatives joined.entry [] joined
    draft.add (.choice entries)
termination_by structural p => p

/-- The patterns of a list as functions on drafts, the last pattern first. -/
def emitters : List (Pattern GroupRange) → List (Draft → Draft) → List (Draft → Draft)
  | [], done => done
  | p :: rest, done => emitters rest ((fun draft => emit p draft) :: done)
termination_by structural ps => ps

/-- Put each pattern of a list in front of the node `next`, and gather their entries; `entries`
are those gathered so far, last first. -/
def emitAll : List (Pattern GroupRange) → Nat → List Nat → Draft → List Nat × Draft
  | [], _, entries, draft => (entries.reverse, draft)
  | p :: rest, next, entries, draft =>
    let emitted := emit p { draft with entry := next }
    emitAll rest next (emitted.entry :: entries) emitted
termination_by structural ps => ps

end

/-- The emitters of a list come in front of those given, last first. -/
theorem emitters_eq (ps : List (Pattern GroupRange)) (done : List (Draft → Draft)) :
    emitters ps done = (ps.map emit).reverse ++ done := by
  induction ps generalizing done with
  | nil => simp [emitters]
  | cons p rest ih => simp [emitters, ih]

/-- A sequence emits its last term first. -/
theorem emit_seq (terms : List (Pattern GroupRange)) (draft : Draft) :
    emit (.seq terms) draft = terms.foldr emit draft := by
  simp [emit, emitters_eq, List.foldl_reverse, List.foldr_map]

end Draft

namespace Graph

/-- Any number of characters, as few as possible. -/
def skipAhead : Pattern GroupRange :=
  .quantified ⟨0, 0⟩ 0 none false (.set true [])

/-- The graph of a pattern. Slot 0 encloses the whole of it. -/
def ofPattern (pattern : NumberedPattern) : Graph :=
  let closed := Draft.start.prepend (.closeGroup 0)
  let anchored := (Draft.emit pattern.tree closed).prepend (.openGroup 0)
  let searching := Draft.emit skipAhead anchored
  { nodes := searching.nodes
    start := searching.entry
    anchored := anchored.entry
    slots := pattern.groupCount + 1
    loops := searching.loops
    startPredicate := .ofPattern pattern.tree }

end Graph

end BacktrackRegex
