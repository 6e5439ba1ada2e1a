import BacktrackRegex.Proofs.Graph.Owner
import BacktrackRegex.Proofs.Search.Ledger

/-!
# Visits follow the edges of the graph

The visits in the log of a walk hang together: the first is at the entry, a backtrack is followed by
a visit of the same node at the same position, and all others are at a successor of a node that was
visited before. Only where a lookahead ends does a walk go on from a visit that is further back, so
without lookaheads it is the visit just before.

`Trail` says so of a log. What is visited next has to be `Ready`; then the visit can be added
(`Trail.visit`). Other events are added when the last one is no backtrack (`Trail.note`).
-/

namespace BacktrackRegex

/-- Whether one of the first `n` events is a visit that leads to `node`. If there are no lookaheads
it has to be the last visit among them. -/
def LedTo (nodes : Array Node) (log : Array Event) (n node : Nat) : Prop :=
  ∃ j before pos, j < n ∧ log[j]? = some ⟨before, pos, .visit⟩ ∧ Leads nodes before node ∧
    (¬LookAhead nodes → ∀ k, j < k → k < n → ¬HappensAt log .visit k)

/-- The visits in a log hang together. -/
structure Trail (nodes : Array Node) (entry start : Nat) (log : Array Event) : Prop where
  /-- the first is at the entry -/
  first : ∀ {event}, log[0]? = some event → event = ⟨entry, start, .visit⟩
  /-- a backtrack is followed by a visit of the same node at the same position -/
  resumed : ∀ {i node pos}, log[i]? = some ⟨node, pos, .backtrack⟩ → i + 1 < log.size →
    log[i + 1]? = some ⟨node, pos, .visit⟩
  /-- the others are at the successor of a node that was visited before -/
  led : ∀ {i node pos}, log[i + 1]? = some ⟨node, pos, .visit⟩ → ¬HappensAt log .backtrack i →
    LedTo nodes log (i + 1) node

/-- Whether there is a last event, and it is not a backtrack. -/
def Settled (log : Array Event) : Prop :=
  ∃ last, log.size = last + 1 ∧ ¬HappensAt log .backtrack last

/-- Whether a node may be visited next, at the position `pos`. -/
inductive Ready (nodes : Array Node) (entry start : Nat) (log : Array Event) (node pos : Nat) :
    Prop where
  /-- it is the entry, and nothing has happened yet -/
  | first (empty : log.size = 0) (atEntry : node = entry) (atStart : pos = start)
  /-- the last event is a backtrack to it -/
  | resumed {last} (size : log.size = last + 1) (h : log[last]? = some ⟨node, pos, .backtrack⟩)
  /-- a visit leads to it, and the last event is no backtrack -/
  | led (settled : Settled log) (h : LedTo nodes log log.size node)

variable {nodes : Array Node} {entry start : Nat} {log : Array Event}

/-- The ways on from a choice or a quantifier stay in a walk. -/
theorem Node.mem_onward_of_branches {node : Node} {way : Nat} (h : way ∈ node.branches) :
    way ∈ node.onward := by
  cases node <;> first | exact h | cases h

theorem Ready.resumed_push (log : Array Event) (node pos : Nat) :
    Ready nodes entry start (log.push ⟨node, pos, .backtrack⟩) node pos :=
  .resumed (Array.size_push ..) (by rw [Array.getElem?_push, if_pos rfl])

theorem settled_push (log : Array Event) {event : Event} (other : event.kind ≠ .backtrack) :
    Settled (log.push event) := by
  refine ⟨log.size, Array.size_push .., fun backtrack => other ?_⟩
  rwa [happensAt_push, if_pos rfl] at backtrack

/-- What led to a node among the first events leads to it when there are more. -/
theorem LedTo.push {n node : Nat} (h : LedTo nodes log n node) (le : n ≤ log.size)
    (event : Event) : LedTo nodes (log.push event) n node := by
  obtain ⟨j, before, pos, lt, there, leads, last⟩ := h
  refine ⟨j, before, pos, lt, getElem?_push_of_some there, leads, ?_⟩
  intro plain k after before' visit
  rw [happensAt_push, if_neg (by omega)] at visit
  exact last plain k after before' visit

theorem trail_empty (nodes : Array Node) (entry start : Nat) : Trail nodes entry start #[] := by
  refine ⟨?_, ?_, ?_⟩
  · intro event there
    cases there
  · intro i node pos there
    cases there
  · intro i node pos there
    cases there

/-- An event that goes on from the last one is added to a trail. -/
theorem Trail.push (h : Trail nodes entry start log) {event : Event}
    (first : log.size = 0 → event = ⟨entry, start, .visit⟩)
    (resumed : ∀ {last node pos}, log.size = last + 1 →
      log[last]? = some ⟨node, pos, .backtrack⟩ → event = ⟨node, pos, .visit⟩)
    (led : ∀ {node pos}, event = ⟨node, pos, .visit⟩ → Settled log →
      LedTo nodes log log.size node) : Trail nodes entry start (log.push event) := by
  refine ⟨?_, ?_, ?_⟩
  · intro found there
    rw [Array.getElem?_push] at there
    split at there
    · next empty =>
      cases there
      exact first empty.symm
    · exact h.first there
  · intro i node pos there lt
    rw [Array.size_push] at lt
    rw [Array.getElem?_push, if_neg (by omega)] at there
    rw [Array.getElem?_push]
    split
    · next atEnd => rw [resumed atEnd.symm there]
    · exact h.resumed there (by omega)
  · intro i node pos there other
    rw [happensAt_push] at other
    rw [Array.getElem?_push] at there
    split at there
    · next atEnd =>
      rw [if_neg (by omega)] at other
      cases there
      have ledTo := led rfl ⟨i, atEnd.symm, other⟩
      exact atEnd ▸ ledTo.push (Nat.le_refl _) _
    · have lt := (Array.getElem?_eq_some_iff.mp there).1
      rw [if_neg (by omega)] at other
      exact (h.led there other).push (Nat.le_of_lt lt) _

/-- A node that is ready is visited. -/
theorem Trail.visit (h : Trail nodes entry start log) {node pos : Nat}
    (ready : Ready nodes entry start log node pos) :
    Trail nodes entry start (log.push ⟨node, pos, .visit⟩) := by
  cases ready with
  | first empty atEntry atStart =>
    refine h.push ?_ ?_ ?_
    · exact fun _ => by rw [atEntry, atStart]
    · intro last node pos size
      omega
    · rintro node pos - ⟨last, size, -⟩
      omega
  | resumed size there =>
    refine h.push ?_ ?_ ?_
    · intro empty
      omega
    · intro last' node' pos' size' there'
      obtain rfl : last' = _ := Nat.succ.inj (size'.symm.trans size)
      cases there.symm.trans there'
      rfl
    · rintro node' pos' - ⟨last', size', none⟩
      obtain rfl : last' = _ := Nat.succ.inj (size'.symm.trans size)
      exact absurd ⟨_, _, there⟩ none
  | led settled ledTo =>
    obtain ⟨last, size, none⟩ := settled
    refine h.push ?_ ?_ ?_
    · intro empty
      omega
    · intro last' node' pos' size' there'
      obtain rfl : last' = last := Nat.succ.inj (size'.symm.trans size)
      exact absurd ⟨_, _, there'⟩ none
    · rintro node' pos' same -
      cases same
      exact ledTo

/-- Another event is noted behind one that is no backtrack. -/
theorem Trail.note (h : Trail nodes entry start log) (settled : Settled log) {event : Event}
    (other : event.kind ≠ .visit) : Trail nodes entry start (log.push event) := by
  obtain ⟨last, size, none⟩ := settled
  refine h.push ?_ ?_ ?_
  · intro empty
    omega
  · intro last' node pos size' there
    obtain rfl : last' = last := Nat.succ.inj (size'.symm.trans size)
    exact absurd ⟨_, _, there⟩ none
  · rintro node pos rfl
    exact absurd rfl other

/-! ## What a visit leads to -/

/-- Whether some visit leads to a node. -/
def Reached (nodes : Array Node) (log : Array Event) (node : Nat) : Prop :=
  ∃ (j before pos : Nat), log[j]? = some ⟨before, pos, .visit⟩ ∧ Leads nodes before node

theorem Reached.push {node : Nat} (h : Reached nodes log node) (event : Event) :
    Reached nodes (log.push event) node := by
  obtain ⟨j, before, pos, there, leads⟩ := h
  exact ⟨j, before, pos, getElem?_push_of_some there, leads⟩

theorem reached_push {here pos next : Nat} (leads : Leads nodes here next) :
    Reached nodes (log.push ⟨here, pos, .visit⟩) next :=
  ⟨log.size, here, pos, by rw [Array.getElem?_push, if_pos rfl], leads⟩

/-- Where there are lookaheads, any visit will do. -/
theorem Reached.ledTo {node : Nat} (h : Reached nodes log node) (look : LookAhead nodes) :
    LedTo nodes log log.size node := by
  obtain ⟨j, before, pos, there, leads⟩ := h
  exact ⟨j, before, pos, (Array.getElem?_eq_some_iff.mp there).1, there, leads,
    fun plain => absurd look plain⟩

/-- A visit leads to the successors of its node. -/
theorem ledTo_push {here pos next : Nat} (leads : Leads nodes here next) :
    LedTo nodes (log.push ⟨here, pos, .visit⟩) (log.push ⟨here, pos, .visit⟩).size next := by
  refine ⟨log.size, here, pos, ?_, ?_, leads, ?_⟩
  · rw [Array.size_push]
    omega
  · rw [Array.getElem?_push, if_pos rfl]
  · intro _ k after before
    rw [Array.size_push] at before
    omega

/-- Another event does not come between. -/
theorem LedTo.note {node : Nat} (h : LedTo nodes log log.size node) {event : Event}
    (other : event.kind ≠ .visit) :
    LedTo nodes (log.push event) (log.push event).size node := by
  obtain ⟨j, before, pos, lt, there, leads, last⟩ := h
  refine ⟨j, before, pos, ?_, getElem?_push_of_some there, leads, ?_⟩
  · rw [Array.size_push]
    omega
  · intro plain k after before' visit
    rw [Array.size_push] at before'
    rw [happensAt_push] at visit
    split at visit
    · exact other visit
    · exact last plain k after (by omega) visit

end BacktrackRegex
