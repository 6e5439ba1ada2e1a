import BacktrackRegex.Proofs.Graph.Block
import BacktrackRegex.Search.Walk
import Mathlib.Data.Finset.Card
import Mathlib.Logic.Function.Basic

/-!
# Backtracks are paired with forks

In the log of a walk each backtrack takes up a way that was kept at an earlier fork, and no two
backtracks the same one. A `Ledger` keeps the account: it names a fork for each backtrack so far and
one for each choice point that is still held, all of them different. A fork enters a choice point in
it (`Covered.keep`) and a backtrack takes one out (`Covered.take`).

From the pairing it follows that up to any time there are no more backtracks than forks
(`Paired.countP_le`).
-/

namespace BacktrackRegex

/-! ## Ways that are kept -/

/-- The ways on from a choice or a quantifier, the nodes that may keep one of them for later. -/
def Node.branches : Node → List Nat
  | choice alternatives => alternatives
  | loop _ body next => [body, next]
  | _ => []

/-- Whether the node at `i` is a choice or a quantifier, and `j` one of the ways on. -/
def Branches (nodes : Array Node) (i j : Nat) : Prop :=
  ∃ node, nodes[i]? = some node ∧ j ∈ node.branches

namespace ChoicePoint

/-- The position from which a choice point goes on. -/
def pos : ChoicePoint → Nat
  | resume _ state => state.pos
  | alternatives _ _ _ state => state.pos

/-- The nodes at which a choice point may go on. -/
def ways : ChoicePoint → List Nat
  | resume node _ => [node]
  | alternatives _ first others _ => first :: others

/-- Whether a choice point holds ways on from the node `here`. -/
structure KeptAt (nodes : Array Node) (here : Nat) (choice : ChoicePoint) : Prop where
  /-- they are ways on from there -/
  branches : ∀ way ∈ choice.ways, Branches nodes here way
  /-- alternatives are those of that node -/
  same : ∀ {node first others state}, choice = alternatives node first others state → node = here

end ChoicePoint

/-! ## The log -/

/-- Whether the `i`-th event is one of this kind. -/
def HappensAt (log : Array Event) (kind : EventKind) (i : Nat) : Prop :=
  ∃ node pos, log[i]? = some ⟨node, pos, kind⟩

section

variable {log : Array Event} {event : Event} {kind : EventKind} {i : Nat}

/-- What is in the log stays where it is. -/
theorem getElem?_push_of_some {found : Event} (h : log[i]? = some found) :
    (log.push event)[i]? = some found := by
  have lt := (Array.getElem?_eq_some_iff.mp h).1
  rw [Array.getElem?_push, if_neg (Nat.ne_of_lt lt), h]

theorem HappensAt.lt (h : HappensAt log kind i) : i < log.size := by
  obtain ⟨node, pos, there⟩ := h
  exact (Array.getElem?_eq_some_iff.mp there).1

theorem happensAt_push : HappensAt (log.push event) kind i ↔
    if i = log.size then event.kind = kind else HappensAt log kind i := by
  obtain ⟨node, pos, kind'⟩ := event
  simp only [HappensAt, Array.getElem?_push]
  split
  · simp
  · rfl

end

/-- Each backtrack is paired with an earlier fork at the same position, of a node that has the
backtrack's node as one of its ways, and no two with the same. -/
structure Paired (nodes : Array Node) (log : Array Event) (partner : Nat → Nat) : Prop where
  /-- there is such a fork -/
  fork : ∀ {i node pos}, log[i]? = some ⟨node, pos, .backtrack⟩ → partner i < i ∧
    ∃ here, log[partner i]? = some ⟨here, pos, .fork⟩ ∧ Branches nodes here node
  /-- and it has no other partner -/
  injective : ∀ {i j}, HappensAt log .backtrack i → HappensAt log .backtrack j →
    partner i = partner j → i = j

/-- An account of the forks: `partner` names one for each backtrack, and each choice point that is
`held` comes with one. -/
structure Ledger (nodes : Array Node) (log : Array Event) (partner : Nat → Nat)
    (held : List (ChoicePoint × Nat)) : Prop where
  /-- backtracks are paired with forks -/
  paired : Paired nodes log partner
  /-- choice points were kept at a fork -/
  kept : ∀ {choice k}, (choice, k) ∈ held →
    ∃ here, log[k]? = some ⟨here, choice.pos, .fork⟩ ∧ choice.KeptAt nodes here
  /-- which has no backtrack yet -/
  free : ∀ {choice k}, (choice, k) ∈ held → ∀ {i}, HappensAt log .backtrack i → partner i ≠ k
  /-- and these forks are different -/
  nodup : (held.map Prod.snd).Nodup

/-- Whether there is such an account for these choice points. -/
def Covered (nodes : Array Node) (log : Array Event) (choices : List ChoicePoint) : Prop :=
  ∃ partner held, Ledger nodes log partner held ∧ held.map Prod.fst = choices

variable {nodes : Array Node} {log : Array Event} {choices : List ChoicePoint}

theorem covered_nil (nodes : Array Node) : Covered nodes #[] [] := by
  refine ⟨id, [], ⟨⟨?_, ?_⟩, nofun, nofun, .nil⟩, rfl⟩
  · intro i node pos there
    cases there
  · rintro i j ⟨node, pos, there⟩
    cases there

theorem HappensAt.of_push {event : Event} {i : Nat} (other : event.kind ≠ .backtrack)
    (there : HappensAt (log.push event) .backtrack i) : HappensAt log .backtrack i := by
  rw [happensAt_push] at there
  split at there
  · exact absurd there other
  · exact there

/-- An event other than a backtrack makes no difference. -/
theorem Paired.note {partner : Nat → Nat} (h : Paired nodes log partner) {event : Event}
    (other : event.kind ≠ .backtrack) : Paired nodes (log.push event) partner := by
  refine ⟨?_, fun hi hj same => h.injective (hi.of_push other) (hj.of_push other) same⟩
  intro i node pos there
  have lt := (HappensAt.of_push other ⟨node, pos, there⟩).lt
  rw [Array.getElem?_push, if_neg (Nat.ne_of_lt lt)] at there
  obtain ⟨before, here, fork, branches⟩ := h.fork there
  exact ⟨before, here, getElem?_push_of_some fork, branches⟩

theorem Ledger.note {partner : Nat → Nat} {held : List (ChoicePoint × Nat)}
    (h : Ledger nodes log partner held) {event : Event} (other : event.kind ≠ .backtrack) :
    Ledger nodes (log.push event) partner held := by
  refine ⟨h.paired.note other, ?_, fun mem i hi => h.free mem (hi.of_push other), h.nodup⟩
  intro choice k mem
  obtain ⟨here, fork, kept⟩ := h.kept mem
  exact ⟨here, getElem?_push_of_some fork, kept⟩

theorem Covered.note (h : Covered nodes log choices) {event : Event}
    (other : event.kind ≠ .backtrack) : Covered nodes (log.push event) choices := by
  obtain ⟨partner, held, ledger, same⟩ := h
  exact ⟨partner, held, ledger.note other, same⟩

/-- A choice point was kept at some node. -/
theorem Covered.keptAt {choice : ChoicePoint} (h : Covered nodes log (choice :: choices)) :
    ∃ here, choice.KeptAt nodes here := by
  obtain ⟨partner, held, ledger, same⟩ := h
  obtain ⟨⟨choice, k⟩, left, rfl, rfl, -⟩ := List.map_eq_cons_iff.mp same
  obtain ⟨here, -, kept⟩ := ledger.kept List.mem_cons_self
  exact ⟨here, kept⟩

/-- Choice points may be given up. -/
theorem Covered.drop {others : List ChoicePoint} (h : Covered nodes log (others ++ choices)) :
    Covered nodes log choices := by
  obtain ⟨partner, held, ledger, same⟩ := h
  obtain ⟨gone, left, rfl, -, same⟩ := List.map_eq_append_iff.mp same
  have rest {item : ChoicePoint × Nat} (mem : item ∈ left) : item ∈ gone ++ left :=
    List.mem_append_right gone mem
  have nodup := ledger.nodup
  rw [List.map_append] at nodup
  exact ⟨partner, left, ⟨ledger.paired, fun mem => ledger.kept (rest mem),
    fun mem => ledger.free (rest mem), (List.nodup_append.mp nodup).2.1⟩, same⟩

/-- Their order does not matter. -/
theorem Covered.swap {first second : ChoicePoint}
    (h : Covered nodes log (first :: second :: choices)) :
    Covered nodes log (second :: first :: choices) := by
  obtain ⟨partner, held, ledger, same⟩ := h
  obtain ⟨a, rest, rfl, rfl, same'⟩ := List.map_eq_cons_iff.mp same
  obtain ⟨b, left, rfl, rfl, rfl⟩ := List.map_eq_cons_iff.mp same'
  have swapped : (b :: a :: left).Perm (a :: b :: left) := .swap ..
  exact ⟨partner, b :: a :: left,
    ⟨ledger.paired, fun mem => ledger.kept (swapped.mem_iff.mp mem),
      fun mem => ledger.free (swapped.mem_iff.mp mem),
      (swapped.map Prod.snd).nodup_iff.mpr ledger.nodup⟩, rfl⟩

/-- A fork keeps a choice point. -/
theorem Covered.keep (h : Covered nodes log choices) {here : Nat} {choice : ChoicePoint}
    (kept : choice.KeptAt nodes here) :
    Covered nodes (log.push ⟨here, choice.pos, .fork⟩) (choice :: choices) := by
  obtain ⟨partner, held, ledger, same⟩ := h
  have noted : Ledger nodes (log.push ⟨here, choice.pos, .fork⟩) partner held :=
    ledger.note nofun
  have new : (log.push ⟨here, choice.pos, .fork⟩)[log.size]? =
      some ⟨here, choice.pos, .fork⟩ := by
    rw [Array.getElem?_push, if_pos rfl]
  refine ⟨partner, (choice, log.size) :: held, ⟨noted.paired, ?_, ?_, ?_⟩,
    congrArg (choice :: ·) same⟩
  · intro choice' k mem
    rcases List.mem_cons.mp mem with eq | mem
    · cases eq
      exact ⟨here, new, kept⟩
    · exact noted.kept mem
  · intro choice' k mem i there
    rcases List.mem_cons.mp mem with eq | mem
    · cases eq
      -- the partners so far are in the log
      obtain ⟨node, pos, backtrack⟩ := there
      have before := (noted.paired.fork backtrack).1
      have lt := (Array.getElem?_eq_some_iff.mp backtrack).1
      rw [Array.size_push] at lt
      omega
    · exact noted.free mem there
  · refine List.nodup_cons.mpr ⟨fun mem => ?_, ledger.nodup⟩
    obtain ⟨⟨choice', k⟩, held, rfl⟩ := List.mem_map.mp mem
    obtain ⟨here', fork, -⟩ := ledger.kept held
    exact Nat.lt_irrefl _ (Array.getElem?_eq_some_iff.mp fork).1

/-- The backtracks when there is one more. -/
theorem happensAt_backtrack_push {node pos i : Nat} :
    HappensAt (log.push ⟨node, pos, .backtrack⟩) .backtrack i ↔
      i = log.size ∨ HappensAt log .backtrack i := by
  rw [happensAt_push]
  split
  · next eq => simp [eq]
  · next ne => simp [ne]

/-- A backtrack is paired with a fork that has no partner yet. -/
theorem Paired.push {partner : Nat → Nat} (h : Paired nodes log partner) {here way pos k : Nat}
    (fork : log[k]? = some ⟨here, pos, .fork⟩) (branches : Branches nodes here way)
    (free : ∀ {i}, HappensAt log .backtrack i → partner i ≠ k) :
    Paired nodes (log.push ⟨way, pos, .backtrack⟩) (Function.update partner log.size k) := by
  have old {i : Nat} (there : HappensAt log .backtrack i) :
      Function.update partner log.size k i = partner i :=
    Function.update_of_ne (Nat.ne_of_lt there.lt) ..
  have new : Function.update partner log.size k log.size = k := Function.update_self ..
  refine ⟨?_, ?_⟩
  · intro i node pos' there
    rcases happensAt_backtrack_push.mp ⟨node, pos', there⟩ with rfl | before
    · rw [Array.getElem?_push, if_pos rfl] at there
      cases there
      rw [new]
      exact ⟨(Array.getElem?_eq_some_iff.mp fork).1, here, getElem?_push_of_some fork, branches⟩
    · rw [Array.getElem?_push, if_neg (Nat.ne_of_lt before.lt)] at there
      obtain ⟨earlier, here, fork, branches⟩ := h.fork there
      rw [old before]
      exact ⟨earlier, here, getElem?_push_of_some fork, branches⟩
  · intro i j hi hj eq
    rcases happensAt_backtrack_push.mp hi with rfl | hi <;>
      rcases happensAt_backtrack_push.mp hj with rfl | hj
    · rfl
    · rw [new, old hj] at eq
      exact absurd eq.symm (free hj)
    · rw [new, old hi] at eq
      exact absurd eq (free hi)
    · rw [old hi, old hj] at eq
      exact h.injective hi hj eq

/-- A backtrack takes up a choice point. -/
theorem Covered.take {choice : ChoicePoint} (h : Covered nodes log (choice :: choices)) {way : Nat}
    (mem : way ∈ choice.ways) :
    Covered nodes (log.push ⟨way, choice.pos, .backtrack⟩) choices := by
  obtain ⟨partner, held, ledger, same⟩ := h
  obtain ⟨⟨choice, k⟩, left, rfl, rfl, rfl⟩ := List.map_eq_cons_iff.mp same
  obtain ⟨here, fork, kept⟩ := ledger.kept List.mem_cons_self
  have paired := ledger.paired.push fork (kept.branches way mem) (ledger.free List.mem_cons_self)
  have others {item : ChoicePoint × Nat} (mem : item ∈ left) : item ∈ (choice, k) :: left :=
    List.mem_cons_of_mem _ mem
  obtain ⟨fresh, nodup⟩ := List.nodup_cons.mp ledger.nodup
  refine ⟨Function.update partner log.size k, left, ⟨paired, ?_, ?_, nodup⟩, rfl⟩
  · intro choice' k' mem
    obtain ⟨here, fork, kept⟩ := ledger.kept (others mem)
    exact ⟨here, getElem?_push_of_some fork, kept⟩
  · intro choice' k' mem i there
    rcases happensAt_backtrack_push.mp there with rfl | before
    · rw [Function.update_self]
      rintro rfl
      exact fresh (List.mem_map.mpr ⟨_, mem, rfl⟩)
    · rw [Function.update_of_ne (Nat.ne_of_lt before.lt)]
      exact ledger.free (others mem) before

/-! ## Counting -/

theorem happensAt_iff {kind : EventKind} {i : Nat} :
    HappensAt log kind i ↔ (log[i]?).any (·.kind == kind) = true := by
  rcases there : log[i]? with _ | ⟨node, pos, kind'⟩ <;> simp [HappensAt, there]

/-- Among the first events there are as many of a kind as places at which one of them happens. -/
theorem countP_take_eq_card (log : Array Event) (kind : EventKind) (n : Nat) :
    (log.toList.take n).countP (·.kind == kind) =
      ((Finset.range n).filter fun i => (log[i]?).any (·.kind == kind)).card := by
  induction n with
  | zero => rfl
  | succ n ih =>
    rw [List.take_add_one, List.countP_append, ih, Finset.range_add_one, Finset.filter_insert,
      Array.getElem?_toList]
    rcases log[n]? with _ | event
    · simp
    · rcases same : event.kind == kind <;> simp [same]

/-- **Up to any time there are no more backtracks than forks.** -/
theorem Paired.countP_le {partner : Nat → Nat} (h : Paired nodes log partner) (n : Nat) :
    (log.toList.take n).countP (·.kind == .backtrack) ≤
      (log.toList.take n).countP (·.kind == .fork) := by
  rw [countP_take_eq_card, countP_take_eq_card]
  refine Finset.card_le_card_of_injOn partner ?_ ?_
  · intro i mem
    obtain ⟨inside, there⟩ := Finset.mem_filter.mp mem
    obtain ⟨node, pos, there⟩ := happensAt_iff.mpr there
    obtain ⟨before, here, fork, -⟩ := h.fork there
    refine Finset.mem_filter.mpr ⟨Finset.mem_range.mpr ?_, happensAt_iff.mp ⟨here, pos, fork⟩⟩
    exact Nat.lt_trans before (Finset.mem_range.mp inside)
  · intro i hi j hj same
    exact h.injective (happensAt_iff.mpr (Finset.mem_filter.mp hi).2)
      (happensAt_iff.mpr (Finset.mem_filter.mp hj).2) same

end BacktrackRegex
