import BacktrackRegex.Proofs.Graph.Fragment
import BacktrackRegex.Proofs.Pattern.Follows
import BacktrackRegex.Proofs.Search.Idle
import BacktrackRegex.Proofs.Search.Yields

/-!
# The nodes of a pattern do what the pattern means

`Carries` is the contract of a part of a graph: entered in a state, it goes on to `next` at one of
its results after the other, and whatever can be reached from there can be reached from here, in the
order of the results. Contracts compose as results do, so the part that stands for a pattern carries
the walk to the results of the pattern (`Fragment.carries`). The proof goes through the pattern; for
a quantifier there is a second induction inside, on the bound of the iterations that are left.
-/

namespace BacktrackRegex

variable {task : Task}

/-- From `entry` a walk goes on to `next` at each of the results of the point it has come to, if the
state it is in is ready for that. -/
def Carries (task : Task) (ready : State → Prop) (entry next : Nat)
    (results : Point → List Point) : Prop :=
  ∀ (state : State) (goals : Point → List State), ready state →
    (∀ point ∈ results state.point, Yields task (.resume next (state.put point)) (goals point)) →
      Yields task (.resume entry state) ((results state.point).flatMap goals)

namespace Carries

variable {ready : State → Prop} {entry middle next : Nat} {f g : Point → List Point}

/-- A node that asks for something moves on to where it ends, if it is there. -/
theorem of_advance {after : Point → Option Nat}
    (move : ∀ state, task.move entry state = .advance next state (after state.point)) :
    Carries task ready entry next fun point =>
      ((after point).map fun pos => { point with pos }).toList := by
  intro state goals _ more
  have here := move state
  rcases h : after state.point with _ | pos
  · rw [h] at here
    simp only [h, Option.map_none, Option.toList_none, List.flatMap_nil]
    exact .stop here
  · rw [h] at here
    simp only [h, Option.map_some, Option.toList_some, List.flatMap_singleton,
      List.mem_singleton, forall_eq] at more ⊢
    exact .go here more

theorem mono {ready' : State → Prop} (h : Carries task ready entry next f)
    (imp : ∀ state, ready' state → ready state) : Carries task ready' entry next f :=
  fun state goals start => h state goals (imp state start)

/-- One part after the other. -/
theorem comp (hf : Carries task ready entry middle f) (hg : Carries task ready middle next g)
    (stays : ∀ state, ready state → ∀ point ∈ f state.point, ready (state.put point)) :
    Carries task ready entry next fun point => (f point).flatMap g := by
  intro state goals start more
  rw [List.flatMap_assoc]
  refine hf state _ start fun point mem => ?_
  refine hg (state.put point) goals (stays state start point mem) fun point' mem' => ?_
  exact more point' (List.mem_flatMap.mpr ⟨point, mem, mem'⟩)

end Carries

/-! ## Nodes that read -/

variable {entry next : Nat} {ready : State → Prop}

theorem carries_pass (h : task.graph.nodes[entry]? = some (.pass next)) :
    Carries task ready entry next fun point => [point] := by
  intro state goals _ more
  rw [List.flatMap_singleton]
  exact .go (task.move_of_getElem? h state) (more _ (List.mem_singleton.mpr rfl))

theorem carries_char {c : Char} (h : task.graph.nodes[entry]? = some (.char c next)) :
    Carries task ready entry next
      (Point.read task.text (Text.sameLetter task.mode.fold · c)) :=
  .of_advance (task.move_of_getElem? h)

theorem carries_set {negated : Bool} {items : List ClassItem}
    (h : task.graph.nodes[entry]? = some (.set negated items next)) :
    Carries task ready entry next
      (Point.read task.text (accepts task.mode.fold negated items)) :=
  .of_advance (task.move_of_getElem? h)

theorem carries_test {condition : Test}
    (h : task.graph.nodes[entry]? = some (.test condition next)) :
    Carries task ready entry next (Point.test task.text task.mode condition) :=
  .of_advance (task.move_of_getElem? h)

/-! ## Nodes with a body -/

variable {inside : Nat} {body : Point → List Point}

/-- A capture is opened, the body follows, and it is closed. -/
theorem carries_capture {first last loops loops' close : Nat}
    (hopen : task.graph.nodes[entry]? = some (.openGroup first inside))
    (hclose : task.graph.nodes[close]? = some (.closeGroup first next)) (lt : first < last)
    (hbody : Carries task (State.Idle (first + 1) last loops loops') inside close body)
    (size : ∀ before, ∀ after ∈ body before, after.captures.size = before.captures.size) :
    Carries task (State.Idle first last loops loops') entry next
      fun point => (body point).map (·.capture first point.pos) := by
  intro state goals idle more
  rw [List.flatMap_map]
  refine .go (task.move_of_getElem? hopen state) (hbody (state.openGroup first) _
    ((idle.narrow (Nat.le_succ first) (Nat.le_refl _) (Nat.le_refl _) (Nat.le_refl _)).openGroup
      first (Nat.lt_succ_self first)) fun point mem => ?_)
  -- the body leaves the group open, so closing it captures what is between
  have closed := State.closeGroup_openGroup idle.size (idle.opened first (Nat.le_refl _) lt)
    (size state.point point mem)
  refine .go (task.move_of_getElem? hclose _) ?_
  rw [closed]
  exact more _ (List.mem_map.mpr ⟨point, mem, rfl⟩)

/-- The goals inside a lookahead are the results of its body. -/
theorem yields_body {goal : Nat} (hgoal : task.graph.nodes[goal]? = some .goal)
    (hbody : Carries task ready inside goal body) {state : State} (start : ready state) :
    Yields task (.resume inside state) ((body state.point).map state.put) := by
  rw [← List.flatMap_singleton' ((body state.point).map state.put), List.flatMap_map]
  exact hbody state _ start fun point _ => .goal (task.move_of_getElem? hgoal _)

/-- What the body of a lookahead captured is all that it did to the captures. -/
theorem State.adopt_put {text : String} {groups : GroupRange} {state : State} {best : Point}
    (follows : Point.Follows text groups.first groups.next state.point best) :
    state.adopt (state.put best) groups =
      state.put { state.point with captures := best.captures } := by
  have captures : groups.copy best.captures state.captures = best.captures := by
    refine Array.ext_getElem? fun g => ?_
    have size : best.captures.size = state.captures.size := follows.size
    rw [GroupRange.getElem?_copy]
    split
    · next inside =>
      have present : g < best.captures.size := by omega
      rw [Array.getElem?_eq_getElem present]
      rfl
    · next outside =>
      rcases Nat.lt_or_ge g state.captures.size with present | absent
      · exact (follows.frame g fun own => outside ⟨own, present⟩).symm
      · rw [Array.getElem?_eq_none absent, Array.getElem?_eq_none (by omega)]
  simp only [adopt, put, point, captures]

/-- A lookahead goes on where it is, with what the first result of its body captured. -/
theorem carries_lookahead {goal first last loops loops' : Nat}
    (hlook : task.graph.nodes[entry]? = some (.lookahead false ⟨first, last⟩ inside next))
    (hgoal : task.graph.nodes[goal]? = some .goal)
    (hbody : Carries task (State.Idle first last loops loops') inside goal body)
    (follows : ∀ before, ∀ after ∈ body before,
      Point.Follows task.text first last before after) :
    Carries task (State.Idle first last loops loops') entry next fun point =>
      match body point with
      | [] => []
      | best :: _ => [{ point with captures := best.captures }] := by
  intro state goals idle more
  have within := yields_body hgoal hbody idle
  have move := task.move_of_getElem? hlook state
  rcases hr : body state.point with _ | ⟨best, rest⟩
  · rw [hr] at within
    simp only [hr, List.flatMap_nil]
    exact .block move within rfl
  · rw [hr] at within
    simp only [hr, List.flatMap_singleton, List.mem_singleton, forall_eq] at more ⊢
    refine .pass move within rfl ?_
    have found : best ∈ body state.point := by
      rw [hr]
      exact List.mem_cons_self
    rw [State.adopt_put (follows _ best found)]
    exact more

/-- A negated lookahead goes on where it is if its body has no result. -/
theorem carries_negativeLookahead {goal : Nat} {groups : GroupRange}
    (hlook : task.graph.nodes[entry]? = some (.lookahead true groups inside next))
    (hgoal : task.graph.nodes[goal]? = some .goal)
    (hbody : Carries task ready inside goal body) :
    Carries task ready entry next fun point =>
      match body point with
      | [] => [point]
      | _ :: _ => [] := by
  intro state goals start more
  have within := yields_body hgoal hbody start
  have move := task.move_of_getElem? hlook state
  rcases hr : body state.point with _ | ⟨best, rest⟩
  · rw [hr] at within
    simp only [hr, List.flatMap_singleton, List.mem_singleton, forall_eq] at more ⊢
    exact .pass move within rfl more
  · rw [hr] at within
    simp only [hr, List.flatMap_nil]
    exact .block move within rfl

/-! ## Quantifiers -/

/-- The results of repeating a body as a quantifier asks for, after `completed` iterations. -/
abbrev Loop.repeated (loop : Loop) (body : Point → List Point) (n completed : Nat)
    (point : Point) : List Point :=
  Point.repeated body loop.groups loop.min loop.max loop.greedy n completed point

/-- The results behind one more iteration. -/
abbrev Loop.again (loop : Loop) (body : Point → List Point) (n completed : Nat)
    (point : Point) : List Point :=
  Point.again body loop.groups loop.min loop.max loop.greedy n completed point

section

variable {loop : Loop} {loops' : Nat}
  (hloop : task.graph.nodes[entry]? = some (.loop loop inside next))
  (hbody : Carries task (State.Idle loop.groups.first loop.groups.next (loop.id + 1) loops') inside
    entry body)
  (follows : ∀ before, ∀ after ∈ body before,
    Point.Follows task.text loop.groups.first loop.groups.next before after)

include hloop hbody follows

/-- Into one more iteration: behind the body, the walk either has moved on and knows its way, or it
stops. -/
theorem yields_again {state : State} (n completed : Nat)
    (idle : state.Idle loop.groups.first loop.groups.next loop.id loops') (lt : loop.id < loops')
    {point : Point} (size : point.captures.size = state.captures.size) (goals : Point → List State)
    (behind : ∀ after, Point.Follows task.text loop.groups.first loop.groups.next
        ⟨point.pos, loop.groups.clear point.captures⟩ after →
      ¬(loop.min ≤ completed ∧ after.pos = point.pos) →
      (∀ later ∈ loop.repeated body n (completed + 1) after,
        Yields task (.resume next (state.put later)) (goals later)) →
      Yields task (.resume entry ((state.during loop.id (some ⟨completed, point.pos⟩)).put after))
        ((loop.repeated body n (completed + 1) after).flatMap goals))
    (more : ∀ after ∈ loop.again body n completed point,
      Yields task (.resume next (state.put after)) (goals after)) :
    Yields task (.resume inside ((state.during loop.id (some ⟨completed, point.pos⟩)).put
        ⟨point.pos, loop.groups.clear point.captures⟩))
      ((loop.again body n completed point).flatMap goals) := by
  have rest := idle.iterations loop.id (Nat.le_refl _) lt
  have cleared : (loop.groups.clear point.captures).size = state.captures.size := by
    rw [GroupRange.size_clear, size]
  have ready := ((idle.narrow (Nat.le_refl _) (Nat.le_refl _) (Nat.le_succ _)
    (Nat.le_refl _)).during loop.id (Nat.lt_succ_self _) (some ⟨completed, point.pos⟩)).put
      ⟨point.pos, loop.groups.clear point.captures⟩ cleared
  rw [Loop.again, Point.again, List.flatMap_assoc]
  refine hbody _ _ ready fun after mem => ?_
  rw [State.put_put]
  have now := State.completed?_during rest after ⟨completed, point.pos⟩
  split
  · next stuck =>
    rw [if_pos stuck] at now
    refine .stop ((task.move_of_getElem? hloop _).trans ?_)
    rw [Node.move, now, Loop.move]
  · next moved =>
    have moved : ¬(loop.min ≤ completed ∧ after.pos = point.pos) := by simpa using moved
    refine behind after (follows _ after mem) moved fun later mem' => ?_
    exact more later (Point.mem_again.mpr ⟨after, mem, moved, mem'⟩)

/-- At the node of a quantifier, outside or inside its iterations. -/
theorem yields_loop {state : State} {n completed : Nat}
    (idle : state.Idle loop.groups.first loop.groups.next loop.id loops') (lt : loop.id < loops')
    (point : Point) (size : point.captures.size = state.captures.size)
    (iteration : Option Iteration) {goals : Point → List State}
    (now : ((state.during loop.id iteration).put point).completed? loop = some completed)
    (room : loop.min - completed + (task.text.utf8ByteSize - point.pos) < n)
    (more : ∀ after ∈ loop.repeated body n completed point,
      Yields task (.resume next (state.put after)) (goals after)) :
    Yields task (.resume entry ((state.during loop.id iteration).put point))
      ((loop.repeated body n completed point).flatMap goals) := by
  have rest := idle.iterations loop.id (Nat.le_refl _) lt
  -- an iteration that is required or moves on leaves less room for those that come
  induction n generalizing completed point iteration goals with
  | zero => exact absurd room (Nat.not_lt_zero _)
  | succ n ih =>
    have move := task.move_of_getElem? hloop ((state.during loop.id iteration).put point)
    simp only [Node.move, now, Loop.move, Loop.isFull_iff,
      State.beginIteration_during idle point iteration completed,
      State.leaveLoop_during rest point iteration] at move
    have inner := yields_again hloop hbody follows n completed idle lt size goals
      fun after ahead moved more' => by
        refine ih after (ahead.size.trans ?_) _ ?_
          (Point.room_after room moved ahead.le ahead.inside) more'
        · rw [GroupRange.size_clear, size]
        · rw [State.completed?_during rest, if_neg (by simpa using moved)]
    rw [Loop.repeated, Point.repeated_succ] at more ⊢
    split at move
    · next required =>
      rw [if_pos required] at more ⊢
      exact .go move (inner more)
    · next enough =>
      rw [if_neg enough] at more ⊢
      split at move
      · next full =>
        rw [if_pos full] at more ⊢
        rw [List.flatMap_singleton]
        exact .go move (more point (List.mem_singleton.mpr rfl))
      · next room =>
        rw [if_neg room] at more ⊢
        split at move
        · next greedy =>
          rw [if_pos greedy] at more ⊢
          rw [List.flatMap_append, List.flatMap_singleton]
          exact .fork move (inner fun after mem => more after (List.mem_append_left _ mem))
            (more point (List.mem_append_right _ (List.mem_singleton.mpr rfl)))
        · next lazy =>
          rw [if_neg lazy] at more ⊢
          rw [List.flatMap_cons]
          exact .fork move (more point List.mem_cons_self)
            (inner fun after mem => more after (List.mem_cons_of_mem _ mem))

/-- A quantifier repeats its body. -/
theorem carries_loop (lt : loop.id < loops') :
    Carries task (State.Idle loop.groups.first loop.groups.next loop.id loops') entry next
      fun point =>
        loop.repeated body (loop.min + (task.text.utf8ByteSize - point.pos) + 2) 0 point := by
  intro state goals idle more
  have rest := idle.iterations loop.id (Nat.le_refl _) lt
  have outside : state.during loop.id none = state := State.during_none rest
  have start := yields_loop hloop hbody follows idle lt state.point rfl none
    (by rw [outside]; exact State.completed?_put rest _)
    (n := loop.min + (task.text.utf8ByteSize - state.point.pos) + 2) (by omega) more
  rwa [outside, State.put_point] at start

end

/-! ## Sequences and choices -/

/-- A choice asks its first alternative and holds the others. -/
theorem yields_choice {here first : Nat} {others : List Nat} {state : State} {goals : List State}
    (h : task.graph.nodes[here]? = some (.choice (first :: others)))
    (all : Yields task (.alternatives here first others state) goals) :
    Yields task (.resume here state) goals := by
  have move := task.move_of_getElem? h state
  cases all with
  | last more => exact .go move more
  | alternatives more held => exact .fork move more held

section

open Pattern

variable {patterns : List (Pattern GroupRange)} {loops loops' first last : Nat}
  (h : ∀ p ∈ patterns, ∀ {entry next loops loops' first last},
    Fragment task.graph.nodes p next loops entry loops' → p.Numbered first last →
      Carries task (State.Idle first last loops loops') entry next (p.results task.text task.mode))

include h

/-- The terms of a sequence carry the walk on one after the other. -/
theorem carries_seq (fragment : FragmentSeq task.graph.nodes patterns next loops entry loops')
    (numbered : NumberedList patterns first last) :
    Carries task (State.Idle first last loops loops') entry next
      (resultsOfSeq task.text task.mode patterns) := by
  induction patterns generalizing entry loops' first with
  | nil =>
    obtain ⟨rfl, rfl⟩ := fragment
    intro state goals _ more
    rw [resultsOfSeq, List.flatMap_singleton]
    exact more _ (List.mem_singleton.mpr rfl)
  | cons p rest ih =>
    -- the terms behind were made first, so their quantifiers have the lower numbers
    obtain ⟨middle, between, later, now⟩ := fragment
    obtain ⟨group, hp, hrest⟩ := numbered
    have lower := later.loops_le fun _ _ => Fragment.loops_le
    have upper := now.loops_le
    have hle := NumberedList.le (fun _ _ => Numbered.le) hrest
    refine Carries.comp ((h p List.mem_cons_self now hp).mono fun state idle => ?_)
      ((ih (fun q hq => h q (List.mem_cons_of_mem p hq)) later hrest).mono fun state idle => ?_) ?_
    · exact idle.narrow (Nat.le_refl _) hle lower (Nat.le_refl _)
    · exact idle.narrow hp.le (Nat.le_refl _) (Nat.le_refl _) upper
    · exact fun state idle point mem => idle.put point (follows_of_mem_results hp mem).size

/-- The alternatives of a choice carry the walk on to the node where they join. -/
theorem yields_alternatives {here join : Nat} {others : List Nat} {state : State}
    (fragment : FragmentAll task.graph.nodes patterns join loops (entry :: others) loops')
    (numbered : NumberedList patterns first last) (idle : state.Idle first last loops loops')
    {goals : Point → List State}
    (more : ∀ point ∈ resultsOfChoice task.text task.mode patterns state.point,
      Yields task (.resume join (state.put point)) (goals point)) :
    Yields task (.alternatives here entry others state)
      ((resultsOfChoice task.text task.mode patterns state.point).flatMap goals) := by
  induction patterns generalizing entry others loops first with
  | nil => cases fragment.1
  | cons p rest ih =>
    obtain ⟨_, _, between, entries, now, later⟩ := fragment
    obtain ⟨rfl, rfl⟩ := List.cons.inj entries
    obtain ⟨group, hp, hrest⟩ := numbered
    have lower := now.loops_le
    have upper := later.loops_le fun _ _ => Fragment.loops_le
    have hle := NumberedList.le (fun _ _ => Numbered.le) hrest
    have first := h p List.mem_cons_self now hp state goals
      (idle.narrow (Nat.le_refl _) hle (Nat.le_refl _) upper)
      fun point mem => more point (List.mem_append_left _ mem)
    rw [resultsOfChoice, List.flatMap_append]
    cases others with
    | nil =>
      cases rest with
      | nil =>
        rw [resultsOfChoice, List.flatMap_nil, List.append_nil]
        exact .last first
      | cons q rest =>
        obtain ⟨_, _, _, entries, _⟩ := later
        cases entries
    | cons second others =>
      refine .alternatives first (ih (fun q hq => h q (List.mem_cons_of_mem p hq)) later hrest
        (idle.narrow hp.le (Nat.le_refl _) lower (Nat.le_refl _)) ?_)
      exact fun point mem => more point (List.mem_append_right _ mem)

end

/-- **The nodes of a pattern do what the pattern means.** They carry a walk on to each result of the
pattern, best first. -/
theorem Fragment.carries {p : Pattern GroupRange} {loops loops' first last : Nat}
    (fragment : Fragment task.graph.nodes p next loops entry loops')
    (numbered : p.Numbered first last) :
    Carries task (State.Idle first last loops loops') entry next
      (p.results task.text task.mode) := by
  induction p generalizing next loops entry loops' first last with
  | empty => exact carries_pass fragment.1
  | char c | coded c => exact carries_char fragment.1
  | named cls positive => exact carries_set fragment.1
  | set negated items => exact carries_set fragment.1
  | dot => exact carries_set fragment.1
  | lineStart | lineEnd => exact carries_test fragment.1
  | wordBoundary inverted => exact carries_test fragment.1
  | backreference g => exact carries_test fragment.1
  | group groups kind body ih =>
    obtain ⟨rfl, numbered⟩ := numbered
    have follows := fun before after (mem : after ∈ body.results task.text task.mode before) =>
      Pattern.follows_of_mem_results numbered mem
    cases kind with
    | nonCapturing => exact ih fragment numbered
    | capturing =>
      obtain ⟨inside, close, hopen, inner, hclose⟩ := fragment
      exact carries_capture hopen hclose numbered.le (ih inner numbered)
        fun before after mem => (follows before after mem).size
    | lookahead =>
      obtain ⟨inside, goal, hlook, inner, hgoal⟩ := fragment
      exact carries_lookahead hlook hgoal (ih inner numbered) follows
    | negativeLookahead =>
      obtain ⟨inside, goal, hlook, inner, hgoal⟩ := fragment
      exact carries_negativeLookahead hlook hgoal (ih inner numbered)
  | quantified groups min max greedy body ih =>
    obtain ⟨rfl, numbered⟩ := numbered
    obtain ⟨inside, hloop, inner⟩ := fragment
    exact carries_loop hloop (ih inner numbered)
      (fun before after mem => Pattern.follows_of_mem_results numbered mem) inner.loops_le
  | seq terms ih => exact carries_seq ih fragment numbered
  | choice alternatives ih =>
    obtain ⟨entries, join, hentry, inner, hjoin⟩ := fragment
    intro state goals idle more
    cases alternatives with
    | nil =>
      obtain ⟨rfl, -⟩ := inner
      exact .stop (task.move_of_getElem? hentry state)
    | cons p rest =>
      obtain ⟨entry, others, between, rfl, _⟩ := id inner
      refine yields_choice hentry (yields_alternatives ih inner numbered idle fun point mem => ?_)
      exact .go (task.move_of_getElem? hjoin _) (more point mem)

end BacktrackRegex
