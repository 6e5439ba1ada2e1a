import BacktrackRegex.Proofs.Graph.Carries
import BacktrackRegex.Proofs.Search.Bookkeeping
import BacktrackRegex.Proofs.Search.Inside
import BacktrackRegex.Proofs.Search.Reuse

/-!
# Lookaheads are atomic

A lookahead can be seen as a call (`Matcher.look`): the choice points of the matcher are put aside,
the body is matched as a walk of its own, and the choice points are put back. A walk that comes to a
lookahead does just what the call says (`Matcher.walkFrom_walk`), so no choice point of the body is
left when it goes on. However the call ends, also by a limit in a lookahead inside it, the matcher
holds what it held (`Matcher.look_restores`). After a limit the walks around are given up in the
same way, and the choice points of the outermost are left (`Matcher.choices_of_limit`).

What the call does to the state is what the pattern says (`Looks`): it only ever takes over captures
of the groups in the lookahead, as the first result of the body has them. For that nothing may be in
progress in the body when it is entered, which is so since the books are right
(`State.Exact.idle_look`).
-/

namespace BacktrackRegex

namespace Matcher

/-! ## Calls -/

/-- The walk of a matcher at a node, with other walks around. -/
def walk (matcher : Matcher) (node : Nat) (state : State) (suspended : List Suspended) : Walk :=
  ⟨node, state, matcher.choices, matcher.outer + matcher.choices.length, suspended⟩

/-- The walk of a lookahead's body. The choice points of the matcher are put aside, where they count
as suspended, and the walk that waits counts as one more. -/
def aside (matcher : Matcher) (body : Nat) (state : State) : Walk :=
  ⟨body, state, [], matcher.outer + (matcher.choices.length + 1), []⟩

/-- A lookahead as a call. The body is matched with the choice points of the matcher put aside, and
then they are put back. The call gives the state in which to go on, if the lookahead lets the walk
pass. -/
def look (matcher : Matcher) (task : Task) (state : State) (negated : Bool) (groups : GroupRange)
    (body : Nat) : Except Limit (Option State) × Matcher :=
  let (ends, inner) := walkOn task matcher.left (matcher.aside body state)
  (ends.map fun final => state.past? negated groups final.toList,
    ⟨matcher.choices, inner.outer - (matcher.choices.length + 1), inner.left⟩)

/-- What follows a call: the walk goes on behind the lookahead, or goes back to the last choice
point of the matcher, or ends with the limit that was hit. -/
def goOn (task : Task) (next : Nat) (suspended : List Suspended) :
    Except Limit (Option State) × Matcher → Ending Unit
  | (.error limit, after) => ⟨.error limit, after.left, ()⟩
  | (.ok (some state), after) =>
    walkFrom ignore task after.left (after.walk next state suspended) ()
  | (.ok none, after) =>
    (Walk.backtrack ignore task () after.choices (after.outer + after.choices.length)
      suspended).run ignore task after.left

variable (task : Task) (matcher : Matcher) (state : State) (negated : Bool) (groups : GroupRange)
  (body : Nat)

/-- **A call puts everything back**, however it ends. -/
theorem look_restores :
    (matcher.look task state negated groups body).2.choices = matcher.choices ∧
      (matcher.look task state negated groups body).2.outer = matcher.outer := by
  have balanced : Walk.Balanced (matcher.outer + (matcher.choices.length + 1))
      (matcher.aside body state) := ⟨(Nat.zero_add _).symm, trivial⟩
  refine ⟨rfl, ?_⟩
  show (walkOn task matcher.left _).2.outer - _ = matcher.outer
  rw [outer_walkOn task matcher.left balanced, Nat.add_sub_cancel]

/-- A step into a lookahead puts the choice points of the matcher aside. -/
theorem step_walk {here next : Nat} (suspended : List Suspended)
    (move : task.move here state = .look negated groups body next) :
    (matcher.walk here state suspended).step ignore task () =
      .step ((matcher.aside body state).inside
        (⟨negated, groups, next, state, matcher.choices, matcher.outer + matcher.choices.length⟩ ::
          suspended)) () := by
  rw [Walk.step_eq_perform]
  simp only [walk, move]
  rfl

/-- **A walk that comes to a lookahead calls it**, and goes on with the matcher that it is given
back. -/
theorem walkFrom_walk {here next : Nat} (suspended : List Suspended)
    (move : task.move here state = .look negated groups body next) :
    walkFrom ignore task (matcher.left + 1) (matcher.walk here state suspended) () =
      goOn task next suspended (matcher.look task state negated groups body) := by
  let outer : Suspended :=
    ⟨negated, groups, next, state, matcher.choices, matcher.outer + matcher.choices.length⟩
  have step : walkFrom ignore task (matcher.left + 1) (matcher.walk here state suspended) () =
      walkFrom ignore task matcher.left
        ((matcher.aside body state).inside (outer :: suspended)) () := by
    rw [walkFrom_succ, step_walk task matcher state negated groups body suspended move]
    rfl
  obtain ⟨-, back⟩ := matcher.look_restores task state negated groups body
  obtain ⟨ends, left⟩ := walkOn_eq task matcher.left (matcher.aside body state)
  rw [step, walkFrom_inside, Ending.inside, ← ends, ← left]
  have call : matcher.look task state negated groups body =
      ((walkOn task matcher.left (matcher.aside body state)).1.map fun final => outer.past? final,
        ⟨matcher.choices, matcher.outer,
          (walkOn task matcher.left (matcher.aside body state)).2.left⟩) := by
    rw [← back]
    rfl
  rw [call]
  rcases (walkOn task matcher.left (matcher.aside body state)).1 with limit | final
  · rfl
  · simp only [Except.map, Suspended.resume]
    rcases outer.past? final with _ | after <;> rfl

/-! ## Limits -/

/-- Whether the body of a lookahead hits a limit decides whether the call does. -/
theorem look_fst : (matcher.look task state negated groups body).1 =
    (walkOn task matcher.left (matcher.aside body state)).1.map fun final =>
      state.past? negated groups final.toList := rfl

theorem stop_inside (walk : Walk) (around : List Suspended) (left : Nat) :
    (walk.inside around).stop left = around.foldl putBack (walk.stop left) := by
  rw [stop_eq_foldl, stop_eq_foldl]
  exact List.foldl_append

/-- A walk that hits a limit inside others hits it there, and they are given up one by one. -/
theorem walkOn_inside {limit : Limit} {left : Nat} {walk : Walk} (outer : Suspended)
    (around : List Suspended) (ends : (walkOn task left walk).1 = .error limit) :
    walkOn task left (walk.inside (outer :: around)) =
      (.error limit, (outer :: around).foldl putBack (walkOn task left walk).2) := by
  induction left generalizing walk with
  | zero =>
    cases ends
    exact congrArg (Prod.mk _) (stop_inside ..)
  | succ left ih =>
    have step : (walk.inside (outer :: around)).step ignore task () =
        (walk.step ignore task ()).inside ignore task outer around := Walk.step_inside ..
    rw [walkOn] at ends
    rw [walkOn, walkOn, step]
    rcases next : walk.step ignore task () with ⟨after, log⟩ | ⟨final, log⟩ | log <;>
      rw [next] at ends
    · exact ih ends
    · cases ends
    · cases ends
      exact congrArg (Prod.mk _) (stop_inside ..)

section

variable {here next : Nat} {limit : Limit} (suspended : List Suspended)
  (move : task.move here state = .look negated groups body next)
  (ends : (matcher.look task state negated groups body).1 = .error limit)

include move ends

/-- **A limit that is hit in a call ends the walk**, with the matcher that the call gives back, and
the walks around are given up one by one. -/
theorem walkOn_of_limit :
    walkOn task (matcher.left + 1) (matcher.walk here state suspended) =
      (.error limit, suspended.foldl putBack (matcher.look task state negated groups body).2) := by
  let outer : Suspended :=
    ⟨negated, groups, next, state, matcher.choices, matcher.outer + matcher.choices.length⟩
  have step : walkOn task (matcher.left + 1) (matcher.walk here state suspended) =
      walkOn task matcher.left ((matcher.aside body state).inside (outer :: suspended)) := by
    rw [walkOn, step_walk task matcher state negated groups body suspended move]
  have inner : (walkOn task matcher.left (matcher.aside body state)).1 = .error limit := by
    rw [look_fst] at ends
    rcases found : (walkOn task matcher.left (matcher.aside body state)).1 with limit | final <;>
      rw [found] at ends <;> cases ends
    rfl
  rw [step, walkOn_inside task outer suspended inner]
  rfl

/-- **After a limit inside a lookahead the choice points of the outermost walk are kept**, which are
the matcher's own where no other walk is around. -/
theorem choices_of_limit :
    (walkOn task (matcher.left + 1) (matcher.walk here state suspended)).2.choices =
      (suspended.getLast?.map (·.choices)).getD matcher.choices := by
  rw [walkOn_of_limit task matcher state negated groups body suspended move ends, foldl_putBack]
  rfl

end

end Matcher

/-! ## What the body finds -/

theorem State.past?_head? (state : State) (negated : Bool) (groups : GroupRange)
    (goals : List State) :
    state.past? negated groups goals.head?.toList = state.past? negated groups goals := by
  cases goals <;> rfl

/-- A walk ends at the first goal that it can reach, at whatever depth it begins. -/
theorem Yields.settles_at {task : Task} {here : Nat} {state : State} {goals : List State}
    (h : Yields task (.resume here state) goals) (depth : Nat) :
    Settles task ⟨here, state, [], depth, []⟩ goals.head? := by
  refine resolves_resume_iff.mp (h.resolves ?_)
  cases goals with
  | nil => exact .exhausted
  | cons first goals => rfl

/-- A body that hits no limit ends at the first goal that it can reach. -/
theorem Matcher.eq_of_aside {task : Task} {matcher : Matcher} {state : State} {body : Nat}
    {goals : List State} {found : Option State} (yields : Yields task (.resume body state) goals)
    (ends : (walkOn task matcher.left (matcher.aside body state)).1 = .ok found) :
    found = goals.head? := by
  rw [(walkOn_eq task matcher.left _).1] at ends
  exact (yields.settles_at _).eq_of_walkFrom ends

/-- So a call that hits no limit decides by that goal. -/
theorem Matcher.eq_of_look {task : Task} {matcher : Matcher} {state : State} {negated : Bool}
    {groups : GroupRange} {body : Nat} {goals : List State} {after : Option State}
    (yields : Yields task (.resume body state) goals)
    (ends : (matcher.look task state negated groups body).1 = .ok after) :
    after = state.past? negated groups goals := by
  rw [look_fst] at ends
  rcases found : (walkOn task matcher.left (matcher.aside body state)).1 with limit | final <;>
    rw [found] at ends
  · cases ends
  · obtain rfl := eq_of_aside yields found
    cases ends
    exact state.past?_head? negated groups goals

section

variable {pattern : NumberedPattern} (filled : pattern.tree.Filled)
  (numbered : pattern.tree.Numbered 1 (pattern.groupCount + 1)) {groups : GroupRange}
  {negated : Bool} {body : Pattern GroupRange} {before : Draft}
  (emits : Graph.Emits pattern (.group groups (.look negated) body) before) {state : State}

include filled numbered emits

omit filled in
/-- The body of a lookahead has the numbers that the lookahead is labelled with. -/
theorem Graph.numbered_look : body.Numbered groups.first groups.next := by
  obtain ⟨first, next, rfl, inner⟩ := Graph.numbered_of_emits numbered emits
  cases negated <;> exact inner

/-- **Nothing is in progress in the body of a lookahead that a walk comes to.** -/
theorem State.Exact.idle_look (fits : state.Fits (.ofPattern pattern))
    (exact : state.Exact pattern (Draft.emit body (before.add .goal)).nodes.size) :
    state.Idle groups.first groups.next (before.add .goal).loops
      (Draft.emit body (before.add .goal)).loops := by
  have inner := Graph.numbered_look numbered emits
  have filledBody : body.Filled := (Graph.part_of_emits filled emits).1
  constructor
  case size => exact fits.opened.trans fits.captures.symm
  case opened =>
    intro g low high
    obtain ⟨looks, groups, inside, holds, rfl⟩ := inner.exists_holds_capturing low high
    obtain ⟨within, emitted⟩ := Draft.exists_emits_of_holds holds (before.add .goal)
    have below := (emitted.entered filledBody (Draft.entry_lt_add ..)).high
    have captures := Graph.Captures.group (emits.trans (.look negated emitted))
    have size : (Draft.emit (.group groups .capturing inside) within).nodes.size =
        (Draft.emit inside (within.prepend (.closeGroup groups.first))).nodes.size + 1 :=
      Draft.size_add ..
    rw [size] at below
    rw [exact.closed captures fun h => Nat.lt_irrefl _ (Nat.lt_trans h.2 below)]
    rfl
  case iterations =>
    intro id low high
    obtain ⟨groups, min, max, greedy, inside, within, emitted, same⟩ :=
      Draft.counted body (before.add .goal) low high
    have below := (emitted.entered filledBody (Draft.entry_lt_add ..)).high
    rw [Draft.emit, Draft.size_closeLoop] at below
    have quantifies : Graph.Quantifies pattern id within.nodes.size _ :=
      ⟨groups, min, max, greedy, inside, within, emits.trans (.look negated emitted), same.symm,
        rfl, rfl⟩
    exact exact.idle quantifies fun h => Nat.lt_irrefl _ (Nat.lt_of_lt_of_le h.2 below)

/-- The body of a lookahead that a walk comes to can reach its goal in the results of the body. -/
theorem State.Exact.yields_look {task : Task} (graph : task.graph = .ofPattern pattern)
    (fits : state.Fits (.ofPattern pattern))
    (exact : state.Exact pattern (Draft.emit body (before.add .goal)).nodes.size) :
    Yields task (.resume (Draft.emit body (before.add .goal)).entry state)
      ((body.results task.text task.mode state.point).map state.put) := by
  have idle := exact.idle_look filled numbered emits fits
  obtain ⟨enclosed, placed⟩ := Graph.enclosed_of_emits filled emits
  have fragment := fragment_emit body (before.add .goal) placed
  have goal := enclosed.goal
  rw [← graph] at fragment goal
  exact yields_body goal (fragment.carries (Graph.numbered_look numbered emits)) idle

end

/-! ## Atomic lookaheads -/

/-- What a call does to a state from which the body of the lookahead has these results. -/
structure Looks (negated : Bool) (groups : GroupRange) (results : List Point) (state : State)
    (after : Option State) : Prop where
  /-- the walk passes if there is a result, or if there is none and the lookahead is negated -/
  passes : after.isSome = (!results.isEmpty != negated)
  /-- it passes where it is, with the groups open and the iterations in progress that there were -/
  stays : ∀ {passed}, after = some passed →
    passed.pos = state.pos ∧ passed.opened = state.opened ∧ passed.iterations = state.iterations
  /-- a negated lookahead captures nothing -/
  untouched : ∀ {passed}, after = some passed → negated = true → passed.captures = state.captures
  /-- another one captures what its first result did, which are groups inside it only -/
  captures : ∀ {passed}, after = some passed → negated = false →
    ∃ first others, results = first :: others ∧ passed.captures = first.captures ∧
      ∀ g, ¬(groups.first ≤ g ∧ g < groups.next) → first.captures[g]? = state.captures[g]?

/-- Results that follow the state decide as they should. -/
theorem looks_past? {text : String} {negated : Bool} {groups : GroupRange} {results : List Point}
    {state : State} (follows : ∀ point ∈ results,
      Point.Follows text groups.first groups.next state.point point) :
    Looks negated groups results state
      (state.past? negated groups (results.map state.put)) := by
  cases results with
  | nil =>
    cases negated with
    | false => exact ⟨rfl, nofun, nofun, nofun⟩
    | true =>
      refine ⟨rfl, ?_, ?_, nofun⟩
      · rintro _ ⟨⟩
        exact ⟨rfl, rfl, rfl⟩
      · rintro _ ⟨⟩ -
        rfl
  | cons first others =>
    cases negated with
    | true => exact ⟨rfl, nofun, nofun, nofun⟩
    | false =>
      have ahead := follows first List.mem_cons_self
      have adopted := State.adopt_put ahead
      refine ⟨rfl, ?_, nofun, ?_⟩
      · rintro _ ⟨⟩
        exact ⟨rfl, rfl, rfl⟩
      · rintro _ ⟨⟩ -
        exact ⟨first, others, rfl, congrArg State.captures adopted, ahead.frame⟩

/-- A lookahead of a pattern is not part of what skips characters. -/
theorem Graph.Emits.holds_look {pattern : NumberedPattern} {groups : GroupRange} {negated : Bool}
    {body : Pattern GroupRange} {before : Draft}
    (h : Emits pattern (.group groups (.look negated) body) before) :
    ∃ looks, pattern.tree.Holds looks (.group groups (.look negated) body) := by
  rcases h with tree | skip
  · exact tree.holds
  · obtain ⟨looks, holds⟩ := skip.holds
    cases holds with
    | quantified inner => cases inner

/-- **Lookaheads are atomic.** Each lookahead in the graph of a pattern that is read stands for one
of the pattern. In every state in which a search comes to it, and with whatever choice points and
suspended walks:

* the matcher holds the same choice points behind the call, and counts as much as suspended, also
  if a limit was hit somewhere inside;
* the walk goes on as the call says, with that matcher, so never from a choice point of the body;
* a body that hits no limit ends at its first result, and the call does with the state what the
  results say. -/
theorem Matcher.look_atomic {source : String} {pattern : NumberedPattern}
    (parsed : NumberedPattern.parse source = .ok pattern) {task : Task}
    (graph : task.graph = .ofPattern pattern) {entry pos : Nat}
    (way : entry = task.graph.anchored ∨ entry = task.graph.start) {walk : Walk}
    (reached : task.Reaches entry pos walk) {here : Nat} {state : State}
    (held : walk.Holds here state) {negated : Bool} {groups : GroupRange} {inside next : Nat}
    (there : task.graph.nodes[here]? = some (.lookahead negated groups inside next)) :
    ∃ looks body, pattern.tree.Holds looks (.group groups (.look negated) body) ∧
      ∀ matcher : Matcher,
        (matcher.look task state negated groups inside).2.choices = matcher.choices ∧
        (matcher.look task state negated groups inside).2.outer = matcher.outer ∧
        (∀ suspended,
          walkFrom ignore task (matcher.left + 1) (matcher.walk here state suspended) () =
            goOn task next suspended (matcher.look task state negated groups inside)) ∧
        (∀ {found}, (walkOn task matcher.left (matcher.aside inside state)).1 = .ok found →
          found = ((body.results task.text task.mode state.point).map state.put).head?) ∧
        ∀ {after}, (matcher.look task state negated groups inside).1 = .ok after →
          Looks negated groups (body.results task.text task.mode state.point) state after := by
  have filled := NumberedPattern.filled_of_parse parsed
  have numbered := NumberedPattern.numbered_groupCount parsed
  obtain ⟨fits, exact⟩ := reached.exact graph filled numbered way held
  obtain ⟨body, before, emits, rfl, rfl⟩ :=
    Graph.exists_emits_of_lookahead filled (graph ▸ there)
  obtain ⟨looks, holds⟩ := emits.holds_look
  have yields := exact.yields_look filled numbered emits graph (graph ▸ fits)
  refine ⟨looks, body, holds, fun matcher => ?_⟩
  obtain ⟨choices, outer⟩ := matcher.look_restores task state negated groups
    (Draft.emit body (before.add .goal)).entry
  have move := task.move_of_getElem? there state
  refine ⟨choices, outer, fun suspended => matcher.walkFrom_walk task _ _ _ _ suspended move,
    eq_of_aside yields, fun ends => ?_⟩
  rw [eq_of_look yields ends]
  exact looks_past? fun point mem =>
    Pattern.follows_of_mem_results (Graph.numbered_look numbered emits) mem

theorem Matcher.look_atomic_capture :
    let pattern : NumberedPattern :=
      ⟨.seq [.group ⟨1, 2⟩ .lookahead (.seq [
          .group ⟨1, 2⟩ .capturing (.quantified ⟨2, 2⟩ 1 none true (.char 'a')),
          .group ⟨2, 2⟩ .negativeLookahead (.char 'b')]), .char 'a'], 1, 1⟩
    let task : Task := ⟨.ofPattern pattern, "aa", ⟨false, false⟩, ⟨50, 9⟩⟩
    let state : State := ⟨0, #[none, none], #[some 0, none], #[none, none]⟩
    let matcher : Matcher := ⟨[.resume 2 state], 1, 30⟩
    NumberedPattern.parse "(?=(a+)(?!b))a" = .ok pattern ∧
      task.Reaches task.graph.anchored 0 ⟨11, state, [], 0, []⟩ ∧
      task.graph.nodes[11]? = some (.lookahead false ⟨1, 2⟩ 10 2) ∧
      (matcher.look task state false ⟨1, 2⟩ 10).2.choices = [.resume 2 state] ∧
      (matcher.look task state false ⟨1, 2⟩ 10).2.outer = 1 ∧
      ∃ passed, (matcher.look task state false ⟨1, 2⟩ 10).1 = .ok (some passed) ∧
        passed.captures = #[none, some ⟨0, 2⟩] ∧ passed.opened = state.opened := by
  intro pattern task state matcher
  have parsed : NumberedPattern.parse "(?=(a+)(?!b))a" = .ok pattern := rfl
  have reached : task.Reaches task.graph.anchored 0 ⟨11, state, [], 0, []⟩ :=
    .step .enter (by cbv)
  have there : task.graph.nodes[11]? = some (.lookahead false ⟨1, 2⟩ 10 2) := rfl
  obtain ⟨_, _, -, atomic⟩ := Matcher.look_atomic parsed rfl (.inl rfl) reached .current there
  obtain ⟨choices, outer, -, -, looks⟩ := atomic matcher
  have ends : (matcher.look task state false ⟨1, 2⟩ 10).1 =
      .ok (some ⟨0, #[none, some ⟨0, 2⟩], #[some 0, none], #[none, none]⟩) := by cbv
  exact ⟨parsed, reached, there, choices, outer, _, ends, rfl, ((looks ends).stays rfl).2.1⟩

end BacktrackRegex
