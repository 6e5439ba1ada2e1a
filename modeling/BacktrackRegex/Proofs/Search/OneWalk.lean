import BacktrackRegex.Proofs.Search.Budget
import BacktrackRegex.Proofs.Search.Onto
import BacktrackRegex.Proofs.Search.Scan
import BacktrackRegex.Regex

/-!
# One walk through the whole text

From its other entry, a graph first skips characters. A walk that begins there leaves the quantifier
at once and holds a choice point to skip one character more. So it is an attempt at the position
where it is, on top of that choice point; when the attempt fails, it skips a character and is at the
next position as it was at this one. It does all that trying every position does and needs no fewer
steps for it (`tryFrom_of_walkFrom_start`).

Hence a search finds what a trace has found: `next?_findFrom_of_trace`.
-/

namespace BacktrackRegex

/-! ## Skipping characters -/

/-- The quantifier that skips characters. -/
def Graph.skipLoop (id : Nat) : Loop :=
  ⟨id, 0, none, false, ⟨0, 0⟩⟩

theorem Graph.move_skipLoop (id body next completed : Nat) (state : State) :
    (skipLoop id).move body next state (some completed) =
      .fork next (state.leaveLoop (skipLoop id))
        (.resume body (state.beginIteration (skipLoop id) completed)) := by
  have enough : ¬completed < (skipLoop id).min := Nat.not_lt_zero completed
  rw [Loop.move, if_neg enough]
  rfl

/-- What a walk finds at the other entry: the quantifier, and inside it a set of all characters. -/
structure Graph.Skips (graph : Graph) (id inside : Nat) : Prop where
  /-- the quantifier has a number of its own -/
  lt : id < graph.loops
  /-- it stands at the entry, and leads to the anchored one -/
  loop : graph.nodes[graph.start]? = some (.loop (skipLoop id) inside graph.anchored)
  /-- what it repeats leads back to it -/
  set : graph.nodes[inside]? = some (.set true [] graph.start)

theorem Graph.skips_ofPattern (pattern : NumberedPattern) :
    ∃ id inside, (ofPattern pattern).Skips id inside := by
  obtain ⟨id, -, inside, hloop, hset, hid⟩ := fragments_ofPattern pattern 0
  exact ⟨id, inside, by omega, hloop, hset⟩

/-- A set that leaves nothing out accepts all characters. -/
theorem accepts_nothing_negated (fold : Bool) (c : Char) : accepts fold true [] c = true := by
  cases fold <;> rfl

section

variable {task : Task} {id inside : Nat} (skips : task.graph.Skips id inside)

include skips

/-- A character is skipped, unless the walk is at the end of the text. -/
theorem Task.walkFrom_skip {pos depth left : Nat} {iteration : Option Iteration}
    {final : Option State}
    (h : ((Walk.backtrack ignore task ()
      [.resume inside ((State.initial task.graph pos).during id iteration)] (depth + 1) []).run
        ignore task left).result = .ok final) :
    (Text.after? task.text pos = none ∧ final = none) ∨
      ∃ later left', Text.after? task.text pos = some later ∧ left' ≤ left ∧
        (walkFrom ignore task left' ⟨task.graph.start,
          (State.initial task.graph later).during id iteration, [], depth, []⟩ ()).result =
            .ok final := by
  have accepted : accepts task.mode.fold true [] = fun _ => true :=
    funext (accepts_nothing_negated task.mode.fold)
  cases left with
  | zero => cases h
  | succ left =>
    simp only [Walk.backtrack, Next.run, walkFrom_succ, Walk.step_eq_perform,
      task.move_of_getElem? skips.set, Node.move, accepted] at h
    rcases further : Text.after? task.text pos with _ | later
    · have stuck : Text.afterChar? task.text (fun _ => true)
          ((State.initial task.graph pos).during id iteration).pos = none := further
      rw [stuck] at h
      cases h
      exact .inl ⟨rfl, rfl⟩
    · have moved : Text.afterChar? task.text (fun _ => true)
          ((State.initial task.graph pos).during id iteration).pos = some later := further
      rw [moved] at h
      exact .inr ⟨later, left, rfl, Nat.le_succ left, h⟩

theorem Task.rest_initial (pos : Nat) :
    (State.initial task.graph pos).iterations[(Graph.skipLoop id).id]? = some none :=
  (State.idle_initial task.graph pos 0 0).iterations id (Nat.zero_le _) skips.lt

/-- The quantifier is left at once, and one more iteration is held. -/
theorem Task.move_start {pos completed : Nat} {iteration : Option Iteration}
    (now : ((State.initial task.graph pos).during id iteration).completed? (Graph.skipLoop id) =
      some completed) :
    task.move task.graph.start ((State.initial task.graph pos).during id iteration) =
      .fork task.graph.anchored (.initial task.graph pos)
        (.resume inside ((State.initial task.graph pos).during id (some ⟨completed, pos⟩))) := by
  have idle : (State.initial task.graph pos).Idle (Graph.skipLoop id).groups.first
      (Graph.skipLoop id).groups.next 0 task.graph.loops := State.idle_initial task.graph pos 0 0
  have begun : ((State.initial task.graph pos).during id iteration).beginIteration
      (Graph.skipLoop id) completed =
        (State.initial task.graph pos).during id (some ⟨completed, pos⟩) := by
    refine (State.beginIteration_during idle (State.initial task.graph pos).point iteration
      completed).trans ?_
    rw [GroupRange.clear_eq_self fun g _ lt => absurd lt (Nat.not_lt_zero g)]
    rfl
  have left : ((State.initial task.graph pos).during id iteration).leaveLoop
      (Graph.skipLoop id) = .initial task.graph pos :=
    State.leaveLoop_during (Task.rest_initial skips pos) (State.initial task.graph pos).point
      iteration
  rw [task.move_of_getElem? skips.loop, Node.move, now, Graph.move_skipLoop, begun, left]

end

/-- **A walk through the text tries every position.** If a walk from the other entry hits no limit,
trying every position from where it is takes no more steps, and comes to the same end. -/
theorem Task.tryFrom_of_walkFrom_start {pattern : NumberedPattern} {next : Nat}
    (numbered : pattern.tree.Numbered 1 next) {task : Task}
    (graph : task.graph = .ofPattern pattern) {id inside : Nat}
    (skips : task.graph.Skips id inside)
    {n pos depth left left' completed : Nat} {iteration : Option Iteration} {final : Option State}
    (room : task.text.utf8ByteSize + 1 - pos ≤ n) (here : pos ≤ task.text.utf8ByteSize)
    (now : ((State.initial task.graph pos).during id iteration).completed? (Graph.skipLoop id) =
      some completed)
    (h : (walkFrom ignore task left
      ⟨task.graph.start, (State.initial task.graph pos).during id iteration, [], depth, []⟩
      ()).result = .ok final)
    (le : left ≤ left') :
    ∃ found?, task.tryFrom n pos left' = .ok found? ∧
      found?.map Match.point = final.map State.point := by
  induction n generalizing pos depth left left' completed iteration with
  | zero => omega
  | succ n ih =>
    cases left with
    | zero => cases h
    | succ left =>
      rw [walkFrom_succ, Walk.step_eq_perform, task.move_start skips now, Move.perform,
        Walk.fork] at h
      split at h
      · cases h
      · -- the attempt at this position, on top of the choice point to skip a character
        simp only [Next.run] at h
        rw [← Walk.onto_enter] at h
        rcases walkFrom_onto (Walk.counted_enter ..) h with
          ⟨found, rfl, ends⟩ | ⟨ends, depth', h⟩
        · have raised := task.attempt_raise ends (Nat.le_of_succ_le le)
          obtain ⟨same, point, -⟩ := task.ofState_of_attempt numbered graph ends
          exact ⟨some (.ofState pos found), by rw [tryFrom, raised.1, same], congrArg some point⟩
        · have raised := task.attempt_raise ends (Nat.le_of_succ_le le)
          rw [tryFrom]
          simp only [raised.1]
          rcases task.walkFrom_skip skips h with ⟨last, rfl⟩ | ⟨later, left, further, fewer, h⟩
          · exact ⟨none, by rw [last], rfl⟩
          · rw [further]
            have ahead := Text.lt_of_afterChar? further
            have now' := State.completed?_during (task.rest_initial skips later)
              (State.initial task.graph later).point ⟨completed, pos⟩
            have moved : ¬((Graph.skipLoop id).min ≤ completed && later == pos) = true := by
              simpa using fun _ => Nat.ne_of_gt ahead
            rw [State.point, State.initial, if_neg moved] at now'
            exact ih (by omega) (Text.le_size_of_afterChar? further) now' h
              (Nat.le_trans fewer raised.2)

/-- Where the logged walk through the text hits no limit, trying every position does not either, and
finds what the walk has found. -/
theorem Task.tryAll_of_attemptLogged {pattern : NumberedPattern} {next : Nat}
    (numbered : pattern.tree.Numbered 1 next) {task : Task}
    (graph : task.graph = .ofPattern pattern) {pos : Nat} (here : pos ≤ task.text.utf8ByteSize)
    {final : Option State}
    (h : (task.attemptLogged task.graph.start pos task.limits.steps).result = .ok final) :
    ∃ found?, task.tryAll pos = .ok found? ∧ found?.map Match.point = final.map State.point := by
  obtain ⟨id, inside, skips⟩ := Graph.skips_ofPattern pattern
  rw [← graph] at skips
  have rest := task.rest_initial skips pos
  have fresh : (State.initial task.graph pos).during id none = .initial task.graph pos :=
    State.during_none rest
  rw [attemptLogged, (walkFrom_forget ..).1, Walk.enter, ← fresh] at h
  have now := State.completed?_put rest (State.initial task.graph pos).point
  rw [State.put_point, ← fresh] at now
  exact task.tryFrom_of_walkFrom_start numbered graph skips (Nat.le_refl _) here now h
    (Nat.le_refl _)

/-- What a trace that hits no limit comes from: an offset beyond the end, or a walk. -/
theorem Regex.trace_ok {regex : Regex} {text : String} {start : Nat} {outcome : Outcome}
    (h : regex.trace text start regex.flags.mode = .ok outcome) :
    ∃ trace final, outcome = .ofFinal regex.graph text trace final ∧
      ((Text.roundUp? text start = none ∧ final = none) ∨
        ∃ pos, Text.roundUp? text start = some pos ∧
          ((regex.task text).attemptLogged regex.graph.start pos regex.limits.steps).result =
            .ok final) := by
  obtain ⟨beyond, rfl⟩ | ⟨pos, final, rounded, ends, rfl⟩ := trace_eq_ok h
  · exact ⟨_, none, rfl, .inl ⟨beyond, rfl⟩⟩
  · exact ⟨_, final, rfl, .inr ⟨pos, rounded, ends⟩⟩

/-- **A search finds what a trace has found.** Where a trace hits no limit neither does a search,
and it finds a match just if the trace has; the match ends where the walk has ended, and has
captured the same in all groups. -/
theorem next?_findFrom_of_trace {source : String} {pattern : NumberedPattern}
    (parsed : NumberedPattern.parse source = .ok pattern) {regex : Regex}
    (graph : regex.graph = .ofPattern pattern) {text : String} {start : Nat} {outcome : Outcome}
    (h : regex.trace text start regex.flags.mode = .ok outcome) :
    ∃ found?, (regex.findFrom text start).next?.1 = found?.map .ok ∧
      found?.isSome = outcome.matched ∧
      ∀ found, found? = some found →
        found.span.stop = outcome.stop ∧
        outcome.captures = found.groups.map (·.map (Text.slice text)) ∧
        ∃ pos final, Text.roundUp? text start = some pos ∧
          ((regex.task text).attemptLogged regex.graph.start pos regex.limits.steps).result =
            .ok (some final) ∧
          final.captures = found.groups := by
  obtain ⟨next, numbered⟩ := NumberedPattern.numbered_of_parse parsed
  obtain ⟨trace, final, rfl, ⟨beyond, rfl⟩ | ⟨pos, rounded, ends⟩⟩ := regex.trace_ok h
  · refine ⟨none, ?_, rfl, nofun⟩
    rw [Regex.findFrom, Matches.start, Matches.next?_of_resume_eq_none beyond]
    rfl
  · have here := Text.le_size_of_isBoundary (Text.isBoundary_of_roundUp? rounded)
    obtain ⟨found?, plain, same⟩ :=
      (regex.task text).tryAll_of_attemptLogged numbered graph here ends
    have found := Matches.next?_start_of_tryAll numbered graph rounded plain
    cases final with
    | none =>
      obtain rfl := Option.map_eq_none_iff.mp same
      exact ⟨none, found, rfl, nofun⟩
    | some final =>
      obtain ⟨m, rfl, point⟩ := Option.map_eq_some_iff.mp same
      obtain ⟨stop, groups⟩ := Point.mk.inj point
      refine ⟨some m, found, rfl, ?_⟩
      intro _ same
      cases same
      refine ⟨stop, ?_, pos, final, rounded, ends, groups.symm⟩
      rw [groups]
      rfl

theorem next?_findFrom_of_trace_skip :
    let pattern : NumberedPattern := ⟨.group ⟨1, 2⟩ .capturing (.char 'b'), 1, 0⟩
    let regex : Regex := ⟨.ofPattern pattern, ⟨false, false, false⟩, ⟨100, 10⟩⟩
    let events : Array Event := #[⟨6, 2, .visit⟩, ⟨6, 2, .fork⟩, ⟨5, 2, .visit⟩, ⟨4, 2, .visit⟩,
      ⟨3, 2, .visit⟩, ⟨7, 2, .backtrack⟩, ⟨7, 2, .visit⟩, ⟨6, 3, .visit⟩, ⟨6, 3, .fork⟩,
      ⟨5, 3, .visit⟩, ⟨4, 3, .visit⟩, ⟨3, 3, .visit⟩, ⟨2, 4, .visit⟩, ⟨1, 4, .visit⟩,
      ⟨0, 4, .visit⟩]
    let outcome : Outcome := ⟨true, 4, #[some "b", some "b"], some ⟨[⟨2, events, true⟩]⟩⟩
    NumberedPattern.parse "(b)" = .ok pattern ∧
      regex.trace "éab" 1 regex.flags.mode = .ok outcome ∧
      ∃ found, (regex.findFrom "éab" 1).next?.1 = some (.ok found) ∧ found.span.stop = 4 := by
  intro pattern regex events outcome
  have parsed : NumberedPattern.parse "(b)" = .ok pattern := rfl
  have graph : regex.graph = .ofPattern pattern := rfl
  have traced : regex.trace "éab" 1 regex.flags.mode = .ok outcome := by cbv
  obtain ⟨found?, next, matched, all⟩ := next?_findFrom_of_trace parsed graph traced
  obtain ⟨found, rfl⟩ := Option.isSome_iff_exists.mp matched
  exact ⟨parsed, traced, found, next, (all found rfl).1⟩

end BacktrackRegex
