import BacktrackRegex.Proofs.Search.Record
import BacktrackRegex.Proofs.Search.Safety

/-!
# The limit on choice points

The choice points that a walk holds are its own and those of the walks suspended around it. There
are never more of them than the limit allows. Of a stack that is not empty this is a matter of its
depth, which was checked when its last choice point was put there (`Walk.Within`); to go back takes
one away before it puts one, so only a fork can hit the limit.

The depth also counts each suspended walk as one. So a search that does not run out of steps hits
the limit just when it comes to a fork where one more choice point, together with the suspended
walks, is more than the limit (`Task.Overflows`). Without lookaheads this is the limit on the choice
points. Inside of a lookahead it comes earlier (`overflows_of_lookahead`).

`Walk.Within.step` is the step lemma and `attempt_eq_depth_iff` the one about whole attempts; the
one about expressions is `Regex.bounded`.
-/

namespace BacktrackRegex

/-! ## What a walk holds -/

/-- The number of choice points of some suspended walks. -/
def Suspended.pending (suspended : List Suspended) : Nat :=
  (suspended.map (·.choices.length)).sum

/-- The number of choice points that a walk holds, with those of the walks around it. -/
def Walk.pending (walk : Walk) : Nat :=
  walk.choices.length + Suspended.pending walk.suspended

/-- Whether a walk is at a fork, where it goes on in one way and holds another. -/
def Walk.Forks (task : Task) (walk : Walk) : Prop :=
  ∃ next state other, task.move walk.node walk.state = .fork next state other

/-- Whether an attempt comes to a fork at which one more choice point and the suspended walks
together are more than the limit. -/
def Task.Overflows (task : Task) (entry pos : Nat) : Prop :=
  ∃ walk, task.Reaches entry pos walk ∧ walk.Forks task ∧
    task.limits.depth < walk.pending + 1 + walk.suspended.length

theorem Suspended.pending_cons (outer : Suspended) (suspended : List Suspended) :
    pending (outer :: suspended) = outer.choices.length + pending suspended := by
  simp only [pending, List.map_cons, List.sum_cons]

theorem Suspended.held_eq (suspended : List Suspended) :
    held suspended = pending suspended + suspended.length := by
  induction suspended with
  | nil => rfl
  | cons outer suspended ih =>
    rw [held_cons, pending_cons, List.length_cons, ih]
    omega

/-- The depth of a walk is the number of choice points and of suspended walks. -/
theorem Walk.Balanced.depth_eq {walk : Walk} (h : walk.Balanced 0) :
    walk.depth = walk.pending + walk.suspended.length := by
  have depth := h.depth
  rw [Suspended.held_eq] at depth
  rw [Walk.pending]
  omega

/-! ## Walks within the limit -/

/-- Whether each stack of choice points that is not empty is within the limit. -/
structure Walk.Within (limit : Nat) (walk : Walk) : Prop where
  /-- its own -/
  choices : walk.choices ≠ [] → walk.depth ≤ limit
  /-- those of the suspended walks -/
  suspended : ∀ outer ∈ walk.suspended, outer.choices ≠ [] → outer.depth ≤ limit

/-- Whether a step that does not hit the limit leads to a walk within it. -/
def Next.Within {σ : Type} (limit : Nat) : Next σ → Prop
  | step walk _ => walk.Within limit
  | finish _ _ => True
  | overflow _ => False

section

variable {σ : Type} {observe : σ → Event → σ} {log : σ} {task : Task} {walk : Walk}

theorem Walk.within_enter (graph : Graph) (entry pos limit : Nat) :
    (enter graph entry pos).Within limit := by
  constructor
  case choices => exact fun some => absurd rfl some
  case suspended => exact nofun

/-- To go back does not hit the limit. -/
theorem Walk.within_backtrack {choices : List ChoicePoint} {depth : Nat}
    {suspended : List Suspended} (own : choices ≠ [] → depth ≤ task.limits.depth)
    (around : ∀ outer ∈ suspended, outer.choices ≠ [] → outer.depth ≤ task.limits.depth) :
    (backtrack observe task log choices depth suspended).Within task.limits.depth := by
  fun_induction backtrack observe task log choices depth suspended with
  | case1 | case2 =>
    have room := own (List.cons_ne_nil _ _)
    exact ⟨fun _ => Nat.le_trans (Nat.sub_le ..) room, around⟩
  | case3 node first second others state choices depth suspended full =>
    -- the choice point that is put back was within the limit before
    have room := own (List.cons_ne_nil _ _)
    exact absurd full (Nat.not_lt.mpr room)
  | case4 => exact ⟨fun _ => own (List.cons_ne_nil _ _), around⟩
  | case5 => trivial
  | case6 depth outer suspended negated =>
    obtain ⟨here, others⟩ := List.forall_mem_cons.mp around
    exact ⟨here, others⟩
  | case7 depth outer suspended positive ih =>
    obtain ⟨here, others⟩ := List.forall_mem_cons.mp around
    exact ih here others

/-- A fork hits the limit if no choice point is left to hold. -/
theorem Walk.step_of_forks (forks : walk.Forks task) (full : task.limits.depth ≤ walk.depth) :
    ∃ log', walk.step observe task log = .overflow log' := by
  obtain ⟨next, state, other, move⟩ := forks
  rw [step_eq_perform, move, Move.perform, fork, if_pos full]
  exact ⟨_, rfl⟩

/-- **Unless it is a fork without room, a step stays within the limit.** -/
theorem Walk.Within.step (h : walk.Within task.limits.depth)
    (room : walk.Forks task → walk.depth < task.limits.depth) :
    (walk.step observe task log).Within task.limits.depth := by
  obtain ⟨own, around⟩ := h
  rw [step_eq_perform]
  cases move : task.move walk.node walk.state with
  | goal =>
    rw [Move.perform]
    split
    · trivial
    · next outer suspended eq =>
      rw [eq] at around
      obtain ⟨here, others⟩ := List.forall_mem_cons.mp around
      split
      · exact within_backtrack here others
      · exact ⟨here, others⟩
  | stop => exact within_backtrack own around
  | go next state => exact ⟨own, around⟩
  | fork next state other =>
    have room := room ⟨next, state, other, move⟩
    rw [Move.perform, fork, if_neg (Nat.not_le.mpr room)]
    exact ⟨fun _ => room, around⟩
  | look negated groups body next =>
    constructor
    case choices => exact fun some => absurd rfl some
    case suspended => exact List.forall_mem_cons.mpr ⟨own, around⟩

/-- A step from a walk within the limit hits it just at a fork without room. -/
theorem Walk.Within.step_eq_overflow_iff (h : walk.Within task.limits.depth) :
    (∃ log', walk.step observe task log = .overflow log') ↔
      walk.Forks task ∧ task.limits.depth ≤ walk.depth := by
  constructor
  · rintro ⟨log', cut⟩
    refine Classical.byContradiction fun none => ?_
    have within : (walk.step observe task log).Within task.limits.depth :=
      h.step fun forks => Nat.lt_of_not_le fun full => none ⟨forks, full⟩
    rw [cut] at within
    exact within
  · rintro ⟨forks, full⟩
    exact step_of_forks forks full

end

/-! ## Attempts within the limit -/

section

variable {task : Task} {entry pos : Nat} {walk : Walk}

/-- All walks that an attempt comes to are within the limit. -/
theorem Task.Reaches.within (h : task.Reaches entry pos walk) :
    walk.Within task.limits.depth := by
  induction h with
  | enter => exact Walk.within_enter ..
  | @step walk after _ next ih =>
    have within : (walk.step ignore task ()).Within task.limits.depth := by
      refine ih.step fun forks => Nat.lt_of_not_le fun full => ?_
      -- a fork without room has no next walk
      obtain ⟨log, cut⟩ : ∃ log, walk.step ignore task () = .overflow log :=
        Walk.step_of_forks forks full
      rw [cut] at next
      cases next
    rw [next] at within
    exact within

/-- Suspended walks within a limit hold no more choice points than it allows. -/
theorem Suspended.pending_le {limit : Nat} {suspended : List Suspended}
    (balanced : Balanced 0 suspended)
    (within : ∀ outer ∈ suspended, outer.choices ≠ [] → outer.depth ≤ limit) :
    pending suspended ≤ limit := by
  induction suspended with
  | nil => exact Nat.zero_le limit
  | cons outer suspended ih =>
    obtain ⟨depth, around⟩ := balanced
    obtain ⟨here, others⟩ := List.forall_mem_cons.mp within
    have rest := ih around others
    rw [held_eq] at depth
    rw [pending_cons]
    rcases empty : outer.choices with _ | ⟨choice, choices⟩
    · simpa using rest
    · have room := here (by simp [empty])
      rw [empty] at depth
      omega

/-- **No more choice points are held than the limit allows.** -/
theorem Task.Reaches.pending_le (h : task.Reaches entry pos walk) :
    walk.pending ≤ task.limits.depth := by
  have balanced := h.balanced
  have within := h.within
  rw [Walk.pending]
  rcases empty : walk.choices with _ | ⟨choice, choices⟩
  · have around := Suspended.pending_le balanced.suspended within.suspended
    simpa using around
  · have room := within.choices (by simp [empty])
    rw [balanced.depth_eq, Walk.pending, empty] at room
    omega

/-- A step of an attempt hits the limit just at a fork where one more choice point and the suspended
walks are more than it. -/
theorem Task.Reaches.step_eq_overflow_iff (h : task.Reaches entry pos walk) :
    walk.step ignore task () = .overflow () ↔
      walk.Forks task ∧ task.limits.depth < walk.pending + 1 + walk.suspended.length := by
  have full : task.limits.depth ≤ walk.depth ↔
      task.limits.depth < walk.pending + 1 + walk.suspended.length := by
    rw [h.balanced.depth_eq]
    omega
  have hits : (∃ log, walk.step ignore task () = .overflow log) ↔ _ :=
    h.within.step_eq_overflow_iff
  rw [← full, ← hits]
  exact ⟨fun cut => ⟨(), cut⟩, fun ⟨_, cut⟩ => cut⟩

/-- An attempt that does not run out of steps goes on from every walk that it comes to. -/
theorem Task.Reaches.attempt_eq (h : task.Reaches entry pos walk) {left : Nat}
    (ends : (task.attempt entry pos left).result ≠ .error .steps) :
    ∃ more, task.attempt entry pos left = walkFrom ignore task (more + 1) walk () := by
  have some {n : Nat} {walk : Walk} (same : task.attempt entry pos left =
      walkFrom ignore task n walk ()) : ∃ more, n = more + 1 := by
    refine Nat.exists_eq_succ_of_ne_zero fun zero => ends ?_
    rw [same, zero]
    rfl
  induction h with
  | enter =>
    obtain ⟨more, rfl⟩ := some rfl
    exact ⟨more, rfl⟩
  | step _ next ih =>
    obtain ⟨more, same⟩ := ih
    rw [walkFrom_succ, next, Next.run] at same
    obtain ⟨more, rfl⟩ := some same
    exact ⟨more, same⟩

/-- A walk that hits the limit comes to a step that does. -/
theorem Task.Reaches.exists_overflow (h : task.Reaches entry pos walk) {left : Nat}
    (ends : (walkFrom ignore task left walk ()).result = .error .depth) :
    ∃ last, task.Reaches entry pos last ∧ last.step ignore task () = .overflow () := by
  induction left generalizing walk with
  | zero => cases ends
  | succ left ih =>
    rw [walkFrom_succ] at ends
    rcases next : walk.step ignore task () with ⟨after, log⟩ | ⟨final, log⟩ | log <;>
      rw [next] at ends
    · exact ih (h.step next) ends
    · cases ends
    · exact ⟨walk, h, next⟩

/-- **An attempt that does not run out of steps hits the limit just if it overflows.** -/
theorem Task.attempt_eq_depth_iff {left : Nat}
    (ends : (task.attempt entry pos left).result ≠ .error .steps) :
    (task.attempt entry pos left).result = .error .depth ↔ task.Overflows entry pos := by
  constructor
  · intro cut
    obtain ⟨last, reaches, overflow⟩ := Reaches.enter.exists_overflow cut
    obtain ⟨forks, full⟩ := reaches.step_eq_overflow_iff.mp overflow
    exact ⟨last, reaches, forks, full⟩
  · rintro ⟨last, reaches, forks, full⟩
    obtain ⟨more, same⟩ := reaches.attempt_eq ends
    have overflow := reaches.step_eq_overflow_iff.mpr ⟨forks, full⟩
    rw [same, walkFrom_succ, overflow]
    rfl

/-- To go back while no walk is suspended suspends none. -/
theorem Walk.suspended_of_backtrack {choices : List ChoicePoint} {depth : Nat} {after : Walk}
    (h : backtrack ignore task () choices depth [] = .step after ()) : after.suspended = [] := by
  rcases choices with _ | ⟨⟨node, state⟩ | ⟨node, first, _ | ⟨second, others⟩, state⟩, choices⟩ <;>
    rw [backtrack] at h
  · cases h
  · cases h
    rfl
  · cases h
    rfl
  · split at h <;> cases h
    rfl

/-- An attempt in a graph without lookaheads suspends no walk. -/
theorem Task.Reaches.suspended_eq_nil (plain : ¬LookAhead task.graph.nodes)
    (h : task.Reaches entry pos walk) : walk.suspended = [] := by
  induction h with
  | enter => rfl
  | @step walk after _ next ih =>
    have along := task.along_move walk.node walk.state
    rw [Walk.step_eq_perform] at next
    generalize task.move walk.node walk.state = move at along next
    cases move with
    | goal =>
      rw [Move.perform, ih] at next
      cases next
    | stop =>
      rw [Move.perform, ih] at next
      exact Walk.suspended_of_backtrack next
    | go way state =>
      cases next
      exact ih
    | fork way state other =>
      rw [Move.perform, Walk.fork] at next
      split at next <;> cases next
      exact ih
    | look negated groups body behind => exact absurd ⟨_, _, _, _, _, along⟩ plain

end

/-! ## Searches within the limit -/

/-- An item that is a limit was hit. -/
theorem Scan.item?_eq_error {scan : Scan} {limit : Limit} :
    scan.item? = some (.error limit) ↔ scan.result = .error limit := by
  rw [item?]
  rcases scan.result with other | _ | found <;> simp

/-- A scan that does not run out of steps hits the limit just if one of its attempts overflows. -/
theorem Task.Course.eq_depth_iff {task : Task} {pos left : Nat} {tried : Array Nat} {scan : Scan}
    (course : task.Course pos left tried scan)
    (before : ∀ pos ∈ tried, ¬task.Overflows task.graph.anchored pos)
    (ends : scan.result ≠ .error .steps) :
    scan.result = .error .depth ↔ ∃ pos ∈ scan.tried, task.Overflows task.graph.anchored pos := by
  have push {tried : Array Nat} {found left : Nat} {final : Option State}
      (before : ∀ pos ∈ tried, ¬task.Overflows task.graph.anchored pos)
      (ends : (task.attempt task.graph.anchored found left).result = .ok final) :
      ∀ pos ∈ tried.push found, ¬task.Overflows task.graph.anchored pos := by
    have here : (task.attempt task.graph.anchored found left).result = .error .depth ↔ _ :=
      task.attempt_eq_depth_iff (by simp [ends])
    intro pos mem
    rcases Array.mem_push.mp mem with mem | rfl
    · exact before pos mem
    · rw [← here, ends]
      intro same
      cases same
  have none {tried : Array Nat} {found? : Option Match}
      (before : ∀ pos ∈ tried, ¬task.Overflows task.graph.anchored pos) :
      (.ok found? : Except Limit (Option Match)) = .error .depth ↔
        ∃ pos ∈ tried, task.Overflows task.graph.anchored pos := by
    refine iff_of_false (by simp) ?_
    rintro ⟨pos, mem, overflows⟩
    exact before pos mem overflows
  induction course with
  | exhausted next => exact none before
  | @cut pos left tried found limit next hit =>
    cases limit with
    | steps => exact absurd rfl ends
    | depth =>
      have overflows := (task.attempt_eq_depth_iff (by simp [hit])).mp hit
      exact ⟨fun _ => ⟨found, Array.mem_push_self, overflows⟩, fun _ => rfl⟩
  | found next finished => exact none (push before finished)
  | last next finished further => exact none (push before finished)
  | later next finished further more ih => exact ih (push before finished) ends

theorem Task.scan_eq_depth_iff {task : Task} {start : Nat}
    (ends : (task.scan start).result ≠ .error .steps) :
    (task.scan start).result = .error .depth ↔
      ∃ pos ∈ (task.scan start).tried, task.Overflows task.graph.anchored pos := by
  rcases Nat.lt_or_ge task.text.utf8ByteSize start with beyond | here
  · -- beyond the end there is no position to try
    have none : task.text.utf8ByteSize + 1 - start = 0 := by omega
    simp [scan, none, scanWithin]
  · exact (task.course_scan here).eq_depth_iff (by simp) ends

namespace Regex

/-- What the limit on choice points allows, and when it is hit. -/
structure Bounded (regex : Regex) (text : String) : Prop where
  /-- no attempt ever holds more choice points than the limit -/
  pending : ∀ {task : Task} {entry pos : Nat}, regex.Attempts text task entry pos →
    ∀ {walk : Walk}, task.Reaches entry pos walk → walk.pending ≤ task.limits.depth
  /-- each scan of a search that does not run out of steps hits it just if an attempt overflows -/
  searched : ∀ {start n : Nat} {scan : Scan} {after : Matches},
    ((regex.findFrom text start).after n).scan? = some (scan, after) →
      scan.item? ≠ some (.error .steps) → (scan.item? = some (.error .depth) ↔
        ∃ pos ∈ scan.tried, (regex.task text).Overflows regex.graph.anchored pos)
  /-- and so does a trace -/
  traced : ∀ {start : Nat} {mode : Mode},
    regex.trace text start mode ≠ .error (.stepLimit regex.limits.steps) →
      (regex.trace text start mode = .error (.depthLimit regex.limits.depth) ↔
        ∃ pos, Text.roundUp? text start = some pos ∧
          Task.Overflows ⟨regex.graph, text, mode, regex.limits⟩ regex.graph.start pos)
  /-- and an attempt at one position -/
  tried : ∀ {start : Nat} {mode : Mode},
    regex.graph.matchAt text start mode ≠ .error (.stepLimit Limits.standard.steps) →
      (regex.graph.matchAt text start mode = .error (.depthLimit Limits.standard.depth) ↔
        ∃ pos, Text.roundUp? text start = some pos ∧
          Task.Overflows ⟨regex.graph, text, mode, .standard⟩ regex.graph.anchored pos)
  /-- only lookaheads suspend walks -/
  plain : ¬LookAhead regex.graph.nodes → ∀ {task : Task} {entry pos : Nat},
    regex.Attempts text task entry pos → ∀ {walk : Walk}, task.Reaches entry pos walk →
      walk.suspended = []

variable {regex : Regex} {text : String}

theorem Attempts.graph_eq {task : Task} {entry pos : Nat}
    (h : regex.Attempts text task entry pos) : task.graph = regex.graph := by
  cases h <;> rfl

/-- The walk that is traced ends as an attempt does. -/
theorem result_traced (mode : Mode) (pos : Nat) :
    (regex.traced text mode pos).result = (Task.attempt ⟨regex.graph, text, mode, regex.limits⟩
      regex.graph.start pos regex.limits.steps).result :=
  (walkFrom_forget ..).1

/-- What an attempt is reported as says whether it has hit the limit on choice points. -/
theorem report_eq_depthLimit_iff (task : Task) (left : Nat) {entry pos : Nat}
    {answer : Except Error Outcome}
    (hit : ∀ limit, (task.attempt entry pos left).result = .error limit →
      answer = .error (.ofLimit task.limits limit))
    (done : ∀ final, (task.attempt entry pos left).result = .ok final →
      ∃ outcome, answer = .ok outcome)
    (ends : answer ≠ .error (.stepLimit task.limits.steps)) :
    answer = .error (.depthLimit task.limits.depth) ↔ task.Overflows entry pos := by
  rcases finished : (task.attempt entry pos left).result with (_ | _) | final
  · exact absurd (hit .steps finished) ends
  · have overflows := (task.attempt_eq_depth_iff (by simp [finished])).mp finished
    exact iff_of_true (hit .depth finished) overflows
  · obtain ⟨outcome, rfl⟩ := done final finished
    refine iff_of_false (by simp) fun overflows => ?_
    have cut : (task.attempt entry pos left).result = .error .depth :=
      (task.attempt_eq_depth_iff (by simp [finished])).mpr overflows
    rw [finished] at cut
    cases cut

/-- **The limit on choice points** is never exceeded, and a search hits it just when it comes to a
fork where one more choice point, together with the suspended walks, is more than the limit. -/
theorem bounded (regex : Regex) (text : String) : regex.Bounded text := by
  constructor
  case pending => exact fun _ _ reaches => reaches.pending_le
  case searched =>
    intro start n scan after scans ends
    obtain ⟨pos, -, rfl⟩ := Matches.scan?_eq_some scans
    rw [ne_eq, Scan.item?_eq_error] at ends
    rw [Scan.item?_eq_error]
    exact Task.scan_eq_depth_iff ends
  case traced =>
    intro start mode ends
    rcases rounded : Text.roundUp? text start with _ | pos
    · rw [trace_of_beyond rounded]
      simp
    · rw [trace_of_roundUp? rounded, report] at ends ⊢
      simp only [result_traced, Option.some.injEq, exists_eq_left'] at ends ⊢
      refine report_eq_depthLimit_iff ⟨regex.graph, text, mode, regex.limits⟩ regex.limits.steps
        (fun limit hit => ?_) (fun final done => ?_) ends
      · rw [hit]
      · rw [done]
        exact ⟨_, rfl⟩
  case tried =>
    intro start mode ends
    rcases rounded : Text.roundUp? text start with _ | pos
    · simp [Graph.matchAt, rounded]
    · simp only [Graph.matchAt, rounded, Option.some.injEq, exists_eq_left'] at ends ⊢
      refine report_eq_depthLimit_iff ⟨regex.graph, text, mode, .standard⟩ Limits.standard.steps
        (fun limit hit => ?_) (fun final done => ?_) ends
      · rw [hit]
      · rw [done]
        exact ⟨_, rfl⟩
  case plain =>
    intro plain task entry pos attempts walk reaches
    rw [← attempts.graph_eq] at plain
    exact reaches.suspended_eq_nil plain

/-- A search that hits the limit of one choice point without holding any: its only fork is inside of
a lookahead. -/
theorem overflows_of_lookahead :
    let pattern : NumberedPattern :=
      ⟨.seq [.group ⟨1, 1⟩ .lookahead (.choice [.char 'a', .char 'b']), .char 'a'], 0, 0⟩
    let regex : Regex := ⟨.ofPattern pattern, ⟨false, false, false⟩, ⟨100, 1⟩⟩
    NumberedPattern.parse "(?=a|b)a" = .ok pattern ∧
      (regex.findFrom "a" 0).item? 0 = some (.error .depth) ∧
      ∀ pos walk, (regex.task "a").Reaches regex.graph.anchored pos walk →
        walk.Forks (regex.task "a") → walk.pending + 1 ≤ 1 := by
  intro pattern regex
  have parsed : NumberedPattern.parse "(?=a|b)a" = .ok pattern := rfl
  have cut : (regex.findFrom "a" 0).item? 0 = some (.error .depth) := by cbv
  refine ⟨parsed, cut, fun pos walk reaches forks => ?_⟩
  -- the attempt comes to the beginning of group 0, the lookahead and the choice in it
  let task := regex.task "a"
  let entered : Walk := .enter task.graph regex.graph.anchored pos
  let opened : Walk := ⟨8, entered.state.openGroup 0, [], 0, []⟩
  let inside : Walk :=
    ⟨7, opened.state, [], 1, [⟨false, ⟨1, 1⟩, 2, opened.state, [], 0⟩]⟩
  have first : entered.step ignore task () = .step opened () := rfl
  have second : opened.step ignore task () = .step inside () := rfl
  have third : inside.step ignore task () = .overflow () := rfl
  have all {walk : Walk} (reaches : task.Reaches regex.graph.anchored pos walk) :
      walk = entered ∨ walk = opened ∨ walk = inside := by
    induction reaches with
    | enter => exact .inl rfl
    | step _ next ih =>
      obtain rfl | rfl | rfl := ih
      · exact .inr (.inl (Next.step.inj (next.symm.trans first)).1)
      · exact .inr (.inr (Next.step.inj (next.symm.trans second)).1)
      · cases next.symm.trans third
  obtain rfl | rfl | rfl := all reaches <;> exact Nat.le_refl 1

end Regex

end BacktrackRegex
