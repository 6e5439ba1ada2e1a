import BacktrackRegex.Proofs.Search.Course
import BacktrackRegex.Proofs.Search.Items
import BacktrackRegex.Proofs.Search.Settles
import BacktrackRegex.Regex

/-!
# What a search costs

A walk that hits no limit has a price, the number of steps it takes. With that many steps it comes
to the same end after the same events, and with fewer it runs out of steps (`walkFrom_of_le`,
`walkFrom_of_lt`). A step visits one node, in the body of a lookahead or outside, so the price can
be read off the log: it is the number of visits (`visits_walkFrom`).

A search that hits no limit finds the same under higher ones (`scan_within`). `limits_only_cut` says
all this of an expression.
-/

namespace BacktrackRegex

variable {σ : Type} {observe : σ → Event → σ} {task : Task}

/-! ## The price of a walk -/

/-- With fewer steps than it takes, a walk runs out of them. -/
theorem walkFrom_of_lt {limits : Limits} (depth : task.limits.depth ≤ limits.depth)
    {left budget : Nat} {walk : Walk} {log : σ} {final : Option State}
    (h : (walkFrom observe task left walk log).result = .ok final)
    (short : budget + (walkFrom observe task left walk log).left < left) :
    (walkFrom observe (task.within limits) budget walk log).result = .error .steps := by
  induction budget generalizing left walk log with
  | zero => rfl
  | succ budget ih =>
    cases left with
    | zero => cases h
    | succ left =>
      rw [walkFrom_succ] at h short ⊢
      obtain ⟨log', cut⟩ | same := walk.step_within observe depth log
      · rw [cut] at h
        cases h
      · rw [same]
        rcases hs : walk.step observe task log with ⟨walk, log⟩ | ⟨final', log⟩ | log <;>
          simp only [hs, Next.run] at h short ⊢
        · exact ih h (by omega)
        · omega
        · cases h

/-! ## The price and the log -/

/-- The number of visits among some events. -/
def visitsAmong (events : Array Event) : Nat :=
  events.countP (·.kind == .visit)

theorem visitsAmong_push (events : Array Event) (event : Event) :
    visitsAmong (events.push event) =
      visitsAmong events + if event.kind = .visit then 1 else 0 := by
  simp only [visitsAmong, Array.countP_push, beq_iff_eq]

/-- The log after a step. -/
def Next.log : Next σ → σ
  | step _ log => log
  | finish _ log => log
  | overflow log => log

section

variable (log : Array Event)

/-- To go back is no visit. -/
theorem Walk.visits_backtrack (choices : List ChoicePoint) (depth : Nat)
    (suspended : List Suspended) :
    visitsAmong (backtrack Array.push task log choices depth suspended).log = visitsAmong log := by
  fun_induction backtrack Array.push task log choices depth suspended with
  | case1 | case2 =>
    rw [Next.log, visitsAmong_push]
    rfl
  | case4 _ _ _ _ _ _ _ _ _ forked =>
    simp only [Next.log, visitsAmong_push, forked]
    rfl
  | case3 | case5 | case6 => rfl
  | case7 depth outer suspended positive ih => exact ih

/-- A step is one visit. -/
theorem Walk.visits_step (walk : Walk) :
    visitsAmong (walk.step Array.push task log).log = visitsAmong log + 1 := by
  have visited : visitsAmong (log.push ⟨walk.node, walk.state.pos, .visit⟩) =
      visitsAmong log + 1 := by
    rw [visitsAmong_push]
    rfl
  rw [step_eq_perform, ← visited]
  cases task.move walk.node walk.state with
  | goal =>
    rw [Move.perform]
    split
    · rfl
    · split
      · exact visits_backtrack ..
      · rfl
  | stop => exact visits_backtrack ..
  | go next state => rfl
  | fork next state other =>
    rw [Move.perform, fork]
    split
    · rfl
    · rw [Next.log, visitsAmong_push]
      rfl
  | look negated groups body next => rfl

/-- **A walk takes a step for each visit.** What it has taken and what is left is what it was
given, however it ends. -/
theorem visits_walkFrom (left : Nat) (walk : Walk) :
    visitsAmong (walkFrom Array.push task left walk log).log +
      (walkFrom Array.push task left walk log).left = visitsAmong log + left := by
  induction left generalizing walk log with
  | zero => rfl
  | succ left ih =>
    have visited : visitsAmong (walk.step Array.push task log).log = visitsAmong log + 1 :=
      walk.visits_step log
    rw [walkFrom_succ]
    rcases hs : walk.step Array.push task log with ⟨walk, log'⟩ | ⟨final, log'⟩ | log' <;>
      simp only [hs, Next.log, Next.run] at visited ⊢
    · rw [ih]
      omega
    · omega
    · omega

end

/-- The visits of a trace with one run are those among its events. -/
theorem Trace.visits_singleton (run : Run) : Trace.visits ⟨[run]⟩ = visitsAmong run.events := by
  simp only [visits, count, List.foldl_cons, List.foldl_nil, Nat.zero_add, visitsAmong]

/-! ## Scans under higher limits -/

namespace Task

variable {limits : Limits}

/-- An attempt that hits no limit comes to the same end under higher ones, with no fewer steps
left. -/
theorem attempt_within (depth : task.limits.depth ≤ limits.depth) {entry pos left left' : Nat}
    (le : left ≤ left') {final : Option State}
    (h : (task.attempt entry pos left).result = .ok final) :
    ((task.within limits).attempt entry pos left').result = .ok final ∧
      (task.attempt entry pos left).left ≤ ((task.within limits).attempt entry pos left').left := by
  obtain ⟨extra, rfl⟩ := Nat.exists_eq_add_of_le le
  have raised := walkFrom_raise limits depth extra h
  have same : (task.within limits).attempt entry pos (left + extra) =
      ⟨.ok final, (task.attempt entry pos left).left + extra, ()⟩ := raised
  rw [same]
  exact ⟨rfl, Nat.le_add_right ..⟩

/-- A scan that hits no limit takes the same course under higher ones. -/
theorem Course.within (depth : task.limits.depth ≤ limits.depth) {pos left left' : Nat}
    {tried : Array Nat} {scan : Scan} (course : task.Course pos left tried scan)
    (le : left ≤ left') {found? : Option Match} (h : scan.result = .ok found?) :
    (task.within limits).Course pos left' tried scan := by
  induction course generalizing left' with
  | exhausted next => exact .exhausted next
  | cut next ends => cases h
  | found next ends => exact .found next (task.attempt_within depth le ends).1
  | last next ends further => exact .last next (task.attempt_within depth le ends).1 further
  | later next ends further more ih =>
    obtain ⟨same, more⟩ := task.attempt_within depth le ends
    exact .later next same further (ih more h)

/-- A scan that hits no limit is the same under higher ones. -/
theorem scan_within (steps : task.limits.steps ≤ limits.steps)
    (depth : task.limits.depth ≤ limits.depth) {pos : Nat} {found? : Option Match}
    (h : (task.scan pos).result = .ok found?) : (task.within limits).scan pos = task.scan pos := by
  rcases Nat.lt_or_ge task.text.utf8ByteSize pos with beyond | here
  · -- beyond the end there is no position to try
    have none : task.text.utf8ByteSize + 1 - pos = 0 := by omega
    simp only [scan, within, none, scanWithin]
  · exact ((task.course_scan here).within depth steps h).scan_eq here

end Task

/-- The same matches under other limits. -/
def Matches.within (left : Matches) (limits : Limits) : Matches :=
  { left with task := left.task.within limits }

section

variable (left : Matches) {limits : Limits}

theorem Matches.next?_within (steps : left.task.limits.steps ≤ limits.steps)
    (depth : left.task.limits.depth ≤ limits.depth)
    (h : ∀ limit, left.next?.1 ≠ some (.error limit)) :
    (left.within limits).next? = (left.next?.1, left.next?.2.within limits) := by
  obtain ⟨task, _ | pos⟩ := left
  · rfl
  · rcases ends : (task.scan pos).result with limit | found?
    · refine absurd ?_ (h limit)
      simp only [next?, scan?, Option.map_some, Scan.item?, ends]
    · have same := task.scan_within steps depth ends
      simp only [next?, scan?, within, Option.map_some, same]

theorem Matches.after_within (steps : left.task.limits.steps ≤ limits.steps)
    (depth : left.task.limits.depth ≤ limits.depth)
    (h : ∀ n limit, left.item? n ≠ some (.error limit)) (n : Nat) :
    (left.within limits).after n = (left.after n).within limits := by
  induction n with
  | zero => rfl
  | succ n ih =>
    have task := left.task_after n
    rw [after, ih, next?_within _ (by rwa [task]) (by rwa [task]) (h n)]
    rfl

/-- Matches among which there is no error are the same under higher limits. -/
theorem Matches.item?_within (steps : left.task.limits.steps ≤ limits.steps)
    (depth : left.task.limits.depth ≤ limits.depth)
    (h : ∀ n limit, left.item? n ≠ some (.error limit)) (n : Nat) :
    (left.within limits).item? n = left.item? n := by
  have task := left.task_after n
  rw [item?, left.after_within steps depth h,
    next?_within _ (by rwa [task]) (by rwa [task]) (h n)]
  rfl

end

/-! ## Expressions under other limits -/

theorem Outcome.trace_ofFinal (graph : Graph) (text : String) (trace : Option Trace)
    (final : Option State) : (ofFinal graph text trace final).trace = trace := by
  cases final <;> rfl

namespace Regex

/-- The same expression under other limits. -/
def within (regex : Regex) (limits : Limits) : Regex :=
  { regex with limits }

/-- The walk that a trace keeps the events of. -/
def traced (regex : Regex) (text : String) (mode : Mode) (pos : Nat) : Ending (Array Event) :=
  Task.attemptLogged ⟨regex.graph, text, mode, regex.limits⟩ regex.graph.start pos
    regex.limits.steps

/-- What a trace says of a walk. -/
def report (regex : Regex) (text : String) (pos : Nat) (ending : Ending (Array Event)) :
    Except Error Outcome :=
  match ending.result with
  | .ok final => .ok (.ofFinal regex.graph text (some ⟨[⟨pos, ending.log, final.isSome⟩]⟩) final)
  | .error limit => .error (.ofLimit regex.limits limit)

variable {regex : Regex} {text : String} {start : Nat} {mode : Mode} {outcome : Outcome}

theorem trace_of_roundUp? {pos : Nat} (rounded : Text.roundUp? text start = some pos) :
    regex.trace text start mode = regex.report text pos (regex.traced text mode pos) := by
  simp only [trace, rounded]
  rfl

/-- A trace that hits no limit comes from an offset beyond the end, or from a walk that ends. -/
theorem trace_eq_ok (h : regex.trace text start mode = .ok outcome) :
    (Text.roundUp? text start = none ∧ outcome = .ofFinal regex.graph text (some ⟨[]⟩) none) ∨
    ∃ pos final, Text.roundUp? text start = some pos ∧
      (regex.traced text mode pos).result = .ok final ∧
      outcome = .ofFinal regex.graph text
        (some ⟨[⟨pos, (regex.traced text mode pos).log, final.isSome⟩]⟩) final := by
  rcases rounded : Text.roundUp? text start with _ | pos
  · simp only [trace, rounded] at h
    cases h
    exact .inl ⟨rfl, rfl⟩
  · rw [trace_of_roundUp? rounded, report] at h
    rcases ends : (regex.traced text mode pos).result with limit | final <;> rw [ends] at h
    · cases h
    · cases h
      exact .inr ⟨pos, final, rfl, ends, rfl⟩

theorem trace_of_beyond (beyond : Text.roundUp? text start = none) :
    regex.trace text start mode = .ok (.ofFinal regex.graph text (some ⟨[]⟩) none) := by
  simp only [trace, beyond]

/-- A walk that hits no limit is the same under higher ones, but for the steps that are left. -/
theorem traced_within {limits : Limits} (steps : regex.limits.steps ≤ limits.steps)
    (depth : regex.limits.depth ≤ limits.depth) {pos : Nat} {final : Option State}
    (ends : (regex.traced text mode pos).result = .ok final) :
    ∃ left, (regex.within limits).traced text mode pos =
      ⟨.ok final, left, (regex.traced text mode pos).log⟩ :=
  ⟨_, walkFrom_of_le depth ends (Nat.le_add_right_of_le steps)⟩

/-- A walk needs as many steps as it has visits. -/
theorem traced_within_steps {pos : Nat} (steps : Nat) {final : Option State}
    (ends : (regex.traced text mode pos).result = .ok final) :
    if visitsAmong (regex.traced text mode pos).log ≤ steps then
      ∃ left, (regex.within ⟨steps, regex.limits.depth⟩).traced text mode pos =
        ⟨.ok final, left, (regex.traced text mode pos).log⟩
    else
      ((regex.within ⟨steps, regex.limits.depth⟩).traced text mode pos).result = .error .steps := by
  have price : visitsAmong (regex.traced text mode pos).log +
      (regex.traced text mode pos).left = 0 + regex.limits.steps :=
    visits_walkFrom #[] regex.limits.steps (.enter regex.graph regex.graph.start pos)
  have depth : regex.limits.depth ≤ (Limits.mk steps regex.limits.depth).depth := Nat.le_refl _
  split
  · next enough =>
    have enough : regex.limits.steps ≤ steps + (regex.traced text mode pos).left := by omega
    exact ⟨_, walkFrom_of_le depth ends enough⟩
  · next short =>
    have short : steps + (regex.traced text mode pos).left < regex.limits.steps := by omega
    exact walkFrom_of_lt depth ends short

/-- **Limits only cut.** Under higher limits a search has the same items, if there is no error among
them, and a trace is the same, if it is not cut short. A trace needs just as many steps as it has
visits: with that many it is the same, and with fewer it hits the limit on steps. -/
theorem limits_only_cut (regex : Regex) (text : String) (start : Nat) (mode : Mode) :
    (∀ limits : Limits, regex.limits.steps ≤ limits.steps → regex.limits.depth ≤ limits.depth →
      ((∀ n limit, (regex.findFrom text start).item? n ≠ some (.error limit)) →
        ∀ n, ((regex.within limits).findFrom text start).item? n =
          (regex.findFrom text start).item? n) ∧
      ∀ outcome, regex.trace text start mode = .ok outcome →
        (regex.within limits).trace text start mode = .ok outcome) ∧
    ∀ outcome, regex.trace text start mode = .ok outcome →
      ∃ trace, outcome.trace = some trace ∧ ∀ steps,
        (regex.within ⟨steps, regex.limits.depth⟩).trace text start mode =
          if trace.visits ≤ steps then .ok outcome else .error (.stepLimit steps) := by
  refine ⟨fun limits steps depth => ⟨fun h n => ?_, fun outcome h => ?_⟩, fun outcome h => ?_⟩
  · exact (regex.findFrom text start).item?_within steps depth h n
  · obtain ⟨beyond, rfl⟩ | ⟨pos, final, rounded, ends, rfl⟩ := trace_eq_ok h
    · exact trace_of_beyond beyond
    · obtain ⟨left, same⟩ := traced_within steps depth ends
      rw [trace_of_roundUp? rounded, same]
      rfl
  · obtain ⟨beyond, rfl⟩ | ⟨pos, final, rounded, ends, rfl⟩ := trace_eq_ok h
    · refine ⟨⟨[]⟩, rfl, fun steps => ?_⟩
      have free : Trace.visits ⟨[]⟩ ≤ steps := Nat.zero_le steps
      rw [trace_of_beyond beyond, if_pos free]
      rfl
    · refine ⟨_, Outcome.trace_ofFinal .., fun steps => ?_⟩
      have same := traced_within_steps steps ends
      rw [trace_of_roundUp? rounded, Trace.visits_singleton]
      split at same
      · next enough =>
        obtain ⟨left, same⟩ := same
        rw [if_pos enough, same]
        rfl
      · next short =>
        rw [if_neg short, report, same]
        rfl

theorem limits_only_cut_lookahead :
    let pattern : NumberedPattern := ⟨.seq [.group ⟨1, 1⟩ .lookahead
      (.quantified ⟨1, 1⟩ 1 none true (.char 'a')), .char 'a'], 0, 1⟩
    let regex : Regex := ⟨.ofPattern pattern, ⟨false, false, false⟩, ⟨50, 4⟩⟩
    let events : Array Event := #[⟨8, 0, .visit⟩, ⟨8, 0, .fork⟩, ⟨7, 0, .visit⟩, ⟨6, 0, .visit⟩,
      ⟨4, 0, .visit⟩, ⟨5, 0, .visit⟩, ⟨9, 0, .backtrack⟩, ⟨9, 0, .visit⟩, ⟨8, 1, .visit⟩,
      ⟨8, 1, .fork⟩, ⟨7, 1, .visit⟩, ⟨6, 1, .visit⟩, ⟨4, 1, .visit⟩, ⟨5, 1, .visit⟩,
      ⟨4, 2, .visit⟩, ⟨4, 2, .fork⟩, ⟨5, 2, .visit⟩, ⟨3, 2, .backtrack⟩, ⟨3, 2, .visit⟩,
      ⟨2, 1, .visit⟩, ⟨1, 2, .visit⟩, ⟨0, 2, .visit⟩]
    let outcome : Outcome := ⟨true, 2, #[some "a"], some ⟨[⟨0, events, true⟩]⟩⟩
    (∀ n limit, (regex.findFrom "ba" 0).item? n ≠ some (.error limit)) ∧
      regex.trace "ba" 0 ⟨false, false⟩ = .ok outcome ∧
      (∀ n, ((regex.within ⟨60, 5⟩).findFrom "ba" 0).item? n =
        (regex.findFrom "ba" 0).item? n) ∧
      (regex.within ⟨60, 5⟩).trace "ba" 0 ⟨false, false⟩ = .ok outcome ∧
      (regex.within ⟨17, 4⟩).trace "ba" 0 ⟨false, false⟩ = .ok outcome ∧
      (regex.within ⟨16, 4⟩).trace "ba" 0 ⟨false, false⟩ = .error (.stepLimit 16) := by
  intro pattern regex events outcome
  have first : (regex.findFrom "ba" 0).item? 0 = some (.ok ⟨⟨1, 2⟩, #[]⟩) := by cbv
  have second : (regex.findFrom "ba" 0).item? 1 = none := by cbv
  have items : ∀ n limit, (regex.findFrom "ba" 0).item? n ≠ some (.error limit) := by
    intro n limit
    rcases n with _ | _ | n
    · simp [first]
    · simp [second]
    · have none : (regex.findFrom "ba" 0).item? (n + 2) = none :=
        Matches.item?_eq_none_of_lt (m := 1) (fun found => by simp [second]) (by omega)
      simp [none]
  have traced : regex.trace "ba" 0 ⟨false, false⟩ = .ok outcome := by cbv
  obtain ⟨raised, exact⟩ := regex.limits_only_cut "ba" 0 ⟨false, false⟩
  obtain ⟨same, same'⟩ := raised ⟨60, 5⟩ (by decide) (by decide)
  obtain ⟨trace, kept, price⟩ := exact outcome traced
  cases kept
  have visits : Trace.visits ⟨[⟨0, events, true⟩]⟩ = 17 := by cbv
  rw [visits] at price
  exact ⟨items, traced, same items, same' outcome traced, price 17, price 16⟩

end Regex

end BacktrackRegex
