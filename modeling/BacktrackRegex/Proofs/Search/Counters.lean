import BacktrackRegex.Proofs.Graph.Size
import BacktrackRegex.Proofs.Search.Configuration
import BacktrackRegex.Proofs.Search.Safety

/-!
# Nothing is counted too far

A walk has a number of steps left. A search that counts its steps upwards, over all attempts, comes
to the same: `Task.Counts` is an attempt with such a counter, and `Task.Tries` says where it stands
when the attempts of a scan begin. As no step is made beyond the limit, the counter stays at most
one above it (`Counts.le`). Each iteration of a quantifier takes a step, so the numbers of
iterations stay below the counter (`Counts.iterates`), and what was added to the depth for a
suspended walk is there to be taken away (`Suspended.unwinds_held`).

With the numbers in a graph (`Graph.WordSized`) these are all that a search works with, so none of
them leaves the word that is meant for it (**`Regex.fits_of_parse`**).
-/

namespace BacktrackRegex

/-! ## Steps -/

/-- The walks that an attempt comes to and the counter of steps when they are visited, for an
attempt that begins after `used` steps. The counter is raised at each visit, and beyond the limit
the attempt does not go on. -/
inductive Task.Counts (task : Task) (entry pos used : Nat) : Walk → Nat → Prop where
  /-- the walk that enters the graph -/
  | enter : Counts task entry pos used (.enter task.graph entry pos) (used + 1)
  /-- a step further -/
  | step {walk after count} (h : Counts task entry pos used walk count)
    (within : count ≤ task.limits.steps) (next : walk.step ignore task () = .step after ()) :
    Counts task entry pos used after (count + 1)

/-- The attempts of a scan that looks for the next position from `pos` on when `used` steps are
counted: where they are made, and how many steps are counted before. -/
inductive Task.Tries (task : Task) : Nat → Nat → Nat → Nat → Prop where
  /-- the attempt at the next position that passes -/
  | first {pos used found}
    (h : task.graph.startPredicate.next? task.text task.mode.fold task.mode.multiline pos =
      some found) : Tries task pos used found used
  /-- one after that attempt has failed -/
  | later {pos used found last count behind pos' used'}
    (h : task.graph.startPredicate.next? task.text task.mode.fold task.mode.multiline pos =
      some found)
    (counts : task.Counts task.graph.anchored found used last count)
    (within : count ≤ task.limits.steps) (ends : last.step ignore task () = .finish none ())
    (h' : Text.after? task.text found = some behind) (more : Tries task behind count pos' used') :
    Tries task pos used pos' used'

namespace Task

variable {task : Task} {entry pos used count : Nat} {walk : Walk}

theorem Counts.reaches (h : task.Counts entry pos used walk count) :
    task.Reaches entry pos walk := by
  induction h with
  | enter => exact .enter
  | step _ _ next ih => exact ih.step next

/-- **The counter stays at most one above the limit.** -/
theorem Counts.le (h : task.Counts entry pos used walk count) (start : used ≤ task.limits.steps) :
    count ≤ task.limits.steps + 1 := by
  cases h with
  | enter => exact Nat.succ_le_succ start
  | step _ within _ => exact Nat.succ_le_succ within

/-- What is left of the steps is what the counter has not used up. -/
theorem Counts.attempt_eq (h : task.Counts entry pos used walk count) :
    task.attempt entry pos (task.limits.steps - used) =
      walkFrom ignore task (task.limits.steps + 1 - count) walk () := by
  induction h with
  | enter =>
    rw [Nat.add_sub_add_right]
    rfl
  | @step walk after count _ within next ih =>
    rw [ih, Nat.succ_sub within, walkFrom_succ, next, Nat.add_sub_add_right]
    rfl

/-- An attempt that hits no limit ends with a step that was counted. -/
theorem Counts.exists_finish (h : task.Counts entry pos used walk count) {left : Nat}
    (budget : left + count = task.limits.steps + 1) {final : Option State}
    (ends : (walkFrom ignore task left walk ()).result = .ok final) :
    ∃ last count', task.Counts entry pos used last count' ∧ count' ≤ task.limits.steps ∧
      last.step ignore task () = .finish final () ∧
      (walkFrom ignore task left walk ()).left + count' = task.limits.steps := by
  induction left generalizing walk count with
  | zero => cases ends
  | succ left ih =>
    have within : count ≤ task.limits.steps := by omega
    rw [walkFrom_succ] at ends ⊢
    rcases next : walk.step ignore task () with ⟨after, log⟩ | ⟨final', log⟩ | log <;>
      rw [next] at ends
    · exact ih (h.step within next) (by omega) ends
    · cases ends
      exact ⟨walk, count, h, within, next, by simp only [Next.run]; omega⟩
    · cases ends

/-- Each position that a scan tries is that of an attempt with the counter. -/
theorem Course.exists_tries {pos left : Nat} {tried : Array Nat} {scan : Scan}
    (course : task.Course pos left tried scan) {used : Nat}
    (budget : left + used = task.limits.steps) :
    ∀ found ∈ scan.tried, found ∈ tried ∨ ∃ used', task.Tries pos used found used' := by
  induction course generalizing used with
  | exhausted h => exact fun _ mem => .inl mem
  | cut h ends | found h ends | last h ends h' =>
    intro found' mem
    rcases Array.mem_push.mp mem with mem | rfl
    · exact .inl mem
    · exact .inr ⟨used, .first h⟩
  | @later pos left tried found later scan h ends h' more ih =>
    have entered : task.Counts task.graph.anchored found used _ (used + 1) := .enter
    have start : left + (used + 1) = task.limits.steps + 1 := congrArg (· + 1) budget
    obtain ⟨last, count, counts, within, finish, rest⟩ := entered.exists_finish start ends
    intro found' mem
    rcases ih rest found' mem with mem | ⟨used', tries⟩
    · rcases Array.mem_push.mp mem with mem | rfl
      · exact .inl mem
      · exact .inr ⟨used, .first h⟩
    · exact .inr ⟨used', .later h counts within finish h' tries⟩

/-- An attempt of a scan begins within the limit. -/
theorem Tries.le {pos used found used' : Nat} (h : task.Tries pos used found used')
    (start : used ≤ task.limits.steps) : used' ≤ task.limits.steps := by
  induction h with
  | first => exact start
  | later _ _ within _ _ _ ih => exact ih within

end Task

/-! ## Iterations -/

/-- Whether each iteration in progress in a state would, once it is completed, be at most the so
manieth. -/
def State.IteratesWithin (state : State) (count : Nat) : Prop :=
  ∀ (id : Nat) (iteration : Iteration), state.iterations[id]? = some (some iteration) →
    iteration.completed + 1 ≤ count

namespace State.IteratesWithin

variable {state : State} {count : Nat}

theorem mono {count' : Nat} (h : state.IteratesWithin count) (le : count ≤ count') :
    state.IteratesWithin count' :=
  fun id iteration held => Nat.le_trans (h id iteration held) le

/-- No more iterations are completed than there were steps. -/
theorem completed?_le (h : state.IteratesWithin count) {loop : Loop} {completed : Nat}
    (some : state.completed? loop = some completed) : completed ≤ count := by
  rw [State.completed?] at some
  split at some
  · cases some
    exact Nat.zero_le count
  · next iteration held =>
    split at some <;> cases some
    exact h loop.id iteration (Option.join_eq_some_iff.mp held)

/-- The next iteration takes a step. -/
theorem beginIteration (h : state.IteratesWithin count) (loop : Loop) {completed : Nat}
    (le : completed ≤ count) :
    (state.beginIteration loop completed).IteratesWithin (count + 1) := by
  intro id iteration held
  simp only [State.beginIteration, Array.getElem?_setIfInBounds] at held
  split at held
  · split at held <;> cases held
    exact Nat.succ_le_succ le
  · exact Nat.le_succ_of_le (h id iteration held)

theorem leaveLoop (h : state.IteratesWithin count) (loop : Loop) :
    (state.leaveLoop loop).IteratesWithin count := by
  intro id iteration held
  simp only [State.leaveLoop, Array.getElem?_setIfInBounds] at held
  split at held
  · split at held <;> cases held
  · exact h id iteration held

end State.IteratesWithin

section

variable {task : Task} {here node count : Nat} {before state : State}

/-- What the move of a quantifier offers has at most one iteration more. -/
theorem Loop.iterates_of_offers {loop : Loop} {body next : Nat}
    (within : before.IteratesWithin count)
    (h : (loop.move body next before (before.completed? loop)).Offers before node state) :
    state.IteratesWithin (count + 1) := by
  have leave (same : state = before.leaveLoop loop) : state.IteratesWithin (count + 1) :=
    same ▸ (within.leaveLoop loop).mono (Nat.le_succ count)
  rcases completed : before.completed? loop with _ | completed' <;> rw [completed] at h
  · exact h.elim
  have again (same : state = before.beginIteration loop completed') :
      state.IteratesWithin (count + 1) :=
    same ▸ within.beginIteration loop (within.completed?_le completed)
  simp only [move] at h
  split at h
  · exact again h.2
  split at h
  · exact leave h.2
  split at h
  · exact h.elim (fun h => again h.2) fun h => leave h.2
  · exact h.elim (fun h => leave h.2) fun h => again h.2

/-- What a move offers has at most one iteration more. -/
theorem Task.iterates_of_offers (within : before.IteratesWithin count)
    (h : (task.move here before).Offers before node state) : state.IteratesWithin (count + 1) := by
  obtain ⟨-, rfl⟩ | ⟨found, there, -, turns⟩ := task.turns_of_offers h
  · exact within.mono (Nat.le_succ count)
  · by_cases looped : ∃ loop body next, found = .loop loop body next
    · obtain ⟨loop, body, next, rfl⟩ := looped
      rw [task.move_of_getElem? there] at h
      exact Loop.iterates_of_offers within h
    · intro id iteration held
      have same : state.iterations[id]? = before.iterations[id]? :=
        turns.iterations fun loop body next found => absurd ⟨loop, body, next, found⟩ looped
      exact Nat.le_succ_of_le (within id iteration (same ▸ held))

/-- **Every iteration takes a step**: in all states that a walk holds, the iterations in progress
are not more than the steps counted. -/
theorem Task.Counts.iterates {entry pos used : Nat} {walk : Walk}
    (h : task.Counts entry pos used walk count) (held : walk.Holds node state) :
    state.IteratesWithin count := by
  induction h generalizing node state with
  | enter =>
    have start : (State.initial task.graph pos).IteratesWithin (used + 1) := by
      intro id iteration held
      simp only [State.initial, Array.getElem?_replicate] at held
      split at held <;> cases held
    cases held with
    | current => exact start
    | choice mem | outer mem | suspended mem => cases mem
  | step _ _ next ih =>
    rcases held.of_step next with old | offers | ⟨outer, mem, rfl, rfl⟩
    · exact (ih old).mono (Nat.le_succ _)
    · exact task.iterates_of_offers (ih .current) offers
    · -- what a lookahead has captured leaves the iterations as they were
      exact (ih (.outer mem)).mono (Nat.le_succ _)

end

/-! ## Depths -/

/-- Whether a count of what suspended walks hold, and of these walks, comes down to nothing when
they are taken up again, innermost first, and never below. -/
def Suspended.Unwinds : Nat → List Suspended → Prop
  | count, [] => count = 0
  | count, outer :: suspended => outer.choices.length + 1 ≤ count ∧
    Unwinds (count - (outer.choices.length + 1)) suspended

theorem Suspended.unwinds_held (suspended : List Suspended) :
    Unwinds (held suspended) suspended := by
  induction suspended with
  | nil => rfl
  | cons outer suspended ih =>
    rw [held_cons, Unwinds, Nat.add_sub_cancel_left]
    exact ⟨Nat.le_add_right .., ih⟩

/-! ## Expressions -/

namespace Regex

/-- The attempts at a match that are made with an expression in a text, and how many steps the
search has counted when they begin. -/
inductive AttemptsAfter (regex : Regex) (text : String) : Task → Nat → Nat → Nat → Prop where
  /-- in a search, those of each scan -/
  | search {start n resume pos used : Nat}
    (resumes : ((regex.findFrom text start).after n).resume = some resume)
    (tries : (regex.task text).Tries resume 0 pos used) :
    AttemptsAfter regex text (regex.task text) regex.graph.anchored pos used
  /-- for a trace -/
  | trace {start pos : Nat} (mode : Mode) (rounded : Text.roundUp? text start = some pos) :
    AttemptsAfter regex text ⟨regex.graph, text, mode, regex.limits⟩ regex.graph.start pos 0
  /-- at a given position -/
  | matchAt {start pos : Nat} (mode : Mode) (rounded : Text.roundUp? text start = some pos) :
    AttemptsAfter regex text ⟨regex.graph, text, mode, .standard⟩ regex.graph.anchored pos 0

/-- Whether no number leaves the word that is meant for it, for an expression with the graph of a
pattern of so many characters. -/
structure Fits (regex : Regex) (pattern : NumberedPattern) (length : Nat) : Prop where
  /-- the graph is not too large -/
  size : regex.graph.nodes.size ≤ 3 * length + 6
  /-- its numbers fit -/
  words : regex.graph.WordSized
  /-- all that it names is numbered in this way -/
  closed : regex.graph.Closed
  /-- and so are the labels of the pattern -/
  labelled : pattern.tree.Labelled regex.graph.slots
  /-- the quantifier that skips characters has the last number -/
  skips : regex.graph.loops = pattern.loopCount + 1 ∧ ∃ body,
    regex.graph.nodes[regex.graph.start]? =
      some (.loop ⟨pattern.loopCount, 0, none, false, ⟨0, 0⟩⟩ body regex.graph.anchored)
  /-- each attempt begins with the counter somewhere -/
  attempts : ∀ {text task entry pos}, regex.Attempts text task entry pos →
    ∃ used, regex.AttemptsAfter text task entry pos used
  /-- the counter of steps says how many are left, and fits -/
  steps : ∀ {text task entry pos used}, regex.AttemptsAfter text task entry pos used →
    ∀ {walk count}, task.Counts entry pos used walk count →
      task.attempt entry pos (task.limits.steps - used) =
        walkFrom ignore task (task.limits.steps + 1 - count) walk () ∧
      count ≤ task.limits.steps + 1 ∧ (UInt64.ofNat count).toNat = count
  /-- so do the numbers of iterations, with the one in progress -/
  iterations : ∀ {text task entry pos used}, regex.AttemptsAfter text task entry pos used →
    ∀ {walk count}, task.Counts entry pos used walk count → ∀ {node state}, walk.Holds node state →
      ∀ {id : Nat} {iteration : Iteration}, state.iterations[id]? = some (some iteration) →
        iteration.completed + 1 ≤ count ∧
        (UInt64.ofNat (iteration.completed + 1)).toNat = iteration.completed + 1
  /-- what the depth counts beyond the choice points of a walk is not too little -/
  depth : ∀ {text task entry pos used}, regex.AttemptsAfter text task entry pos used →
    ∀ {walk count}, task.Counts entry pos used walk count →
      walk.choices.length ≤ walk.depth ∧
        Suspended.Unwinds (walk.depth - walk.choices.length) walk.suspended

variable {regex : Regex} {text : String} {task : Task} {entry pos used : Nat}

theorem Attempts.exists_after {pattern : NumberedPattern} (graph : regex.graph = .ofPattern pattern)
    (numbered : pattern.tree.Numbered 1 (pattern.groupCount + 1))
    (h : regex.Attempts text task entry pos) :
    ∃ used, regex.AttemptsAfter text task entry pos used := by
  cases h with
  | search scans tried =>
    obtain ⟨resume, resumes, rfl⟩ := Matches.scan?_eq_some scans
    have here := Text.le_size_of_isBoundary (safe_scan graph numbered resumes).1
    have course := (regex.task text).course_scan here
    obtain mem | ⟨used, tries⟩ := course.exists_tries (Nat.add_zero _) pos tried
    · exact absurd mem (Array.not_mem_empty pos)
    · exact ⟨used, .search resumes tries⟩
  | trace mode rounded => exact ⟨0, .trace mode rounded⟩
  | matchAt mode rounded => exact ⟨0, .matchAt mode rounded⟩

/-- An attempt begins within its limit, and a step beyond it can still be counted. -/
theorem AttemptsAfter.le (h : regex.AttemptsAfter text task entry pos used)
    (limits : regex.limits.steps < maxBound) :
    used ≤ task.limits.steps ∧ task.limits.steps < maxBound := by
  cases h with
  | search _ tries => exact ⟨tries.le (Nat.zero_le _), limits⟩
  | trace => exact ⟨Nat.zero_le _, limits⟩
  | matchAt =>
    have standard : Limits.standard.steps < maxBound := by decide
    exact ⟨Nat.zero_le _, standard⟩

/-- **No number leaves its word** in a search with the expression of a pattern that was read, if the
pattern is not too long and the limit for the steps not the largest there is. -/
theorem fits_of_parse {source : String} {pattern : NumberedPattern}
    (parsed : NumberedPattern.parse source = .ok pattern) (short : source.length < 2 ^ 30)
    (graph : regex.graph = .ofPattern pattern) (limits : regex.limits.steps < maxBound) :
    regex.Fits pattern source.length := by
  have numbered := NumberedPattern.numbered_groupCount parsed
  have counted {text : String} {task : Task} {entry pos used : Nat}
      (after : regex.AttemptsAfter text task entry pos used) {walk : Walk} {count : Nat}
      (counts : task.Counts entry pos used walk count) :
      count ≤ task.limits.steps + 1 ∧ count < 2 ^ 64 := by
    obtain ⟨start, room⟩ := after.le limits
    have le := counts.le start
    exact ⟨le, Nat.lt_of_le_of_lt (Nat.le_trans le room) (by decide)⟩
  constructor
  case size => exact graph ▸ Graph.size_le_of_parse parsed
  case words => exact graph ▸ Graph.wordSized_of_parse parsed short
  case closed => exact graph ▸ Graph.closed_of_parse parsed
  case labelled =>
    rw [graph]
    exact numbered.labelled (Nat.succ_pos _)
  case skips =>
    rw [graph]
    exact ⟨Graph.loops_ofPattern parsed, Graph.exists_start parsed⟩
  case attempts => exact fun h => h.exists_after graph numbered
  case steps =>
    intro text task entry pos used after walk count counts
    obtain ⟨le, fits⟩ := counted after counts
    exact ⟨counts.attempt_eq, le, UInt64.toNat_ofNat_of_lt' fits⟩
  case iterations =>
    intro text task entry pos used after walk count counts node state held id iteration begun
    have le := counts.iterates held id iteration begun
    exact ⟨le, UInt64.toNat_ofNat_of_lt' (Nat.lt_of_le_of_lt le (counted after counts).2)⟩
  case depth =>
    intro text task entry pos used after walk count counts
    have depth : walk.depth = walk.choices.length + Suspended.held walk.suspended :=
      counts.reaches.balanced.depth
    rw [depth, Nat.add_sub_cancel_left]
    exact ⟨Nat.le_add_right .., Suspended.unwinds_held walk.suspended⟩

theorem fits_of_parse_loop :
    let pattern : NumberedPattern :=
      ⟨.quantified ⟨1, 2⟩ 0 none true
        (.group ⟨1, 2⟩ .capturing (.choice [.char 'a', .empty])), 1, 1⟩
    let regex : Regex := ⟨.ofPattern pattern, ⟨false, false, false⟩, ⟨100, 10⟩⟩
    NumberedPattern.parse "(a|)*" = .ok pattern ∧ regex.Fits pattern 5 ∧
      regex.graph.nodes.size = 12 ∧ regex.graph.slots = 2 ∧ regex.graph.loops = 2 := by
  intro pattern regex
  have parsed : NumberedPattern.parse "(a|)*" = .ok pattern := rfl
  exact ⟨parsed, fits_of_parse parsed (by decide) rfl (by decide), rfl, rfl, rfl⟩

end Regex

end BacktrackRegex
