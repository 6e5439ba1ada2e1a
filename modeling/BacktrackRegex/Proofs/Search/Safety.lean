import BacktrackRegex.Proofs.Search.Budget
import BacktrackRegex.Proofs.Search.Reuse
import BacktrackRegex.Proofs.Search.Scan

/-!
# Searches are safe

With the expression of a pattern that was read, nothing that a search looks up is missing: neither
the node that a walk visits, nor the slots that this node uses, nor a place between characters where
the text is cut (`Task.Safe.finds`). Each position that a scan tries is such a place
(`Course.safe`), so every walk of every attempt is safe, and each result has an entry for every
group.

An attempt and the body of a lookahead begin with no choice points of their own, and where one of
them fails it has none left (`Walk.bare`). `Regex.safe_of_parse` says all this of an expression.
-/

namespace BacktrackRegex

/-! ## What a visit looks up -/

/-- Whether all that a visit of a node looks up in a state is there: slots that it reads and writes,
ranges of slots that it clears and copies, and the text that a group captured. -/
def Node.Finds (text : String) (state : State) : Node → Prop
  | openGroup slot _ => slot < state.opened.size
  | closeGroup slot _ => slot < state.opened.size ∧ slot < state.captures.size
  | loop quantifier _ _ =>
    quantifier.id < state.iterations.size ∧ quantifier.groups.Within state.captures.size ∧
      quantifier.groups.Within state.opened.size
  | lookahead _ groups _ _ => groups.Within state.captures.size
  | test (.backreference g) _ => ∀ span, state.captures[g]?.join = some span → span.Cuts text
  | _ => True

/-- Whether the node of a walk exists, uses only slots and quantifiers of the graph, and finds in
the state what it looks up. -/
def Walk.Finds (task : Task) (walk : Walk) : Prop :=
  ∃ node, task.graph.nodes[walk.node]? = some node ∧
    node.Uses task.graph.slots task.graph.loops ∧ node.Finds task.text walk.state

variable {task : Task}

/-- All that a visit looks up in a sound state is there. -/
theorem State.Sound.finds {state : State} {graph : Graph} {text : String} {node : Node}
    (sound : state.Sound graph text) (uses : node.Uses graph.slots graph.loops) :
    node.Finds text state := by
  obtain ⟨captures, opened, iterations⟩ := sound.fits
  cases node with
  | openGroup slot next =>
    rw [Node.Finds, opened]
    exact uses
  | closeGroup slot next =>
    rw [Node.Finds, opened, captures]
    exact ⟨uses, uses⟩
  | loop quantifier body next =>
    rw [Node.Finds, iterations, captures, opened]
    exact ⟨uses.1, uses.2, uses.2⟩
  | lookahead negated groups body next =>
    rw [Node.Finds, captures]
    exact uses
  | test condition next =>
    cases condition with
    | backreference g =>
      exact fun span held => sound.captures g span (Option.join_eq_some_iff.mp held)
    | _ => trivial
  | _ => trivial

/-- **A safe walk finds all that it looks up.** -/
theorem Walk.Safe.finds (closed : task.graph.Closed) {walk : Walk} (h : walk.Safe task) :
    walk.Finds task := by
  have found := Array.getElem?_eq_getElem h.current.node
  have uses := (closed.nodes walk.node _ found).uses
  exact ⟨_, found, uses, h.current.state.finds uses⟩

/-! ## Choice points -/

/-- Walks are given up from the inside out, and none of them holds a choice point when it is. -/
inductive Suspended.GivenUp : List ChoicePoint → List Suspended → List Suspended → Prop where
  /-- the walk with these choice points is the one that goes on -/
  | kept {choices suspended} : GivenUp choices suspended suspended
  /-- the walk is given up, and then the one around it may be -/
  | failed {outer suspended after} (h : GivenUp outer.choices suspended after) :
    GivenUp [] (outer :: suspended) after

/-- Whether a step leads out of walks only where they hold no choice points, beginning with a walk
that holds these and has these around it. -/
def Next.Exhausts {σ : Type} (choices : List ChoicePoint) (suspended : List Suspended) :
    Next σ → Prop
  | step after _ => Suspended.GivenUp choices suspended after.suspended
  | finish _ _ => choices = [] ∧ ∀ outer ∈ suspended, outer.choices = []
  | overflow _ => True

/-- Whether what begins or fails at a step, be it a lookahead or the whole attempt, has no choice
points of its own. -/
structure Walk.Bare (task : Task) (walk : Walk) : Prop where
  /-- the body that is entered -/
  begins : ∀ {after}, walk.step ignore task () = .step after () →
    walk.suspended.length < after.suspended.length → after.choices = []
  /-- what is given up where the walk cannot go on -/
  fails : task.move walk.node walk.state = .stop →
    (walk.step ignore task ()).Exhausts walk.choices walk.suspended
  /-- what is given up where the body of a negated lookahead matches -/
  refutes : ∀ {outer suspended}, task.move walk.node walk.state = .goal →
    walk.suspended = outer :: suspended → outer.negated = true →
      (walk.step ignore task ()).Exhausts outer.choices suspended

theorem Suspended.GivenUp.length_le {choices : List ChoicePoint} {suspended after : List Suspended}
    (h : GivenUp choices suspended after) : after.length ≤ suspended.length := by
  induction h with
  | kept => exact Nat.le_refl _
  | failed h ih => exact Nat.le_succ_of_le ih

theorem Walk.backtrack_exhausts {σ : Type} (observe : σ → Event → σ) (task : Task) (log : σ)
    (choices : List ChoicePoint) (depth : Nat) (suspended : List Suspended) :
    (backtrack observe task log choices depth suspended).Exhausts choices suspended := by
  fun_induction backtrack observe task log choices depth suspended with
  | case1 | case2 | case4 => exact .kept
  | case3 => trivial
  | case5 => exact ⟨rfl, List.forall_mem_nil _⟩
  | case6 => exact .failed .kept
  | case7 depth outer suspended positive ih =>
    generalize backtrack observe task _ outer.choices outer.depth suspended = next at ih ⊢
    cases next with
    | step after log => exact .failed ih
    | finish final log => exact ⟨rfl, List.forall_mem_cons.mpr ih⟩
    | overflow log => trivial

/-- To go back never leads into a lookahead. -/
theorem Walk.length_le_of_backtrack {choices : List ChoicePoint} {depth : Nat}
    {suspended : List Suspended} {after : Walk}
    (next : backtrack ignore task () choices depth suspended = .step after ()) :
    after.suspended.length ≤ suspended.length := by
  have exhausts := backtrack_exhausts ignore task () choices depth suspended
  rw [next] at exhausts
  exact exhausts.length_le

/-- A step that leads into a lookahead puts the choice points aside. -/
theorem Walk.choices_eq_nil_of_step {walk after : Walk}
    (next : walk.step ignore task () = .step after ())
    (deeper : walk.suspended.length < after.suspended.length) : after.choices = [] := by
  rw [step_eq_perform] at next
  cases move : task.move walk.node walk.state with
  | goal =>
    rw [move, Move.perform] at next
    split at next
    · cases next
    · next outer suspended around =>
      have outside : after.suspended.length ≤ suspended.length := by
        split at next
        · exact length_le_of_backtrack next
        · cases next
          exact Nat.le_refl _
      rw [around, List.length_cons] at deeper
      omega
  | stop =>
    rw [move, Move.perform] at next
    exact absurd (length_le_of_backtrack next) (Nat.not_le_of_lt deeper)
  | go =>
    rw [move] at next
    cases next
    exact absurd deeper (Nat.lt_irrefl _)
  | fork =>
    rw [move, Move.perform, fork] at next
    split at next <;> cases next
    exact absurd deeper (Nat.lt_irrefl _)
  | look =>
    rw [move] at next
    cases next
    rfl

/-- **Choice points are never given up before they are tried**, but for those of a body that has
matched. -/
theorem Walk.bare (walk : Walk) (task : Task) : walk.Bare task where
  begins := choices_eq_nil_of_step
  fails move := by
    rw [step_eq_perform, move]
    exact backtrack_exhausts ..
  refutes move around negated := by
    rw [step_eq_perform, move, Move.perform, around]
    simp only [if_pos negated]
    exact backtrack_exhausts ..

/-! ## Results -/

/-- Whether a match has an entry for every group, and all that it captured are pieces of the
text. -/
structure Match.Safe (found : Match) (groups : Nat) (text : String) : Prop where
  /-- an entry for each group and for the whole match -/
  size : found.groups.size = groups + 1
  /-- what they captured -/
  pieces : ∀ (g : Nat) (span : Span), found.group? g = some span → span.Cuts text

/-- Whether an outcome has an entry for every group, whether there is a match or not, and all texts
in it are pieces of the text. -/
structure Outcome.Safe (outcome : Outcome) (groups : Nat) (text : String) : Prop where
  /-- an entry for each group and for the whole match -/
  size : outcome.captures.size = groups + 1
  /-- the end of the match -/
  stop : outcome.matched = true → Text.isBoundary text outcome.stop = true
  /-- what they captured -/
  pieces : ∀ (g : Nat) (piece : String), outcome.captures[g]? = some (some piece) →
    ∃ span : Span, span.Cuts text ∧ Text.slice text span = piece

/-- The outcome of a walk that ends in a sound state is safe. -/
theorem Outcome.safe_ofFinal {graph : Graph} {text : String} {final : Option State}
    (slot : 0 < graph.slots) (trace : Option Trace)
    (sound : ∀ state ∈ final, state.Sound graph text) :
    (ofFinal graph text trace final).Safe graph.groupCount text := by
  have slots : graph.slots = graph.groupCount + 1 := (Nat.succ_pred_eq_of_pos slot).symm
  cases final with
  | none =>
    refine ⟨Array.size_replicate.trans slots, nofun, fun g piece held => ?_⟩
    rw [ofFinal, Array.getElem?_replicate] at held
    split at held <;> cases held
  | some final =>
    have sound := sound final rfl
    refine ⟨?_, fun _ => sound.pos, fun g piece held => ?_⟩
    · rw [ofFinal, Array.size_map, sound.fits.captures, slots]
    · simp only [ofFinal, Array.getElem?_map, Option.map_eq_some_iff] at held
      obtain ⟨_, here, span, rfl, rfl⟩ := held
      exact ⟨span, sound.captures g span here, rfl⟩

/-! ## Scans -/

/-- Whether all positions that a scan tries, and the one where the next begins, are boundaries, and
the match is safe, if there is one. -/
structure Scan.Safe (scan : Scan) (task : Task) : Prop where
  /-- the positions that were tried -/
  tried : ∀ pos ∈ scan.tried, Text.isBoundary task.text pos = true
  /-- where to scan next -/
  resume : ∀ pos, scan.resume = some pos → Text.isBoundary task.text pos = true
  /-- what was found -/
  found : ∀ found, scan.result = .ok (some found) → found.Safe task.graph.groupCount task.text

/-- The positions from which a scan looks for the next one to try. -/
inductive Task.LooksFrom (task : Task) (start : Nat) : Nat → Prop where
  /-- where it begins -/
  | start : LooksFrom task start start
  /-- behind the character at a position that was tried -/
  | later {pos found later : Nat} (looks : LooksFrom task start pos)
    (next : task.graph.startPredicate.next? task.text task.mode.fold task.mode.multiline pos =
      some found)
    (after : Text.after? task.text found = some later) : LooksFrom task start later

theorem Task.LooksFrom.isBoundary {start pos : Nat} (h : task.LooksFrom start pos)
    (here : Text.isBoundary task.text start = true) : Text.isBoundary task.text pos = true := by
  cases h with
  | start => exact here
  | later looks next after => exact Text.isBoundary_of_after? after

theorem Task.isBoundary_of_resumeAfter? {pos stop resume : Nat}
    (there : Text.isBoundary task.text stop = true)
    (h : task.resumeAfter? pos stop = some resume) : Text.isBoundary task.text resume = true := by
  rw [resumeAfter?] at h
  split at h
  · exact Text.isBoundary_of_after? h
  · cases h
    exact there

section

variable {pattern : NumberedPattern} (graph : task.graph = .ofPattern pattern)

include graph

theorem Task.isBoundary_of_next? {pos found : Nat}
    (h : task.graph.startPredicate.next? task.text task.mode.fold task.mode.multiline pos =
      some found)
    (here : Text.isBoundary task.text pos = true) : Text.isBoundary task.text found = true := by
  rw [graph] at h
  exact StartPredicate.isBoundary_of_next? h here

variable (numbered : pattern.tree.Numbered 1 (pattern.groupCount + 1))

include numbered

/-- What an attempt finds at a boundary is safe. -/
theorem Task.safe_ofState_of_attempt {pos left : Nat} {final : State}
    (here : Text.isBoundary task.text pos = true)
    (ends : (task.attempt task.graph.anchored pos left).result = .ok (some final)) :
    (Match.ofState pos final).Safe task.graph.groupCount task.text ∧
      Text.isBoundary task.text final.pos = true := by
  have closed : task.graph.Closed := graph ▸ Graph.closed_ofPattern numbered
  have sound := (Walk.safe_enter closed.anchored here).walkFrom closed ends
  obtain ⟨-, point, -⟩ := task.ofState_of_attempt numbered graph ends
  obtain ⟨stop, groups⟩ := Point.mk.inj point
  refine ⟨⟨?_, fun g span held => ?_⟩, sound.pos⟩
  · rw [groups, sound.fits.captures, graph]
    rfl
  · rw [← Match.getElem?_groups, groups] at held
    exact sound.captures g span (Option.join_eq_some_iff.mp held)

/-- A scan that begins at a boundary is safe. -/
theorem Task.Course.safe {pos left : Nat} {tried : Array Nat} {scan : Scan}
    (course : task.Course pos left tried scan) (here : Text.isBoundary task.text pos = true)
    (before : ∀ pos ∈ tried, Text.isBoundary task.text pos = true) : scan.Safe task := by
  have push {tried : Array Nat} {found : Nat}
      (before : ∀ pos ∈ tried, Text.isBoundary task.text pos = true)
      (there : Text.isBoundary task.text found = true) :
      ∀ pos ∈ tried.push found, Text.isBoundary task.text pos = true := by
    intro pos mem
    rcases Array.mem_push.mp mem with mem | rfl
    · exact before pos mem
    · exact there
  induction course with
  | exhausted next => exact ⟨before, nofun, nofun⟩
  | cut next ends | last next ends further =>
    exact ⟨push before (task.isBoundary_of_next? graph next here), nofun, nofun⟩
  | found next ends =>
    have there := task.isBoundary_of_next? graph next here
    obtain ⟨safe, stop⟩ := task.safe_ofState_of_attempt graph numbered there ends
    refine ⟨push before there, fun pos => task.isBoundary_of_resumeAfter? stop,
      fun found same => ?_⟩
    cases same
    exact safe
  | later next ends further more ih =>
    have there := task.isBoundary_of_next? graph next here
    exact ih (Text.isBoundary_of_after? further) (push before there)

end

/-- Where a sequence of matches resumes, the next scan is safe, and so is what it finds. -/
theorem Matches.safe_scan {left : Matches} {pattern : NumberedPattern}
    (graph : left.task.graph = .ofPattern pattern)
    (numbered : pattern.tree.Numbered 1 (pattern.groupCount + 1))
    (here : ∀ pos, left.resume = some pos → Text.isBoundary left.task.text pos = true) (n : Nat) :
    ∀ pos, (left.after n).resume = some pos → Text.isBoundary left.task.text pos = true ∧
      (left.task.scan pos).Safe left.task := by
  have safe {pos : Nat} (boundary : Text.isBoundary left.task.text pos = true) :
      (left.task.scan pos).Safe left.task :=
    (left.task.course_scan (Text.le_size_of_isBoundary boundary)).safe graph numbered boundary nofun
  induction n with
  | zero => exact fun pos held => ⟨here pos held, safe (here pos held)⟩
  | succ n ih =>
    intro pos held
    rw [after, after_eq_mk, next?, scan?] at held
    rcases before : (left.after n).resume with _ | start <;> rw [before] at held
    · cases held
    · have boundary := (ih start before).2.resume pos held
      exact ⟨boundary, safe boundary⟩

/-! ## Expressions -/

namespace Regex

/-- The attempts at a match that are made with an expression in a text: the task, the way in and the
position. -/
inductive Attempts (regex : Regex) (text : String) : Task → Nat → Nat → Prop where
  /-- in a search, one at each position that a scan tries -/
  | search {start n pos : Nat} {scan : Scan} {after : Matches}
    (scans : ((regex.findFrom text start).after n).scan? = some (scan, after))
    (tried : pos ∈ scan.tried) : Attempts regex text (regex.task text) regex.graph.anchored pos
  /-- for a trace, one that skips characters by itself -/
  | trace {start pos : Nat} (mode : Mode) (rounded : Text.roundUp? text start = some pos) :
    Attempts regex text ⟨regex.graph, text, mode, regex.limits⟩ regex.graph.start pos
  /-- one at a given position -/
  | matchAt {start pos : Nat} (mode : Mode) (rounded : Text.roundUp? text start = some pos) :
    Attempts regex text ⟨regex.graph, text, mode, .standard⟩ regex.graph.anchored pos

/-- Whether nothing goes wrong when a text is searched. -/
structure Safe (regex : Regex) (text : String) : Prop where
  /-- all walks are safe, find what they look up, and count what they hold -/
  walks : ∀ {task : Task} {entry pos : Nat}, regex.Attempts text task entry pos →
    ∀ {walk : Walk}, task.Reaches entry pos walk →
      walk.Safe task ∧ walk.Finds task ∧ walk.Balanced 0
  /-- attempts and bodies of lookaheads begin with no choice points, and fail with none -/
  bare : ∀ {task : Task} {entry pos : Nat}, regex.Attempts text task entry pos →
    (Walk.enter task.graph entry pos).choices = [] ∧
      ∀ {walk : Walk}, task.Reaches entry pos walk → walk.Bare task
  /-- a scan only looks for the next position from boundaries -/
  looks : ∀ {start n resume pos : Nat},
    ((regex.findFrom text start).after n).resume = some resume →
      (regex.task text).LooksFrom resume pos → Text.isBoundary text pos = true
  /-- all matches are safe -/
  found : ∀ {start n : Nat} {found : Match},
    (regex.findFrom text start).item? n = some (.ok found) → found.Safe regex.captureCount text
  /-- and so are the outcomes of traces -/
  traced : ∀ {start : Nat} {mode : Mode} {outcome : Outcome},
    regex.trace text start mode = .ok outcome → outcome.Safe regex.captureCount text
  /-- and of attempts at one position -/
  tried : ∀ {start : Nat} {mode : Mode} {outcome : Outcome},
    regex.graph.matchAt text start mode = .ok outcome → outcome.Safe regex.captureCount text

variable {regex : Regex} {text : String} {source : String} {pattern : NumberedPattern}

/-- An attempt at one position that hits no limit comes from an offset beyond the end, or from a
walk that ends. -/
theorem matchAt_eq_ok {graph : Graph} {start : Nat} {mode : Mode} {outcome : Outcome}
    (h : graph.matchAt text start mode = .ok outcome) :
    outcome = .ofFinal graph text none none ∨
    ∃ pos final, Text.roundUp? text start = some pos ∧
      (Task.attempt ⟨graph, text, mode, .standard⟩ graph.anchored pos
        Limits.standard.steps).result = .ok final ∧
      outcome = .ofFinal graph text none final := by
  rw [Graph.matchAt] at h
  split at h
  · cases h
    exact .inl rfl
  · next pos rounded =>
    dsimp only at h
    split at h
    · next final ends =>
      cases h
      exact .inr ⟨pos, final, rounded, ends, rfl⟩
    · cases h

section

variable (graph : regex.graph = .ofPattern pattern)
  (numbered : pattern.tree.Numbered 1 (pattern.groupCount + 1))

include graph numbered

theorem safe_scan {start n pos : Nat}
    (resume : ((regex.findFrom text start).after n).resume = some pos) :
    Text.isBoundary text pos = true ∧ ((regex.task text).scan pos).Safe (regex.task text) :=
  (regex.findFrom text start).safe_scan graph numbered (fun _ => Text.isBoundary_of_roundUp?) n pos
    resume

/-- An attempt begins at a node of the graph and at a boundary of the text. -/
theorem Attempts.inside {task : Task} {entry pos : Nat}
    (h : regex.Attempts text task entry pos) :
    task.graph.Closed ∧ entry < task.graph.nodes.size ∧
      Text.isBoundary task.text pos = true := by
  have closed : regex.graph.Closed := graph ▸ Graph.closed_ofPattern numbered
  cases h with
  | search scans tried =>
    obtain ⟨pos, resume, rfl⟩ := Matches.scan?_eq_some scans
    exact ⟨closed, closed.anchored, (safe_scan graph numbered resume).2.tried _ tried⟩
  | trace mode rounded => exact ⟨closed, closed.start, Text.isBoundary_of_roundUp? rounded⟩
  | matchAt mode rounded => exact ⟨closed, closed.anchored, Text.isBoundary_of_roundUp? rounded⟩

/-- A match that is found is safe. -/
theorem safe_of_item? {start n : Nat} {found : Match}
    (h : (regex.findFrom text start).item? n = some (.ok found)) :
    found.Safe regex.captureCount text := by
  obtain ⟨pos, resume, item, -⟩ := Matches.exists_scan_of_item? h
  exact (safe_scan graph numbered resume).2.found found (Scan.item?_eq_ok.mp item)

end

/-- **Searches are safe** if the expression comes from a pattern that was read. -/
theorem safe_of_parse (parsed : NumberedPattern.parse source = .ok pattern)
    (graph : regex.graph = .ofPattern pattern) (text : String) : regex.Safe text := by
  have numbered := NumberedPattern.numbered_groupCount parsed
  have closed : regex.graph.Closed := graph ▸ Graph.closed_of_parse parsed
  have slot : 0 < regex.graph.slots := by
    rw [graph]
    exact Nat.succ_pos _
  have ends {σ : Type} {observe : σ → Event → σ} {log : σ} {mode : Mode} {limits : Limits}
      {entry start pos left : Nat} {final : Option State} (trace : Option Trace)
      (inside : entry < regex.graph.nodes.size) (rounded : Text.roundUp? text start = some pos)
      (ends : (walkFrom observe ⟨regex.graph, text, mode, limits⟩ left
        (.enter regex.graph entry pos) log).result = .ok final) :
      (Outcome.ofFinal regex.graph text trace final).Safe regex.captureCount text := by
    refine Outcome.safe_ofFinal slot trace fun state held => ?_
    cases held
    have start : (Walk.enter regex.graph entry pos).Safe ⟨regex.graph, text, mode, limits⟩ :=
      Walk.safe_enter inside (Text.isBoundary_of_roundUp? rounded)
    exact start.walkFrom closed ends
  have nothing (trace : Option Trace) :
      (Outcome.ofFinal regex.graph text trace none).Safe regex.captureCount text :=
    Outcome.safe_ofFinal slot trace nofun
  refine ⟨fun attempts walk reaches => ?_, fun _ => ⟨rfl, fun {walk} _ => walk.bare _⟩,
    fun resume looks => ?_, fun item => ?_, fun trace => ?_, fun attempt => ?_⟩
  · obtain ⟨closed, inside, boundary⟩ := attempts.inside graph numbered
    have safe := reaches.safe closed inside boundary
    exact ⟨safe, safe.finds closed, reaches.balanced⟩
  · exact looks.isBoundary (safe_scan graph numbered resume).1
  · exact safe_of_item? graph numbered item
  · obtain ⟨beyond, rfl⟩ | ⟨pos, final, rounded, finished, rfl⟩ := trace_eq_ok trace
    · exact nothing _
    · exact ends _ closed.start rounded finished
  · obtain rfl | ⟨pos, final, rounded, finished, rfl⟩ := matchAt_eq_ok attempt
    · exact nothing _
    · exact ends _ closed.anchored rounded finished

theorem safe_of_parse_unmatched :
    let pattern : NumberedPattern :=
      ⟨.seq [.group ⟨1, 2⟩ .capturing (.char 'é'), .backreference 1], 1, 0⟩
    let regex : Regex := ⟨.ofPattern pattern, ⟨false, false, false⟩, ⟨100, 10⟩⟩
    let outcome : Outcome := ⟨false, 0, #[none, none], none⟩
    NumberedPattern.parse "(é)\\1" = .ok pattern ∧ regex.Safe "xéé" ∧
      regex.graph.matchAt "xéé" 2 ⟨false, false⟩ = .ok outcome ∧
      outcome.captures.size = regex.captureCount + 1 := by
  intro pattern regex outcome
  have parsed : NumberedPattern.parse "(é)\\1" = .ok pattern := rfl
  have safe : regex.Safe "xéé" := safe_of_parse parsed rfl "xéé"
  have tried : regex.graph.matchAt "xéé" 2 ⟨false, false⟩ = .ok outcome := by cbv
  exact ⟨parsed, safe, tried, (safe.tried tried).size⟩

end Regex

end BacktrackRegex
