import BacktrackRegex.Proofs.Search.Course
import BacktrackRegex.Proofs.Search.Items
import BacktrackRegex.Proofs.Search.Move
import BacktrackRegex.Proofs.Text.Behind
import BacktrackRegex.Regex

/-!
# Searches behind a front

A search that begins behind the first characters of a text never comes back to them, and all that it
keeps are offsets. So behind a front of any length it does the same, with all offsets that much
further: `shift` moves them, in a state, a walk, a move and so on up to a match.

That a search sees nothing of the front but its last character is said at each level in the same
way: there is one thing, whatever the front, which gives the result when it is shifted by the width
of the front. The levels are a node (`Node.exists_move_shift`), a step (`Walk.exists_step_shift`), a
walk (`exists_walkFrom_shift`), a scan (`Task.exists_scan_shift`) and the items of a search
(`findFrom_push_append`).
-/

namespace BacktrackRegex

/-! ## Shifting -/

namespace State

/-- The state with all offsets so many bytes further. -/
def shift (offset : Nat) (state : State) : State where
  pos := offset + state.pos
  captures := state.captures.map (·.map (Span.shift offset))
  opened := state.opened.map (·.map (offset + ·))
  iterations := state.iterations.map (·.map fun iteration =>
    { iteration with entry := offset + iteration.entry })

end State

/-- The choice point with all offsets so many bytes further. -/
def ChoicePoint.shift (offset : Nat) : ChoicePoint → ChoicePoint
  | resume node state => resume node (state.shift offset)
  | alternatives node first others state => alternatives node first others (state.shift offset)

/-- The suspended walk with all offsets so many bytes further. -/
def Suspended.shift (offset : Nat) (outer : Suspended) : Suspended :=
  { outer with
    state := outer.state.shift offset
    choices := outer.choices.map (ChoicePoint.shift offset) }

/-- The walk with all offsets so many bytes further. -/
def Walk.shift (offset : Nat) (walk : Walk) : Walk :=
  { walk with
    state := walk.state.shift offset
    choices := walk.choices.map (ChoicePoint.shift offset)
    suspended := walk.suspended.map (Suspended.shift offset) }

/-- The move with all offsets so many bytes further. -/
def Move.shift (offset : Nat) : Move → Move
  | goal => goal
  | stop => stop
  | go next state => go next (state.shift offset)
  | fork next state other => fork next (state.shift offset) (other.shift offset)
  | look negated groups body next => look negated groups body next

/-- What a step leads to, with all offsets so many bytes further. -/
def Next.shift (offset : Nat) : Next Unit → Next Unit
  | step walk _ => step (walk.shift offset) ()
  | finish final _ => finish (final.map (State.shift offset)) ()
  | overflow _ => overflow ()

/-- The ending with all offsets so many bytes further. -/
def Ending.shift (offset : Nat) (ending : Ending Unit) : Ending Unit :=
  { ending with result := ending.result.map (·.map (State.shift offset)) }

/-- The match with all offsets so many bytes further. -/
def Match.shift (offset : Nat) (found : Match) : Match :=
  ⟨found.span.shift offset, found.captures.map (·.map (Span.shift offset))⟩

/-- The scan with all offsets so many bytes further. -/
def Scan.shift (offset : Nat) (scan : Scan) : Scan where
  result := scan.result.map (·.map (Match.shift offset))
  resume := scan.resume.map (offset + ·)
  tried := scan.tried.map (offset + ·)

/-! ## What is done to a state

Whatever is done to a state can be done before it is shifted. -/

theorem GroupRange.clear_map {β γ : Type} (f : β → γ) (groups : GroupRange)
    (slots : Array (Option β)) :
    groups.clear (slots.map (·.map f)) = (groups.clear slots).map (·.map f) := by
  refine Array.ext_getElem? fun g => ?_
  simp only [getElem?_clear, Array.getElem?_map, Array.size_map]
  split <;> rfl

theorem GroupRange.copy_map {β γ : Type} (f : β → γ) (groups : GroupRange)
    (source slots : Array (Option β)) :
    groups.copy (source.map (·.map f)) (slots.map (·.map f)) =
      (groups.copy source slots).map (·.map f) := by
  refine Array.ext_getElem? fun g => ?_
  simp only [getElem?_copy, Array.getElem?_map, Array.size_map]
  split
  · rw [Option.map_some, Option.join_map_eq_map_join]
  · rfl

namespace State

variable (offset : Nat) (state : State)

theorem openGroup_shift (slot : Nat) :
    (state.shift offset).openGroup slot = (state.openGroup slot).shift offset := by
  simp [openGroup, shift, Array.map_setIfInBounds]

theorem closeGroup_shift (slot : Nat) :
    (state.shift offset).closeGroup slot = (state.closeGroup slot).shift offset := by
  have opened : (state.shift offset).opened[slot]?.join =
      state.opened[slot]?.join.map (offset + ·) := by
    rw [shift, Array.getElem?_map, Option.join_map_eq_map_join]
  rw [closeGroup, closeGroup, opened]
  rcases state.opened[slot]?.join with _ | start
  · rfl
  · simp [shift, Array.map_setIfInBounds, Span.shift]

theorem beginIteration_shift (loop : Loop) (completed : Nat) :
    (state.shift offset).beginIteration loop completed =
      (state.beginIteration loop completed).shift offset := by
  simp [beginIteration, shift, Array.map_setIfInBounds, GroupRange.clear_map]

theorem leaveLoop_shift (loop : Loop) :
    (state.shift offset).leaveLoop loop = (state.leaveLoop loop).shift offset := by
  simp [leaveLoop, shift, Array.map_setIfInBounds]

theorem adopt_shift (inner : State) (groups : GroupRange) :
    (state.shift offset).adopt (inner.shift offset) groups =
      (state.adopt inner groups).shift offset := by
  simp [adopt, shift, GroupRange.copy_map]

theorem completed?_shift (loop : Loop) :
    (state.shift offset).completed? loop = state.completed? loop := by
  have iterations : (state.shift offset).iterations[loop.id]?.join =
      state.iterations[loop.id]?.join.map fun iteration =>
        { iteration with entry := offset + iteration.entry } := by
    rw [shift, Array.getElem?_map, Option.join_map_eq_map_join]
  rw [completed?, completed?, iterations]
  rcases state.iterations[loop.id]?.join with _ | iteration
  · rfl
  · have same : (offset + state.pos == offset + iteration.entry) =
        (state.pos == iteration.entry) := by
      rw [Bool.eq_iff_iff, beq_iff_eq, beq_iff_eq]
      omega
    simp only [Option.map_some, shift, same]

theorem initial_shift (graph : Graph) (pos : Nat) :
    initial graph (offset + pos) = (initial graph pos).shift offset := by
  simp [initial, shift]

end State

/-! ## Moves and steps -/

theorem Move.advance_shift (offset next : Nat) (state : State) (pos? : Option Nat) :
    advance next (state.shift offset) (pos?.map (offset + ·)) =
      (advance next state pos?).shift offset := by
  cases pos? <;> rfl

theorem Loop.move_shift (loop : Loop) (body next offset : Nat) (state : State)
    (completed? : Option Nat) :
    loop.move body next (state.shift offset) completed? =
      (loop.move body next state completed?).shift offset := by
  cases completed? with
  | none => rfl
  | some completed =>
    simp only [move, State.beginIteration_shift, State.leaveLoop_shift]
    split
    · rfl
    split
    · rfl
    split <;> rfl

variable {σ : Type} {task task' : Task} (offset : Nat)

theorem Walk.backtrack_shift (same : task.limits = task'.limits) (choices : List ChoicePoint)
    (depth : Nat) (suspended : List Suspended) :
    backtrack ignore task () (choices.map (ChoicePoint.shift offset)) depth
        (suspended.map (Suspended.shift offset)) =
      (backtrack ignore task' () choices depth suspended).shift offset := by
  fun_induction backtrack ignore task' () choices depth suspended with
  | case1 | case2 =>
    simp only [List.map_cons, ChoicePoint.shift, backtrack]
    rfl
  | case5 => rfl
  | case3 node first second others state choices depth suspended full =>
    simp only [List.map_cons, ChoicePoint.shift, backtrack]
    rw [same, if_pos full]
    rfl
  | case4 node first second others state choices depth suspended room =>
    simp only [List.map_cons, ChoicePoint.shift, backtrack]
    rw [same, if_neg room]
    rfl
  | case6 depth outer suspended negated =>
    simp only [List.map_nil, List.map_cons, backtrack, Suspended.shift]
    rw [if_pos negated]
    rfl
  | case7 depth outer suspended positive ih =>
    simp only [List.map_nil, List.map_cons, backtrack, Suspended.shift]
    rw [if_neg positive]
    exact ih

/-- To make a move that is shifted, from a walk that is, leads as much further. -/
theorem Move.perform_shift (same : task.limits = task'.limits) (move : Move) (walk : Walk) :
    (move.shift offset).perform ignore task () (walk.shift offset) =
      (move.perform ignore task' () walk).shift offset := by
  obtain ⟨node, state, choices, depth, suspended⟩ := walk
  cases move with
  | goal =>
    cases suspended with
    | nil => rfl
    | cons outer suspended =>
      simp only [shift, Walk.shift, List.map_cons, perform, Suspended.shift, State.adopt_shift]
      split
      · exact Walk.backtrack_shift offset same ..
      · rfl
  | stop => exact Walk.backtrack_shift offset same ..
  | go next after => rfl
  | fork next after other =>
    simp only [shift, Walk.shift, perform, Walk.fork, same]
    split <;> rfl
  | look negated groups body next => rfl

section

variable (c : Char) (rest : String)

/-- What a node does in a state does not depend on the characters before `c`. -/
theorem Node.exists_move_shift (mode : Mode) (here : Nat) (state : State) (node : Node) :
    ∃ move : Move, ∀ front : String,
      node.move (front.push c ++ rest) mode here (state.shift (front.push c).utf8ByteSize) =
        move.shift (front.push c).utf8ByteSize := by
  have read (passes : Char → Bool) (next : Nat) : ∃ move : Move, ∀ front : String,
      Move.advance next (state.shift (front.push c).utf8ByteSize)
          (Text.afterChar? (front.push c ++ rest) passes
            ((front.push c).utf8ByteSize + state.pos)) =
        move.shift (front.push c).utf8ByteSize := by
    refine ⟨.advance next state (Text.afterChar? rest passes state.pos), fun front => ?_⟩
    rw [Text.afterChar?_append, Move.advance_shift]
  cases node with
  | goal => exact ⟨.goal, fun front => rfl⟩
  | pass next | join next => exact ⟨.go next state, fun front => rfl⟩
  | char d next | set negated items next => exact read _ next
  | choice alternatives =>
    match alternatives with
    | [] => exact ⟨.stop, fun front => rfl⟩
    | [only] => exact ⟨.go only state, fun front => rfl⟩
    | first :: second :: others =>
      exact ⟨.fork first state (.alternatives here second others state), fun front => rfl⟩
  | openGroup slot next =>
    refine ⟨.go next (state.openGroup slot), fun front => ?_⟩
    rw [move, State.openGroup_shift]
    rfl
  | closeGroup slot next =>
    refine ⟨.go next (state.closeGroup slot), fun front => ?_⟩
    rw [move, State.closeGroup_shift]
    rfl
  | loop quantifier body next =>
    refine ⟨quantifier.move body next state (state.completed? quantifier), fun front => ?_⟩
    rw [move, State.completed?_shift, Loop.move_shift]
  | lookahead negated groups body next =>
    exact ⟨.look negated groups body next, fun front => rfl⟩
  | test condition next =>
    obtain ⟨next?, passed⟩ :=
      condition.exists_after?_push_append rest c mode state.pos state.captures
    refine ⟨.advance next state next?, fun front => ?_⟩
    rw [← Move.advance_shift, ← passed]
    rfl

end

/-- The same search in another text. -/
def Task.on (task : Task) (text : String) : Task :=
  { task with text }

section

variable (task : Task) (c : Char) (rest : String)

/-- **A step sees nothing before `c`.** -/
theorem Walk.exists_step_shift (walk : Walk) :
    ∃ next : Next Unit, ∀ front : String,
      (walk.shift (front.push c).utf8ByteSize).step ignore (task.on (front.push c ++ rest)) () =
        next.shift (front.push c).utf8ByteSize := by
  have moved : ∃ move : Move, ∀ front : String,
      (task.on (front.push c ++ rest)).move walk.node
          (walk.state.shift (front.push c).utf8ByteSize) =
        move.shift (front.push c).utf8ByteSize := by
    rcases found : task.graph.nodes[walk.node]? with _ | node
    · refine ⟨.stop, fun front => ?_⟩
      rw [Task.move, Task.on, found]
      rfl
    · obtain ⟨move, same⟩ := node.exists_move_shift c rest task.mode walk.node walk.state
      refine ⟨move, fun front => ?_⟩
      rw [Task.move, Task.on, found]
      exact same front
  obtain ⟨move, same⟩ := moved
  refine ⟨move.perform ignore task () walk, fun front => ?_⟩
  have limits : (task.on (front.push c ++ rest)).limits = task.limits := rfl
  rw [step_eq_perform]
  exact (congrArg (Move.perform ignore _ () _) (same front)).trans
    (Move.perform_shift _ limits move walk)

/-- **A whole walk sees nothing before `c`.** -/
theorem exists_walkFrom_shift (left : Nat) (walk : Walk) :
    ∃ ending : Ending Unit, ∀ front : String,
      walkFrom ignore (task.on (front.push c ++ rest)) left
          (walk.shift (front.push c).utf8ByteSize) () =
        ending.shift (front.push c).utf8ByteSize := by
  induction left generalizing walk with
  | zero => exact ⟨⟨.error .steps, 0, ()⟩, fun front => rfl⟩
  | succ left ih =>
    obtain ⟨next, same⟩ := walk.exists_step_shift task c rest
    cases next with
    | step after log =>
      obtain ⟨ending, ends⟩ := ih after
      refine ⟨ending, fun front => ?_⟩
      rw [walkFrom_succ, same]
      exact ends front
    | finish final log =>
      refine ⟨⟨.ok final, left, ()⟩, fun front => ?_⟩
      rw [walkFrom_succ, same]
      rfl
    | overflow log =>
      refine ⟨⟨.error .depth, left, ()⟩, fun front => ?_⟩
      rw [walkFrom_succ, same]
      rfl

theorem Task.exists_attempt_shift (entry pos left : Nat) :
    ∃ ending : Ending Unit, ∀ front : String,
      (task.on (front.push c ++ rest)).attempt entry ((front.push c).utf8ByteSize + pos) left =
        ending.shift (front.push c).utf8ByteSize := by
  obtain ⟨ending, ends⟩ := exists_walkFrom_shift task c rest left (.enter task.graph entry pos)
  refine ⟨ending, fun front => ?_⟩
  rw [← ends, attempt, Walk.enter, State.initial_shift]
  rfl

/-! ## Scans -/

theorem Match.ofState_shift (offset start : Nat) (state : State) :
    ofState (offset + start) (state.shift offset) = (ofState start state).shift offset := by
  have whole : (state.shift offset).captures[0]?.join =
      state.captures[0]?.join.map (Span.shift offset) := by
    rw [State.shift, Array.getElem?_map, Option.join_map_eq_map_join]
  have others : (state.shift offset).captures.extract 1 (state.shift offset).captures.size =
      (state.captures.extract 1 state.captures.size).map (·.map (Span.shift offset)) := by
    simp [State.shift]
  rw [ofState, whole, others, ofState, shift]
  rcases state.captures[0]?.join with _ | span <;> rfl

theorem Task.resumeAfter?_append (front : String) (start stop : Nat) :
    (task.on (front ++ rest)).resumeAfter? (front.utf8ByteSize + start)
        (front.utf8ByteSize + stop) =
      ((task.on rest).resumeAfter? start stop).map (front.utf8ByteSize + ·) := by
  simp only [resumeAfter?, Nat.add_left_cancel_iff]
  split
  · exact Text.after?_append ..
  · rfl

/-- **A scan sees nothing before `c`.** -/
theorem Task.exists_course_shift {n pos : Nat} (here : pos ≤ rest.utf8ByteSize)
    (room : rest.utf8ByteSize + 1 - pos ≤ n) (left : Nat) (tried : Array Nat) :
    ∃ scan : Scan, ∀ front : String,
      (task.on (front.push c ++ rest)).Course ((front.push c).utf8ByteSize + pos) left
        (tried.map ((front.push c).utf8ByteSize + ·)) (scan.shift (front.push c).utf8ByteSize) := by
  induction n generalizing pos left tried with
  | zero => omega
  | succ n ih =>
    obtain ⟨next?, next⟩ :=
      task.graph.startPredicate.exists_next?_push_append rest c task.mode pos
    cases next? with
    | none => exact ⟨⟨.ok none, none, tried⟩, fun front => .exhausted (next front)⟩
    | some found =>
      obtain ⟨⟨result, after, log⟩, ends⟩ :=
        task.exists_attempt_shift c rest task.graph.anchored found left
      have ended (front : String) := congrArg Ending.result (ends front)
      have behind (front : String) := Text.after?_append (front.push c) rest found
      have pushed (offset : Nat) : (tried.push found).map (offset + ·) =
          (tried.map (offset + ·)).push (offset + found) := Array.map_push
      rcases result with limit | _ | final
      · refine ⟨⟨.error limit, none, tried.push found⟩, fun front => ?_⟩
        rw [Scan.shift, pushed]
        exact .cut (next front) (ended front)
      · rcases later : Text.after? rest found with _ | pos'
        · refine ⟨⟨.ok none, none, tried.push found⟩, fun front => ?_⟩
          rw [Scan.shift, pushed]
          exact .last (next front) (ended front) ((behind front).trans (congrArg _ later))
        · have ahead : pos ≤ found := by
            exact Nat.le_of_add_le_add_left (StartPredicate.le_of_next? (next ""))
          have moved := Text.lt_of_afterChar? later
          obtain ⟨scan, courses⟩ := ih (Text.le_size_of_afterChar? later) (by omega) after
            (tried.push found)
          refine ⟨scan, fun front => .later (next front) (ended front)
            ((behind front).trans (congrArg _ later)) ?_⟩
          have left' := congrArg Ending.left (ends front)
          have course := courses front
          rw [pushed] at course
          exact left' ▸ course
      · refine ⟨⟨.ok (some (.ofState found final)),
          (task.on rest).resumeAfter? found final.pos, tried.push found⟩, fun front => ?_⟩
        have resume := task.resumeAfter?_append rest (front.push c) found final.pos
        rw [Scan.shift, pushed, ← resume]
        simp only [Except.map, Option.map_some, ← Match.ofState_shift]
        exact .found (next front) (ended front)

/-- The scan of a text behind `c` finds the same, so much further, whatever is before `c`. -/
theorem Task.exists_scan_shift (pos : Nat) :
    ∃ scan : Scan, ∀ front : String,
      (task.on (front.push c ++ rest)).scan ((front.push c).utf8ByteSize + pos) =
        scan.shift (front.push c).utf8ByteSize := by
  have size (front : String) : (task.on (front.push c ++ rest)).text.utf8ByteSize =
      (front.push c).utf8ByteSize + rest.utf8ByteSize := by
    rw [on, String.utf8ByteSize_append]
  by_cases here : pos ≤ rest.utf8ByteSize
  · obtain ⟨scan, courses⟩ :=
      task.exists_course_shift c rest here (Nat.le_refl _) task.limits.steps #[]
    refine ⟨scan, fun front => ?_⟩
    have course := courses front
    rw [Array.map_empty] at course
    exact course.scan_eq (by rw [size]; omega)
  · refine ⟨⟨.ok none, none, #[]⟩, fun front => ?_⟩
    have room : (front.push c).utf8ByteSize + rest.utf8ByteSize + 1 -
        ((front.push c).utf8ByteSize + pos) = 0 := by omega
    rw [scan, size, room, Scan.shift, Array.map_empty]
    rfl

/-! ## Items -/

namespace Matches

/-- What is left behind `c`, in a text with a front before it. -/
def behind (resume? : Option Nat) (front : String) : Matches where
  task := task.on (front.push c ++ rest)
  resume := resume?.map ((front.push c).utf8ByteSize + ·)

theorem exists_next?_shift (resume? : Option Nat) :
    ∃ (item? : Option (Except Limit Match)) (after? : Option Nat), ∀ front : String,
      (behind task c rest resume? front).next? =
        (item?.map (·.map (Match.shift (front.push c).utf8ByteSize)),
          behind task c rest after? front) := by
  cases resume? with
  | none => exact ⟨none, none, fun front => rfl⟩
  | some pos =>
    obtain ⟨scan, same⟩ := task.exists_scan_shift c rest pos
    refine ⟨scan.item?, scan.resume, fun front => ?_⟩
    rw [behind, next?, scan?, Option.map_some, Option.map_some, same]
    refine Prod.ext ?_ rfl
    obtain ⟨limit | _ | found, resume, tried⟩ := scan <;> rfl

theorem exists_after_shift (resume? : Option Nat) (n : Nat) :
    ∃ after? : Option Nat, ∀ front : String,
      (behind task c rest resume? front).after n = behind task c rest after? front := by
  induction n with
  | zero => exact ⟨resume?, fun front => rfl⟩
  | succ n ih =>
    obtain ⟨before?, same⟩ := ih
    obtain ⟨item?, after?, next⟩ := exists_next?_shift task c rest before?
    refine ⟨after?, fun front => ?_⟩
    rw [after, same, next]

theorem exists_item?_shift (resume? : Option Nat) (n : Nat) :
    ∃ item? : Option (Except Limit Match), ∀ front : String,
      (behind task c rest resume? front).item? n =
        item?.map (·.map (Match.shift (front.push c).utf8ByteSize)) := by
  obtain ⟨before?, same⟩ := exists_after_shift task c rest resume? n
  obtain ⟨item?, after?, next⟩ := exists_next?_shift task c rest before?
  refine ⟨item?, fun front => ?_⟩
  rw [Matches.item?, same, next]

end Matches

end

theorem Span.shift_shift (m n : Nat) (span : Span) :
    (span.shift n).shift m = span.shift (m + n) := by
  simp [shift, Nat.add_assoc]

theorem Match.shift_shift (m n : Nat) (found : Match) :
    (found.shift n).shift m = found.shift (m + n) := by
  simp [shift, Span.shift_shift, Function.comp_def]

/-- **A search sees nothing to its left but one character.** In two texts with the same character
before the start of the search, and the same characters after it, all items are the same, further on
where the text before the start is longer, by as much as it is longer. -/
theorem Regex.findFrom_push_append (regex : Regex) (c : Char) (rest front front' : String)
    (n : Nat) :
    ((regex.findFrom (front.push c ++ rest) (front.push c).utf8ByteSize).item? n).map
        (·.map (Match.shift (front'.utf8ByteSize - front.utf8ByteSize))) =
      ((regex.findFrom (front'.push c ++ rest) (front'.push c).utf8ByteSize).item? n).map
        (·.map (Match.shift (front.utf8ByteSize - front'.utf8ByteSize))) := by
  obtain ⟨item?, same⟩ := Matches.exists_item?_shift (regex.task rest) c rest (some 0) n
  have item (front : String) :
      (regex.findFrom (front.push c ++ rest) (front.push c).utf8ByteSize).item? n =
        item?.map (·.map (Match.shift (front.push c).utf8ByteSize)) := by
    rw [← same, findFrom, Matches.start, task, Text.roundUp?_append]
    rfl
  have sum : front'.utf8ByteSize - front.utf8ByteSize + (front.push c).utf8ByteSize =
      front.utf8ByteSize - front'.utf8ByteSize + (front'.push c).utf8ByteSize := by
    rw [String.utf8ByteSize_push, String.utf8ByteSize_push]
    omega
  rw [item, item]
  rcases item? with _ | limit | found
  · rfl
  · rfl
  · simp only [Option.map_some, Except.map, Match.shift_shift, sum]

end BacktrackRegex
