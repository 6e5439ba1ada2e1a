import BacktrackRegex.Proofs.Search.Items
import BacktrackRegex.Proofs.Search.Shift
import BacktrackRegex.Proofs.Text.LowerCase

/-!
# Searches without regard to case

If a search disregards case, then it does the same in a text and in its lower case, although the two
are compared with the pattern in three different ways: literals and single members of sets by their
canonical forms, ranges and classes by the variants of a character, and backreferences character by
character. Tests of a position even look at the characters as they stand.

All of that happens in the moves of the nodes (`Node.move_toLower`), and steps, walks, scans and
items follow. So two texts that differ in the case of ASCII letters only, which are two texts with
the same lower case, yield the same items (`findFrom_of_toLower_eq`).
-/

namespace BacktrackRegex

variable {σ : Type}

/-! ## Tasks that make the same moves -/

section

variable {task task' : Task} (limits : task.limits = task'.limits)

include limits

/-- To go back is not a matter of the text. -/
theorem Walk.backtrack_congr (observe : σ → Event → σ) (log : σ) (choices : List ChoicePoint)
    (depth : Nat) (suspended : List Suspended) :
    backtrack observe task log choices depth suspended =
      backtrack observe task' log choices depth suspended := by
  fun_induction backtrack observe task log choices depth suspended with
  | case1 | case2 | case5 => rw [backtrack]
  | case3 node first second others state choices depth suspended full =>
    rw [backtrack, ← limits, if_pos full]
  | case4 node first second others state choices depth suspended room =>
    rw [backtrack, ← limits, if_neg room]
  | case6 depth outer suspended negated => rw [backtrack, if_pos negated]
  | case7 depth outer suspended positive ih => rw [backtrack, if_neg positive, ih]

theorem Move.perform_congr (observe : σ → Event → σ) (log : σ) (walk : Walk) (move : Move) :
    move.perform observe task log walk = move.perform observe task' log walk := by
  cases move with
  | goal | stop => simp only [perform, Walk.backtrack_congr limits]
  | fork next state other => simp only [perform, Walk.fork, limits]
  | go next state | look negated groups body next => rfl

variable (moves : ∀ here state, task.move here state = task'.move here state)

include moves

/-- Tasks that make the same moves take the same steps. -/
theorem Walk.step_congr (observe : σ → Event → σ) (walk : Walk) (log : σ) :
    walk.step observe task log = walk.step observe task' log := by
  rw [step_eq_perform, step_eq_perform, moves, Move.perform_congr limits]

/-- And they walk alike. -/
theorem walkFrom_congr (observe : σ → Event → σ) (left : Nat) (walk : Walk) (log : σ) :
    walkFrom observe task left walk log = walkFrom observe task' left walk log := by
  induction left generalizing walk log with
  | zero => rfl
  | succ left ih =>
    rw [walkFrom_succ, walkFrom_succ, Walk.step_congr limits moves]
    rcases walk.step observe task' log with ⟨walk, log⟩ | _ | _
    · exact ih walk log
    · rfl
    · rfl

end

/-! ## The search in lower case -/

/-- With folding, a node does in the lower case of a text what it does in the text. -/
theorem Node.move_toLower {mode : Mode} (fold : mode.fold = true) (text : String) (here : Nat)
    (state : State) (node : Node) :
    node.move text.toLower mode here state = node.move text mode here state := by
  cases node with
  | char c next =>
    rw [move, move, fold, Text.afterChar?_toLower _ _ fun d => Text.sameLetter_toLower d c]
  | set negated items next =>
    rw [move, move, fold, Text.afterChar?_toLower _ _ fun d => accepts_toLower negated items d]
  | choice alternatives =>
    rcases alternatives with _ | ⟨_, _ | ⟨_, _⟩⟩ <;> rfl
  | test condition next => rw [move, move, Test.after?_toLower fold]
  | _ => rfl

/-- Where a match may begin is not a matter of the characters if case is disregarded. -/
theorem StartPredicate.next?_fold (start : StartPredicate) (text text' : String)
    (multiline : Bool) (pos : Nat) :
    start.next? text true multiline pos = start.next? text' true multiline pos := by
  cases start <;> rfl

namespace Task

variable {task : Task} (fold : task.mode.fold = true)

/-- The search in the lower case of the text. -/
def lowered (task : Task) : Task :=
  task.on task.text.toLower

include fold

theorem move_lowered (here : Nat) (state : State) :
    task.lowered.move here state = task.move here state := by
  rw [move, move, lowered, on]
  rcases task.graph.nodes[here]? with _ | node
  · rfl
  · exact node.move_toLower fold ..

theorem attempt_lowered (entry pos left : Nat) :
    task.lowered.attempt entry pos left = task.attempt entry pos left := by
  have limits : task.lowered.limits = task.limits := rfl
  exact walkFrom_congr limits (move_lowered fold) ..

theorem scanWithin_lowered (n pos left : Nat) (tried : Array Nat) :
    task.lowered.scanWithin n pos left tried = task.scanWithin n pos left tried := by
  induction n generalizing pos left tried with
  | zero => rfl
  | succ n ih =>
    have next : task.lowered.graph.startPredicate.next? task.lowered.text task.lowered.mode.fold
        task.lowered.mode.multiline pos = task.graph.startPredicate.next? task.text task.mode.fold
          task.mode.multiline pos := by
      rw [fold, lowered, on, fold]
      exact StartPredicate.next?_fold ..
    have after (pos : Nat) : Text.after? task.lowered.text pos = Text.after? task.text pos :=
      Text.after?_toLower ..
    have resume (start stop : Nat) :
        task.lowered.resumeAfter? start stop = task.resumeAfter? start stop := by
      rw [resumeAfter?, resumeAfter?, after]
    simp only [scanWithin, next, attempt_lowered fold, after, resume, ih]
    rfl

theorem scan_lowered (pos : Nat) : task.lowered.scan pos = task.scan pos := by
  have size : task.lowered.text.utf8ByteSize = task.text.utf8ByteSize :=
    Text.utf8ByteSize_toLower ..
  rw [scan, scan, size, scanWithin_lowered fold]
  rfl

end Task

namespace Matches

variable {task : Task} (fold : task.mode.fold = true)

include fold

theorem next?_lowered (resume : Option Nat) :
    (⟨task.lowered, resume⟩ : Matches).next? =
      ((⟨task, resume⟩ : Matches).next?.1,
        ⟨task.lowered, (⟨task, resume⟩ : Matches).next?.2.resume⟩) := by
  rcases resume with _ | pos
  · rfl
  · simp only [next?, scan?, Option.map_some, Task.scan_lowered fold]

theorem after_lowered (resume : Option Nat) (n : Nat) :
    (⟨task.lowered, resume⟩ : Matches).after n =
      ⟨task.lowered, ((⟨task, resume⟩ : Matches).after n).resume⟩ := by
  induction n with
  | zero => rfl
  | succ n ih => rw [after, ih, next?_lowered fold, after, after_eq_mk ⟨task, resume⟩ n]

theorem item?_lowered (resume : Option Nat) (n : Nat) :
    (⟨task.lowered, resume⟩ : Matches).item? n = (⟨task, resume⟩ : Matches).item? n := by
  rw [item?, after_lowered fold, next?_lowered fold, item?, after_eq_mk ⟨task, resume⟩ n]

end Matches

/-- If case is disregarded, the lower case of a text yields the items of the text. -/
theorem Regex.item?_toLower {regex : Regex} (fold : regex.flags.ignoreCase = true) (text : String)
    (start n : Nat) :
    (regex.findFrom text.toLower start).item? n = (regex.findFrom text start).item? n := by
  rw [findFrom, Matches.start, task, Text.roundUp?_toLower]
  exact @Matches.item?_lowered (regex.task text) fold _ n

/-- **The case of ASCII letters does not matter if case is disregarded.** Two texts that differ in
nothing else yield the same items from every offset on: the same matches with the same groups, or
the same limit. -/
theorem Regex.findFrom_of_toLower_eq {regex : Regex} (fold : regex.flags.ignoreCase = true)
    {text text' : String} (same : text.toLower = text'.toLower) (start n : Nat) :
    (regex.findFrom text start).item? n = (regex.findFrom text' start).item? n := by
  rw [← item?_toLower fold, same, item?_toLower fold]

theorem Regex.findFrom_of_toLower_eq_backreference :
    let pattern : NumberedPattern := ⟨.seq [.group ⟨1, 2⟩ .capturing (.set false [.range 'A' 'C']),
      .backreference 1, .set true [.named .digits true, .single 'ß']], 1, 0⟩
    let regex : Regex := ⟨.ofPattern pattern, ⟨true, false, false⟩, ⟨100, 10⟩⟩
    NumberedPattern.parse "([A-C])\\1[^\\dß]" = .ok pattern ∧
      regex.flags.ignoreCase = true ∧ "xbBKé".toLower = "XBbké".toLower ∧
      (regex.findFrom "xbBKé" 1).item? 0 = some (.ok ⟨⟨1, 4⟩, #[some ⟨1, 2⟩]⟩) ∧
      (regex.findFrom "XBbké" 1).item? 0 = some (.ok ⟨⟨1, 4⟩, #[some ⟨1, 2⟩]⟩) := by
  intro pattern regex
  have fold : regex.flags.ignoreCase = true := rfl
  have same : "xbBKé".toLower = "XBbké".toLower := by
    rw [← String.toList_inj, Text.toList_toLower, Text.toList_toLower]
    rfl
  have item : (regex.findFrom "xbBKé" 1).item? 0 = some (.ok ⟨⟨1, 4⟩, #[some ⟨1, 2⟩]⟩) := by cbv
  have items := findFrom_of_toLower_eq fold same 1 0
  exact ⟨rfl, fold, same, item, items ▸ item⟩

end BacktrackRegex
