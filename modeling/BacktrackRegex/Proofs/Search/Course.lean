import BacktrackRegex.Proofs.Text.Position
import BacktrackRegex.Search.Scan

/-!
# The course of a scan

A scan is a loop over positions: the next one that passes the start predicate, an attempt there, and
if that fails the character behind it. `Task.Course` is the same as a derivation, with a rule for
each way in which a round of the loop can end, and without the bound on the positions that remain.
So a fact about scans is an induction with a case for each rule.

`course_scanWithin` and `Course.scanWithin_eq` say that a scan has a course and only one.
-/

namespace BacktrackRegex

/-- How a scan goes on from a position, with a number of steps left and some positions tried. -/
inductive Task.Course (task : Task) : Nat → Nat → Array Nat → Scan → Prop where
  /-- no position passes -/
  | exhausted {pos left tried}
    (h : task.graph.startPredicate.next? task.text task.mode.fold task.mode.multiline pos = none) :
    Course task pos left tried ⟨.ok none, none, tried⟩
  /-- the attempt at the next one hits a limit -/
  | cut {pos left tried found limit}
    (h : task.graph.startPredicate.next? task.text task.mode.fold task.mode.multiline pos =
      some found)
    (ends : (task.attempt task.graph.anchored found left).result = .error limit) :
    Course task pos left tried ⟨.error limit, none, tried.push found⟩
  /-- it succeeds -/
  | found {pos left tried found final}
    (h : task.graph.startPredicate.next? task.text task.mode.fold task.mode.multiline pos =
      some found)
    (ends : (task.attempt task.graph.anchored found left).result = .ok (some final)) :
    Course task pos left tried
      ⟨.ok (some (.ofState found final)), task.resumeAfter? found final.pos, tried.push found⟩
  /-- it fails, and there is no character behind it -/
  | last {pos left tried found}
    (h : task.graph.startPredicate.next? task.text task.mode.fold task.mode.multiline pos =
      some found)
    (ends : (task.attempt task.graph.anchored found left).result = .ok none)
    (h' : Text.after? task.text found = none) :
    Course task pos left tried ⟨.ok none, none, tried.push found⟩
  /-- it fails, and the scan goes on behind the next character -/
  | later {pos left tried found later scan}
    (h : task.graph.startPredicate.next? task.text task.mode.fold task.mode.multiline pos =
      some found)
    (ends : (task.attempt task.graph.anchored found left).result = .ok none)
    (h' : Text.after? task.text found = some later)
    (more : Course task later (task.attempt task.graph.anchored found left).left
      (tried.push found) scan) :
    Course task pos left tried scan

namespace Task

variable {task : Task}

/-- A scan has a course. -/
theorem course_scanWithin {n pos left : Nat} {tried : Array Nat}
    (here : pos ≤ task.text.utf8ByteSize) (room : task.text.utf8ByteSize + 1 - pos ≤ n) :
    task.Course pos left tried (task.scanWithin n pos left tried) := by
  induction n generalizing pos left tried with
  | zero => omega
  | succ n ih =>
    rw [scanWithin]
    dsimp only
    rcases h : task.graph.startPredicate.next? task.text task.mode.fold task.mode.multiline pos
      with _ | found
    · exact .exhausted h
    · rcases ends : (task.attempt task.graph.anchored found left).result with limit | _ | final <;>
        simp only [ends]
      · exact .cut h ends
      · rcases h' : Text.after? task.text found with _ | later
        · exact .last h ends h'
        · have ahead := StartPredicate.le_of_next? h
          have moved := Text.lt_of_afterChar? h'
          have inside := Text.le_size_of_afterChar? h'
          exact .later h ends h' (ih inside (by omega))
      · exact .found h ends

/-- It has no other. -/
theorem Course.scanWithin_eq {n pos left : Nat} {tried : Array Nat} {scan : Scan}
    (course : task.Course pos left tried scan) (here : pos ≤ task.text.utf8ByteSize)
    (room : task.text.utf8ByteSize + 1 - pos ≤ n) : task.scanWithin n pos left tried = scan := by
  induction course generalizing n with
  | exhausted h =>
    obtain ⟨n, rfl⟩ := Nat.exists_eq_succ_of_ne_zero (show n ≠ 0 by omega)
    simp only [scanWithin, h]
  | cut h ends | found h ends =>
    obtain ⟨n, rfl⟩ := Nat.exists_eq_succ_of_ne_zero (show n ≠ 0 by omega)
    simp only [scanWithin, h, ends]
  | last h ends h' =>
    obtain ⟨n, rfl⟩ := Nat.exists_eq_succ_of_ne_zero (show n ≠ 0 by omega)
    simp only [scanWithin, h, ends, h']
  | later h ends h' more ih =>
    obtain ⟨n, rfl⟩ := Nat.exists_eq_succ_of_ne_zero (show n ≠ 0 by omega)
    have ahead := StartPredicate.le_of_next? h
    have moved := Text.lt_of_afterChar? h'
    simp only [scanWithin, h, ends, h']
    exact ih (Text.le_size_of_afterChar? h') (by omega)

theorem course_scan {pos : Nat} (here : pos ≤ task.text.utf8ByteSize) :
    task.Course pos task.limits.steps #[] (task.scan pos) :=
  course_scanWithin here (Nat.le_refl _)

theorem Course.scan_eq {pos : Nat} {scan : Scan}
    (course : task.Course pos task.limits.steps #[] scan) (here : pos ≤ task.text.utf8ByteSize) :
    task.scan pos = scan :=
  course.scanWithin_eq here (Nat.le_refl _)

end Task

end BacktrackRegex
