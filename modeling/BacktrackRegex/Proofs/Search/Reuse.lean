import BacktrackRegex.Proofs.Search.Sound
import BacktrackRegex.Search.Matcher

/-!
# A matcher can be used again

The depth of a walk is just the number of choice points that it and the suspended walks hold, and of
suspended walks, on top of what was held before (`Walk.Balanced`). Every step keeps this, whether it
holds another choice point, goes back to one, or enters or leaves a lookahead. So when a walk stops
and the suspended walks are given up, nothing counts as suspended that did not before
(`Matcher.outer_walkOn`), and a matcher that was used finds what a new one does
(`Sweep.item?_start`).

To give up a suspended walk is to put its choice points back (`Matcher.putBack`). Where a walk stops
this is done once for each suspended walk, from the inside out (`Matcher.stop_eq_foldl`).
-/

namespace BacktrackRegex

/-! ## Depths -/

/-- Whether the depths of suspended walks count what they and those around them hold, and `base`
more. -/
def Suspended.Balanced (base : Nat) : List Suspended → Prop
  | [] => True
  | outer :: suspended =>
    outer.depth = outer.choices.length + held suspended + base ∧ Balanced base suspended

/-- Whether the depths of a walk count what is held, and `base` more. -/
structure Walk.Balanced (base : Nat) (walk : Walk) : Prop where
  /-- its own -/
  depth : walk.depth = walk.choices.length + Suspended.held walk.suspended + base
  /-- those of the suspended walks -/
  suspended : Suspended.Balanced base walk.suspended

/-- Whether the walk that a step leads to is balanced, if it leads to one. -/
def Next.Balanced {σ : Type} (base : Nat) : Next σ → Prop
  | step walk _ => walk.Balanced base
  | finish _ _ | overflow _ => True

section

variable {σ : Type} {observe : σ → Event → σ} {log : σ} {task : Task} {base depth : Nat}
  {choices : List ChoicePoint} {suspended : List Suspended}

theorem Suspended.held_cons (outer : Suspended) (suspended : List Suspended) :
    held (outer :: suspended) = outer.choices.length + 1 + held suspended := rfl

theorem Walk.balanced_enter (graph : Graph) (entry pos : Nat) :
    (enter graph entry pos).Balanced 0 :=
  ⟨rfl, trivial⟩

/-- To go back keeps a walk balanced. -/
theorem Walk.balanced_backtrack
    (held : depth = choices.length + Suspended.held suspended + base)
    (around : Suspended.Balanced base suspended) :
    (backtrack observe task log choices depth suspended).Balanced base := by
  fun_induction backtrack observe task log choices depth suspended with
  | case1 | case2 =>
    -- the way that is taken is no longer held
    rw [List.length_cons] at held
    exact ⟨by simp only; omega, around⟩
  | case3 => trivial
  | case4 => exact ⟨held, around⟩
  | case5 => trivial
  | case6 depth outer suspended negated => exact ⟨around.1, around.2⟩
  | case7 depth outer suspended positive ih => exact ih around.1 around.2

/-- **A step keeps a walk balanced.** -/
theorem Walk.Balanced.step {walk : Walk} (h : walk.Balanced base) :
    (walk.step observe task log).Balanced base := by
  obtain ⟨held, around⟩ := h
  rw [step_eq_perform]
  cases task.move walk.node walk.state with
  | goal =>
    rw [Move.perform]
    split
    · trivial
    · next outer suspended eq =>
      rw [eq] at around
      split
      · exact balanced_backtrack around.1 around.2
      · exact ⟨around.1, around.2⟩
  | stop => exact balanced_backtrack held around
  | go next after => exact ⟨held, around⟩
  | fork next after other =>
    rw [Move.perform, fork]
    split
    · trivial
    · refine ⟨?_, around⟩
      simp only [List.length_cons]
      omega
  | look negated groups body next =>
    refine ⟨?_, held, around⟩
    simp only [List.length_nil, Suspended.held_cons]
    omega

end

/-- All walks that an attempt comes to are balanced. -/
theorem Task.Reaches.balanced {task : Task} {entry pos : Nat} {walk : Walk}
    (h : task.Reaches entry pos walk) : walk.Balanced 0 := by
  induction h with
  | enter => exact Walk.balanced_enter ..
  | step _ next ih =>
    have balanced : (Next.step _ ()).Balanced 0 := next ▸ ih.step
    exact balanced

/-! ## Matchers -/

namespace Matcher

variable (task : Task)

/-- Walking on with a matcher is walking on. -/
theorem walkOn_eq (left : Nat) (walk : Walk) :
    (walkOn task left walk).1 = (walkFrom ignore task left walk ()).result ∧
      (walkOn task left walk).2.left = (walkFrom ignore task left walk ()).left := by
  induction left generalizing walk with
  | zero => exact ⟨rfl, rfl⟩
  | succ left ih =>
    rw [walkFrom_succ, walkOn]
    rcases walk.step ignore task () with ⟨after, log⟩ | ⟨final, log⟩ | log
    · exact ih after
    · exact ⟨rfl, rfl⟩
    · exact ⟨rfl, rfl⟩

/-- The choice points of a suspended walk are put back. They and the walk itself no longer count as
suspended. -/
def putBack (inner : Matcher) (outer : Suspended) : Matcher :=
  ⟨outer.choices, inner.outer - (outer.choices.length + 1), inner.left⟩

theorem foldl_putBack (inner : Matcher) (suspended : List Suspended) :
    suspended.foldl putBack inner =
      ⟨(suspended.getLast?.map (·.choices)).getD inner.choices,
        inner.outer - Suspended.held suspended, inner.left⟩ := by
  induction suspended generalizing inner with
  | nil => rfl
  | cons outer suspended ih =>
    rw [List.foldl_cons, ih, putBack, Suspended.held_cons, Nat.sub_sub]
    cases suspended with
    | nil => rfl
    | cons next suspended =>
      rw [List.getLast?_cons_cons, List.getLast?_cons]
      rfl

/-- **A walk that stops puts back what the suspended walks hold**, innermost first. -/
theorem stop_eq_foldl (walk : Walk) (left : Nat) :
    walk.stop left =
      walk.suspended.foldl putBack ⟨walk.choices, walk.depth - walk.choices.length, left⟩ := by
  rw [foldl_putBack]
  rfl

theorem outer_stop {base : Nat} {walk : Walk} (h : walk.Balanced base) (left : Nat) :
    (walk.stop left).outer = base := by
  have depth := h.depth
  show walk.depth - walk.choices.length - Suspended.held walk.suspended = base
  omega

/-- **Nothing counts as suspended after a walk that did not before it**, however it ends. -/
theorem outer_walkOn {base : Nat} (left : Nat) {walk : Walk} (h : walk.Balanced base) :
    (walkOn task left walk).2.outer = base := by
  induction left generalizing walk with
  | zero => exact outer_stop h 0
  | succ left ih =>
    have balanced : (walk.step ignore task ()).Balanced base := h.step
    rw [walkOn]
    rcases next : walk.step ignore task () with ⟨after, log⟩ | ⟨final, log⟩ | log <;>
      rw [next] at balanced
    · exact ih balanced
    · exact outer_stop h left
    · exact outer_stop h left

variable {matcher : Matcher}

/-- An attempt with a matcher is an attempt, with the steps that are left. -/
theorem attempt_eq (h : matcher.outer = 0) (entry pos : Nat) :
    (matcher.attempt task entry pos).1 = (task.attempt entry pos matcher.left).result ∧
      (matcher.attempt task entry pos).2.left = (task.attempt entry pos matcher.left).left ∧
      (matcher.attempt task entry pos).2.outer = 0 := by
  obtain ⟨result, left⟩ := walkOn_eq task matcher.left (.enter task.graph entry pos)
  rw [attempt, h]
  exact ⟨result, left, outer_walkOn task _ (Walk.balanced_enter ..)⟩

/-- A scan with a matcher is a scan, whatever choice points the matcher still holds. -/
theorem scanWithin_eq (n pos : Nat) (tried : Array Nat) (h : matcher.outer = 0) :
    (scanWithin task n pos tried matcher).1 = task.scanWithin n pos matcher.left tried ∧
      (scanWithin task n pos tried matcher).2.outer = 0 := by
  induction n generalizing pos tried matcher with
  | zero => exact ⟨rfl, h⟩
  | succ n ih =>
    simp only [scanWithin, Task.scanWithin]
    rcases task.graph.startPredicate.next? task.text task.mode.fold task.mode.multiline pos
      with _ | found
    · exact ⟨rfl, h⟩
    · dsimp only
      obtain ⟨result, left, outer⟩ := attempt_eq task h task.graph.anchored found
      generalize matcher.attempt task task.graph.anchored found = ending at result left outer ⊢
      obtain ⟨ends, used⟩ := ending
      simp only at result left outer ⊢
      rw [← result, ← left]
      rcases ends with limit | _ | final
      · exact ⟨rfl, outer⟩
      · rcases Text.after? task.text found with _ | later
        · exact ⟨rfl, outer⟩
        · exact ih _ _ outer
      · exact ⟨rfl, outer⟩

/-- A scan with all steps is the same with any matcher. -/
theorem scan_eq (h : matcher.outer = 0) (pos : Nat) :
    (matcher.scan task pos).1 = task.scan pos ∧ (matcher.scan task pos).2.outer = 0 := by
  have used : { matcher with left := task.limits.steps }.outer = 0 := h
  exact scanWithin_eq task _ pos #[] used

end Matcher

/-! ## Sequences of matches -/

namespace Sweep

/-- The same matches with nothing but a position. -/
def fresh (left : Sweep) : Matches :=
  ⟨left.task, left.resume⟩

theorem next?_eq {left : Sweep} (h : left.matcher.outer = 0) :
    left.next?.1 = left.fresh.next?.1 ∧ left.next?.2.fresh = left.fresh.next?.2 ∧
      left.next?.2.matcher.outer = 0 := by
  obtain ⟨task, matcher, _ | pos⟩ := left
  · exact ⟨rfl, rfl, h⟩
  · obtain ⟨scan, outer⟩ := matcher.scan_eq task h pos
    refine ⟨congrArg Scan.item? scan, ?_, outer⟩
    exact congrArg (fun scan => Matches.mk task scan.resume) scan

theorem after_eq {left : Sweep} (h : left.matcher.outer = 0) (n : Nat) :
    (left.after n).fresh = left.fresh.after n ∧ (left.after n).matcher.outer = 0 := by
  induction n with
  | zero => exact ⟨rfl, h⟩
  | succ n ih =>
    obtain ⟨-, same, outer⟩ := next?_eq ih.2
    rw [ih.1] at same
    exact ⟨same, outer⟩

/-- **A matcher that is used again finds what a new one finds.** -/
theorem item?_start (task : Task) (pos n : Nat) :
    (start task pos).item? n = (Matches.start task pos).item? n := by
  have unused : (start task pos).matcher.outer = 0 := rfl
  obtain ⟨same, outer⟩ := after_eq unused n
  rw [item?, (next?_eq outer).1, same]
  rfl

end Sweep

end BacktrackRegex
