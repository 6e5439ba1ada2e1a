import BacktrackRegex.Search.Scan

/-!
# The items of a sequence of matches

Each item comes from one scan, which begins where the scan before it said. After an item that is
left out or a limit no scan follows, so from there on there are no items (`item?_eq_none_of_le`).
What is left after an item is again a sequence of matches, with the items that follow
(`item?_add`); for it, only the place where it resumes matters.
-/

namespace BacktrackRegex

/-- A scan that finds no match says that there is nothing left. -/
theorem Task.resume_scanWithin {task : Task} {n pos left : Nat} {tried : Array Nat}
    (h : ∀ found, (task.scanWithin n pos left tried).result ≠ .ok (some found)) :
    (task.scanWithin n pos left tried).resume = none := by
  induction n generalizing pos left tried with
  | zero => rfl
  | succ n ih =>
    simp only [scanWithin] at h ⊢
    split
    · rfl
    · next pos next =>
      simp only [next] at h
      split
      · rfl
      · next final ends =>
        simp only [ends] at h
        exact absurd rfl (h _)
      · next ends =>
        simp only [ends] at h
        split
        · rfl
        · next later further =>
          simp only [further] at h
          exact ih h

/-- An item that is a match was found. -/
theorem Scan.item?_eq_ok {scan : Scan} {found : Match} :
    scan.item? = some (.ok found) ↔ scan.result = .ok (some found) := by
  rw [item?]
  rcases scan.result with limit | _ | other <;> simp

namespace Matches

variable {left : Matches}

theorem task_next? (left : Matches) : left.next?.2.task = left.task := by
  rw [next?, scan?]
  rcases left.resume with _ | pos <;> rfl

@[simp] theorem task_after (left : Matches) (n : Nat) : (left.after n).task = left.task := by
  induction n with
  | zero => rfl
  | succ n ih => rw [after, task_next?, ih]

theorem after_add (left : Matches) (m n : Nat) : left.after (m + n) = (left.after m).after n := by
  induction n with
  | zero => rfl
  | succ n ih => rw [after, ← ih, ← Nat.add_assoc, after]

/-- The items after some are those of what is left. -/
theorem item?_add (left : Matches) (m n : Nat) : left.item? (m + n) = (left.after m).item? n := by
  rw [item?, item?, after_add]

/-- What is left depends only on where it resumes. -/
theorem after_eq_mk (left : Matches) (n : Nat) :
    left.after n = ⟨left.task, (left.after n).resume⟩ := by
  rw [← left.task_after n]

/-- A scan begins where the sequence resumes. -/
theorem scan?_eq_some {n : Nat} {scan : Scan} {after : Matches}
    (h : (left.after n).scan? = some (scan, after)) :
    ∃ pos, (left.after n).resume = some pos ∧ scan = left.task.scan pos := by
  obtain ⟨pos, resume, same⟩ := Option.map_eq_some_iff.mp h
  rw [task_after] at same
  exact ⟨pos, resume, (congrArg Prod.fst same).symm⟩

/-- An item comes from a scan, which tells where the next begins. -/
theorem exists_scan_of_item? {n : Nat} {item : Except Limit Match}
    (h : left.item? n = some item) :
    ∃ pos, (left.after n).resume = some pos ∧ (left.task.scan pos).item? = some item ∧
      (left.after (n + 1)).resume = (left.task.scan pos).resume := by
  rw [item?, after_eq_mk, next?, scan?] at h
  rw [after, after_eq_mk, next?, scan?]
  rcases resume : (left.after n).resume with _ | pos <;> rw [resume] at h
  · cases h
  · exact ⟨pos, rfl, h, rfl⟩

/-! ## The end -/

theorem after_of_resume_eq_none (h : left.resume = none) (n : Nat) : left.after n = left := by
  induction n with
  | zero => rfl
  | succ n ih => rw [after, ih, next?_of_resume_eq_none h]

theorem item?_of_resume_eq_none (h : left.resume = none) (n : Nat) : left.item? n = none := by
  rw [item?, after_of_resume_eq_none h, next?_of_resume_eq_none h]

/-- An item that is no match leaves nothing. -/
theorem resume_next? (h : ∀ found, left.next?.1 ≠ some (.ok found)) :
    left.next?.2.resume = none := by
  obtain ⟨task, _ | pos⟩ := left
  · rfl
  · refine task.resume_scanWithin fun found ends => h found ?_
    have ends : (task.scan pos).result = .ok (some found) := ends
    simp only [next?, scan?, Option.map_some, Scan.item?, ends]

/-- **After the end there is nothing, nor after a limit.** -/
theorem item?_eq_none_of_lt {m n : Nat} (h : ∀ found, left.item? m ≠ some (.ok found))
    (lt : m < n) : left.item? n = none := by
  obtain ⟨k, rfl⟩ := Nat.exists_eq_add_of_le (Nat.succ_le_of_lt lt)
  rw [item?_add]
  exact item?_of_resume_eq_none (resume_next? h) k

/-- Before an item there are only matches. -/
theorem exists_item?_of_lt {m n : Nat} {item : Except Limit Match} (h : left.item? n = some item)
    (lt : m < n) : ∃ before, left.item? m = some (.ok before) := by
  refine Classical.byContradiction fun none => ?_
  rw [item?_eq_none_of_lt (fun before there => none ⟨before, there⟩) lt] at h
  cases h

/-! ## Lists of items -/

theorem scans_eq_append (max : Nat) (left : Matches) (done : Array Scan) :
    scans max left done = done ++ scans max left #[] := by
  induction max generalizing left done with
  | zero => exact (Array.append_empty).symm
  | succ max ih =>
    rw [scans, scans]
    split
    · exact (Array.append_empty).symm
    · split
      · rfl
      · rw [ih, ih _ (#[].push _), ← Array.append_assoc]
        rfl

/-- The first of some items, and the others. -/
theorem take_succ (left : Matches) (max : Nat) :
    left.take (max + 1) =
      match left.next?.1 with
      | none => #[]
      | some item => #[item] ++ left.next?.2.take max := by
  rw [take, take, scans, next?]
  rcases left.scan? with _ | ⟨scan, after⟩
  · rfl
  · dsimp only
    rcases added : scan.item? with _ | item
    · simp [added]
    · simp [scans_eq_append max after #[scan], added]

/-- The items in order are the first so many. -/
theorem getElem?_take (left : Matches) (max n : Nat) :
    (left.take max)[n]? = if n < max then left.item? n else none := by
  induction max generalizing left n with
  | zero => rfl
  | succ max ih =>
    rw [take_succ]
    rcases first : left.next?.1 with _ | item
    · have none : left.item? n = none := by
        cases n with
        | zero => exact first
        | succ n => exact item?_eq_none_of_lt (m := 0) (by simp [item?, after, first]) n.succ_pos
      rw [none, ite_self]
      rfl
    · cases n with
      | zero =>
        rw [if_pos max.succ_pos, item?, after, first]
        exact Array.getElem?_append_left Nat.one_pos
      | succ n =>
        have later : left.item? (n + 1) = left.next?.2.item? n := by
          rw [Nat.add_comm, item?_add]
          rfl
        rw [Array.getElem?_append_right (Nat.succ_pos n), later]
        simp only [Nat.add_lt_add_iff_right]
        exact ih _ n

end Matches

end BacktrackRegex
