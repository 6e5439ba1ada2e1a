import BacktrackRegex.Pattern.Results
import BacktrackRegex.Proofs.Pattern.Numbered
import BacktrackRegex.Proofs.Text.Position

/-!
# What a match may do to a point

A pattern that matches from a point leads on to points that `Follow` it: they lie at or after it and
not behind the end of the text, and they differ in the captures of no group but those of the
pattern. `follows_of_mem_results` says so of all results of a pattern.

Since iterations beyond the least number move on, the bound that `Point.repeated` is given cuts
nothing off: any larger bound gives the same results (`repeated_eq_of_le`).
-/

namespace BacktrackRegex

namespace Point

/-- `after` can be reached from `before` by a pattern whose groups are numbered from `first` up to
`next`. -/
structure Follows (text : String) (first next : Nat) (before after : Point) : Prop where
  /-- the match never moves back -/
  le : before.pos ≤ after.pos
  /-- it stays inside the text -/
  inside : after.pos ≤ max text.utf8ByteSize before.pos
  /-- no slot comes or goes -/
  size : after.captures.size = before.captures.size
  /-- the other groups keep what they captured -/
  frame : ∀ g, ¬(first ≤ g ∧ g < next) → after.captures[g]? = before.captures[g]?

namespace Follows

variable {text : String} {first next : Nat} {a b c : Point}

theorem refl (text : String) (first next : Nat) (a : Point) : Follows text first next a a :=
  ⟨Nat.le_refl _, Nat.le_max_right .., rfl, fun _ _ => rfl⟩

theorem trans (h : Follows text first next a b) (h' : Follows text first next b c) :
    Follows text first next a c := by
  refine ⟨Nat.le_trans h.le h'.le, ?_, h'.size.trans h.size,
    fun g hg => (h'.frame g hg).trans (h.frame g hg)⟩
  have := h.inside
  have := h'.inside
  omega

/-- More groups may do more. -/
theorem widen (h : Follows text first next a b) {first' next' : Nat} (hf : first' ≤ first)
    (hn : next ≤ next') : Follows text first' next' a b :=
  ⟨h.le, h.inside, h.size, fun g hg => h.frame g (by omega)⟩

end Follows

variable {text : String} {first next : Nat}

theorem follows_of_mem_read {passes : Char → Bool} {before after : Point}
    (h : after ∈ before.read text passes) : Follows text first next before after := by
  rw [read, Option.mem_toList, Option.map_eq_some_iff] at h
  obtain ⟨pos, hp, rfl⟩ := h
  exact ⟨Nat.le_of_lt (Text.lt_of_afterChar? hp),
    Nat.le_trans (Text.le_size_of_afterChar? hp) (Nat.le_max_left ..), rfl, fun _ _ => rfl⟩

theorem le_of_test {mode : Mode} {condition : Test} {captures : Array (Option Span)}
    {pos after : Nat} (h : condition.after? text mode captures pos = some after) :
    pos ≤ after ∧ after ≤ max text.utf8ByteSize pos := by
  have stay : pos ≤ pos ∧ pos ≤ max text.utf8ByteSize pos := ⟨Nat.le_refl _, Nat.le_max_right ..⟩
  cases condition with
  | backreference g =>
    rw [Test.after?] at h
    split at h
    · cases h
      exact stay
    · exact Text.le_of_afterLiteral? h
  | _ =>
    simp only [Test.after?] at h
    split at h
    · cases h
      exact stay
    · cases h

theorem follows_of_mem_test {mode : Mode} {condition : Test} {before after : Point}
    (h : after ∈ before.test text mode condition) : Follows text first next before after := by
  rw [test, Option.mem_toList, Option.map_eq_some_iff] at h
  obtain ⟨pos, hp, rfl⟩ := h
  have bounds := le_of_test hp
  exact ⟨bounds.1, bounds.2, rfl, fun _ _ => rfl⟩

theorem follows_capture {slot : Nat} (h : first ≤ slot ∧ slot < next) (start : Nat)
    (point : Point) : Follows text first next point (point.capture slot start) := by
  refine ⟨Nat.le_refl _, Nat.le_max_right .., by simp [capture], fun g hg => ?_⟩
  have ne : slot ≠ g := by omega
  simp [capture, Array.getElem?_setIfInBounds_ne, ne]

theorem follows_clear (point : Point) :
    Follows text first next point
      { point with captures := GroupRange.clear ⟨first, next⟩ point.captures } := by
  refine ⟨Nat.le_refl _, Nat.le_max_right .., by simp, fun g hg => ?_⟩
  rw [GroupRange.getElem?_clear, if_neg (fun inside => hg inside.1)]

/-! ## Repetitions -/

section

variable {body : Point → List Point} {min : Nat} {max : Option Nat} {greedy : Bool}

/-- The results behind one more iteration. -/
def again (body : Point → List Point) (groups : GroupRange) (min : Nat) (max : Option Nat)
    (greedy : Bool) (n completed : Nat) (point : Point) : List Point :=
  (body { point with captures := groups.clear point.captures }).flatMap fun after =>
    if min ≤ completed && after.pos == point.pos then []
    else repeated body groups min max greedy n (completed + 1) after

theorem repeated_succ (body : Point → List Point) (groups : GroupRange) (min : Nat)
    (max : Option Nat) (greedy : Bool) (n completed : Nat) (point : Point) :
    repeated body groups min max greedy (n + 1) completed point =
      if completed < min then again body groups min max greedy n completed point
      else if max = some completed then [point]
      else if greedy then again body groups min max greedy n completed point ++ [point]
      else point :: again body groups min max greedy n completed point :=
  rfl

theorem mem_again {groups : GroupRange} {n completed : Nat} {point after : Point} :
    after ∈ again body groups min max greedy n completed point ↔
      ∃ middle ∈ body { point with captures := groups.clear point.captures },
        ¬(min ≤ completed ∧ middle.pos = point.pos) ∧
          after ∈ repeated body groups min max greedy n (completed + 1) middle := by
  simp only [again, List.mem_flatMap, Bool.and_eq_true, decide_eq_true_eq, beq_iff_eq]
  refine exists_congr fun middle => and_congr_right fun _ => ?_
  split
  · next stuck => simp [stuck]
  · next moved => simp [moved]

/-- A repetition either ends where it is, or goes on behind one more iteration. -/
theorem mem_repeated_succ {groups : GroupRange} {n completed : Nat} {point after : Point}
    (h : after ∈ repeated body groups min max greedy (n + 1) completed point) :
    after = point ∨ after ∈ again body groups min max greedy n completed point := by
  rw [repeated_succ] at h
  split at h
  · exact .inr h
  · split at h
    · exact .inl (List.mem_singleton.mp h)
    · split at h
      · rcases List.mem_append.mp h with h | h
        · exact .inr h
        · exact .inl (List.mem_singleton.mp h)
      · exact List.mem_cons.mp h

theorem follows_of_mem_repeated
    (h : ∀ {before after}, after ∈ body before → Follows text first next before after)
    {n completed : Nat} {before after : Point}
    (mem : after ∈ repeated body ⟨first, next⟩ min max greedy n completed before) :
    Follows text first next before after := by
  induction n generalizing completed before with
  | zero => cases mem
  | succ n ih =>
    rcases mem_repeated_succ mem with rfl | mem
    · exact .refl ..
    · obtain ⟨middle, hm, -, mem⟩ := mem_again.mp mem
      exact ((follows_clear before).trans (h hm)).trans (ih mem)

/-- After an iteration that was required or moved on, there is one iteration less to come. -/
theorem room_after {n completed pos after : Nat}
    (room : min - completed + (text.utf8ByteSize - pos) < n + 1)
    (moved : ¬(min ≤ completed ∧ after = pos)) (le : pos ≤ after)
    (inside : after ≤ Max.max text.utf8ByteSize pos) :
    min - (completed + 1) + (text.utf8ByteSize - after) < n := by
  omega

/-- **The bound cuts nothing off.** It need only allow for the least number of iterations and for
one at each position of the text that is left. -/
theorem repeated_eq_of_le {groups : GroupRange}
    (h : ∀ {before after}, after ∈ body before → Follows text first next before after)
    {n m completed : Nat} {point : Point}
    (room : min - completed + (text.utf8ByteSize - point.pos) < n) (le : n ≤ m) :
    repeated body groups min max greedy n completed point =
      repeated body groups min max greedy m completed point := by
  induction n generalizing m completed point with
  | zero => exact absurd room (Nat.not_lt_zero _)
  | succ n ih =>
    obtain ⟨m, rfl⟩ := Nat.exists_eq_add_of_lt le
    have same : again body groups min max greedy n completed point =
        again body groups min max greedy (n + m) completed point := by
      simp only [again, List.flatMap_def]
      refine congrArg List.flatten (List.map_congr_left fun after mem => ?_)
      have follows := h mem
      split
      · rfl
      · next moved =>
        -- an iteration that is kept leaves less room for those behind it
        exact ih (room_after room (by simpa using moved) follows.le follows.inside)
          (Nat.le_add_right ..)
    simp only [repeated_succ, same]

end

end Point

namespace Pattern

open Point

variable {text : String} {mode : Mode}

theorem follows_of_mem_resultsOfSeq {terms : List (Pattern GroupRange)}
    (h : ∀ p ∈ terms, ∀ {first next before after}, p.Numbered first next →
      after ∈ results text mode p before → Follows text first next before after)
    {first next : Nat} {before after : Point} (numbered : NumberedList terms first next)
    (mem : after ∈ resultsOfSeq text mode terms before) :
    Follows text first next before after := by
  induction terms generalizing first before with
  | nil =>
    obtain rfl := List.mem_singleton.mp mem
    exact .refl ..
  | cons p rest ih =>
    obtain ⟨between, hp, hrest⟩ := numbered
    have hle := NumberedList.le (fun _ _ => Numbered.le) hrest
    obtain ⟨middle, hm, mem⟩ := List.mem_flatMap.mp mem
    exact ((h p List.mem_cons_self hp hm).widen (Nat.le_refl _) hle).trans
      ((ih (fun q hq => h q (List.mem_cons_of_mem p hq)) hrest mem).widen hp.le (Nat.le_refl _))

theorem follows_of_mem_resultsOfChoice {alternatives : List (Pattern GroupRange)}
    (h : ∀ p ∈ alternatives, ∀ {first next before after}, p.Numbered first next →
      after ∈ results text mode p before → Follows text first next before after)
    {first next : Nat} {before after : Point} (numbered : NumberedList alternatives first next)
    (mem : after ∈ resultsOfChoice text mode alternatives before) :
    Follows text first next before after := by
  induction alternatives generalizing first with
  | nil => cases mem
  | cons p rest ih =>
    obtain ⟨between, hp, hrest⟩ := numbered
    have hle := NumberedList.le (fun _ _ => Numbered.le) hrest
    rcases List.mem_append.mp mem with mem | mem
    · exact (h p List.mem_cons_self hp mem).widen (Nat.le_refl _) hle
    · exact (ih (fun q hq => h q (List.mem_cons_of_mem p hq)) hrest mem).widen hp.le
        (Nat.le_refl _)

/-- **Results lie ahead and touch their own groups only.** -/
theorem follows_of_mem_results {p : Pattern GroupRange} {first next : Nat} {before after : Point}
    (numbered : p.Numbered first next) (mem : after ∈ results text mode p before) :
    Follows text first next before after := by
  induction p generalizing first next before after with
  | empty =>
    obtain rfl := List.mem_singleton.mp mem
    exact .refl ..
  | char c | coded c => exact follows_of_mem_read mem
  | named cls positive => exact follows_of_mem_read mem
  | set negated items => exact follows_of_mem_read mem
  | dot => exact follows_of_mem_read mem
  | lineStart | lineEnd => exact follows_of_mem_test mem
  | wordBoundary inverted => exact follows_of_mem_test mem
  | backreference g => exact follows_of_mem_test mem
  | group groups kind body ih =>
    obtain ⟨rfl, numbered⟩ := numbered
    cases kind with
    | capturing =>
      obtain ⟨inner, hi, rfl⟩ := List.mem_map.mp mem
      have hle := numbered.le
      simp only [GroupKind.isCapturing, if_true] at numbered hle
      exact ((ih numbered hi).widen (Nat.le_succ first) (Nat.le_refl _)).trans
        (follows_capture ⟨Nat.le_refl _, hle⟩ _ _)
    | nonCapturing => exact ih numbered mem
    | lookahead =>
      rw [results] at mem
      split at mem
      · cases mem
      · next best rest hr =>
        obtain rfl := List.mem_singleton.mp mem
        have found : best ∈ results text mode body before := by
          rw [hr]
          exact List.mem_cons_self
        have inner := ih numbered found
        exact ⟨Nat.le_refl _, Nat.le_max_right .., inner.size, inner.frame⟩
    | negativeLookahead =>
      rw [results] at mem
      split at mem
      · obtain rfl := List.mem_singleton.mp mem
        exact .refl ..
      · cases mem
  | quantified groups min max greedy body ih =>
    obtain ⟨rfl, numbered⟩ := numbered
    exact follows_of_mem_repeated (fun h => ih numbered h) mem
  | seq terms ih => exact follows_of_mem_resultsOfSeq ih numbered mem
  | choice alternatives ih => exact follows_of_mem_resultsOfChoice ih numbered mem

/-- The results of a quantifier are those of repeating its body, under any bound that is large
enough. -/
theorem results_quantified_of_le {groups : GroupRange} {min n : Nat} {max : Option Nat}
    {greedy : Bool} {body : Pattern GroupRange} {point : Point}
    (numbered : body.Numbered groups.first groups.next)
    (room : min + (text.utf8ByteSize - point.pos) + 2 ≤ n) :
    results text mode (.quantified groups min max greedy body) point =
      repeated (results text mode body) groups min max greedy n 0 point :=
  repeated_eq_of_le (fun h => follows_of_mem_results numbered h) (by omega) room

end Pattern

end BacktrackRegex
