import BacktrackRegex.Proofs.Search.Attempt
import BacktrackRegex.Proofs.StartPredicate
import BacktrackRegex.Search.EveryPosition

/-!
# A scan finds the leftmost match

A scan tries the positions that the start predicate gives, and `Task.tryAll` tries all. Where the
latter hits no limit the two agree: the positions left out have no match, so leaving them out saves
steps and changes nothing (`scanWithin_eq_of_tryFrom`). And what both find is the match that begins
furthest to the left (`leftmost_of_tryFrom`).
-/

namespace BacktrackRegex

/-- Where a match ends, and its groups. -/
def Match.point (found : Match) : Point :=
  ⟨found.span.stop, found.groups⟩

/-- The match of a pattern that begins furthest to the left among those from `start` on, if there
is one. -/
def NumberedPattern.Leftmost (pattern : NumberedPattern) (text : String) (mode : Mode)
    (start : Nat) : Option Match → Prop
  | some found =>
    start ≤ found.span.start ∧ Text.isBoundary text found.span.start = true ∧
      pattern.firstResult? text mode found.span.start = some found.point ∧
      ∀ q, start ≤ q → q < found.span.start → Text.isBoundary text q = true →
        pattern.firstResult? text mode q = none
  | none => ∀ q, start ≤ q → Text.isBoundary text q = true →
    pattern.firstResult? text mode q = none

/-- What is leftmost stays so if the search begins further to the left, where there is no match. -/
theorem NumberedPattern.Leftmost.widen {pattern : NumberedPattern} {text : String} {mode : Mode}
    {start pos : Nat} {found? : Option Match} (h : pattern.Leftmost text mode pos found?)
    (le : start ≤ pos)
    (failed : ∀ q, start ≤ q → q < pos → Text.isBoundary text q = true →
      pattern.firstResult? text mode q = none) :
    pattern.Leftmost text mode start found? := by
  cases found? with
  | none =>
    intro q hq there
    rcases Nat.lt_or_ge q pos with before | behind
    · exact failed q hq before there
    · exact h q behind there
  | some found =>
    obtain ⟨le', boundary, first, others⟩ := h
    refine ⟨Nat.le_trans le le', boundary, first, fun q hq lt there => ?_⟩
    rcases Nat.lt_or_ge q pos with before | behind
    · exact failed q hq before there
    · exact others q behind lt there

/-- It stays so if the search begins one character further to the left, where there is no match. -/
theorem NumberedPattern.Leftmost.before {pattern : NumberedPattern} {text : String} {mode : Mode}
    {pos later : Nat} {found? : Option Match} (h : pattern.Leftmost text mode later found?)
    (here : Text.isBoundary text pos = true) (further : Text.after? text pos = some later)
    (failed : pattern.firstResult? text mode pos = none) :
    pattern.Leftmost text mode pos found? := by
  refine h.widen (Nat.le_of_lt (Text.lt_of_afterChar? further)) fun q le lt there => ?_
  -- there is no boundary between this position and the next
  rcases Nat.lt_or_eq_of_le le with beyond | rfl
  · obtain ⟨later', further', le'⟩ := Text.exists_after? here there beyond
    rw [further] at further'
    cases further'
    exact absurd lt (Nat.not_lt.mpr le')
  · exact failed

/-- At the end of the text there is only one position left. -/
theorem NumberedPattern.leftmost_none_of_last {pattern : NumberedPattern} {text : String}
    {mode : Mode} {pos : Nat} (here : Text.isBoundary text pos = true)
    (last : Text.after? text pos = none) (failed : pattern.firstResult? text mode pos = none) :
    pattern.Leftmost text mode pos none := by
  intro q le there
  have := Text.le_size_of_isBoundary there
  obtain rfl : q = pos := by
    have := (Text.after?_eq_none_iff here).mp last
    omega
  exact failed

/-! ## What an attempt leaves -/

/-- In a state with slot 0 captured, the groups of the match are the captures. -/
theorem Match.groups_ofState (start : Nat) (state : State)
    (h : state.captures[0]? = some (some ⟨start, state.pos⟩)) :
    (ofState start state).span = ⟨start, state.pos⟩ ∧
      (ofState start state).groups = state.captures := by
  have span : (ofState start state).span = ⟨start, state.pos⟩ := by
    rw [ofState, h]
    rfl
  refine ⟨span, Array.ext_getElem? fun g => ?_⟩
  rw [groups, span]
  cases g with
  | zero =>
    rw [h, Array.getElem?_append_left (Nat.zero_lt_one)]
    rfl
  | succ g =>
    rw [Array.getElem?_append_right (Nat.succ_le_succ (Nat.zero_le g)), ofState,
      Array.getElem?_extract]
    split
    · next inside =>
      rw [List.size_toArray, List.length_singleton]
      congr 1
      omega
    · next outside =>
      rw [List.size_toArray, List.length_singleton] at outside
      exact (Array.getElem?_eq_none (by omega)).symm

/-- Positions that do not pass have no match. -/
theorem NumberedPattern.firstResult?_eq_none (pattern : NumberedPattern) {text : String}
    {mode : Mode} {pos : Nat}
    (h : ¬(StartPredicate.ofPattern pattern.tree).Passes text mode pos) :
    pattern.firstResult? text mode pos = none := by
  rcases hr : pattern.firstResult? text mode pos with _ | found
  · rfl
  · obtain ⟨inner, first, -⟩ := Option.map_eq_some_iff.mp hr
    exact absurd (StartPredicate.passes_of_mem_results (List.mem_of_mem_head? first)) h

namespace Task

variable {task : Task}

/-- More steps change nothing but how many are left. -/
theorem attempt_raise {entry pos left : Nat} {final : Option State}
    (h : (task.attempt entry pos left).result = .ok final) {left' : Nat} (le : left ≤ left') :
    (task.attempt entry pos left').result = .ok final ∧
      (task.attempt entry pos left).left ≤ (task.attempt entry pos left').left := by
  obtain ⟨extra, rfl⟩ := Nat.exists_eq_add_of_le le
  have raised := walkFrom_raise task.limits (Nat.le_refl _) extra h
  rw [attempt, attempt]
  have same : task.within task.limits = task := rfl
  rw [same] at raised
  rw [raised]
  exact ⟨rfl, Nat.le_add_right ..⟩

/-- Trying every position comes to a match, to the end of the text, or to the next position. -/
theorem tryFrom_succ {n pos left : Nat} {found : Option Match}
    (h : task.tryFrom (n + 1) pos left = .ok found) :
    (∃ final, (task.attempt task.graph.anchored pos left).result = .ok (some final) ∧
      found = some ⟨⟨pos, final.pos⟩, final.captures.extract 1 final.captures.size⟩) ∨
    (task.attempt task.graph.anchored pos left).result = .ok none ∧
      ((Text.after? task.text pos = none ∧ found = none) ∨
        ∃ later, Text.after? task.text pos = some later ∧
          task.tryFrom n later (task.attempt task.graph.anchored pos left).left = .ok found) := by
  rw [tryFrom] at h
  rcases ha : (task.attempt task.graph.anchored pos left).result with limit | _ | final <;>
    simp only [ha] at h
  · cases h
  · refine .inr ⟨rfl, ?_⟩
    rcases hn : Text.after? task.text pos with _ | later <;> simp only [hn] at h
    · cases h
      exact .inl ⟨rfl, rfl⟩
    · exact .inr ⟨later, rfl, h⟩
  · cases h
    exact .inl ⟨final, rfl, rfl⟩

end Task

section

variable {pattern : NumberedPattern} {next : Nat} (numbered : pattern.tree.Numbered 1 next)

include numbered

/-- Slot 0 of a result is the whole match. -/
theorem NumberedPattern.captures_zero_of_firstResult? {text : String} {mode : Mode} {pos : Nat}
    {found : Point} (h : pattern.firstResult? text mode pos = some found) :
    found.captures[0]? = some (some ⟨pos, found.pos⟩) := by
  rw [firstResult?, Option.map_eq_some_iff] at h
  obtain ⟨inner, first, rfl⟩ := h
  have follows := Pattern.follows_of_mem_results numbered (List.mem_of_mem_head? first)
  have size : inner.captures.size = pattern.groupCount + 1 :=
    follows.size.trans Array.size_replicate
  exact Array.getElem?_setIfInBounds_self_of_lt (by omega)

variable {task : Task} (graph : task.graph = .ofPattern pattern)

include graph

/-- An attempt that succeeds leads to the match of the first result. -/
theorem Task.ofState_of_attempt {pos left : Nat} {final : State}
    (h : (task.attempt task.graph.anchored pos left).result = .ok (some final)) :
    Match.ofState pos final =
        ⟨⟨pos, final.pos⟩, final.captures.extract 1 final.captures.size⟩ ∧
      (Match.ofState pos final).point = final.point ∧
      pattern.firstResult? task.text task.mode pos = some final.point := by
  have settled := (settles_anchored numbered graph pos).eq_of_walkFrom h
  obtain ⟨found, first, rfl⟩ := Option.map_eq_some_iff.mp settled.symm
  obtain ⟨span, groups⟩ := Match.groups_ofState pos ((State.initial task.graph pos).put found)
    (pattern.captures_zero_of_firstResult? numbered first)
  refine ⟨congrArg (Match.mk · _) span, ?_, first⟩
  rw [Match.point, span, groups]
  rfl

/-- An attempt that fails leaves no result. -/
theorem Task.firstResult?_of_attempt {pos left : Nat} {final : Option State}
    (h : (task.attempt task.graph.anchored pos left).result = .ok final) :
    final = none ↔ pattern.firstResult? task.text task.mode pos = none := by
  rw [(settles_anchored numbered graph pos).eq_of_walkFrom h, Option.map_eq_none_iff]

/-! ## Positions left out -/

variable {found? : Option Match}

/-- Trying every position passes over those without a match. -/
theorem Task.tryFrom_skip {n pos found left : Nat} (here : Text.isBoundary task.text pos = true)
    (there : Text.isBoundary task.text found = true) (le : pos ≤ found)
    (room : task.text.utf8ByteSize + 1 - pos ≤ n)
    (none : ∀ q, pos ≤ q → q < found → pattern.firstResult? task.text task.mode q = none)
    (h : task.tryFrom n pos left = .ok found?) :
    ∃ n' left', task.text.utf8ByteSize + 1 - found ≤ n' ∧ left' ≤ left ∧
      task.tryFrom n' found left' = .ok found? := by
  induction n generalizing pos left with
  | zero =>
    have := Text.le_size_of_isBoundary here
    omega
  | succ n ih =>
    rcases Nat.lt_or_eq_of_le le with lt | rfl
    · obtain ⟨later, further, le'⟩ := Text.exists_after? here there lt
      have ahead := Text.lt_of_afterChar? further
      rcases task.tryFrom_succ h with ⟨final, ends, -⟩ | ⟨-, ⟨last, -⟩ | ⟨later', hl, rest⟩⟩
      · have := (task.firstResult?_of_attempt numbered graph ends).mpr
          (none pos (Nat.le_refl _) lt)
        cases this
      · -- the end of the text lies behind the position to come to
        rw [further] at last
        cases last
      · obtain rfl : later = later' := Option.some.inj (further.symm.trans hl)
        obtain ⟨n', left', room', less, same⟩ := ih (Text.isBoundary_of_after? further) le'
          (by omega) (fun q hq => none q (by omega)) rest
        exact ⟨n', left', room', Nat.le_trans less (left_walkFrom_le ..), same⟩
    · exact ⟨n + 1, left, room, Nat.le_refl _, h⟩

/-- Where no position has a match, trying every position finds none. -/
theorem Task.tryFrom_eq_none {n pos left : Nat}
    (none : ∀ q, pos ≤ q → q ≤ task.text.utf8ByteSize →
      pattern.firstResult? task.text task.mode q = none)
    (here : pos ≤ task.text.utf8ByteSize) (h : task.tryFrom n pos left = .ok found?) :
    found? = Option.none := by
  induction n generalizing pos left with
  | zero =>
    cases h
    rfl
  | succ n ih =>
    rcases task.tryFrom_succ h with ⟨final, ends, -⟩ | ⟨-, ⟨-, rfl⟩ | ⟨later, hl, rest⟩⟩
    · have := (task.firstResult?_of_attempt numbered graph ends).mpr
        (none pos (Nat.le_refl _) here)
      cases this
    · rfl
    · have ahead := Text.lt_of_afterChar? hl
      exact ih (fun q hq => none q (by omega)) (Text.le_size_of_afterChar? hl) rest

/-- **Leaving positions out changes nothing.** If there are steps enough to try every position, a
scan that leaves some out ends in the same way. -/
theorem Task.scanWithin_eq_of_tryFrom {n k pos left left' : Nat} (tried : Array Nat)
    (here : Text.isBoundary task.text pos = true)
    (room : task.text.utf8ByteSize + 1 - pos ≤ n) (room' : task.text.utf8ByteSize + 1 - pos ≤ k)
    (less : left ≤ left') (h : task.tryFrom n pos left = .ok found?) :
    (task.scanWithin k pos left' tried).result = .ok found? := by
  induction k generalizing n pos left left' tried with
  | zero =>
    have := Text.le_size_of_isBoundary here
    omega
  | succ k ih =>
    have predicate : task.graph.startPredicate = .ofPattern pattern.tree := by
      rw [graph]
      rfl
    rw [scanWithin, predicate]
    dsimp only
    rcases hp : (StartPredicate.ofPattern pattern.tree).next? task.text task.mode.fold
      task.mode.multiline pos with _ | found
    · have := task.tryFrom_eq_none numbered graph (fun q le le' => pattern.firstResult?_eq_none
        (StartPredicate.not_passes_of_next?_none hp le le')) (Text.le_size_of_isBoundary here) h
      rw [this]
    · have there := StartPredicate.isBoundary_of_next? hp here
      have inside := Text.le_size_of_isBoundary there
      have ahead := StartPredicate.le_of_next? hp
      -- both come to the next position that passes, and the scan has no fewer steps left there
      have unmatched := fun q le lt =>
        pattern.firstResult?_eq_none (StartPredicate.not_passes_of_next? hp (q := q) le lt)
      obtain ⟨n', fewer, enough, le, h⟩ := task.tryFrom_skip numbered graph here there ahead room
        unmatched h
      obtain ⟨n', rfl⟩ := Nat.exists_eq_succ_of_ne_zero (show n' ≠ 0 by omega)
      rcases task.tryFrom_succ h with ⟨final, ends, rfl⟩ | ⟨ends, rest⟩
      · dsimp only
        rw [(task.attempt_raise ends (Nat.le_trans le less)).1]
        dsimp only
        rw [(task.ofState_of_attempt numbered graph ends).1]
      · have raised := task.attempt_raise ends (Nat.le_trans le less)
        dsimp only
        rw [raised.1]
        dsimp only
        rcases rest with ⟨last, rfl⟩ | ⟨later, further, h⟩
        · rw [last]
        · have moved := Text.lt_of_afterChar? further
          rw [further]
          exact ih _ (Text.isBoundary_of_after? further) (by omega) (by omega) raised.2 h

/-- What is found by trying every position is the leftmost match. -/
theorem Task.leftmost_of_tryFrom {n pos left : Nat}
    (here : Text.isBoundary task.text pos = true)
    (room : task.text.utf8ByteSize + 1 - pos ≤ n) (h : task.tryFrom n pos left = .ok found?) :
    pattern.Leftmost task.text task.mode pos found? := by
  have inside := Text.le_size_of_isBoundary here
  induction n generalizing pos left with
  | zero => omega
  | succ n ih =>
    rcases task.tryFrom_succ h with ⟨final, ends, rfl⟩ | ⟨ends, rest⟩
    · obtain ⟨same, point, first⟩ := task.ofState_of_attempt numbered graph ends
      rw [← point, same] at first
      exact ⟨Nat.le_refl _, here, first, fun q le lt => absurd lt (Nat.not_lt.mpr le)⟩
    · have failed := (task.firstResult?_of_attempt numbered graph ends).mp rfl
      rcases rest with ⟨last, rfl⟩ | ⟨later, further, h⟩
      · exact NumberedPattern.leftmost_none_of_last here last failed
      · have moved := Text.lt_of_afterChar? further
        exact (ih (Text.isBoundary_of_after? further) (by omega) h
          (Text.le_size_of_afterChar? further)).before here further failed

/-! ## Searches -/

/-- The next match from an offset on is the one that trying every position finds, from the first
boundary at or after the offset on. -/
theorem Matches.next?_start_of_tryAll {start pos : Nat}
    (rounded : Text.roundUp? task.text start = some pos) (plain : task.tryAll pos = .ok found?) :
    (Matches.start task start).next?.1 = found?.map .ok := by
  have same := task.scanWithin_eq_of_tryFrom numbered graph #[]
    (Text.isBoundary_of_roundUp? rounded) (Nat.le_refl _) (Nat.le_refl _) (Nat.le_refl _) plain
  rw [Matches.start, Matches.next?, Matches.scan?, rounded]
  simp only [Option.map_some, Scan.item?, Task.scan, same]
  cases found? <;> rfl

end

/-- **A search finds the leftmost match.** Where trying every position, from the first boundary at
or after the start on, hits no limit, a search has the same answer: the match that begins furthest
to the left, with what the attempt there captured, or that there is none. -/
theorem next?_start_eq_tryAll {source : String} {pattern : NumberedPattern}
    (parsed : NumberedPattern.parse source = .ok pattern) {task : Task}
    (graph : task.graph = .ofPattern pattern) {start : Nat}
    (inside : start ≤ task.text.utf8ByteSize) :
    ∃ pos, Text.roundUp? task.text start = some pos ∧
      ∀ found?, task.tryAll pos = .ok found? →
        (Matches.start task start).next?.1 = found?.map .ok ∧
          pattern.Leftmost task.text task.mode start found? := by
  obtain ⟨next, numbered⟩ := NumberedPattern.numbered_of_parse parsed
  have rounded : Text.roundUp? task.text start =
      some (Text.boundaryFrom task.text (task.text.utf8ByteSize - start) start) := if_pos inside
  have here := Text.isBoundary_of_roundUp? rounded
  refine ⟨_, rounded, fun found? plain => ⟨?_, ?_⟩⟩
  · exact Matches.next?_start_of_tryAll numbered graph rounded plain
  · have leftmost := task.leftmost_of_tryFrom numbered graph here (Nat.le_refl _) plain
    refine leftmost.widen (Text.le_boundaryFrom ..) fun q le lt there => ?_
    exact absurd (Text.le_of_isBoundary_of_boundaryFrom le there) (Nat.not_le.mpr lt)

theorem next?_start_eq_tryAll_literal :
    let pattern : NumberedPattern := ⟨.seq [.char 'a', .quantified ⟨1, 2⟩ 0 none true
      (.group ⟨1, 2⟩ .capturing (.char 'b'))], 1, 1⟩
    let task : Task := ⟨.ofPattern pattern, "aéxabbab", ⟨false, false⟩, ⟨100, 10⟩⟩
    let found : Match := ⟨⟨4, 7⟩, #[some ⟨6, 7⟩]⟩
    NumberedPattern.parse "a(b)*" = .ok pattern ∧
      Text.roundUp? task.text 2 = some 3 ∧ task.tryAll 3 = .ok (some found) ∧
      (Matches.start task 2).next?.1 = some (.ok found) ∧
      pattern.Leftmost task.text task.mode 2 (some found) := by
  intro pattern task found
  have parsed : NumberedPattern.parse "a(b)*" = .ok pattern := rfl
  have graph : task.graph = .ofPattern pattern := rfl
  have rounded : Text.roundUp? task.text 2 = some 3 := by cbv
  have plain : task.tryAll 3 = .ok (some found) := by cbv
  have inside : 2 ≤ task.text.utf8ByteSize := by cbv
  obtain ⟨pos, rounded', all⟩ := next?_start_eq_tryAll parsed graph inside
  rw [rounded] at rounded'
  cases rounded'
  exact ⟨parsed, rounded, plain, all (some found) plain⟩

end BacktrackRegex
