import BacktrackRegex.Proofs.Pattern.Order
import BacktrackRegex.Proofs.Search.Safety

/-!
# The order of the choices in a search

A scan that hits no limit finds the leftmost match (`Task.Course.leftmost`), whether or not there
were steps enough to try every position. Where that match begins depends only on the positions at
which the pattern has a result, and these are the same for a pattern in another order, as long as
there are no backreferences. So two expressions for patterns that differ in their order never
disagree about whether there is a match, nor about where the first one begins.
-/

namespace BacktrackRegex

namespace NumberedPattern

variable {pattern : NumberedPattern} {text : String} {mode : Mode}

/-- The pattern with another tree, whose groups are numbered anew. -/
def withTree (pattern : NumberedPattern) (other : Pattern GroupRange) : NumberedPattern :=
  { pattern with tree := (other.number 1).1 }

/-- In another order a pattern matches at the same positions. -/
theorem firstResult?_withTree_eq_none_iff {other : Pattern GroupRange}
    (plain : pattern.tree.refersBack = false) (reordered : pattern.tree.Reordered other)
    (pos : Nat) :
    pattern.firstResult? text mode pos = none ↔
      (pattern.withTree other).firstResult? text mode pos = none := by
  have same : Point.SameEnds (pattern.tree.results text mode)
      ((other.number 1).1.results text mode) :=
    (Pattern.sameEnds_of_reordered reordered plain).trans
      (Pattern.sameEnds_of_reordered (other.reordered_number 1) (reordered.plain plain))
  simp only [firstResult?, withTree, Option.map_eq_none_iff, List.head?_eq_none_iff]
  exact same.eq_nil_iff rfl

/-- Two patterns that match at the same positions have leftmost matches that begin at the same
position. -/
theorem Leftmost.start_eq {other : NumberedPattern} {start : Nat} {found? found?' : Option Match}
    (same : ∀ pos, pattern.firstResult? text mode pos = none ↔
      other.firstResult? text mode pos = none)
    (h : pattern.Leftmost text mode start found?) (h' : other.Leftmost text mode start found?') :
    found?.map (·.span.start) = found?'.map (·.span.start) := by
  rcases found? with _ | found <;> rcases found?' with _ | found'
  · rfl
  · obtain ⟨le, there, first, -⟩ := h'
    rw [(same _).mp (h _ le there)] at first
    cases first
  · obtain ⟨le, there, first, -⟩ := h
    rw [(same _).mpr (h' _ le there)] at first
    cases first
  · obtain ⟨le, there, first, none⟩ := h
    obtain ⟨le', there', first', none'⟩ := h'
    -- neither can begin before the other
    rcases Nat.lt_trichotomy found.span.start found'.span.start with lt | eq | gt
    · rw [(same _).mpr (none' _ le lt there)] at first
      cases first
    · exact congrArg some eq
    · rw [(same _).mp (none _ le' gt there')] at first'
      cases first'

end NumberedPattern

section

variable {pattern : NumberedPattern} {task : Task} (graph : task.graph = .ofPattern pattern)

include graph

/-- Before the next position that passes there is no match. -/
theorem Task.leftmost_of_next? {pos found : Nat} {found? : Option Match}
    (next : task.graph.startPredicate.next? task.text task.mode.fold task.mode.multiline pos =
      some found)
    (h : pattern.Leftmost task.text task.mode found found?) :
    pattern.Leftmost task.text task.mode pos found? := by
  rw [graph] at next
  refine h.widen (StartPredicate.le_of_next? next) fun q le lt _ => ?_
  exact pattern.firstResult?_eq_none (StartPredicate.not_passes_of_next? next le lt)

theorem Task.leftmost_of_next?_none {pos : Nat}
    (next : task.graph.startPredicate.next? task.text task.mode.fold task.mode.multiline pos =
      none) : pattern.Leftmost task.text task.mode pos none := by
  rw [graph] at next
  intro q le there
  have inside := Text.le_size_of_isBoundary there
  exact pattern.firstResult?_eq_none (StartPredicate.not_passes_of_next?_none next le inside)

variable {last : Nat} (numbered : pattern.tree.Numbered 1 last)

include numbered

/-- **A scan that hits no limit finds the leftmost match.** -/
theorem Task.Course.leftmost {pos left : Nat} {tried : Array Nat} {scan : Scan}
    (course : task.Course pos left tried scan) (here : Text.isBoundary task.text pos = true)
    {found? : Option Match} (h : scan.result = .ok found?) :
    pattern.Leftmost task.text task.mode pos found? := by
  induction course with
  | exhausted next =>
    cases h
    exact task.leftmost_of_next?_none graph next
  | cut next ends => cases h
  | found next ends =>
    cases h
    have there := task.isBoundary_of_next? graph next here
    obtain ⟨same, point, first⟩ := task.ofState_of_attempt numbered graph ends
    rw [← point, same] at first
    rw [same]
    exact task.leftmost_of_next? graph next
      ⟨Nat.le_refl _, there, first, fun q le lt => absurd lt (Nat.not_lt.mpr le)⟩
  | last next ends further =>
    cases h
    have there := task.isBoundary_of_next? graph next here
    have failed := (task.firstResult?_of_attempt numbered graph ends).mp rfl
    have leftmost := NumberedPattern.leftmost_none_of_last there further failed
    exact task.leftmost_of_next? graph next leftmost
  | later next ends further more ih =>
    have there := task.isBoundary_of_next? graph next here
    have failed := (task.firstResult?_of_attempt numbered graph ends).mp rfl
    have leftmost := ih (Text.isBoundary_of_after? further) h
    exact task.leftmost_of_next? graph next (leftmost.before there further failed)

end

/-- So does a search. -/
theorem Regex.leftmost_of_firstFrom {regex : Regex} {pattern : NumberedPattern} {last : Nat}
    (graph : regex.graph = .ofPattern pattern) (numbered : pattern.tree.Numbered 1 last)
    {text : String} {start : Nat} {found? : Option Match}
    (h : regex.firstFrom text start = .ok found?) :
    pattern.Leftmost text regex.flags.mode start found? := by
  rw [firstFrom, findFrom, Matches.start, Matches.next?, Matches.scan?] at h
  rcases rounded : Text.roundUp? (regex.task text).text start with _ | pos <;> rw [rounded] at h
  · cases h
    intro q le there
    exact absurd (Text.lt_of_roundUp?_eq_none rounded there) (Nat.not_lt.mpr le)
  · have here := Text.isBoundary_of_roundUp? rounded
    have result : ((regex.task text).scan pos).result = .ok found? := by
      simp only [Option.map_some, Scan.item?] at h
      rcases result : ((regex.task text).scan pos).result with limit | _ | found <;>
        simp only [result] at h <;> cases h <;> rfl
    have course := (regex.task text).course_scan (Text.le_size_of_isBoundary here)
    have leftmost := course.leftmost graph numbered here result
    obtain ⟨le, first⟩ := Text.le_of_roundUp? rounded
    exact leftmost.widen le fun q le lt there => absurd lt (Nat.not_lt.mpr (first q le there))

namespace Regex

/-- Unless they hit a limit, the two expressions never disagree about whether there is a match in a
text, at one position or at all, nor about where the first one begins. -/
structure Agree (regex regex' : Regex) (text : String) : Prop where
  /-- attempts at one position -/
  attempts {pos left left' : Nat} {final final' : Option State}
    (ends : ((regex.task text).attempt regex.graph.anchored pos left).result = .ok final)
    (ends' : ((regex'.task text).attempt regex'.graph.anchored pos left').result = .ok final') :
    final.isSome = final'.isSome
  /-- searches from an offset on -/
  starts {start : Nat} {found? found?' : Option Match}
    (ends : regex.firstFrom text start = .ok found?)
    (ends' : regex'.firstFrom text start = .ok found?') :
    found?.map (·.span.start) = found?'.map (·.span.start)
  /-- tests of a whole text -/
  tests {answer answer' : Bool} (ends : regex.test text = .ok answer)
    (ends' : regex'.test text = .ok answer') : answer = answer'

theorem exists_firstFrom_of_test {regex : Regex} {text : String} {answer : Bool}
    (h : regex.test text = .ok answer) :
    ∃ found?, regex.firstFrom text 0 = .ok found? ∧ answer = found?.isSome := by
  rw [test, find] at h
  rcases first : regex.firstFrom text 0 with error | found? <;> rw [first] at h
  · cases h
  · cases h
    exact ⟨found?, rfl, rfl⟩

/-- **The order never decides whether there is a match.** For a pattern without backreferences that
was read, and the same with other quantifiers greedy and its alternatives in another order, two
expressions with the same flags agree on every text, whatever their limits. -/
theorem agree_of_reordered {source : String} {pattern : NumberedPattern}
    (parsed : NumberedPattern.parse source = .ok pattern)
    (plain : pattern.tree.refersBack = false) {other : Pattern GroupRange}
    (reordered : pattern.tree.Reordered other) {regex regex' : Regex}
    (graph : regex.graph = .ofPattern pattern)
    (graph' : regex'.graph = .ofPattern (pattern.withTree other))
    (mode : regex.flags.mode = regex'.flags.mode) (text : String) : regex.Agree regex' text := by
  obtain ⟨next, numbered⟩ := NumberedPattern.numbered_of_parse parsed
  have numbered' : (pattern.withTree other).tree.Numbered 1 (other.number 1).2 :=
    other.numbered_number 1
  have same (pos : Nat) : pattern.firstResult? text regex.flags.mode pos = none ↔
      (pattern.withTree other).firstResult? text regex.flags.mode pos = none :=
    NumberedPattern.firstResult?_withTree_eq_none_iff plain reordered pos
  have starts {start : Nat} {found? found?' : Option Match}
      (ends : regex.firstFrom text start = .ok found?)
      (ends' : regex'.firstFrom text start = .ok found?') :
      found?.map (·.span.start) = found?'.map (·.span.start) := by
    have leftmost' := leftmost_of_firstFrom graph' numbered' ends'
    rw [← mode] at leftmost'
    exact (leftmost_of_firstFrom graph numbered ends).start_eq same leftmost'
  constructor
  case attempts =>
    intro pos left left' final final' ends ends'
    have failed := (regex.task text).firstResult?_of_attempt numbered graph ends
    have failed' := (regex'.task text).firstResult?_of_attempt numbered' graph' ends'
    have none : final = none ↔ final' = none := by
      rw [failed, failed']
      simp only [task, ← mode]
      exact same pos
    rw [Bool.eq_iff_iff, ← not_iff_not]
    simpa using none
  case starts => exact starts
  case tests =>
    intro answer answer' ends ends'
    obtain ⟨found?, first, rfl⟩ := exists_firstFrom_of_test ends
    obtain ⟨found?', first', rfl⟩ := exists_firstFrom_of_test ends'
    have begins := congrArg Option.isSome (starts first first')
    rwa [Option.isSome_map, Option.isSome_map] at begins

theorem agree_of_reordered_lazy :
    let inner : Pattern GroupRange := .group ⟨2, 3⟩ .capturing (.seq [.char 'a', .char 'b'])
    let pattern : NumberedPattern := ⟨.seq [.quantified ⟨1, 3⟩ 0 none false
      (.group ⟨1, 3⟩ .capturing (.choice [.char 'a', inner])), .char 'b'], 2, 1⟩
    let other : Pattern GroupRange := .seq [.quantified ⟨1, 3⟩ 0 none true
      (.group ⟨1, 3⟩ .capturing (.choice [inner, .char 'a'])), .char 'b']
    let regex : Regex := ⟨.ofPattern pattern, ⟨false, false, false⟩, ⟨1000, 10⟩⟩
    let regex' : Regex := ⟨.ofPattern (pattern.withTree other), ⟨false, false, false⟩, ⟨900, 20⟩⟩
    NumberedPattern.parse "(a|(ab))*?b" = .ok pattern ∧ pattern.tree.refersBack = false ∧
      pattern.tree.Reordered other ∧ regex.flags.mode = regex'.flags.mode ∧
      regex.Agree regex' "caababb" ∧
      regex.find "caababb" = .ok (some ⟨⟨1, 4⟩, #[some ⟨2, 3⟩, none]⟩) ∧
      regex'.find "caababb" = .ok (some ⟨⟨1, 7⟩, #[some ⟨4, 6⟩, some ⟨4, 6⟩]⟩) := by
  intro inner pattern other regex regex'
  have parsed : NumberedPattern.parse "(a|(ab))*?b" = .ok pattern := rfl
  have plain : pattern.tree.refersBack = false := rfl
  have same : inner.Reordered inner :=
    ⟨_, _, rfl, _, rfl, _, _, rfl, rfl, _, _, rfl, rfl, rfl⟩
  have body : Pattern.Reordered (.choice [.char 'a', inner]) (.choice [inner, .char 'a']) :=
    ⟨[.char 'a', inner], _, rfl, .swap .., _, _, rfl, rfl, _, _, rfl, same, rfl⟩
  have reordered : pattern.tree.Reordered other :=
    ⟨_, rfl, _, _, rfl, ⟨_, _, _, rfl, _, _, rfl, body⟩, _, _, rfl, rfl, rfl⟩
  have graph : regex.graph = .ofPattern pattern := rfl
  have graph' : regex'.graph = .ofPattern (pattern.withTree other) := rfl
  have mode : regex.flags.mode = regex'.flags.mode := rfl
  have agree := agree_of_reordered parsed plain reordered graph graph' mode "caababb"
  refine ⟨parsed, plain, reordered, mode, agree, ?_, ?_⟩
  · cbv
  · cbv

end Regex

end BacktrackRegex
