import BacktrackRegex.Proofs.Pattern.Nested
import BacktrackRegex.Proofs.Search.OneWalk
import BacktrackRegex.Proofs.Search.Order

/-!
# What a search captures is nested

Whatever way a text is searched, a match is a result of the pattern at some position, and an attempt
begins with all groups unset. So the captures of every match lie in each other as the groups of the
pattern do (`Regex.nests_of_parse`).
-/

namespace BacktrackRegex

/-- Whether what the groups of a pattern captured lies in each other as the groups do. -/
structure NumberedPattern.Nests (pattern : NumberedPattern) (captured : Nat → Option Span) :
    Prop where
  /-- a group that is set lies in the groups around it, which are set as well, if every lookahead
  around it is around them -/
  inner : ∀ {looks outer body inner body'},
    pattern.tree.Holds looks (.group outer .capturing body) →
    body.Holds [] (.group inner .capturing body') →
    ∀ span, captured inner.first = some span →
      ∃ around, captured outer.first = some around ∧ span.Inside around
  /-- a group that is set, and in no lookahead, lies in the match -/
  whole : ∀ {inner body}, pattern.tree.Holds [] (.group inner .capturing body) →
    ∀ span, captured inner.first = some span →
      ∃ around, captured 0 = some around ∧ span.Inside around
  /-- a group in a negated lookahead is unset -/
  negated : ∀ {looks inner body}, pattern.tree.Holds looks (.group inner .capturing body) →
    true ∈ looks → captured inner.first = none

namespace NumberedPattern

variable {pattern : NumberedPattern} {text : String} {mode : Mode}

/-- The first result at a position has nested captures. -/
theorem nests_of_firstResult? (numbered : pattern.tree.Numbered 1 (pattern.groupCount + 1))
    {pos : Nat} {found : Point} (h : pattern.firstResult? text mode pos = some found) :
    pattern.Nests fun g => found.captures[g]?.join := by
  let start : Point := ⟨pos, Array.replicate (pattern.groupCount + 1) none⟩
  have unset : start.Unset 0 (pattern.groupCount + 1) := by
    intro g _ lt
    rw [Array.getElem?_replicate, if_pos lt]
  -- slot 0 is captured as by a group around the whole pattern
  have mem : found ∈ (pattern.whole (pattern.groupCount + 1)).results text mode start := by
    obtain ⟨inner, first, rfl⟩ := Option.map_eq_some_iff.mp h
    exact List.mem_map_of_mem (List.mem_of_mem_head? first)
  have nested := Pattern.nested_of_mem_results (numbered_whole numbered) unset mem
  exact ⟨fun holds => nested.nested (.capturing holds), fun holds => nested.nested (.self _) holds,
    fun holds => nested.negated (.capturing holds)⟩

end NumberedPattern

/-- Whether the texts of an outcome are pieces that lie in each other as the groups of a pattern do.
The match ends where the outcome says. -/
def Outcome.Nests (outcome : Outcome) (pattern : NumberedPattern) (text : String) : Prop :=
  ∃ (start : Nat) (captured : Nat → Option Span),
    captured 0 = some ⟨start, outcome.stop⟩ ∧ pattern.Nests captured ∧
      ∀ g, outcome.captures[g]?.join = (captured g).map (Text.slice text)

theorem Outcome.nests_ofFinal {graph : Graph} {pattern : NumberedPattern}
    (numbered : pattern.tree.Numbered 1 (pattern.groupCount + 1)) {text : String} {mode : Mode}
    {start : Nat} {final : State} (trace : Option Trace)
    (h : pattern.firstResult? text mode start = some final.point) :
    (ofFinal graph text trace (some final)).Nests pattern text := by
  refine ⟨start, fun g => final.captures[g]?.join, ?_, pattern.nests_of_firstResult? numbered h,
    fun g => ?_⟩
  · have whole := pattern.captures_zero_of_firstResult? numbered h
    exact congrArg Option.join whole
  · rw [ofFinal, Array.getElem?_map, Option.join_map_eq_map_join]

namespace Regex

/-- Whether the captures of all matches lie in each other as the groups of a pattern do. -/
structure Nests (regex : Regex) (pattern : NumberedPattern) (text : String) : Prop where
  /-- those of the matches that a search finds -/
  found : ∀ {start n : Nat} {found : Match},
    (regex.findFrom text start).item? n = some (.ok found) → pattern.Nests found.group?
  /-- those of traces -/
  traced : ∀ {start : Nat} {mode : Mode} {outcome : Outcome},
    regex.trace text start mode = .ok outcome → outcome.matched = true →
      outcome.Nests pattern text
  /-- those of attempts at one position -/
  tried : ∀ {start : Nat} {mode : Mode} {outcome : Outcome},
    regex.graph.matchAt text start mode = .ok outcome → outcome.matched = true →
      outcome.Nests pattern text

variable {regex : Regex} {text : String} {source : String} {pattern : NumberedPattern}

section

variable (graph : regex.graph = .ofPattern pattern)
  (numbered : pattern.tree.Numbered 1 (pattern.groupCount + 1))

include graph numbered

/-- A match that a search finds is the first result where it begins. -/
theorem firstResult?_of_item? {start n : Nat} {found : Match}
    (h : (regex.findFrom text start).item? n = some (.ok found)) :
    pattern.firstResult? text regex.flags.mode found.span.start = some found.point := by
  obtain ⟨pos, resume, item, -⟩ := Matches.exists_scan_of_item? h
  have boundary := (safe_scan graph numbered resume).1
  have course := (regex.task text).course_scan (Text.le_size_of_isBoundary boundary)
  obtain ⟨-, -, first, -⟩ := course.leftmost graph numbered boundary (Scan.item?_eq_ok.mp item)
  exact first

/-- What a trace finds is the first result at some position. -/
theorem exists_firstResult?_of_traced {pos : Nat} {mode : Mode} {final : State}
    (boundary : Text.isBoundary text pos = true)
    (h : (regex.traced text mode pos).result = .ok (some final)) :
    ∃ start, pattern.firstResult? text mode start = some final.point := by
  let task : Task := ⟨regex.graph, text, mode, regex.limits⟩
  obtain ⟨found?, plain, same⟩ :=
    task.tryAll_of_attemptLogged numbered graph (Text.le_size_of_isBoundary boundary) h
  obtain ⟨found, rfl, point⟩ := Option.map_eq_some_iff.mp same
  obtain ⟨-, -, first, -⟩ :=
    task.leftmost_of_tryFrom numbered graph boundary (Nat.le_refl _) plain
  exact ⟨_, first.trans (congrArg some point)⟩

end

/-- **Captures are nested as their groups are.** Of every match, with any flags and limits, a group
that is set lies in all groups around it and in the match, as far as no lookahead is between them,
and a group in a negated lookahead is unset. -/
theorem nests_of_parse (parsed : NumberedPattern.parse source = .ok pattern)
    (graph : regex.graph = .ofPattern pattern) (text : String) : regex.Nests pattern text := by
  have numbered := NumberedPattern.numbered_groupCount parsed
  refine ⟨fun {start n found} item => ?_, fun trace matched => ?_, fun attempt matched => ?_⟩
  · have nests := pattern.nests_of_firstResult? numbered
      (firstResult?_of_item? graph numbered item)
    have same : (fun g => found.point.captures[g]?.join) = found.group? :=
      funext found.getElem?_groups
    exact same ▸ nests
  · obtain ⟨-, rfl⟩ | ⟨pos, _ | final, rounded, ends, rfl⟩ := trace_eq_ok trace
    · cases matched
    · cases matched
    · have boundary := Text.isBoundary_of_roundUp? rounded
      obtain ⟨start, first⟩ := exists_firstResult?_of_traced graph numbered boundary ends
      exact Outcome.nests_ofFinal numbered _ first
  · obtain rfl | ⟨pos, _ | final, rounded, ends, rfl⟩ := matchAt_eq_ok attempt
    · cases matched
    · cases matched
    · have first := attempt_finds_firstResult parsed graph ends
      exact Outcome.nests_ofFinal numbered _ first.symm

theorem nests_of_parse_iterations :
    let pattern : NumberedPattern := ⟨.quantified ⟨1, 4⟩ 1 none true (.group ⟨1, 4⟩ .nonCapturing
      (.seq [.group ⟨1, 3⟩ .capturing (.seq [.char 'a', .quantified ⟨2, 3⟩ 0 (some 1) true
        (.group ⟨2, 3⟩ .capturing (.char 'b'))]),
        .group ⟨3, 4⟩ .negativeLookahead (.group ⟨3, 4⟩ .capturing (.char 'c'))])), 3, 2⟩
    let regex : Regex := ⟨.ofPattern pattern, ⟨false, false, false⟩, ⟨100, 10⟩⟩
    let found : Match := ⟨⟨1, 5⟩, #[some ⟨3, 5⟩, some ⟨4, 5⟩, none]⟩
    NumberedPattern.parse "(?:(a(b)?)(?!(c)))+" = .ok pattern ∧ regex.Nests pattern "xabab" ∧
      (regex.findFrom "xabab" 0).item? 0 = some (.ok found) ∧
      (∃ around, found.group? 1 = some around ∧ Span.Inside ⟨4, 5⟩ around) ∧
      found.group? 3 = none := by
  intro pattern regex found
  have parsed : NumberedPattern.parse "(?:(a(b)?)(?!(c)))+" = .ok pattern := rfl
  have nests : regex.Nests pattern "xabab" := nests_of_parse parsed rfl "xabab"
  have item : (regex.findFrom "xabab" 0).item? 0 = some (.ok found) := by cbv
  have nested : pattern.Nests found.group? := nests.found item
  have set : found.group? 2 = some ⟨4, 5⟩ := rfl
  have inner : (Pattern.seq [.char 'a', .quantified ⟨2, 3⟩ 0 (some 1) true
      (.group ⟨2, 3⟩ .capturing (.char 'b'))] : Pattern GroupRange).Holds []
      (.group ⟨2, 3⟩ .capturing (.char 'b')) :=
    .seq (List.mem_cons_of_mem _ (List.mem_singleton_self _)) (.quantified (.self _))
  exact ⟨parsed, nests, item,
    nested.inner (.quantified (.nonCapturing (.seq List.mem_cons_self (.self _)))) inner _ set,
    nested.negated (.quantified (.nonCapturing (.seq
      (List.mem_cons_of_mem _ (List.mem_singleton_self _)) (.negativeLookahead (.self _)))))
      (List.mem_singleton_self _)⟩

end Regex

end BacktrackRegex
