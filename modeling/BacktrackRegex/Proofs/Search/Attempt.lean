import BacktrackRegex.Proofs.Graph.Carries
import BacktrackRegex.Search.Scan

/-!
# What an attempt finds

The graph of a pattern has two entries. From the anchored one a walk can reach the goal in each
result of the pattern at its position, and from the other one in each result at its position or at
one further on. So there is a list of these states in both cases: a walk stops at the first of them
or comes to its end, and only a limit can cut it short.

* `attempt_finds_firstResult`: an attempt that hits no limit finds the first result.
* `attempt_ends`: limits that are high enough are not hit.
-/

namespace BacktrackRegex

namespace NumberedPattern

/-- A whole pattern is captured in slot 0. -/
def whole (pattern : NumberedPattern) (next : Nat) : Pattern GroupRange :=
  .group ⟨0, next⟩ .capturing pattern.tree

variable {pattern : NumberedPattern} {next : Nat}

theorem numbered_whole (h : pattern.tree.Numbered 1 next) :
    (pattern.whole next).Numbered 0 next :=
  ⟨rfl, h⟩

theorem firstResult?_eq_head? (pattern : NumberedPattern) (next : Nat) (text : String) (mode : Mode)
    (graph : Graph) (slots : graph.slots = pattern.groupCount + 1) (pos : Nat) :
    pattern.firstResult? text mode pos =
      ((pattern.whole next).results text mode (State.initial graph pos).point).head? := by
  rw [firstResult?, whole, Pattern.results, List.head?_map, State.point, State.initial, slots]

end NumberedPattern

namespace Graph

/-- A whole pattern stands between the anchored entry and the goal, and characters are skipped
between the two entries. -/
theorem fragments_ofPattern (pattern : NumberedPattern) (next : Nat) : ∃ loops,
    Fragment (ofPattern pattern).nodes (pattern.whole next) 0 0 (ofPattern pattern).anchored loops ∧
      Fragment (ofPattern pattern).nodes skipAhead (ofPattern pattern).anchored loops
        (ofPattern pattern).start (ofPattern pattern).loops := by
  let anchored := Draft.emit (pattern.whole next) .start
  have grown := Draft.extends_emit skipAhead anchored
  have fragment : Fragment (Draft.emit skipAhead anchored).nodes (pattern.whole next) 0 0
      anchored.entry anchored.loops :=
    fragment_emit _ .start fun i _ inside => grown.same i inside
  exact ⟨anchored.loops, fragment, fragment_emit _ anchored fun _ _ _ => rfl⟩

theorem getElem?_goal (pattern : NumberedPattern) :
    (ofPattern pattern).nodes[0]? = some .goal := by
  have grown := (Draft.extends_emit (pattern.whole 0) .start).trans (Draft.extends_emit skipAhead _)
  exact grown.same 0 (Nat.zero_lt_one)

end Graph

theorem State.idle_initial (graph : Graph) (pos first next : Nat) :
    (State.initial graph pos).Idle first next 0 graph.loops := by
  refine ⟨by simp [initial], fun g _ _ => ?_, fun k _ inside => ?_⟩
  · simp only [initial, Array.getElem?_replicate]
    split <;> rfl
  · simp only [initial, Array.getElem?_replicate, if_pos inside]

section

variable {pattern : NumberedPattern} {next : Nat} (numbered : pattern.tree.Numbered 1 next)
  {task : Task} (graph : task.graph = .ofPattern pattern)

include numbered graph

/-- From the anchored entry the goal is reached in the results of the pattern. -/
theorem yields_anchored (pos : Nat) :
    Yields task (.resume task.graph.anchored (.initial task.graph pos))
      (((pattern.whole next).results task.text task.mode (State.initial task.graph pos).point).map
        (State.initial task.graph pos).put) := by
  obtain ⟨loops, fragment, skip⟩ := Graph.fragments_ofPattern pattern next
  have hgoal := Graph.getElem?_goal pattern
  rw [← graph] at fragment skip hgoal
  have idle := (State.idle_initial task.graph pos 0 next).narrow (Nat.le_refl _) (Nat.le_refl _)
    (Nat.le_refl _) skip.loops_le
  exact yields_body hgoal (fragment.carries (NumberedPattern.numbered_whole numbered)) idle

/-- From the other entry it is reached in the results at each position from here on. -/
theorem yields_start (pos : Nat) : ∃ goals,
    Yields task (.resume task.graph.start (.initial task.graph pos)) goals := by
  obtain ⟨loops, fragment, skip⟩ := Graph.fragments_ofPattern pattern next
  have hgoal := Graph.getElem?_goal pattern
  rw [← graph] at fragment skip hgoal
  have both : Fragment task.graph.nodes (.seq [Graph.skipAhead, pattern.whole next]) 0 0
      task.graph.start task.graph.loops :=
    ⟨_, loops, ⟨0, 0, ⟨rfl, rfl⟩, fragment⟩, skip⟩
  have numbered' : Pattern.Numbered (.seq [Graph.skipAhead, pattern.whole next]) 0 next :=
    ⟨0, ⟨rfl, rfl⟩, next, NumberedPattern.numbered_whole numbered, rfl⟩
  exact ⟨_, yields_body hgoal (both.carries numbered') (State.idle_initial task.graph pos 0 next)⟩

/-- An attempt from the anchored entry comes to the first result, if the limits allow it. -/
theorem settles_anchored (pos : Nat) :
    Settles task (.enter task.graph task.graph.anchored pos)
      ((pattern.firstResult? task.text task.mode pos).map (State.initial task.graph pos).put) := by
  have settles := (yields_anchored numbered graph pos).settles
  rw [List.head?_map, ← pattern.firstResult?_eq_head? next _ _ _ (by rw [graph]; rfl)] at settles
  exact settles

end

/-! ## Attempts -/

variable {source : String} {pattern : NumberedPattern}

/-- **An attempt finds the first result.** Unless it hits a limit, it reaches the goal just where
the best way to match the pattern ends, with just those captures, and if there is no way to match
the pattern it says so. -/
theorem attempt_finds_firstResult (parsed : NumberedPattern.parse source = .ok pattern)
    {task : Task} (graph : task.graph = .ofPattern pattern) {pos left : Nat}
    {final : Option State}
    (ends : (task.attempt task.graph.anchored pos left).result = .ok final) :
    final.map State.point = pattern.firstResult? task.text task.mode pos := by
  obtain ⟨next, numbered⟩ := NumberedPattern.numbered_of_parse parsed
  have settles := settles_anchored numbered graph pos
  have same : State.point ∘ (State.initial task.graph pos).put = id := funext fun _ => rfl
  rw [settles.eq_of_walkFrom ends, Option.map_map, same, Option.map_id, id]

theorem attempt_finds_firstResult_lookahead :
    let pattern : NumberedPattern := ⟨.seq [.group ⟨1, 2⟩ .lookahead (.group ⟨1, 2⟩ .capturing
      (.quantified ⟨2, 2⟩ 1 none true (.char 'a'))), .quantified ⟨2, 2⟩ 0 none false (.char 'a'),
      .char 'b', .backreference 1], 1, 2⟩
    let task : Task := ⟨.ofPattern pattern, "baaabac", ⟨false, false⟩, ⟨100, 10⟩⟩
    let final : State :=
      ⟨6, #[some ⟨3, 6⟩, some ⟨3, 4⟩], #[none, none], #[none, none, none]⟩
    NumberedPattern.parse "(?=(a+))a*?b\\1" = .ok pattern ∧
      (task.attempt task.graph.anchored 3 100).result = .ok (some final) ∧
      some final.point = pattern.firstResult? "baaabac" ⟨false, false⟩ 3 := by
  intro pattern task final
  have parsed : NumberedPattern.parse "(?=(a+))a*?b\\1" = .ok pattern := rfl
  have ends : (task.attempt task.graph.anchored 3 100).result = .ok (some final) := by cbv
  have graph : task.graph = .ofPattern pattern := rfl
  exact ⟨parsed, ends, attempt_finds_firstResult parsed graph ends⟩

/-- **Only limits cut an attempt short.** From either entry there is one way for it to end, which
takes only so many steps and choice points. -/
theorem attempt_ends (parsed : NumberedPattern.parse source = .ok pattern) (text : String)
    (mode : Mode) (pos : Nat) {entry : Nat}
    (h : entry = (Graph.ofPattern pattern).anchored ∨ entry = (Graph.ofPattern pattern).start) :
    ∃ bound final, ∀ limits : Limits, bound ≤ limits.steps → bound ≤ limits.depth →
      (Task.attempt ⟨.ofPattern pattern, text, mode, limits⟩ entry pos limits.steps).result =
        .ok final := by
  obtain ⟨next, numbered⟩ := NumberedPattern.numbered_of_parse parsed
  let task : Task := ⟨.ofPattern pattern, text, mode, ⟨0, 0⟩⟩
  have graph : task.graph = .ofPattern pattern := rfl
  have settles : ∃ final, Settles task (.enter task.graph entry pos) final := by
    rcases h with rfl | rfl
    · exact ⟨_, settles_anchored numbered graph pos⟩
    · obtain ⟨goals, yields⟩ := yields_start numbered graph pos
      exact ⟨_, yields.settles⟩
  obtain ⟨final, settles⟩ := settles
  obtain ⟨bound, all⟩ := settles.eventually
  exact ⟨bound, final, all⟩

theorem attempt_ends_nested :
    let pattern : NumberedPattern := ⟨.quantified ⟨1, 2⟩ 0 none true (.group ⟨1, 2⟩ .capturing
      (.quantified ⟨2, 2⟩ 0 none true (.char 'a'))), 1, 2⟩
    NumberedPattern.parse "(a*)*" = .ok pattern ∧
      ∃ bound final, ∀ limits : Limits, bound ≤ limits.steps → bound ≤ limits.depth →
        (Task.attempt ⟨.ofPattern pattern, "aab", ⟨false, false⟩, limits⟩
          (Graph.ofPattern pattern).start 0 limits.steps).result = .ok final := by
  intro pattern
  have parsed : NumberedPattern.parse "(a*)*" = .ok pattern := rfl
  exact ⟨parsed, attempt_ends parsed "aab" ⟨false, false⟩ 0 (.inr rfl)⟩

end BacktrackRegex
