import BacktrackRegex.Proofs.Pattern.Nested
import BacktrackRegex.Proofs.Pattern.Tally
import BacktrackRegex.Proofs.Search.Scan
import BacktrackRegex.Regex

/-!
# Exact repetitions

A quantifier that asks for just `n` iterations can be written out as `n` copies of its body, if no
group in the body captures. All iterations are required, so none of them is dropped for having
consumed nothing, and there is nothing that groups could forget before an iteration. The results are
the same then (`Pattern.repeated_eq_resultsOfSeq`).

`Pattern.Unrolled p q` says that this is done in `p` at one place, wherever that is. The graphs of
both patterns are different: the copies have nodes of their own, and the quantifiers in them are
numbered apart. Yet attempts at a match come to the same, as both find the first result
(**`NumberedPattern.agree_of_unrolls`**).
-/

namespace BacktrackRegex

namespace Pattern

variable {text : String} {mode : Mode} {first next : Nat}

/-! ## Patterns one after the other -/

theorem resultsOfSeq_append (ps qs : List (Pattern GroupRange)) (point : Point) :
    resultsOfSeq text mode (ps ++ qs) point =
      (resultsOfSeq text mode ps point).flatMap (resultsOfSeq text mode qs) := by
  induction ps generalizing point with
  | nil => exact (List.flatMap_singleton _ point).symm
  | cons p rest ih =>
    rw [List.cons_append, resultsOfSeq, resultsOfSeq, List.flatMap_assoc]
    exact congrArg (List.flatMap · _) (funext ih)

theorem resultsOfChoice_append (ps qs : List (Pattern GroupRange)) (point : Point) :
    resultsOfChoice text mode (ps ++ qs) point =
      resultsOfChoice text mode ps point ++ resultsOfChoice text mode qs point := by
  induction ps with
  | nil => rfl
  | cons p rest ih =>
    rw [List.cons_append, resultsOfChoice, resultsOfChoice, ih, List.append_assoc]

/-! ## Patterns without capturing groups -/

theorem NumberedList.next_eq {ps : List (Pattern GroupRange)}
    (h : ∀ p ∈ ps, ∀ {first next}, p.Numbered first next →
      next = first + p.tally GroupKind.captures 0)
    (numbered : NumberedList ps first next) :
    next = first + tallyAll GroupKind.captures 0 ps := by
  induction ps generalizing first with
  | nil => exact numbered.symm
  | cons p rest ih =>
    obtain ⟨middle, hp, hrest⟩ := numbered
    rw [ih (fun q hq => h q (List.mem_cons_of_mem p hq)) hrest, h p List.mem_cons_self hp,
      tallyAll, Nat.add_assoc]

/-- Only capturing groups take numbers. -/
theorem Numbered.next_eq {p : Pattern GroupRange} (h : p.Numbered first next) :
    next = first + p.tally GroupKind.captures 0 := by
  induction p generalizing first next with
  | group label kind body ih =>
    rw [ih h.2, tally, GroupKind.captures]
    split <;> omega
  | quantified label min max greedy body ih => rw [ih h.2, tally, Nat.zero_add]
  | seq terms ih => exact NumberedList.next_eq ih h
  | choice alternatives ih => exact NumberedList.next_eq ih h
  | _ => exact h.symm

/-- Where no group captures, none is taken. -/
theorem Numbered.eq_of_silent {p : Pattern GroupRange} (h : p.Numbered first next)
    (silent : p.tally GroupKind.captures 0 = 0) : first = next := by
  rw [h.next_eq, silent, Nat.add_zero]

/-- Nor by any number of copies. -/
theorem Numbered.replicate {p : Pattern GroupRange} (h : p.Numbered first first) (n : Nat) :
    NumberedList (List.replicate n p) first first := by
  induction n with
  | zero => rfl
  | succ n ih => exact ⟨first, h, ih⟩

/-- **Required iterations follow one another.** If nothing is captured in them, they are so many
copies of the body, of which `more` are to come. -/
theorem repeated_eq_resultsOfSeq {body : Pattern GroupRange} {greedy : Bool}
    {n completed more : Nat} (exactly : completed + more = n) {room : Nat} (enough : more < room)
    (point : Point) :
    Point.repeated (results text mode body) ⟨first, first⟩ n (some n) greedy room completed point =
      resultsOfSeq text mode (List.replicate more body) point := by
  induction more generalizing completed room point with
  | zero =>
    obtain ⟨room, rfl⟩ := Nat.exists_eq_succ_of_ne_zero (Nat.ne_of_gt enough)
    obtain rfl : completed = n := exactly
    rw [Point.repeated_succ, if_neg (Nat.lt_irrefl _), if_pos rfl]
    rfl
  | succ more ih =>
    obtain ⟨room, rfl⟩ := Nat.exists_eq_succ_of_ne_zero (Nat.ne_zero_of_lt enough)
    have required : completed < n := by omega
    have kept : GroupRange.clear ⟨first, first⟩ point.captures = point.captures :=
      GroupRange.clear_eq_self fun g le lt => absurd le (Nat.not_le_of_lt lt)
    rw [Point.repeated_succ, if_pos required, Point.again, kept, List.replicate_succ, resultsOfSeq]
    refine congrArg (List.flatMap · _) (funext fun after => ?_)
    -- a required iteration counts even if it stays where it is
    rw [decide_eq_false (Nat.not_le_of_lt required), Bool.false_and, if_neg Bool.false_ne_true]
    exact ih (by omega) (Nat.lt_of_succ_lt_succ enough) after

/-! ## Writing a quantifier out -/

/-- The other pattern is this one with an exact repetition written out, at one place. No group in
its body captures. -/
inductive Unrolled : Pattern GroupRange → Pattern GroupRange → Prop where
  /-- the repetition itself -/
  | here {groups n greedy body} (silent : body.tally GroupKind.captures 0 = 0) :
    Unrolled (.quantified groups n (some n) greedy body) (.seq (List.replicate n body))
  /-- one in a group -/
  | group {groups kind body body'} (inner : Unrolled body body') :
    Unrolled (.group groups kind body) (.group groups kind body')
  /-- one in the body of a quantifier -/
  | quantified {groups min max greedy body body'} (inner : Unrolled body body') :
    Unrolled (.quantified groups min max greedy body) (.quantified groups min max greedy body')
  /-- one in a term -/
  | seq (before after) {term term'} (inner : Unrolled term term') :
    Unrolled (.seq (before ++ term :: after)) (.seq (before ++ term' :: after))
  /-- one in an alternative -/
  | choice (before after) {p q} (inner : Unrolled p q) :
    Unrolled (.choice (before ++ p :: after)) (.choice (before ++ q :: after))

theorem NumberedList.exchange {before after : List (Pattern GroupRange)} {p q : Pattern GroupRange}
    (h : ∀ {first next}, p.Numbered first next → q.Numbered first next)
    (numbered : NumberedList (before ++ p :: after) first next) :
    NumberedList (before ++ q :: after) first next := by
  induction before generalizing first with
  | nil =>
    obtain ⟨middle, hp, hrest⟩ := numbered
    exact ⟨middle, h hp, hrest⟩
  | cons p' rest ih =>
    obtain ⟨middle, hp, hrest⟩ := numbered
    exact ⟨middle, hp, ih hrest⟩

namespace Unrolled

variable {p q : Pattern GroupRange}

/-- The labels are still right. -/
theorem numbered (h : p.Unrolled q) (numbered : p.Numbered first next) :
    q.Numbered first next := by
  induction h generalizing first next with
  | @here groups n greedy body silent =>
    obtain ⟨-, inner⟩ := numbered
    obtain rfl := inner.eq_of_silent silent
    exact inner.replicate n
  | group _ ih => exact ⟨numbered.1, ih numbered.2⟩
  | quantified _ ih => exact ⟨numbered.1, ih numbered.2⟩
  | seq _ _ _ ih => exact NumberedList.exchange ih numbered
  | choice _ _ _ ih => exact NumberedList.exchange ih numbered

/-- **A pattern and the one that is written out have the same results**, in the same order. -/
theorem results_eq (h : p.Unrolled q) (numbered : p.Numbered first next) (point : Point) :
    results text mode q point = results text mode p point := by
  induction h generalizing first next point with
  | @here groups n greedy body silent =>
    obtain ⟨rfl, inner⟩ := numbered
    obtain rfl := inner.eq_of_silent silent
    exact (repeated_eq_resultsOfSeq (Nat.zero_add n) (by omega) point).symm
  | @group groups kind body body' _ ih =>
    have same := fun point => ih numbered.2 point
    cases kind <;> simp only [results, same]
  | quantified _ ih =>
    have same := fun point => ih numbered.2 point
    simp only [results, same]
  | @seq before after term term' _ ih =>
    obtain ⟨first', next', -, -, inner⟩ :=
      NumberedList.of_mem numbered (List.mem_append_right before List.mem_cons_self)
    have same := fun point => ih inner point
    have rest : resultsOfSeq text mode (term' :: after) = resultsOfSeq text mode (term :: after) :=
      funext fun point => by rw [resultsOfSeq, resultsOfSeq, same]
    rw [results, results, resultsOfSeq_append, resultsOfSeq_append, rest]
  | @choice before after p q _ ih =>
    obtain ⟨first', next', -, -, inner⟩ :=
      NumberedList.of_mem numbered (List.mem_append_right before List.mem_cons_self)
    rw [results, results, resultsOfChoice_append, resultsOfChoice_append, resultsOfChoice,
      resultsOfChoice, ih inner]

end Unrolled

end Pattern

/-! ## Attempts -/

/-- The other pattern is this one with an exact repetition written out, and has no more quantifiers
than a pattern may have. -/
structure NumberedPattern.Unrolls (pattern other : NumberedPattern) : Prop where
  /-- the trees -/
  tree : pattern.tree.Unrolled other.tree
  /-- the groups are the same -/
  groups : other.groupCount = pattern.groupCount
  /-- the quantifiers are counted -/
  loops : other.loopCount = other.tree.tally (fun _ => 0) 1
  /-- there are not too many -/
  few : other.loopCount ≤ maxLoops

/-- Unless they hit a limit, attempts at a match from the anchored entries of two graphs come to the
same, whatever their limits are: both fail, or they end at the same position with the same
captures. -/
structure Graph.Agree (graph graph' : Graph) : Prop where
  /-- with any number of steps left -/
  attempts {text : String} {mode : Mode} {limits limits' : Limits} {pos left left' : Nat}
    {final final' : Option State}
    (ends : (Task.attempt ⟨graph, text, mode, limits⟩ graph.anchored pos left).result = .ok final)
    (ends' : (Task.attempt ⟨graph', text, mode, limits'⟩ graph'.anchored pos left').result =
      .ok final') :
    final.map State.point = final'.map State.point
  /-- at a given position -/
  matchAt {text : String} {mode : Mode} {pos : Nat} {outcome outcome' : Outcome}
    (ends : graph.matchAt text pos mode = .ok outcome)
    (ends' : graph'.matchAt text pos mode = .ok outcome') : outcome = outcome'

/-- Only the point at which a walk ends has to do with its outcome. -/
theorem Outcome.ofFinal_eq {graph graph' : Graph} (slots : graph'.slots = graph.slots)
    (text : String) (trace : Option Trace) {final final' : Option State}
    (same : final.map State.point = final'.map State.point) :
    ofFinal graph text trace final = ofFinal graph' text trace final' := by
  rcases final with _ | final <;> rcases final' with _ | final'
  · simp only [ofFinal, slots]
  · cases same
  · cases same
  · have point : final.point = final'.point := Option.some.inj same
    have pos : final.pos = final'.pos := congrArg Point.pos point
    have captures : final.captures = final'.captures := congrArg Point.captures point
    simp only [ofFinal, pos, captures]

namespace NumberedPattern

variable {source : String} {pattern other : NumberedPattern}

theorem Unrolls.firstResult?_eq {next : Nat} (h : pattern.Unrolls other)
    (numbered : pattern.tree.Numbered 1 next) (text : String) (mode : Mode) (pos : Nat) :
    other.firstResult? text mode pos = pattern.firstResult? text mode pos := by
  rw [firstResult?, firstResult?, h.groups, h.tree.results_eq numbered]

/-- Where an attempt ends that hits no limit, and with which captures. -/
theorem point_of_attempt {next : Nat} (numbered : pattern.tree.Numbered 1 next) {task : Task}
    (graph : task.graph = .ofPattern pattern) {pos left : Nat} {final : Option State}
    (ends : (task.attempt task.graph.anchored pos left).result = .ok final) :
    final.map State.point = pattern.firstResult? task.text task.mode pos := by
  rcases final with _ | final
  · exact ((task.firstResult?_of_attempt numbered graph ends).mp rfl).symm
  · exact (task.ofState_of_attempt numbered graph ends).2.2.symm

/-- **An exact repetition is as good as its copies**, wherever it stands in a pattern that was
read. -/
theorem agree_of_unrolls (parsed : parse source = .ok pattern) (unrolls : pattern.Unrolls other) :
    (Graph.ofPattern pattern).Agree (.ofPattern other) := by
  obtain ⟨next, numbered⟩ := numbered_of_parse parsed
  have numbered' : other.tree.Numbered 1 next := unrolls.tree.numbered numbered
  have attempts {text : String} {mode : Mode} {limits limits' : Limits} {pos left left' : Nat}
      {final final' : Option State}
      (ends : (Task.attempt ⟨.ofPattern pattern, text, mode, limits⟩
        (Graph.ofPattern pattern).anchored pos left).result = .ok final)
      (ends' : (Task.attempt ⟨.ofPattern other, text, mode, limits'⟩
        (Graph.ofPattern other).anchored pos left').result = .ok final') :
      final.map State.point = final'.map State.point := by
    have found := point_of_attempt numbered rfl ends
    have found' := point_of_attempt numbered' rfl ends'
    rw [found, found', unrolls.firstResult?_eq numbered]
  have slots : (Graph.ofPattern other).slots = (Graph.ofPattern pattern).slots :=
    congrArg (· + 1) unrolls.groups
  constructor
  case attempts => exact attempts
  case matchAt =>
    intro text mode pos outcome outcome' ends ends'
    rw [Graph.matchAt] at ends ends'
    rcases rounded : Text.roundUp? text pos with _ | start <;> rw [rounded] at ends ends'
    · cases ends
      cases ends'
      exact Outcome.ofFinal_eq slots text none rfl
    · dsimp only at ends ends'
      split at ends
      · next final walk =>
        split at ends'
        · next final' walk' =>
          cases ends
          cases ends'
          exact Outcome.ofFinal_eq slots text none (attempts walk walk')
        · cases ends'
      · cases ends

theorem agree_of_unrolls_nested :
    let inner : Pattern GroupRange :=
      .group ⟨1, 1⟩ .nonCapturing (.quantified ⟨1, 1⟩ 0 (some 1) true (.char 'a'))
    let marked : Pattern GroupRange := .group ⟨1, 2⟩ .capturing (.char 'b')
    let pattern : NumberedPattern := ⟨.quantified ⟨1, 2⟩ 1 none true (.group ⟨1, 2⟩ .nonCapturing
      (.seq [.quantified ⟨1, 1⟩ 3 (some 3) true inner, marked])), 1, 3⟩
    let other : NumberedPattern := ⟨.quantified ⟨1, 2⟩ 1 none true (.group ⟨1, 2⟩ .nonCapturing
      (.seq [.seq [inner, inner, inner], marked])), 1, 4⟩
    let outcome : Outcome := ⟨true, 6, #[some "aabaab", some "b"], none⟩
    NumberedPattern.parse "(?:(?:a?){3}(b))+" = .ok pattern ∧ pattern.Unrolls other ∧
      (Graph.ofPattern pattern).Agree (.ofPattern other) ∧
      (Graph.ofPattern pattern).matchAt "aabaabaaaab" 0 ⟨false, false⟩ = .ok outcome ∧
      (Graph.ofPattern other).matchAt "aabaabaaaab" 0 ⟨false, false⟩ = .ok outcome := by
  intro inner marked pattern other outcome
  have parsed : NumberedPattern.parse "(?:(?:a?){3}(b))+" = .ok pattern := rfl
  have repetition : Pattern.Unrolled (.quantified ⟨1, 1⟩ 3 (some 3) true inner)
      (.seq [inner, inner, inner]) := .here rfl
  have tree : pattern.tree.Unrolled other.tree := .quantified (.group (.seq [] [marked] repetition))
  have unrolls : pattern.Unrolls other := ⟨tree, rfl, rfl, by decide⟩
  refine ⟨parsed, unrolls, agree_of_unrolls parsed unrolls, ?_, ?_⟩
  · cbv
  · cbv

end NumberedPattern

end BacktrackRegex
