import BacktrackRegex.Proofs.Pattern.Follows

/-!
# Captures lie in each other as their groups do

`Pattern.Holds` says where a pattern stands in another and which lookaheads there are on the way.
Captures are `Nested` for a pattern if a group that captured something lies in what the groups
around it captured, unless a lookahead is between them, and if no group inside a negated lookahead
captured anything.

A pattern that starts with its groups unset has nested results (`nested_of_mem_results`). The groups
of a quantifier are unset before each iteration, so what an iteration leaves is as good as what a
single match of the body leaves.
-/

namespace BacktrackRegex

/-- Whether the groups numbered from `first` up to `next` have slots and captured nothing. -/
def Point.Unset (point : Point) (first next : Nat) : Prop :=
  ∀ g, first ≤ g → g < next → point.captures[g]? = some none

/-- The other groups stay unset behind a match. -/
theorem Point.Unset.of_follows {text : String} {before after : Point}
    {first next first' next' : Nat} (h : before.Unset first next)
    (follows : Follows text first' next' before after)
    (apart : next ≤ first' ∨ next' ≤ first) : after.Unset first next := by
  intro g hf hn
  rw [follows.frame g (by omega)]
  exact h g hf hn

theorem Point.Unset.narrow {point : Point} {first next first' next' : Nat}
    (h : point.Unset first next) (hf : first ≤ first') (hn : next' ≤ next) :
    point.Unset first' next' :=
  fun g hf' hn' => h g (Nat.le_trans hf hf') (Nat.lt_of_lt_of_le hn' hn)

/-- Before an iteration the groups inside are unset. -/
theorem Point.unset_clear {point : Point} {first next : Nat}
    (room : ∀ g, first ≤ g → g < next → g < point.captures.size) :
    Point.Unset { point with captures := GroupRange.clear ⟨first, next⟩ point.captures }
      first next := by
  intro g hf hn
  rw [GroupRange.getElem?_clear, if_pos ⟨⟨hf, hn⟩, room g hf hn⟩]

/-- Whether a span lies in another one. -/
structure Span.Inside (span around : Span) : Prop where
  /-- it does not begin before the other -/
  start : around.start ≤ span.start
  /-- its ends are in order -/
  ordered : span.start ≤ span.stop
  /-- it does not end behind the other -/
  stop : span.stop ≤ around.stop

namespace Pattern

section

variable {α : Type}

/-- `p.Holds looks q` says that `q` stands somewhere in `p`, inside the lookaheads of the list,
outermost first; `true` stands for a negated one. -/
inductive Holds : Pattern α → List Bool → Pattern α → Prop where
  /-- it is all of it -/
  | self (p) : Holds p [] p
  /-- in a group that captures -/
  | capturing {label body looks q} (h : Holds body looks q) :
    Holds (.group label .capturing body) looks q
  /-- in a group that does nothing -/
  | nonCapturing {label body looks q} (h : Holds body looks q) :
    Holds (.group label .nonCapturing body) looks q
  /-- in a lookahead -/
  | lookahead {label body looks q} (h : Holds body looks q) :
    Holds (.group label .lookahead body) (false :: looks) q
  /-- in a negated lookahead -/
  | negativeLookahead {label body looks q} (h : Holds body looks q) :
    Holds (.group label .negativeLookahead body) (true :: looks) q
  /-- in the body of a quantifier -/
  | quantified {label min max greedy body looks q} (h : Holds body looks q) :
    Holds (.quantified label min max greedy body) looks q
  /-- in a term of a sequence -/
  | seq {terms p looks q} (mem : p ∈ terms) (h : Holds p looks q) : Holds (.seq terms) looks q
  /-- in an alternative -/
  | choice {alternatives p looks q} (mem : p ∈ alternatives) (h : Holds p looks q) :
    Holds (.choice alternatives) looks q

/-- What stands in a part of a pattern stands in the pattern, inside the lookaheads of both. -/
theorem Holds.trans {p q r : Pattern α} {looks looks' : List Bool} (h : p.Holds looks q)
    (h' : q.Holds looks' r) : p.Holds (looks ++ looks') r := by
  induction h with
  | self p => exact h'
  | capturing h ih => exact .capturing (ih h')
  | nonCapturing h ih => exact .nonCapturing (ih h')
  | lookahead h ih => exact .lookahead (ih h')
  | negativeLookahead h ih => exact .negativeLookahead (ih h')
  | quantified h ih => exact .quantified (ih h')
  | seq mem h ih => exact .seq mem (ih h')
  | choice mem h ih => exact .choice mem (ih h')

end

theorem NumberedList.of_mem {ps : List (Pattern GroupRange)} {p : Pattern GroupRange}
    {first next : Nat} (h : NumberedList ps first next) (mem : p ∈ ps) :
    ∃ first' next', first ≤ first' ∧ next' ≤ next ∧ p.Numbered first' next' := by
  induction ps generalizing first with
  | nil => cases mem
  | cons q rest ih =>
    obtain ⟨middle, hq, hrest⟩ := h
    rcases List.mem_cons.mp mem with rfl | mem
    · exact ⟨first, middle, Nat.le_refl _, NumberedList.le (fun _ _ => Numbered.le) hrest, hq⟩
    · obtain ⟨first', next', hf, hn, hp⟩ := ih hrest mem
      exact ⟨first', next', Nat.le_trans hq.le hf, hn, hp⟩

/-- What stands in a pattern has its groups numbered among those of the pattern. -/
theorem Numbered.of_holds {p q : Pattern GroupRange} {looks : List Bool} {first next : Nat}
    (h : p.Numbered first next) (holds : p.Holds looks q) :
    ∃ first' next', first ≤ first' ∧ next' ≤ next ∧ q.Numbered first' next' := by
  induction holds generalizing first next with
  | self p => exact ⟨first, next, Nat.le_refl _, Nat.le_refl _, h⟩
  | capturing holds ih =>
    obtain ⟨first', next', hf, hn, hq⟩ := ih h.2
    exact ⟨first', next', Nat.le_of_succ_le hf, hn, hq⟩
  | nonCapturing holds ih | lookahead holds ih | negativeLookahead holds ih => exact ih h.2
  | quantified holds ih => exact ih h.2
  | seq mem holds ih | choice mem holds ih =>
    obtain ⟨middle, middle', hf, hn, hp⟩ := NumberedList.of_mem h mem
    obtain ⟨first', next', hf', hn', hq⟩ := ih hp
    exact ⟨first', next', Nat.le_trans hf hf', Nat.le_trans hn' hn, hq⟩

/-- The number of a capturing group is one of those of the pattern around it. -/
theorem Numbered.of_holds_capturing {p body : Pattern GroupRange} {groups : GroupRange}
    {looks : List Bool} {first next : Nat} (h : p.Numbered first next)
    (holds : p.Holds looks (.group groups .capturing body)) :
    first ≤ groups.first ∧ groups.first < next := by
  obtain ⟨first', next', hf, hn, rfl, inner⟩ := h.of_holds holds
  exact ⟨hf, Nat.lt_of_lt_of_le inner.le hn⟩

theorem NumberedList.exists_between {ps : List (Pattern GroupRange)} {first next g : Nat}
    (h : NumberedList ps first next) (low : first ≤ g) (high : g < next) :
    ∃ p ∈ ps, ∃ first' next', p.Numbered first' next' ∧ first' ≤ g ∧ g < next' := by
  induction ps generalizing first with
  | nil =>
    have none : first = next := h
    omega
  | cons p rest ih =>
    obtain ⟨middle, hp, hrest⟩ := h
    by_cases here : g < middle
    · exact ⟨p, List.mem_cons_self, first, middle, hp, low, here⟩
    · obtain ⟨q, mem, inner⟩ := ih hrest (Nat.le_of_not_lt here)
      exact ⟨q, List.mem_cons_of_mem p mem, inner⟩

/-- Each number of a pattern is that of a capturing group in it. -/
theorem Numbered.exists_holds_capturing {p : Pattern GroupRange} {first next g : Nat}
    (h : p.Numbered first next) (low : first ≤ g) (high : g < next) :
    ∃ looks groups body, p.Holds looks (.group groups .capturing body) ∧ groups.first = g := by
  induction p generalizing first next with
  | group label kind body ih =>
    obtain ⟨rfl, inner⟩ := h
    cases kind with
    | capturing =>
      by_cases here : first = g
      · exact ⟨[], ⟨first, next⟩, body, .self _, here⟩
      · obtain ⟨looks, groups, body', holds, same⟩ := ih inner (Nat.lt_of_le_of_ne low here) high
        exact ⟨looks, groups, body', .capturing holds, same⟩
    | nonCapturing =>
      obtain ⟨looks, groups, body', holds, same⟩ := ih inner low high
      exact ⟨looks, groups, body', .nonCapturing holds, same⟩
    | lookahead =>
      obtain ⟨looks, groups, body', holds, same⟩ := ih inner low high
      exact ⟨_, groups, body', .lookahead holds, same⟩
    | negativeLookahead =>
      obtain ⟨looks, groups, body', holds, same⟩ := ih inner low high
      exact ⟨_, groups, body', .negativeLookahead holds, same⟩
  | quantified label min max greedy body ih =>
    obtain ⟨looks, groups, body', holds, same⟩ := ih h.2 low high
    exact ⟨looks, groups, body', .quantified holds, same⟩
  | seq terms ih =>
    obtain ⟨p, mem, _, _, hp, low, high⟩ := NumberedList.exists_between h low high
    obtain ⟨looks, groups, body, holds, same⟩ := ih p mem hp low high
    exact ⟨looks, groups, body, .seq mem holds, same⟩
  | choice alternatives ih =>
    obtain ⟨p, mem, _, _, hp, low, high⟩ := NumberedList.exists_between h low high
    obtain ⟨looks, groups, body, holds, same⟩ := ih p mem hp low high
    exact ⟨looks, groups, body, .choice mem holds, same⟩
  | _ =>
    have none : first = next := h
    omega

/-! ## Nested captures -/

/-- Whether captures lie in each other as the groups of a pattern do, for a match of the pattern
between two positions. -/
structure Nested (p : Pattern GroupRange) (captures : Array (Option Span)) (start stop : Nat) :
    Prop where
  /-- a group outside of lookaheads lies in the match -/
  inside : ∀ {groups body}, p.Holds [] (.group groups .capturing body) →
    ∀ span, captures[groups.first]?.join = some span → span.Inside ⟨start, stop⟩
  /-- a group lies in the groups around it, if there is no lookahead between them -/
  nested : ∀ {looks outer body inner body'}, p.Holds looks (.group outer .capturing body) →
    body.Holds [] (.group inner .capturing body') →
    ∀ span, captures[inner.first]?.join = some span →
      ∃ around, captures[outer.first]?.join = some around ∧ span.Inside around
  /-- a group in a negated lookahead is unset -/
  negated : ∀ {looks groups body}, p.Holds looks (.group groups .capturing body) → true ∈ looks →
    captures[groups.first]?.join = none

variable {p body : Pattern GroupRange} {captures captures' : Array (Option Span)}
  {start stop start' stop' first next : Nat}

theorem Nested.widen (h : p.Nested captures start stop) (hs : start' ≤ start) (ht : stop ≤ stop') :
    p.Nested captures start' stop' := by
  refine ⟨fun holds span held => ?_, h.nested, h.negated⟩
  have inside := h.inside holds span held
  exact ⟨Nat.le_trans hs inside.start, inside.ordered, Nat.le_trans inside.stop ht⟩

/-- Only the groups of the pattern count. -/
theorem Nested.congr (h : p.Nested captures start stop) (numbered : p.Numbered first next)
    (same : ∀ g, first ≤ g → g < next → captures'[g]?.join = captures[g]?.join) :
    p.Nested captures' start stop := by
  have same {looks groups body} (holds : p.Holds looks (.group groups .capturing body)) :
      captures'[groups.first]?.join = captures[groups.first]?.join := by
    obtain ⟨hf, hn⟩ := numbered.of_holds_capturing holds
    exact same groups.first hf hn
  refine ⟨fun holds span held => ?_, fun holds holds' span held => ?_, fun holds mem => ?_⟩
  · rw [same holds] at held
    exact h.inside holds span held
  · rw [same (holds.trans (.capturing holds'))] at held
    rw [same holds]
    exact h.nested holds holds' span held
  · rw [same holds]
    exact h.negated holds mem

/-- Where all groups are unset there is nothing to nest. -/
theorem nested_of_unset {point : Point} (numbered : p.Numbered first next)
    (unset : point.Unset first next) (start stop : Nat) : p.Nested point.captures start stop := by
  have unset {looks groups body} (holds : p.Holds looks (.group groups .capturing body)) :
      point.captures[groups.first]?.join = none := by
    obtain ⟨hf, hn⟩ := numbered.of_holds_capturing holds
    rw [unset groups.first hf hn]
    rfl
  refine ⟨fun holds span held => ?_, fun holds holds' span held => ?_, fun holds _ => unset holds⟩
  · rw [unset holds] at held
    cases held
  · rw [unset (holds.trans (.capturing holds'))] at held
    cases held

/-- If all groups of a pattern stand in some parts of it, the captures need only be nested for these
parts. -/
theorem nested_of_parts (parts : List (Pattern GroupRange))
    (held : ∀ {looks groups body}, p.Holds looks (.group groups .capturing body) →
      ∃ q ∈ parts, q.Holds looks (.group groups .capturing body))
    (h : ∀ q ∈ parts, q.Nested captures start stop) : p.Nested captures start stop := by
  refine ⟨fun holds => ?_, fun holds => ?_, fun holds => ?_⟩ <;>
    obtain ⟨q, mem, holds⟩ := held holds
  · exact (h q mem).inside holds
  · exact (h q mem).nested holds
  · exact (h q mem).negated holds

/-- The match of a capturing group lies around what its body captured. -/
theorem Nested.capturing (h : body.Nested captures start stop)
    (numbered : body.Numbered (first + 1) next) (room : first < captures.size)
    (ordered : start ≤ stop) :
    Nested (.group ⟨first, next⟩ .capturing body)
      (captures.setIfInBounds first (some ⟨start, stop⟩)) start stop := by
  have here : (captures.setIfInBounds first (some ⟨start, stop⟩))[first]?.join =
      some ⟨start, stop⟩ := by
    rw [Array.getElem?_setIfInBounds_self_of_lt room]
    rfl
  have inner : body.Nested (captures.setIfInBounds first (some ⟨start, stop⟩)) start stop := by
    refine h.congr numbered fun g hf _ => ?_
    rw [Array.getElem?_setIfInBounds_ne (by omega)]
  refine ⟨fun holds span held => ?_, fun holds holds' span held => ?_, fun holds mem => ?_⟩
  · cases holds with
    | self =>
      rw [here] at held
      cases held
      exact ⟨Nat.le_refl _, ordered, Nat.le_refl _⟩
    | capturing holds => exact inner.inside holds span held
  · cases holds with
    | self => exact ⟨_, here, inner.inside holds' span held⟩
    | capturing holds => exact inner.nested holds holds' span held
  · cases holds with
    | self => cases mem
    | capturing holds => exact inner.negated holds mem

/-- A lookahead keeps what its body captured. -/
theorem Nested.lookahead (h : body.Nested captures start stop) (label : GroupRange) (pos : Nat) :
    Nested (.group label .lookahead body) captures pos pos := by
  refine ⟨nofun, fun holds => ?_, fun holds mem => ?_⟩
  · cases holds with
    | lookahead holds => exact h.nested holds
  · cases holds with
    | lookahead holds => exact h.negated holds (by simpa using mem)

/-! ## Results -/

open Point

variable {text : String} {mode : Mode} {before after : Point}

theorem nested_of_mem_resultsOfSeq {terms : List (Pattern GroupRange)}
    (h : ∀ p ∈ terms, ∀ {first next before after}, p.Numbered first next →
      before.Unset first next → after ∈ results text mode p before →
      p.Nested after.captures before.pos after.pos)
    (numbered : NumberedList terms first next) (unset : before.Unset first next)
    (mem : after ∈ resultsOfSeq text mode terms before) :
    ∀ p ∈ terms, p.Nested after.captures before.pos after.pos := by
  induction terms generalizing first before with
  | nil => exact nofun
  | cons p rest ih =>
    obtain ⟨between, hp, hrest⟩ := numbered
    have le := NumberedList.le (fun _ _ => Numbered.le) hrest
    obtain ⟨middle, hm, mem⟩ := List.mem_flatMap.mp mem
    have ahead := follows_of_mem_results hp hm
    have behind := follows_of_mem_resultsOfSeq (fun _ _ => follows_of_mem_results) hrest mem
    have now := h p List.mem_cons_self hp (unset.narrow (Nat.le_refl _) le) hm
    have later := ih (fun q hq => h q (List.mem_cons_of_mem p hq)) hrest
      ((unset.narrow hp.le (Nat.le_refl _)).of_follows ahead (.inr (Nat.le_refl _))) mem
    intro q hq
    rcases List.mem_cons.mp hq with rfl | hq
    · refine (now.congr hp fun g _ hn => ?_).widen (Nat.le_refl _) behind.le
      rw [behind.frame g (by omega)]
    · exact (later q hq).widen ahead.le (Nat.le_refl _)

theorem nested_of_mem_resultsOfChoice {alternatives : List (Pattern GroupRange)}
    (h : ∀ p ∈ alternatives, ∀ {first next before after}, p.Numbered first next →
      before.Unset first next → after ∈ results text mode p before →
      p.Nested after.captures before.pos after.pos)
    (numbered : NumberedList alternatives first next) (unset : before.Unset first next)
    (mem : after ∈ resultsOfChoice text mode alternatives before) :
    ∀ p ∈ alternatives, p.Nested after.captures before.pos after.pos := by
  induction alternatives generalizing first with
  | nil => exact nofun
  | cons p rest ih =>
    obtain ⟨between, hp, hrest⟩ := numbered
    have first_unset := unset.narrow (Nat.le_refl _)
      (NumberedList.le (fun _ _ => Numbered.le) hrest)
    have rest_unset := unset.narrow hp.le (Nat.le_refl _)
    intro q hq
    -- the alternative that matched has nested captures, and the others have none
    rcases List.mem_append.mp mem with now | later <;> rcases List.mem_cons.mp hq with rfl | hq
    · exact h q List.mem_cons_self hp first_unset now
    · obtain ⟨first', next', hf, hn, numbered⟩ := hrest.of_mem hq
      have ahead := follows_of_mem_results hp now
      exact nested_of_unset numbered
        ((rest_unset.narrow hf hn).of_follows ahead (.inr hf)) ..
    · have ahead := follows_of_mem_resultsOfChoice (fun _ _ => follows_of_mem_results) hrest later
      exact nested_of_unset hp (first_unset.of_follows ahead (.inl (Nat.le_refl _))) ..
    · exact ih (fun q hq => h q (List.mem_cons_of_mem p hq)) hrest rest_unset later q hq

/-- What an iteration leaves is nested, however many came before it. -/
theorem nested_of_mem_repeated {min : Nat} {max : Option Nat} {greedy : Bool} {n completed : Nat}
    (h : ∀ {before after}, before.Unset first next → after ∈ results text mode body before →
      body.Nested after.captures before.pos after.pos)
    (numbered : body.Numbered first next)
    (room : ∀ g, first ≤ g → g < next → g < before.captures.size) (le : start ≤ before.pos)
    (nested : body.Nested before.captures start before.pos)
    (mem : after ∈ repeated (results text mode body) ⟨first, next⟩ min max greedy n completed
      before) :
    body.Nested after.captures start after.pos := by
  induction n generalizing completed before with
  | zero => cases mem
  | succ n ih =>
    rcases mem_repeated_succ mem with rfl | mem
    · exact nested
    · obtain ⟨middle, hm, -, mem⟩ := mem_again.mp mem
      have ahead := (follows_clear before).trans (follows_of_mem_results numbered hm)
      have iteration := h (unset_clear room) hm
      exact ih (fun g hf hn => ahead.size ▸ room g hf hn) (Nat.le_trans le ahead.le)
        (iteration.widen le (Nat.le_refl _)) mem

/-- **Results have nested captures**, from a point at which the groups of the pattern are unset. -/
theorem nested_of_mem_results (numbered : p.Numbered first next) (unset : before.Unset first next)
    (mem : after ∈ results text mode p before) :
    p.Nested after.captures before.pos after.pos := by
  induction p generalizing first next before after with
  | group groups kind body ih =>
    obtain ⟨rfl, numbered⟩ := numbered
    cases kind with
    | capturing =>
      obtain ⟨inner, hi, rfl⟩ := List.mem_map.mp mem
      have ahead := follows_of_mem_results numbered hi
      have slot := unset first (Nat.le_refl _) numbered.le
      have room : first < inner.captures.size := by
        rw [ahead.size]
        exact (Array.getElem?_eq_some_iff.mp slot).1
      exact (ih numbered (unset.narrow (Nat.le_succ _) (Nat.le_refl _)) hi).capturing numbered room
        ahead.le
    | nonCapturing =>
      refine nested_of_parts [body] (fun holds => ?_) fun q hq => ?_
      · cases holds with
        | nonCapturing holds => exact ⟨body, List.mem_singleton_self _, holds⟩
      · obtain rfl := List.mem_singleton.mp hq
        exact ih numbered unset mem
    | lookahead =>
      rw [results] at mem
      split at mem
      · cases mem
      · next best rest hr =>
        obtain rfl := List.mem_singleton.mp mem
        have found : best ∈ results text mode body before := by
          rw [hr]
          exact List.mem_cons_self
        exact (ih numbered unset found).lookahead ..
    | negativeLookahead =>
      rw [results] at mem
      split at mem
      · obtain rfl := List.mem_singleton.mp mem
        exact nested_of_unset (p := .group _ _ body) ⟨rfl, numbered⟩ unset ..
      · cases mem
  | quantified groups min max greedy body ih =>
    obtain ⟨rfl, numbered⟩ := numbered
    refine nested_of_parts [body] (fun holds => ?_) fun q hq => ?_
    · cases holds with
      | quantified holds => exact ⟨body, List.mem_singleton_self _, holds⟩
    · obtain rfl := List.mem_singleton.mp hq
      refine nested_of_mem_repeated (fun unset => ih numbered unset) numbered (fun g hf hn => ?_)
        (Nat.le_refl _) (nested_of_unset numbered unset ..) mem
      exact (Array.getElem?_eq_some_iff.mp (unset g hf hn)).1
  | seq terms ih =>
    refine nested_of_parts terms (fun holds => ?_)
      (nested_of_mem_resultsOfSeq ih numbered unset mem)
    cases holds with
    | seq mem holds => exact ⟨_, mem, holds⟩
  | choice alternatives ih =>
    refine nested_of_parts alternatives (fun holds => ?_)
      (nested_of_mem_resultsOfChoice ih numbered unset mem)
    cases holds with
    | choice mem holds => exact ⟨_, mem, holds⟩
  | _ => exact nested_of_parts [] (fun holds => by cases holds) (List.forall_mem_nil _)

end Pattern

end BacktrackRegex
