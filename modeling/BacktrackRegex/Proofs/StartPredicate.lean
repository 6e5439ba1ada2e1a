import BacktrackRegex.Proofs.Pattern.Follows
import BacktrackRegex.Proofs.Text.Literal

/-!
# Start predicates are sound

What a start predicate asks of a position is `Passes`. Two facts make it safe to try only the
positions that it gives:

* a pattern has results only at positions that pass (`passes_of_mem_results`);
* `next?` goes over no position that passes (`not_passes_of_next?`, `not_passes_of_next?_none`),
  and from between two characters it leads between two characters (`isBoundary_of_next?`).
-/

namespace BacktrackRegex

variable {text : String} {mode : Mode}

namespace Point

/-- All tests but backreferences leave a match where it is. -/
theorem pos_eq_of_mem_test {condition : Test} {before after : Point}
    (h : after ∈ before.test text mode condition) (here : ∀ g, condition ≠ .backreference g) :
    after.pos = before.pos := by
  rw [test, Option.mem_toList, Option.map_eq_some_iff] at h
  obtain ⟨pos, hp, rfl⟩ := h
  cases condition with
  | backreference g => exact absurd rfl (here g)
  | _ =>
    simp only [Test.after?] at hp
    split at hp
    · exact (Option.some.inj hp).symm
    · cases hp

end Point

/-! ## Literal characters -/

/-- The characters of `lead` stand at `start`, and `pos` is behind them. -/
structure Text.Reads (text : String) (start : Nat) (lead : String) (pos : Nat) : Prop where
  /-- they stand there -/
  stands : standsAt text lead start = true
  /-- they end there -/
  ends : pos = start + lead.utf8ByteSize

namespace Text.Reads

variable {start pos : Nat} {lead : String}

/-- One more character is read. -/
theorem push (h : Reads text start lead pos) {c : Char} (next : charAt? text pos = some c) :
    Reads text start (lead.push c) (pos + c.utf8Size) := by
  rw [← String.append_singleton]
  obtain ⟨stands, rfl⟩ := h
  refine ⟨standsAt_append stands (standsAt_of_charAt? next), ?_⟩
  rw [String.utf8ByteSize_append, String.utf8ByteSize_singleton, Nat.add_assoc]

end Text.Reads

namespace Pattern

/-- What a lead that was appended to says about a match from `start` that has come to `pos`: its
characters stand there, and if they are all of the pattern then the match ends behind them. -/
def Leads (text : String) (start : Nat) (appended : String × Bool) (pos : Nat) : Prop :=
  Text.standsAt text appended.1 start = true ∧
    (appended.2 = true → pos = start + appended.1.utf8ByteSize)

variable {start : Nat} {lead : String} {before after : Point}

theorem leads_of_mem_read (fold : mode.fold = false) {c : Char}
    (reads : Text.Reads text start lead before.pos)
    (mem : after ∈ before.read text (Text.sameLetter mode.fold · c)) :
    Leads text start (lead.push c, true) after.pos := by
  rw [Point.read, Option.mem_toList, Option.map_eq_some_iff] at mem
  obtain ⟨pos, hp, rfl⟩ := mem
  obtain ⟨d, hd, passed, rfl⟩ := Text.afterChar?_eq_some_iff.mp hp
  rw [fold, Text.sameLetter_false, beq_iff_eq] at passed
  subst passed
  have := reads.push hd
  exact ⟨this.stands, fun _ => this.ends⟩

theorem leads_of_pos_eq (reads : Text.Reads text start lead before.pos)
    (here : after.pos = before.pos) : Leads text start (lead, true) after.pos :=
  ⟨reads.stands, fun _ => here.trans reads.ends⟩

theorem leads_of_mem_resultsOfSeq {terms : List (Pattern GroupRange)}
    (h : ∀ p ∈ terms, ∀ {lead before after}, Text.Reads text start lead before.pos →
      after ∈ results text mode p before → Leads text start (appendLead p lead) after.pos)
    (reads : Text.Reads text start lead before.pos)
    (mem : after ∈ resultsOfSeq text mode terms before) :
    Leads text start (appendLeads terms lead) after.pos := by
  induction terms generalizing lead before with
  | nil =>
    obtain rfl := List.mem_singleton.mp mem
    exact leads_of_pos_eq reads rfl
  | cons p rest ih =>
    obtain ⟨middle, hm, mem⟩ := List.mem_flatMap.mp mem
    have first := h p List.mem_cons_self reads hm
    rw [appendLeads]
    split
    · next whole =>
      exact ih (fun q hq => h q (List.mem_cons_of_mem p hq)) ⟨first.1, first.2 whole⟩ mem
    · next cut => exact ⟨first.1, fun whole => absurd whole cut⟩

/-- Where a match begins there stands the lead of its pattern. -/
theorem leads_of_mem_results {p : Pattern GroupRange} (fold : mode.fold = false)
    (reads : Text.Reads text start lead before.pos) (mem : after ∈ results text mode p before) :
    Leads text start (appendLead p lead) after.pos := by
  -- the lead grows along the pattern, so what was read before stays general
  induction p generalizing lead before after with
  | empty =>
    obtain rfl := List.mem_singleton.mp mem
    exact leads_of_pos_eq reads rfl
  | char c | coded c => exact leads_of_mem_read fold reads mem
  | lineStart | lineEnd => exact leads_of_pos_eq reads (Point.pos_eq_of_mem_test mem (by simp))
  | wordBoundary inverted => exact leads_of_pos_eq reads (Point.pos_eq_of_mem_test mem (by simp))
  | group label kind body ih =>
    cases kind with
    | capturing =>
      obtain ⟨inner, hi, rfl⟩ := List.mem_map.mp mem
      have := ih reads hi
      exact this
    | nonCapturing => exact ih reads mem
    | lookahead =>
      rw [results] at mem
      split at mem
      · cases mem
      · obtain rfl := List.mem_singleton.mp mem
        exact leads_of_pos_eq reads rfl
    | negativeLookahead =>
      rw [results] at mem
      split at mem
      · obtain rfl := List.mem_singleton.mp mem
        exact leads_of_pos_eq reads rfl
      · cases mem
  | quantified label min max greedy body ih =>
    refine ⟨?_, by simp [appendLead]⟩
    simp only [appendLead]
    split
    · next required =>
      -- the first iteration is required, so there is a result of the body
      rw [results, Point.repeated_succ, if_pos required] at mem
      obtain ⟨middle, hm, -⟩ := Point.mem_again.mp mem
      have reads' : Text.Reads text start lead
        (Point.mk before.pos (label.clear before.captures)).pos := reads
      exact (ih reads' hm).1
    · exact reads.stands
  | seq terms ih => exact leads_of_mem_resultsOfSeq ih reads mem
  | _ => exact ⟨reads.stands, by simp [appendLead]⟩

/-! ## The start of the text -/

theorem pos_eq_zero_of_headIsAnchored {terms : List (Pattern GroupRange)}
    (h : ∀ p ∈ terms, ∀ {before after}, p.isAnchored = true → after ∈ results text mode p before →
      before.pos = 0)
    (anchored : headIsAnchored terms = true) (mem : after ∈ resultsOfSeq text mode terms before) :
    before.pos = 0 := by
  cases terms with
  | nil => cases anchored
  | cons p rest =>
    obtain ⟨middle, hm, -⟩ := List.mem_flatMap.mp mem
    exact h p List.mem_cons_self anchored hm

/-- A pattern that begins with `^` matches only at the start. -/
theorem pos_eq_zero_of_isAnchored {p : Pattern GroupRange} (multiline : mode.multiline = false)
    (anchored : p.isAnchored = true) (mem : after ∈ results text mode p before) :
    before.pos = 0 := by
  induction p generalizing before after with
  | lineStart =>
    rw [results, Point.test, Option.mem_toList, Option.map_eq_some_iff] at mem
    obtain ⟨pos, hp, -⟩ := mem
    rw [Test.after?] at hp
    split at hp
    · next starts => simpa [Text.startsLine, multiline] using starts
    · cases hp
  | group label kind body ih =>
    cases kind with
    | capturing =>
      obtain ⟨inner, hi, -⟩ := List.mem_map.mp mem
      exact ih anchored hi
    | nonCapturing => exact ih anchored mem
    | lookahead | negativeLookahead => cases anchored
  | seq terms ih => exact pos_eq_zero_of_headIsAnchored ih anchored mem
  | _ => cases anchored

end Pattern

/-! ## Positions that pass -/

namespace StartPredicate

/-- What a predicate asks of a position. -/
def Passes (start : StartPredicate) (text : String) (mode : Mode) (pos : Nat) : Prop :=
  match start with
  | anywhere => True
  | literal lead => mode.fold = false → Text.standsAt text lead pos = true
  | textStart => mode.multiline = false → pos = 0

/-- **A pattern matches only where its predicate passes.** -/
theorem passes_of_mem_results {p : Pattern GroupRange} {before after : Point}
    (mem : after ∈ p.results text mode before) : (ofPattern p).Passes text mode before.pos := by
  rw [ofPattern]
  split
  · next anchored =>
    intro multiline
    exact Pattern.pos_eq_zero_of_isAnchored multiline anchored mem
  · split
    · trivial
    · intro fold
      have reads : Text.Reads text before.pos "" before.pos := ⟨Text.standsAt_empty .., rfl⟩
      exact (Pattern.leads_of_mem_results fold reads mem).1

variable {start : StartPredicate} {pos found : Nat}

/-- No position that passes is gone over. -/
theorem not_passes_of_next? (h : start.next? text mode.fold mode.multiline pos = some found)
    {q : Nat} (le : pos ≤ q) (lt : q < found) : ¬start.Passes text mode q := by
  intro passes
  cases start with
  | anywhere =>
    cases h
    omega
  | literal lead =>
    rw [next?] at h
    split at h
    · cases h
      omega
    · next fold =>
      have stands := passes (Bool.eq_false_iff.mpr fold)
      rw [Text.not_standsAt_of_findWithin? h le lt] at stands
      cases stands
  | textStart =>
    rw [next?] at h
    split at h
    · cases h
      omega
    · cases h

/-- Where no position is given, none in the text passes. -/
theorem not_passes_of_next?_none (h : start.next? text mode.fold mode.multiline pos = none)
    {q : Nat} (le : pos ≤ q) (inside : q ≤ text.utf8ByteSize) : ¬start.Passes text mode q := by
  intro passes
  cases start with
  | anywhere => cases h
  | literal lead =>
    rw [next?] at h
    split at h
    · cases h
    · next fold =>
      have stands := passes (Bool.eq_false_iff.mpr fold)
      rw [Text.findWithin?_eq_none_iff.mp h q le (by omega)] at stands
      cases stands
  | textStart =>
    rw [next?] at h
    split at h
    · cases h
    · next ahead =>
      simp only [Bool.or_eq_true, beq_iff_eq, not_or, Bool.not_eq_true] at ahead
      have := passes ahead.1
      omega

/-- The predicate of a pattern leads to positions between characters only. -/
theorem isBoundary_of_next? {p : Pattern GroupRange}
    (h : (ofPattern p).next? text mode.fold mode.multiline pos = some found)
    (boundary : Text.isBoundary text pos = true) : Text.isBoundary text found = true := by
  rw [ofPattern] at h
  split at h
  · rw [next?] at h
    split at h
    · cases h
      exact boundary
    · cases h
  · split at h
    · cases h
      exact boundary
    · next nonempty =>
      rw [next?] at h
      split at h
      · cases h
        exact boundary
      · have stands := Text.standsAt_of_findWithin? h
        exact Text.isBoundary_of_standsAt stands fun empty => nonempty (by rw [empty]; rfl)

end StartPredicate

end BacktrackRegex
