import BacktrackRegex.Proofs.Pattern.Follows

/-!
# The order of the choices in a pattern

Quantifiers that are greedy or lazy and alternatives in one order or another differ only in which
way to match is preferred. `Reordered p q` says that the two patterns differ in nothing else.

Without backreferences, what the groups captured has no influence on how a match goes on. Then the
order decides which way to match comes first, but not where there are ways to match: from points at
the same position both patterns come to the same positions (`sameEnds_of_reordered`).
-/

namespace BacktrackRegex

/-! ## Coming to the same positions -/

namespace Point

/-- From points at the same position, `g` comes to every position that `f` comes to. -/
def Covers (f g : Point → List Point) : Prop :=
  ∀ a b c : Point, a.pos = b.pos → c ∈ f a → ∃ d ∈ g b, d.pos = c.pos

/-- From points at the same position, both come to the same positions. -/
def SameEnds (f g : Point → List Point) : Prop :=
  Covers f g ∧ Covers g f

variable {text : String} {mode : Mode} {f g h f' g' : Point → List Point}

theorem Covers.trans (fg : Covers f g) (gh : Covers g h) : Covers f h := by
  intro a b c same mem
  obtain ⟨d, hd, at_d⟩ := fg a b c same mem
  obtain ⟨e, he, at_e⟩ := gh b b d rfl hd
  exact ⟨e, he, at_e.trans at_d⟩

theorem SameEnds.trans (fg : SameEnds f g) (gh : SameEnds g h) : SameEnds f h :=
  ⟨fg.1.trans gh.1, gh.2.trans fg.2⟩

theorem SameEnds.symm (fg : SameEnds f g) : SameEnds g f :=
  ⟨fg.2, fg.1⟩

/-- What comes to no position is empty. -/
theorem SameEnds.eq_nil_iff (fg : SameEnds f g) {a b : Point} (same : a.pos = b.pos) :
    f a = [] ↔ g b = [] := by
  constructor <;> intro none <;> refine List.eq_nil_iff_forall_not_mem.mpr fun c mem => ?_
  · obtain ⟨d, hd, -⟩ := fg.2 b a c same.symm mem
    rw [none] at hd
    cases hd
  · obtain ⟨d, hd, -⟩ := fg.1 a b c same mem
    rw [none] at hd
    cases hd

theorem covers_stay : Covers (fun point => [point]) (fun point => [point]) := by
  intro a b c same mem
  obtain rfl := List.mem_singleton.mp mem
  exact ⟨b, List.mem_singleton_self b, same.symm⟩

theorem covers_read (passes : Char → Bool) : Covers (read text passes) (read text passes) := by
  intro a b c same mem
  rw [read, Option.mem_toList, Option.map_eq_some_iff] at mem
  obtain ⟨pos, read, rfl⟩ := mem
  rw [same] at read
  refine ⟨{ b with pos }, ?_, rfl⟩
  rw [Point.read, read]
  exact List.mem_singleton_self _

/-- All tests but backreferences ask for a position only. -/
theorem covers_test {condition : Test} (plain : ∀ g, condition ≠ .backreference g) :
    Covers (test text mode condition) (test text mode condition) := by
  intro a b c same mem
  have blind : condition.after? text mode b.captures b.pos =
      condition.after? text mode a.captures a.pos := by
    rw [same]
    cases condition with
    | backreference g => exact absurd rfl (plain g)
    | _ => rfl
  rw [test, Option.mem_toList, Option.map_eq_some_iff] at mem
  obtain ⟨pos, passed, rfl⟩ := mem
  refine ⟨{ b with pos }, ?_, rfl⟩
  rw [test, blind, passed]
  exact List.mem_singleton_self _

theorem Covers.capture (fg : Covers f g) (slot slot' : Nat) :
    Covers (fun point => (f point).map (·.capture slot point.pos))
      (fun point => (g point).map (·.capture slot' point.pos)) := by
  intro a b c same mem
  obtain ⟨inner, hi, rfl⟩ := List.mem_map.mp mem
  obtain ⟨d, hd, at_d⟩ := fg a b inner same hi
  exact ⟨d.capture slot' b.pos, List.mem_map_of_mem hd, at_d⟩

theorem Covers.bind (fg : Covers f g) (fg' : Covers f' g') :
    Covers (fun point => (f point).flatMap f') (fun point => (g point).flatMap g') := by
  intro a b c same mem
  obtain ⟨middle, hm, mem⟩ := List.mem_flatMap.mp mem
  obtain ⟨d, hd, at_d⟩ := fg a b middle same hm
  obtain ⟨e, he, at_e⟩ := fg' middle d c at_d.symm mem
  exact ⟨e, List.mem_flatMap.mpr ⟨d, hd, he⟩, at_e⟩

/-! ## Repetitions -/

variable {groups groups' : GroupRange} {min : Nat} {max : Option Nat} {greedy greedy' : Bool}

/-- When a repetition may end, and when it may go on, has nothing to do with what it prefers. -/
theorem mem_repeated_iff {n completed : Nat} {point after : Point} :
    after ∈ repeated f groups min max greedy (n + 1) completed point ↔
      (min ≤ completed ∧ after = point) ∨
        ((completed < min ∨ max ≠ some completed) ∧
          after ∈ again f groups min max greedy n completed point) := by
  rw [repeated_succ]
  by_cases required : completed < min
  · simp [required]
  by_cases full : max = some completed
  · simp [required, full, Nat.le_of_not_lt required]
  cases greedy <;> simp [required, full, Nat.le_of_not_lt required, or_comm]

theorem Covers.repeated (fg : Covers f g) (n completed : Nat) :
    Covers (repeated f groups min max greedy n completed)
      (repeated g groups' min max greedy' n completed) := by
  induction n generalizing completed with
  | zero =>
    intro a b c same mem
    cases mem
  | succ n ih =>
    intro a b c same mem
    rcases mem_repeated_iff.mp mem with ⟨enough, rfl⟩ | ⟨more, mem⟩
    · exact ⟨b, mem_repeated_iff.mpr (.inl ⟨enough, rfl⟩), same.symm⟩
    · obtain ⟨middle, hm, moved, mem⟩ := mem_again.mp mem
      obtain ⟨d, hd, at_d⟩ := fg { a with captures := groups.clear a.captures }
        { b with captures := groups'.clear b.captures } middle same hm
      obtain ⟨e, he, at_e⟩ := ih (completed + 1) middle d c at_d.symm mem
      rw [← at_d, same] at moved
      exact ⟨e, mem_repeated_iff.mpr (.inr ⟨more, mem_again.mpr ⟨d, hd, moved, he⟩⟩), at_e⟩

end Point

namespace Pattern

open Point

/-! ## Patterns in another order -/

section

variable {α : Type}

mutual

/-- The other pattern differs from this one only in the order of alternatives, in which quantifiers
are greedy, and in labels. -/
def Reordered : Pattern α → Pattern α → Prop
  | group _ kind body, q => ∃ label body', q = group label kind body' ∧ Reordered body body'
  | quantified _ min max _ body, q =>
    ∃ label greedy body', q = quantified label min max greedy body' ∧ Reordered body body'
  | seq terms, q => ∃ terms', q = seq terms' ∧ ReorderedAll terms terms'
  | choice alternatives, q => ∃ alternatives' permuted, q = choice permuted ∧
    alternatives'.Perm permuted ∧ ReorderedAll alternatives alternatives'
  | p, q => q = p
termination_by structural p => p

/-- Each of the other patterns differs from the one in its place in no other way. -/
def ReorderedAll : List (Pattern α) → List (Pattern α) → Prop
  | [], qs => qs = []
  | p :: rest, qs => ∃ q rest', qs = q :: rest' ∧ Reordered p q ∧ ReorderedAll rest rest'
termination_by structural ps => ps

end

mutual

/-- Whether there is a backreference in a pattern. -/
def refersBack : Pattern α → Bool
  | backreference _ => true
  | group _ _ body => refersBack body
  | quantified _ _ _ _ body => refersBack body
  | seq terms => anyRefersBack terms
  | choice alternatives => anyRefersBack alternatives
  | _ => false
termination_by structural p => p

/-- Whether there is a backreference in one of some patterns. -/
def anyRefersBack : List (Pattern α) → Bool
  | [] => false
  | p :: rest => refersBack p || anyRefersBack rest
termination_by structural ps => ps

end

theorem anyRefersBack_eq_false_iff {ps : List (Pattern α)} :
    anyRefersBack ps = false ↔ ∀ p ∈ ps, p.refersBack = false := by
  induction ps with
  | nil => simp [anyRefersBack]
  | cons q rest ih => simp [anyRefersBack, ih]

/-- The patterns in two places are in the other order too. -/
theorem ReorderedAll.exists_of_mem {ps qs : List (Pattern α)} (all : ReorderedAll ps qs) :
    (∀ p ∈ ps, ∃ q ∈ qs, Reordered p q) ∧ (∀ q ∈ qs, ∃ p ∈ ps, Reordered p q) := by
  induction ps generalizing qs with
  | nil =>
    obtain rfl := all
    exact ⟨by simp, by simp⟩
  | cons p rest ih =>
    obtain ⟨q, rest', rfl, first, others⟩ := all
    obtain ⟨left, right⟩ := ih others
    constructor
    · intro p' mem
      rcases List.mem_cons.mp mem with rfl | mem
      · exact ⟨q, List.mem_cons_self, first⟩
      · obtain ⟨q', hq, related⟩ := left p' mem
        exact ⟨q', List.mem_cons_of_mem q hq, related⟩
    · intro q' mem
      rcases List.mem_cons.mp mem with rfl | mem
      · exact ⟨p, List.mem_cons_self, first⟩
      · obtain ⟨p', hp, related⟩ := right q' mem
        exact ⟨p', List.mem_cons_of_mem p hp, related⟩

/-! ## Numbering anew -/

/-- Patterns in another order have no other backreferences. -/
theorem Reordered.plain {p q : Pattern α} (h : Reordered p q) (plain : p.refersBack = false) :
    q.refersBack = false := by
  induction p generalizing q with
  | group label kind body ih =>
    obtain ⟨label', body', rfl, inner⟩ := h
    rw [refersBack] at plain ⊢
    exact ih inner plain
  | quantified label min max greedy body ih =>
    obtain ⟨label', greedy', body', rfl, inner⟩ := h
    rw [refersBack] at plain ⊢
    exact ih inner plain
  | seq terms ih =>
    obtain ⟨terms', rfl, all⟩ := h
    refine anyRefersBack_eq_false_iff.mpr fun q mem => ?_
    obtain ⟨p, hp, related⟩ := all.exists_of_mem.2 q mem
    exact ih p hp related (anyRefersBack_eq_false_iff.mp plain p hp)
  | choice alternatives ih =>
    obtain ⟨alternatives', permuted, rfl, perm, all⟩ := h
    refine anyRefersBack_eq_false_iff.mpr fun q mem => ?_
    obtain ⟨p, hp, related⟩ := all.exists_of_mem.2 q (perm.mem_iff.mpr mem)
    exact ih p hp related (anyRefersBack_eq_false_iff.mp plain p hp)
  | _ =>
    obtain rfl := h
    exact plain

end

theorem reorderedAll_numberList {ps : List (Pattern GroupRange)}
    (h : ∀ p ∈ ps, ∀ next, Reordered p (number p next).1) (next : Nat) :
    ReorderedAll ps (numberList ps next []).1 := by
  induction ps generalizing next with
  | nil => rfl
  | cons p rest ih =>
    simp only [numberList]
    rw [numberList_eq]
    exact ⟨_, _, rfl, h p List.mem_cons_self next,
      ih (fun q mem => h q (List.mem_cons_of_mem p mem)) _⟩

/-- To number a pattern anew does not touch the order. -/
theorem reordered_number (p : Pattern GroupRange) (next : Nat) : Reordered p (number p next).1 := by
  induction p generalizing next with
  | group label kind body ih => exact ⟨_, _, rfl, ih _⟩
  | quantified label min max greedy body ih => exact ⟨_, _, _, rfl, ih _⟩
  | seq terms ih => exact ⟨_, rfl, reorderedAll_numberList ih next⟩
  | choice alternatives ih => exact ⟨_, _, rfl, .refl _, reorderedAll_numberList ih next⟩
  | _ => rfl

/-! ## Results -/

variable {text : String} {mode : Mode}

theorem mem_resultsOfChoice {alternatives : List (Pattern GroupRange)} {before after : Point} :
    after ∈ resultsOfChoice text mode alternatives before ↔
      ∃ p ∈ alternatives, after ∈ results text mode p before := by
  induction alternatives with
  | nil => simp [resultsOfChoice]
  | cons p rest ih => simp [resultsOfChoice, ih]

theorem sameEnds_resultsOfSeq {ps qs : List (Pattern GroupRange)}
    (h : ∀ p ∈ ps, ∀ {q}, Reordered p q → SameEnds (results text mode p) (results text mode q))
    (all : ReorderedAll ps qs) :
    SameEnds (resultsOfSeq text mode ps) (resultsOfSeq text mode qs) := by
  induction ps generalizing qs with
  | nil =>
    obtain rfl := all
    exact ⟨covers_stay, covers_stay⟩
  | cons p rest ih =>
    obtain ⟨q, rest', rfl, first, others⟩ := all
    have head := h p List.mem_cons_self first
    have tail := ih (fun p' mem => h p' (List.mem_cons_of_mem p mem)) others
    exact ⟨head.1.bind tail.1, head.2.bind tail.2⟩

theorem sameEnds_resultsOfChoice {ps qs permuted : List (Pattern GroupRange)}
    (h : ∀ p ∈ ps, ∀ {q}, Reordered p q → SameEnds (results text mode p) (results text mode q))
    (all : ReorderedAll ps qs) (perm : qs.Perm permuted) :
    SameEnds (resultsOfChoice text mode ps) (resultsOfChoice text mode permuted) := by
  constructor <;> intro a b c same mem <;> rw [mem_resultsOfChoice] at mem
  · obtain ⟨p, hp, mem⟩ := mem
    obtain ⟨q, hq, related⟩ := all.exists_of_mem.1 p hp
    obtain ⟨d, hd, at_d⟩ := (h p hp related).1 a b c same mem
    exact ⟨d, mem_resultsOfChoice.mpr ⟨q, perm.mem_iff.mp hq, hd⟩, at_d⟩
  · obtain ⟨q, hq, mem⟩ := mem
    obtain ⟨p, hp, related⟩ := all.exists_of_mem.2 q (perm.mem_iff.mpr hq)
    obtain ⟨d, hd, at_d⟩ := (h p hp related).2 a b c same mem
    exact ⟨d, mem_resultsOfChoice.mpr ⟨p, hp, hd⟩, at_d⟩

/-- A lookahead asks only whether there are results. -/
theorem covers_lookahead {body body' : Pattern GroupRange} {groups groups' : GroupRange}
    (h : SameEnds (results text mode body) (results text mode body')) :
    Covers (results text mode (.group groups .lookahead body))
      (results text mode (.group groups' .lookahead body')) := by
  intro a b c same mem
  rw [results] at mem ⊢
  split at mem
  · cases mem
  · next first others found =>
    obtain rfl := List.mem_singleton.mp mem
    split
    · next none =>
      rw [(h.eq_nil_iff same).mpr none] at found
      cases found
    · exact ⟨_, List.mem_singleton_self _, same.symm⟩

theorem covers_negativeLookahead {body body' : Pattern GroupRange} {groups groups' : GroupRange}
    (h : SameEnds (results text mode body) (results text mode body')) :
    Covers (results text mode (.group groups .negativeLookahead body))
      (results text mode (.group groups' .negativeLookahead body')) := by
  intro a b c same mem
  rw [results] at mem ⊢
  split at mem
  · next none =>
    obtain rfl := List.mem_singleton.mp mem
    rw [(h.eq_nil_iff same).mp none]
    exact ⟨b, List.mem_singleton_self b, same.symm⟩
  · cases mem

/-- **The order does not decide where a match can end.** -/
theorem sameEnds_of_reordered {p q : Pattern GroupRange} (h : p.Reordered q)
    (plain : p.refersBack = false) : SameEnds (results text mode p) (results text mode q) := by
  induction p generalizing q with
  | empty =>
    obtain rfl := h
    exact ⟨covers_stay, covers_stay⟩
  | char c | coded c =>
    obtain rfl := h
    exact ⟨covers_read _, covers_read _⟩
  | named cls positive =>
    obtain rfl := h
    exact ⟨covers_read _, covers_read _⟩
  | set negated items =>
    obtain rfl := h
    exact ⟨covers_read _, covers_read _⟩
  | dot =>
    obtain rfl := h
    exact ⟨covers_read _, covers_read _⟩
  | lineStart | lineEnd =>
    obtain rfl := h
    exact ⟨covers_test (by simp), covers_test (by simp)⟩
  | wordBoundary inverted =>
    obtain rfl := h
    exact ⟨covers_test (by simp), covers_test (by simp)⟩
  | backreference g => cases plain
  | group groups kind body ih =>
    obtain ⟨groups', body', rfl, inner⟩ := h
    have same := ih inner plain
    cases kind with
    | capturing => exact ⟨same.1.capture _ _, same.2.capture _ _⟩
    | nonCapturing => exact same
    | lookahead => exact ⟨covers_lookahead same, covers_lookahead same.symm⟩
    | negativeLookahead =>
      exact ⟨covers_negativeLookahead same, covers_negativeLookahead same.symm⟩
  | quantified groups min max greedy body ih =>
    obtain ⟨groups', greedy', body', rfl, inner⟩ := h
    have same := ih inner plain
    constructor <;> intro a b c there mem <;> rw [results] at mem ⊢ <;> rw [there] at mem
    · exact same.1.repeated _ 0 a b c there mem
    · exact same.2.repeated _ 0 a b c there mem
  | seq terms ih =>
    obtain ⟨terms', rfl, all⟩ := h
    refine sameEnds_resultsOfSeq (fun p mem => ?_) all
    exact fun related => ih p mem related (anyRefersBack_eq_false_iff.mp plain p mem)
  | choice alternatives ih =>
    obtain ⟨alternatives', permuted, rfl, perm, all⟩ := h
    refine sameEnds_resultsOfChoice (fun p mem => ?_) all perm
    exact fun related => ih p mem related (anyRefersBack_eq_false_iff.mp plain p mem)

end Pattern

end BacktrackRegex
