import BacktrackRegex.CharClass
import Mathlib.Data.List.Chain

/-!
# Case variants and canonical forms

With folding, a set is meant to accept a character if it holds one with the same canonical form. A
single character in a set is compared by that form. For a range or a class the variants of the
character at hand are tried, and these are not all characters with its canonical form: there are 25,
the `strays`, that are variants of themselves only (**`mem_variants_iff`**). A set that holds a
stray in a range misses the characters that differ from it in case only
(**`accepts_fold_iff`**, `not_accepts_sigma`).

What is said of all characters is read off the runs of the case mappings. Each run that leads to
upper case is taken back by a run that leads to lower case, unless it moves strays or leads into
ASCII (`takenBack_upperRuns`); no run leads to a stray in lower case, and none to what another run
would move on in upper case.
-/

namespace BacktrackRegex

namespace Text

/-! ## Runs -/

namespace CaseRun

/-- Where a run moves a code point. -/
def move (run : CaseRun) (code : Nat) : Nat :=
  (code + run.shift).toNat

theorem contains_iff {run : CaseRun} {code : Nat} :
    run.contains code = true ↔
      run.first ≤ code ∧ code ≤ run.last ∧ run.stride ∣ code - run.first := by
  simp [contains, Nat.dvd_iff_mod_eq_zero, and_assoc]

/-- Whether a run moves back what another run moves. -/
def takesBack (back run : CaseRun) : Bool :=
  back.shift == -run.shift && decide (0 ≤ run.first + run.shift) &&
    back.contains (run.move run.first) && decide (run.move run.last ≤ back.last) &&
    (run.first == run.last || run.stride % back.stride == 0)

/-- Whether a run moves nothing into another one, since it stays on one side or comes between. -/
def misses (run other : CaseRun) : Bool :=
  Nat.blt (run.move run.last) other.first || Nat.blt other.last (run.move run.first) ||
    (other.stride == 2 && (run.first == run.last || run.stride == 2) &&
      (run.move run.first + other.first) % 2 == 1)

section

variable {run : CaseRun} {code : Nat} (inside : run.contains code = true)

include inside

/-- What a run moves lies between its moved ends, and at the distance that it had. -/
theorem move_eq (positive : 0 ≤ run.first + run.shift) :
    run.move code = run.move run.first + (code - run.first) := by
  have := (contains_iff.mp inside).1
  simp only [move]
  omega

theorem move_le_move : run.move run.first ≤ run.move code ∧ run.move code ≤ run.move run.last := by
  obtain ⟨low, high, -⟩ := contains_iff.mp inside
  simp only [move]
  omega

/-- The steps of a run are steps of another if its stride is a multiple. -/
theorem dvd_of_stride {stride : Nat} (h : run.first = run.last ∨ stride ∣ run.stride) :
    stride ∣ code - run.first := by
  obtain ⟨low, high, steps⟩ := contains_iff.mp inside
  rcases h with single | divides
  · rw [show code - run.first = 0 by omega]
    exact Nat.dvd_zero stride
  · exact Nat.dvd_trans divides steps

theorem contains_move {back : CaseRun} (h : back.takesBack run = true) :
    back.contains (run.move code) = true ∧ back.move (run.move code) = code := by
  simp only [takesBack, Bool.and_eq_true, Bool.or_eq_true, beq_iff_eq, decide_eq_true_eq,
    contains_iff, ← Nat.dvd_iff_mod_eq_zero] at h
  obtain ⟨⟨⟨⟨shift, positive⟩, low, -, steps⟩, high⟩, stride⟩ := h
  have moved := move_eq inside positive
  have apart := dvd_of_stride inside stride
  rw [contains_iff]
  refine ⟨⟨by omega, Nat.le_trans (move_le_move inside).2 high, ?_⟩, ?_⟩
  · have all := Nat.dvd_add steps apart
    rwa [← Nat.sub_add_comm low, ← moved] at all
  · have := (contains_iff.mp inside).1
    simp only [move, shift]
    omega

theorem not_contains_of_misses {other : CaseRun} (positive : 0 ≤ run.first + run.shift)
    (h : run.misses other = true) : other.contains (run.move code) = false := by
  simp only [misses, Bool.and_eq_true, Bool.or_eq_true, beq_iff_eq, Nat.blt_eq] at h
  obtain ⟨low, high⟩ := move_le_move inside
  rw [Bool.eq_false_iff]
  intro there
  obtain ⟨first, last, steps⟩ := contains_iff.mp there
  rcases h with (before | behind) | ⟨⟨two, stride⟩, odd⟩
  · omega
  · omega
  · have moved := move_eq inside positive
    have even : 2 ∣ code - run.first :=
      dvd_of_stride inside (stride.imp_right fun same => ⟨1, by omega⟩)
    rw [two] at steps
    omega

end

end CaseRun

/-- Whether a run comes before another one. -/
def CaseRun.Before (run other : CaseRun) : Prop :=
  run.first ≤ run.last ∧ run.last < other.first

instance (run other : CaseRun) : Decidable (run.Before other) :=
  inferInstanceAs (Decidable (_ ∧ _))

instance : Trans CaseRun.Before CaseRun.Before CaseRun.Before where
  trans h h' := ⟨h.1, Nat.lt_trans (Nat.lt_of_lt_of_le h.2 h'.1) h'.2⟩

/-- A character maps to itself, or a run moves it. -/
theorem mapCase_eq_or (runs : List CaseRun) (c : Char) :
    mapCase runs c = c ∨ ∃ run ∈ runs, run.contains c.toNat = true ∧
      mapCase runs c = Char.ofNat (run.move c.toNat) := by
  induction runs with
  | nil => exact .inl rfl
  | cons run rest ih =>
    rw [mapCase]
    split
    · exact .inl rfl
    split
    · next inside => exact .inr ⟨run, List.mem_cons_self, inside, rfl⟩
    · rcases ih with same | ⟨other, mem, inside, moved⟩
      · exact .inl same
      · exact .inr ⟨other, List.mem_cons_of_mem run mem, inside, moved⟩

/-- A run of a sorted list moves what is in it. -/
theorem mapCase_of_contains {runs : List CaseRun} (sorted : runs.IsChain CaseRun.Before)
    {run : CaseRun} (mem : run ∈ runs) {c : Char} (inside : run.contains c.toNat = true) :
    mapCase runs c = Char.ofNat (run.move c.toNat) := by
  rw [List.isChain_iff_pairwise] at sorted
  induction runs with
  | nil => cases mem
  | cons other rest ih =>
    obtain ⟨behind, sorted⟩ := List.pairwise_cons.mp sorted
    obtain ⟨low, high, -⟩ := CaseRun.contains_iff.mp inside
    rw [mapCase]
    rcases List.mem_cons.mp mem with rfl | mem
    · rw [if_neg (Nat.not_lt.mpr low), if_pos inside]
      rfl
    · obtain ⟨filled, apart⟩ := behind run mem
      have outside : ¬other.contains c.toNat = true := fun h => by
        have := (CaseRun.contains_iff.mp h).2.1
        omega
      rw [if_neg (by omega), if_neg outside]
      exact ih sorted mem

/-! ## Strays -/

/-- The characters that are neither their own canonical form nor a lower case of it. -/
def strays : List Char :=
  ['\u00B5', '\u01C5', '\u01C8', '\u01CB', '\u01F2', '\u0345', '\u03C2', '\u03D0', '\u03D1',
    '\u03D5', '\u03D6', '\u03F0', '\u03F1', '\u03F5', '\u1C80', '\u1C81', '\u1C82', '\u1C83',
    '\u1C84', '\u1C85', '\u1C86', '\u1C87', '\u1C88', '\u1E9B', '\u1FBE']

theorem sorted_lowerRuns : lowerRuns.IsChain CaseRun.Before := by decide +kernel

theorem takenBack_upperRuns : (upperRuns.all fun run => lowerRuns.any (·.takesBack run) ||
    (List.range' run.first (run.last + 1 - run.first)).all (Char.ofNat · ∈ strays) ||
    (run.first == run.last && Nat.blt (run.move run.first) 128)) = true := by
  decide +kernel

theorem misses_upperRuns : (upperRuns.all fun run => decide (0 ≤ run.first + run.shift) &&
    upperRuns.all fun other => run.misses other) = true := by
  decide +kernel

theorem strays_lowerRuns : (lowerRuns.all fun run => strays.all fun c =>
    Nat.blt c.toNat (run.move run.first) || Nat.blt (run.move run.last) c.toNat) = true := by
  decide +kernel

/-! ## Canonical forms -/

theorem toNat_ofNat_of_not_isAscii {n : Nat} (h : isAscii (Char.ofNat n) = false) :
    (Char.ofNat n).toNat = n := by
  by_cases valid : n.isValidChar
  · have code : Char.ofNat n = Char.ofNatAux n valid := dif_pos valid
    rw [code]
    rfl
  · have zero : Char.ofNat n = '\x00' := dif_neg valid
    rw [zero] at h
    cases h

/-- What a character outside ASCII has as its canonical form. -/
theorem canonical_eq_or (c : Char) :
    (∃ n : Fin 128, c = Char.ofNat n) ∨ canonical c = c ∨ ∃ run ∈ upperRuns,
      run.contains c.toNat = true ∧ 128 ≤ run.move c.toNat ∧
        (canonical c).toNat = run.move c.toNat := by
  by_cases ascii : isAscii c = true
  · exact .inl ⟨⟨c.toNat, of_decide_eq_true ascii⟩, (Char.ofNat_toNat c).symm⟩
  rw [canonical, if_neg ascii]
  rcases mapCase_eq_or upperRuns c with same | ⟨run, mem, inside, moved⟩
  · refine .inr (.inl ?_)
    show (if isAscii (upper c) = true then c else upper c) = c
    rw [upper, same, ite_self]
  · by_cases folds : isAscii (upper c) = true
    · exact .inr (.inl (if_pos folds))
    · have outside : isAscii (Char.ofNat (run.move c.toNat)) = false := by
        rw [← moved]
        exact Bool.eq_false_iff.mpr folds
      have code := toNat_ofNat_of_not_isAscii outside
      refine .inr (.inr ⟨run, mem, inside, ?_, ?_⟩)
      · rw [isAscii, code] at outside
        exact Nat.not_lt.mp (of_decide_eq_false outside)
      · show (if isAscii (upper c) = true then c else upper c).toNat = _
        rw [if_neg folds, upper, moved, code]

/-- A canonical form is its own. -/
theorem canonical_canonical (c : Char) : canonical (canonical c) = canonical c := by
  rcases canonical_eq_or c with ⟨n, rfl⟩ | same | ⟨run, mem, inside, high, code⟩
  · revert n
    decide
  · rw [same, same]
  rcases canonical_eq_or (canonical c) with ⟨n, ascii⟩ | same | ⟨other, mem', inside', -⟩
  · have codes : ∀ n : Fin 128, (Char.ofNat n).toNat = n := by decide
    rw [ascii, codes] at code
    omega
  · exact same
  · -- a run would lead from the canonical form on
    have missed := List.all_eq_true.mp misses_upperRuns run mem
    rw [Bool.and_eq_true, decide_eq_true_eq, List.all_eq_true] at missed
    rw [code, CaseRun.not_contains_of_misses inside missed.1 (missed.2 other mem')] at inside'
    cases inside'

/-- A character is its canonical form, a lower case of it, or a stray. -/
theorem mem_lowerForms_canonical (c : Char) :
    canonical c = c ∨ c ∈ lowerForms (canonical c) ∨ c ∈ strays := by
  rcases canonical_eq_or c with ⟨n, rfl⟩ | same | ⟨run, mem, inside, high, code⟩
  · revert n
    decide
  · exact .inl same
  obtain ⟨first, last, -⟩ := CaseRun.contains_iff.mp inside
  have taken := List.all_eq_true.mp takenBack_upperRuns run mem
  simp only [Bool.or_eq_true, Bool.and_eq_true, List.any_eq_true, List.all_eq_true,
    decide_eq_true_eq, beq_iff_eq, Nat.blt_eq] at taken
  rcases taken with (⟨back, mem', taken⟩ | stray) | ⟨single, low⟩
  · -- the run that takes it back is one of the lower-case mapping
    obtain ⟨there, moved⟩ := CaseRun.contains_move inside taken
    rw [← code] at there moved
    refine .inr (.inl ?_)
    have dotted : canonical c ≠ '\u0130' := by
      intro h
      rw [h] at there
      have none : (lowerRuns.any (·.contains 0x130)) = false := by decide
      exact Bool.eq_false_iff.mp none (List.any_eq_true.mpr ⟨back, mem', there⟩)
    rw [lowerForms, if_neg dotted, mapCase_of_contains sorted_lowerRuns mem' there, moved,
      Char.ofNat_toNat]
    exact List.mem_singleton_self c
  · have mem := stray c.toNat (List.mem_range'_1.mpr (by omega))
    rw [Char.ofNat_toNat] at mem
    exact .inr (.inr mem)
  · rw [show c.toNat = run.first by omega] at high
    omega

/-- A stray is the lower case of no other character. -/
theorem eq_of_mem_lowerForms {c d : Char} (h : d ∈ lowerForms c) (stray : d ∈ strays) : d = c := by
  rw [lowerForms] at h
  split at h
  · have none : ((['i', '\u0307'] : List Char).all (· ∉ strays)) = true := by decide
    exact absurd stray (of_decide_eq_true (List.all_eq_true.mp none d h))
  obtain rfl := List.mem_singleton.mp h
  rcases mapCase_eq_or lowerRuns c with same | ⟨run, mem, inside, moved⟩
  · exact same
  · rw [moved] at stray
    have outside : (strays.all (!isAscii ·)) = true := by decide
    have code := toNat_ofNat_of_not_isAscii (by simpa using List.all_eq_true.mp outside _ stray)
    have apart := List.all_eq_true.mp (List.all_eq_true.mp strays_lowerRuns run mem) _ stray
    rw [code, Bool.or_eq_true, Nat.blt_eq, Nat.blt_eq] at apart
    have := CaseRun.move_le_move inside
    omega

theorem canonical_ne_of_mem_strays {c : Char} (stray : c ∈ strays) : canonical c ≠ c := by
  have moves : (strays.all fun c => canonical c ≠ c) = true := by decide +kernel
  exact of_decide_eq_true (List.all_eq_true.mp moves c stray)

/-- **The variants of a character** are those with its canonical form, but for the strays that are
others. -/
theorem mem_variants_iff {c d : Char} :
    d ∈ variants c ↔ canonical d = canonical c ∧ (d = c ∨ d ∉ strays) := by
  simp only [variants, List.mem_cons, List.mem_filter, List.mem_append, beq_iff_eq]
  constructor
  · rintro (rfl | rfl | ⟨lower, same⟩)
    · exact ⟨rfl, .inl rfl⟩
    · exact ⟨canonical_canonical c, .inr fun stray =>
        canonical_ne_of_mem_strays stray (canonical_canonical c)⟩
    · refine ⟨same, Classical.or_iff_not_imp_right.mpr fun stray => ?_⟩
      have stray := Classical.not_not.mp stray
      rcases lower with lower | lower
      · have fixed := same.trans (eq_of_mem_lowerForms lower stray).symm
        exact absurd fixed (canonical_ne_of_mem_strays stray)
      · exact eq_of_mem_lowerForms lower stray
  · rintro ⟨same, rfl | tame⟩
    · exact .inl rfl
    · rcases mem_lowerForms_canonical d with fixed | lower | stray
      · exact .inr (.inl (fixed.symm.trans same))
      · rw [same] at lower
        exact .inr (.inr ⟨.inl lower, same⟩)
      · exact absurd stray tame

end Text

/-- What an item holds with folding. -/
theorem ClassItem.containsFolded_iff {item : ClassItem} {c : Char} :
    item.containsFolded c = true ↔ ∃ d, item.contains d = true ∧
      Text.canonical d = Text.canonical c ∧ (item = .single d ∨ d = c ∨ d ∉ Text.strays) := by
  have variants : (Text.variants c).any item.contains = true ↔ ∃ d, item.contains d = true ∧
      Text.canonical d = Text.canonical c ∧ (d = c ∨ d ∉ Text.strays) := by
    simp only [List.any_eq_true, Text.mem_variants_iff]
    exact exists_congr fun d => ⟨fun ⟨h, h'⟩ => ⟨h', h⟩, fun ⟨h, h'⟩ => ⟨h', h⟩⟩
  cases item with
  | single a =>
    simp only [containsFolded, contains, beq_iff_eq]
    constructor
    · intro same
      exact ⟨a, rfl, same, .inl rfl⟩
    · rintro ⟨d, rfl, same, -⟩
      exact same
  | range lo hi => simpa [containsFolded] using variants
  | named cls positive => simpa [containsFolded] using variants

/-- **What a set accepts with folding**: the characters that have the canonical form of one in it,
but for the strays in ranges and classes, which it finds only as themselves. -/
theorem accepts_fold_iff (negated : Bool) (items : List ClassItem) (c : Char) :
    accepts true negated items c = true ↔
      ((∃ item ∈ items, ∃ d, item.contains d = true ∧ Text.canonical d = Text.canonical c ∧
        (item = .single d ∨ d = c ∨ d ∉ Text.strays)) ↔ negated = false) := by
  have found : (items.any (·.containsFolded c)) = true ↔ ∃ item ∈ items, ∃ d,
      item.contains d = true ∧ Text.canonical d = Text.canonical c ∧
        (item = .single d ∨ d = c ∨ d ∉ Text.strays) := by
    rw [List.any_eq_true]
    refine exists_congr fun item => and_congr_right fun _ => ?_
    rw [ClassItem.containsFolded_iff]
  rw [accepts, if_pos rfl, ← found]
  rcases items.any (·.containsFolded c) <;> cases negated <;> simp

theorem not_accepts_sigma :
    let items : List ClassItem := [.range 'ς' 'ς']
    (∃ item ∈ items, ∃ d, item.contains d = true ∧ Text.canonical d = Text.canonical 'σ') ∧
      accepts true false items 'σ' = false ∧ accepts true false [.single 'ς'] 'σ' = true := by
  intro items
  have held : ClassItem.contains (.range 'ς' 'ς') 'ς' = true ∧
      Text.canonical 'ς' = Text.canonical 'σ' := by decide
  exact ⟨⟨_, List.mem_cons_self, 'ς', held⟩, by decide⟩

end BacktrackRegex
