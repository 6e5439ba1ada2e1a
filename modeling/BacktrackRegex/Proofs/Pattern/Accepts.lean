import BacktrackRegex.Proofs.Pattern.Leaf

/-!
# Reading accepts the grammar

A reader meets the characters one token after the other, and the grammar derives them as a tree. The
two come together in what is left to derive where so many groups are open: `Completes` if a term
may begin, `Continues` if a quantifier may stand there as well. `completes_iff` takes one step of a
derivation, and each token of a reader takes the same one (`Reader.accepts_iff`). Hence a text is
read as a pattern just when it is one (**`parse_isOk_iff_isPattern`**).
-/

namespace BacktrackRegex

namespace Grammar

/-! ## What is left to derive -/

/-- Derive a quantifier or none, and then more. -/
def AfterAtom (more : List Char → Nat → Nat → Prop) (input : List Char) (g l : Nat) : Prop :=
  more input g l ∨ ∃ rest l', Quantifies input rest ∧ more rest g l' ∧ l = l' + 1

/-- Derive alternatives, and then more. -/
def AfterChoice (more : List Char → Nat → Nat → Prop) (input : List Char) (g l : Nat) : Prop :=
  ∃ rest g₁ l₁ g₂ l₂, Derives .choice input g₁ l₁ rest ∧ more rest g₂ l₂ ∧
    g = g₁ + g₂ ∧ l = l₁ + l₂

/-- Behind the alternatives of the innermost of so many open groups: close it and go on, or be at
the end if none is open. -/
def Ends : Nat → List Char → Nat → Nat → Prop
  | 0 => fun input g l => input = [] ∧ g = 0 ∧ l = 0
  | depth + 1 => fun input g l =>
    ∃ rest, input = ')' :: rest ∧ AfterAtom (AfterChoice (Ends depth)) rest g l

/-- Complete a pattern in which so many groups are open, where a term may begin. The numbers count
the capturing groups and the quantifiers on the way. -/
def Completes (depth : Nat) : List Char → Nat → Nat → Prop :=
  AfterChoice (Ends depth)

/-- Complete a pattern in which so many groups are open, behind what a quantifier may follow. -/
def Continues (depth : Nat) : List Char → Nat → Nat → Prop :=
  AfterAtom (Completes depth)

/-- The first token of what is left to derive, and what is left behind it. -/
inductive Begins : Nat → List Char → Nat → Nat → Prop where
  /-- nothing is left -/
  | finish : Begins 0 [] 0 0
  /-- another alternative -/
  | bar {depth rest g l} (h : Completes depth rest g l) : Begins depth ('|' :: rest) g l
  /-- the innermost group is closed -/
  | closing {depth rest g l} (h : Continues depth rest g l) : Begins (depth + 1) (')' :: rest) g l
  /-- a group is opened -/
  | opening {depth input kind rest g l} (h : (Token.opening kind).Reads input rest)
    (more : Completes (depth + 1) rest g l) : Begins depth input (g + kind.captures) l
  /-- an assertion -/
  | assertion {depth input rest g l} (h : Leaf input false rest) (more : Completes depth rest g l) :
    Begins depth input g l
  /-- an atom without parentheses -/
  | atom {depth input rest g l} (h : Leaf input true rest) (more : Continues depth rest g l) :
    Begins depth input g l

variable {depth g l : Nat} {input rest : List Char}

/-! ## One step of a derivation -/

/-- Alternatives are empty, begin with a bar, or begin with a term. -/
theorem derives_choice_iff :
    Derives .choice input g l rest ↔
      (rest = input ∧ g = 0 ∧ l = 0) ∨ (∃ middle, input = '|' :: middle ∧
        Derives .choice middle g l rest) ∨
      ∃ middle g₁ l₁ g₂ l₂, Derives .term input g₁ l₁ middle ∧
        Derives .choice middle g₂ l₂ rest ∧ g = g₁ + g₂ ∧ l = l₁ + l₂ := by
  constructor
  · intro h
    cases h with
    | lastAlternative h =>
      cases h with
      | nil => exact .inl ⟨rfl, rfl, rfl⟩
      | cons term more =>
        exact .inr (.inr ⟨_, _, _, _, _, term, .lastAlternative more, rfl, rfl⟩)
    | alternative h more =>
      cases h with
      | nil =>
        rw [Nat.zero_add, Nat.zero_add]
        exact .inr (.inl ⟨_, rfl, more⟩)
      | cons term rest =>
        exact .inr (.inr ⟨_, _, _, _, _, term, .alternative rest more, Nat.add_assoc ..,
          Nat.add_assoc ..⟩)
  · rintro (⟨rfl, rfl, rfl⟩ | ⟨middle, rfl, more⟩ | ⟨middle, g₁, l₁, g₂, l₂, term, more, rfl, rfl⟩)
    · exact .lastAlternative .nil
    · have := Derives.alternative .nil more
      rwa [Nat.zero_add, Nat.zero_add] at this
    · cases more with
      | lastAlternative h => exact .lastAlternative (.cons term h)
      | alternative h more =>
        rw [← Nat.add_assoc, ← Nat.add_assoc]
        exact .alternative (.cons term h) more

/-- A term is a leaf without quantifier, or an atom with one or none. -/
theorem derives_term_iff :
    Derives .term input g l rest ↔
      (Leaf input false rest ∧ g = 0 ∧ l = 0) ∨ ∃ middle l', Derives .atom input g l' middle ∧
        (rest = middle ∧ l = l' ∨ Quantifies middle rest ∧ l = l' + 1) := by
  constructor
  · intro h
    cases h with
    | lineStart => exact .inl ⟨.lineStart, rfl, rfl⟩
    | lineEnd => exact .inl ⟨.lineEnd, rfl, rfl⟩
    | wordBoundary h => exact .inl ⟨.wordBoundary h, rfl, rfl⟩
    | once h => exact .inr ⟨_, _, h, .inl ⟨rfl, rfl⟩⟩
    | quantified h q => exact .inr ⟨_, _, h, .inr ⟨q, rfl⟩⟩
  · rintro (⟨leaf, rfl, rfl⟩ | ⟨middle, l', atom, ⟨rfl, rfl⟩ | ⟨q, rfl⟩⟩)
    · exact leaf.term
    · exact .once atom
    · exact .quantified atom q

/-- What is left begins with the end of the alternatives, a bar, an assertion, or an atom. -/
theorem completes_iff :
    Completes depth input g l ↔
      Ends depth input g l ∨ (∃ rest, input = '|' :: rest ∧ Completes depth rest g l) ∨
      (∃ rest, Leaf input false rest ∧ Completes depth rest g l) ∨
      ∃ rest g₁ l₁ g₂ l₂, Derives .atom input g₁ l₁ rest ∧ Continues depth rest g₂ l₂ ∧
        g = g₁ + g₂ ∧ l = l₁ + l₂ := by
  constructor
  · rintro ⟨rest, g₁, l₁, g₂, l₂, choice, ends, rfl, rfl⟩
    rcases derives_choice_iff.mp choice with ⟨rfl, rfl, rfl⟩ | ⟨middle, rfl, more⟩ |
      ⟨middle, g, l, g', l', term, more, rfl, rfl⟩
    · rw [Nat.zero_add, Nat.zero_add]
      exact .inl ends
    · exact .inr (.inl ⟨middle, rfl, rest, g₁, l₁, g₂, l₂, more, ends, rfl, rfl⟩)
    have completes : Completes depth middle (g' + g₂) (l' + l₂) :=
      ⟨rest, g', l', g₂, l₂, more, ends, rfl, rfl⟩
    rw [Nat.add_assoc, Nat.add_assoc]
    rcases derives_term_iff.mp term with ⟨leaf, rfl, rfl⟩ | ⟨behind, l'', atom, once⟩
    · rw [Nat.zero_add, Nat.zero_add]
      exact .inr (.inr (.inl ⟨middle, leaf, completes⟩))
    · rcases once with ⟨rfl, rfl⟩ | ⟨q, rfl⟩
      · exact .inr (.inr (.inr ⟨middle, g, l, _, _, atom, .inl completes, rfl, rfl⟩))
      · exact .inr (.inr (.inr ⟨behind, g, l'', _, _, atom, .inr ⟨middle, _, q, completes, rfl⟩,
          rfl, by omega⟩))
  · rintro (ends | ⟨rest, rfl, h⟩ | ⟨rest, leaf, h⟩ | ⟨rest, g, l, g', l', atom, h, rfl, rfl⟩)
    · exact ⟨input, 0, 0, g, l, .lastAlternative .nil, ends, by omega, by omega⟩
    · obtain ⟨rest', g₁, l₁, g₂, l₂, choice, ends, rfl, rfl⟩ := h
      exact ⟨rest', g₁, l₁, g₂, l₂, derives_choice_iff.mpr (.inr (.inl ⟨rest, rfl, choice⟩)), ends,
        rfl, rfl⟩
    · obtain ⟨rest', g₁, l₁, g₂, l₂, choice, ends, rfl, rfl⟩ := h
      exact ⟨rest', 0 + g₁, 0 + l₁, g₂, l₂, derives_choice_iff.mpr (.inr (.inr
        ⟨rest, 0, 0, g₁, l₁, leaf.term, choice, rfl, rfl⟩)), ends, by omega, by omega⟩
    · rcases h with h | ⟨behind, l'', q, h, rfl⟩
      · obtain ⟨rest', g₁, l₁, g₂, l₂, choice, ends, rfl, rfl⟩ := h
        exact ⟨rest', g + g₁, l + l₁, g₂, l₂, derives_choice_iff.mpr (.inr (.inr
          ⟨rest, g, l, g₁, l₁, .once atom, choice, rfl, rfl⟩)), ends, by omega, by omega⟩
      · obtain ⟨rest', g₁, l₁, g₂, l₂, choice, ends, rfl, rfl⟩ := h
        exact ⟨rest', g + g₁, l + 1 + l₁, g₂, l₂, derives_choice_iff.mpr (.inr (.inr
          ⟨behind, g, l + 1, g₁, l₁, .quantified atom q, choice, rfl, rfl⟩)), ends,
          by omega, by omega⟩

/-- No term begins with the bounds of a quantifier. -/
theorem Derives.not_beginsRepetition (h : Derives .term input g l rest) :
    ¬BeginsRepetition input := by
  have of_atom {input g l rest} (h : Derives .atom input g l rest) : ¬BeginsRepetition input := by
    rintro ⟨least, most?, behind, repeats⟩
    cases h with
    | literal h => exact h.2 ⟨least, most?, behind, repeats⟩
    | _ => cases repeats
  rcases derives_term_iff.mp h with ⟨leaf, -, -⟩ | ⟨middle, l', atom, -⟩
  · exact leaf.not_beginsRepetition
  · exact of_atom atom

/-- An atom is a leaf, or alternatives in parentheses. -/
theorem derives_atom_iff :
    Derives .atom input g l rest ↔
      (Leaf input true rest ∧ g = 0 ∧ l = 0) ∨
      ∃ kind body g', (Token.opening kind).Reads input body ∧
        Derives .choice body g' l (')' :: rest) ∧ g = g' + kind.captures := by
  constructor
  · intro h
    cases h with
    | dot => exact .inl ⟨.dot, rfl, rfl⟩
    | escape h => exact .inl ⟨.escape h, rfl, rfl⟩
    | negatedSet h => exact .inl ⟨.negatedSet h, rfl, rfl⟩
    | set plain h => exact .inl ⟨.set plain h, rfl, rfl⟩
    | literal h => exact .inl ⟨.literal h, rfl, rfl⟩
    | capturing h =>
      refine .inr ⟨.capturing, _, _, .capturing fun mark rest' _ => ?_, h, rfl⟩
      rintro rfl
      -- a mark cannot begin alternatives, since it looks like a quantifier
      rcases derives_choice_iff.mp h with ⟨eq, -⟩ | ⟨middle, eq, -⟩ |
        ⟨middle, g₁, l₁, g₂, l₂, term, -⟩
      · cases eq
      · cases eq
      · exact term.not_beginsRepetition ⟨_, _, _, .optional⟩
    | marked h body =>
      rcases h with rfl | rfl | rfl
      · exact .inr ⟨.nonCapturing, _, _, .marked (.inl rfl) rfl, body, rfl⟩
      · exact .inr ⟨.lookahead, _, _, .marked (.inr (.inl rfl)) rfl, body, rfl⟩
      · exact .inr ⟨.negativeLookahead, _, _, .marked (.inr (.inr rfl)) rfl, body, rfl⟩
  · rintro (⟨leaf, rfl, rfl⟩ | ⟨kind, body, g', opening, h, rfl⟩)
    · exact leaf.atom
    · cases opening with
      | capturing => exact .capturing h
      | marked mark silent =>
        rw [GroupKind.captures, if_neg (by simp [silent])]
        exact .marked mark h

/-! ## One token of a derivation -/

/-- What is left to derive, token by token. -/
theorem completes_iff_begins : Completes depth input g l ↔ Begins depth input g l := by
  rw [completes_iff]
  constructor
  · rintro (ends | ⟨rest, rfl, h⟩ | ⟨rest, leaf, h⟩ | ⟨rest, g₁, l₁, g₂, l₂, atom, h, rfl, rfl⟩)
    · cases depth with
      | zero =>
        obtain ⟨rfl, rfl, rfl⟩ := ends
        exact .finish
      | succ depth =>
        obtain ⟨rest, rfl, h⟩ := ends
        exact .closing h
    · exact .bar h
    · exact .assertion leaf h
    · rcases derives_atom_iff.mp atom with ⟨leaf, rfl, rfl⟩ | ⟨kind, body, g', opening, choice, rfl⟩
      · rw [Nat.zero_add, Nat.zero_add]
        exact .atom leaf h
      · have completes : Completes (depth + 1) body (g' + g₂) (l₁ + l₂) :=
          ⟨_, g', l₁, g₂, l₂, choice, ⟨rest, rfl, h⟩, rfl, rfl⟩
        rw [Nat.add_right_comm]
        exact .opening opening completes
  · intro h
    cases h with
    | finish => exact .inl ⟨rfl, rfl, rfl⟩
    | bar h => exact .inr (.inl ⟨_, rfl, h⟩)
    | closing h => exact .inl ⟨_, rfl, h⟩
    | opening opening more =>
      obtain ⟨_, g₁, l₁, g₂, l₂, choice, ⟨rest, rfl, h⟩, rfl, rfl⟩ := more
      exact .inr (.inr (.inr ⟨rest, _, l₁, g₂, l₂,
        derives_atom_iff.mpr (.inr ⟨_, _, g₁, opening, choice, rfl⟩), h,
        Nat.add_right_comm .., rfl⟩))
    | assertion leaf h => exact .inr (.inr (.inl ⟨_, leaf, h⟩))
    | atom leaf h =>
      exact .inr (.inr (.inr ⟨_, 0, 0, g, l, leaf.atom, h, (Nat.zero_add g).symm,
        (Nat.zero_add l).symm⟩))

/-- Nothing that is left begins with the bounds of a quantifier. -/
theorem Completes.not_beginsRepetition (h : Completes depth input g l) :
    ¬BeginsRepetition input := by
  rcases completes_iff_begins.mp h with _ | _ | _ | opening | leaf | leaf
  · rintro ⟨_, _, _, ⟨⟩⟩
  · rintro ⟨_, _, _, ⟨⟩⟩
  · rintro ⟨_, _, _, ⟨⟩⟩
  · cases opening <;> rintro ⟨_, _, _, ⟨⟩⟩
  · exact leaf.not_beginsRepetition
  · exact leaf.not_beginsRepetition

/-- Where no bounds begin, no quantifier is left out. -/
theorem continues_iff_completes (h : ¬BeginsRepetition input) :
    Continues depth input g l ↔ Completes depth input g l := by
  refine ⟨fun continues => ?_, .inl⟩
  rcases continues with completes | ⟨rest, l', quantifies, -⟩
  · exact completes
  · exact absurd quantifies.beginsRepetition h

/-- A quantifier that is read as long as it can be is what has to be derived. -/
theorem continues_iff_of_reads {q : Quantifier} (h : (Token.quantifier q).Reads input rest) :
    Continues depth input g l ↔ ∃ l', Completes depth rest g l' ∧ l = l' + 1 := by
  cases h with
  | quantifier quantifies longest =>
    constructor
    · rintro (completes | ⟨rest', l', quantifies', completes, rfl⟩)
      · exact absurd quantifies.beginsRepetition completes.not_beginsRepetition
      · rcases longest rest' quantifies' with rfl | rfl
        · exact ⟨l', completes, rfl⟩
        · exact absurd ⟨_, _, _, .optional⟩ completes.not_beginsRepetition
    · rintro ⟨l', completes, rfl⟩
      exact .inr ⟨rest, l', quantifies, completes, rfl⟩

theorem completes_nil : Completes depth [] g l ↔ depth = 0 ∧ g = 0 ∧ l = 0 := by
  rw [completes_iff_begins]
  constructor
  · intro begins
    cases begins with
    | finish => exact ⟨rfl, rfl, rfl⟩
    | opening h => cases h
    | assertion leaf | atom leaf => cases leaf
  · rintro ⟨rfl, rfl, rfl⟩
    exact .finish

theorem completes_bar : Completes depth ('|' :: rest) g l ↔ Completes depth rest g l := by
  rw [completes_iff_begins]
  refine ⟨fun begins => ?_, .bar⟩
  cases begins with
  | bar h => exact h
  | opening h => cases h
  | assertion leaf | atom leaf => exact absurd leaf (not_leaf_of_mem (by simp))

theorem completes_closing :
    Completes depth (')' :: rest) g l ↔ ∃ outer, depth = outer + 1 ∧ Continues outer rest g l := by
  rw [completes_iff_begins]
  constructor
  · intro begins
    cases begins with
    | closing h => exact ⟨_, rfl, h⟩
    | opening h => cases h
    | assertion leaf | atom leaf => exact absurd leaf (not_leaf_of_mem (by simp))
  · rintro ⟨outer, rfl, h⟩
    exact .closing h

/-- What begins with an opening parenthesis begins a group. -/
theorem completes_iff_of_opening {kind : GroupKind} (h : (Token.opening kind).Reads input rest) :
    Completes depth input g l ↔
      ∃ g', Completes (depth + 1) rest g' l ∧ g = g' + kind.captures := by
  rw [completes_iff_begins]
  constructor
  · intro begins
    cases begins with
    | finish | bar | closing => cases h
    | opening h' more =>
      obtain ⟨captures, rfl⟩ := h'.opening_unique h
      exact ⟨_, more, by rw [captures]⟩
    | assertion leaf | atom leaf =>
      cases h <;> exact absurd leaf (not_leaf_of_mem (by simp))
  · rintro ⟨g', more, rfl⟩
    exact .opening h more

/-- What begins with a leaf goes on behind it. -/
theorem completes_iff_of_leaf {quantifiable : Bool} (h : Leaf input quantifiable rest) :
    Completes depth input g l ↔
      (if quantifiable then Continues depth else Completes depth) rest g l := by
  rw [completes_iff_begins]
  constructor
  · intro begins
    cases begins with
    | finish => cases h
    | bar | closing => exact absurd h (not_leaf_of_mem (by simp))
    | opening h' => cases h' <;> exact absurd h (not_leaf_of_mem (by simp))
    | assertion leaf more | atom leaf more =>
      obtain ⟨rfl, rfl⟩ := h.unique leaf
      exact more
  · intro more
    cases quantifiable with
    | true => exact .atom h more
    | false => exact .assertion h more

end Grammar

open Grammar

/-! ## One token of a reader -/

namespace Reader

variable {reader after : Reader} {input rest : List Char}

/-- What has to be derived behind what was read so far. -/
def Awaits (reader : Reader) : List Char → Nat → Nat → Prop :=
  if reader.fresh && reader.terms.head?.any Pattern.isQuantifiable then
    Continues reader.enclosing.length
  else
    Completes reader.enclosing.length

/-- Whether these characters complete the pattern and keep within the limits. -/
def Accepts (reader : Reader) (input : List Char) : Prop :=
  ∃ g l, reader.Awaits input g l ∧ reader.groupCount + g ≤ maxGroups ∧
    reader.loopCount + l ≤ maxLoops

/-- Where no quantifier stands, it does not matter whether one might. -/
theorem awaits_iff_completes {g l : Nat} (h : ¬BeginsRepetition input) :
    reader.Awaits input g l ↔ Completes reader.enclosing.length input g l := by
  rw [Awaits]
  split
  · exact continues_iff_completes h
  · exact Iff.rfl

theorem accepts_iff_completes (h : ¬BeginsRepetition input) :
    reader.Accepts input ↔ ∃ g l, Completes reader.enclosing.length input g l ∧
      reader.groupCount + g ≤ maxGroups ∧ reader.loopCount + l ≤ maxLoops := by
  simp only [Accepts, awaits_iff_completes h]

theorem accepts_bar :
    reader.Accepts ('|' :: rest) ↔ ∃ after, reader.Takes .bar after ∧ after.Accepts rest := by
  rw [accepts_iff_completes (by rintro ⟨_, _, _, ⟨⟩⟩)]
  simp only [completes_bar]
  constructor
  · intro h
    exact ⟨_, .bar, h⟩
  · rintro ⟨after, ⟨⟩, h⟩
    exact h

theorem accepts_closing :
    reader.Accepts (')' :: rest) ↔ ∃ after, reader.Takes .closing after ∧ after.Accepts rest := by
  rw [accepts_iff_completes (by rintro ⟨_, _, _, ⟨⟩⟩)]
  simp only [completes_closing]
  constructor
  · rintro ⟨g, l, ⟨outer, depth, h⟩, hg, hl⟩
    obtain ⟨opened, enclosing, eq⟩ := List.exists_cons_of_length_eq_add_one depth
    rw [eq, List.length_cons, Nat.add_right_cancel_iff] at depth
    subst depth
    exact ⟨_, .closing eq, g, l, h, hg, hl⟩
  · rintro ⟨after, taken, g, l, h, hg, hl⟩
    cases taken with
    | closing opened => exact ⟨g, l, ⟨_, congrArg List.length opened, h⟩, hg, hl⟩

theorem accepts_opening {kind : GroupKind} (h : (Token.opening kind).Reads input rest) :
    reader.Accepts input ↔
      ∃ after, reader.Takes (.opening kind) after ∧ after.Accepts rest := by
  have unrepeated : ¬BeginsRepetition input := by
    rintro ⟨_, _, _, repeats⟩
    cases h <;> cases repeats
  rw [accepts_iff_completes unrepeated]
  simp only [completes_iff_of_opening h]
  constructor
  · rintro ⟨_, l, ⟨g, more, rfl⟩, hg, hl⟩
    have room (captures : kind.isCapturing = true) : reader.groupCount < maxGroups := by
      rw [GroupKind.captures, if_pos captures] at hg
      omega
    refine ⟨_, .opening room, g, l, more, ?_, hl⟩
    show reader.groupCount + kind.captures + g ≤ maxGroups
    omega
  · rintro ⟨after, taken, g, l, more, hg, hl⟩
    cases taken with
    | opening room =>
      refine ⟨_, l, ⟨g, more, rfl⟩, ?_, hl⟩
      have : reader.groupCount + kind.captures + g ≤ maxGroups := hg
      omega

/-- A term may be followed by a quantifier if it is quantifiable. -/
theorem accepts_term {p : Pattern Unit} (h : Leaf input p.isQuantifiable rest) :
    reader.Accepts input ↔ ∃ after, reader.Takes (.term p) after ∧ after.Accepts rest := by
  rw [accepts_iff_completes h.not_beginsRepetition]
  simp only [completes_iff_of_leaf h]
  constructor
  · intro h
    exact ⟨_, .term p, h⟩
  · rintro ⟨after, ⟨⟩, h⟩
    exact h

theorem accepts_quantifier {q : Quantifier} (h : (Token.quantifier q).Reads input rest) :
    reader.Accepts input ↔
      ∃ after, reader.Takes (.quantifier q) after ∧ after.Accepts rest := by
  -- nothing is completed by what begins with a quantifier, so one has to be awaited
  have refused {depth g l : Nat} : ¬Completes depth input g l := by
    cases h with
    | quantifier quantifies _ =>
      exact fun completes => completes.not_beginsRepetition quantifies.beginsRepetition
  constructor
  · rintro ⟨g, l, awaits, hg, hl⟩
    rw [Awaits] at awaits
    split at awaits
    · next ready =>
      rw [Bool.and_eq_true, Option.any_eq_true] at ready
      obtain ⟨fresh, term, last, quantifiable⟩ := ready
      obtain ⟨terms, last⟩ := List.head?_eq_some_iff.mp last
      obtain ⟨l, more, rfl⟩ := (continues_iff_of_reads h).mp awaits
      refine ⟨_, .quantifier fresh last quantifiable (by omega), g, l, more, hg, ?_⟩
      show reader.loopCount + 1 + l ≤ maxLoops
      omega
    · exact absurd awaits refused
  · rintro ⟨after, taken, g, l, more, hg, hl⟩
    cases taken with
    | quantifier fresh last quantifiable room =>
      refine ⟨g, l + 1, ?_, hg, ?_⟩
      · rw [Awaits, if_pos (by simp [fresh, last, quantifiable]), continues_iff_of_reads h]
        exact ⟨l, more, rfl⟩
      · have : reader.loopCount + 1 + l ≤ maxLoops := hl
        omega

/-- A reader accepts what begins with a token if it takes the token and then accepts the rest. -/
theorem accepts_iff {token : Token} (h : token.Reads input rest) :
    reader.Accepts input ↔ ∃ after, reader.Takes token after ∧ after.Accepts rest := by
  cases h with
  | bar => exact accepts_bar
  | closing => exact accepts_closing
  | capturing plain => exact accepts_opening (.capturing plain)
  | marked mark silent => exact accepts_opening (.marked mark silent)
  | quantifier quantifies longest => exact accepts_quantifier (.quantifier quantifies longest)
  | term flat leaf => exact accepts_term leaf

/-! ## Whole texts -/

/-- Whether what was read so far keeps within the limits. -/
def InBounds (reader : Reader) : Prop :=
  reader.groupCount ≤ maxGroups ∧ reader.loopCount ≤ maxLoops

/-- No token leads beyond the limits. -/
theorem InBounds.take {token : Token} (h : reader.InBounds) (taken : reader.Takes token after) :
    after.InBounds := by
  cases taken with
  | term | bar | closing => exact h
  | @opening kind room =>
    refine ⟨?_, h.2⟩
    show (reader.groupCount + if kind.isCapturing then 1 else 0) ≤ maxGroups
    split
    · next captures => exact room captures
    · exact h.1
  | quantifier fresh last quantifiable room => exact ⟨h.1, room⟩

/-- At the end a reader finishes if no group is open. -/
theorem exists_finish_iff {input : Input} (h : reader.InBounds) (ends : input.rest = []) :
    (∃ pattern, reader.finish input = .ok pattern) ↔ reader.Accepts input.rest := by
  rw [ends, accepts_iff_completes (by rintro ⟨_, _, _, ⟨⟩⟩)]
  simp only [completes_nil, List.length_eq_zero_iff, finish_eq_ok_iff]
  constructor
  · rintro ⟨pattern, closed, -, -⟩
    exact ⟨0, 0, ⟨closed, rfl, rfl⟩, h⟩
  · rintro ⟨g, l, ⟨closed, -, -⟩, -⟩
    exact ⟨_, closed, ends, rfl⟩

/-- What cannot be read is not accepted. -/
theorem not_accepts_of_error {input : Input} {error : SyntaxError}
    (h : Token.scan? input = .error error) : ¬reader.Accepts input.rest := by
  have refused {depth g l : Nat} : ¬Completes depth input.rest g l := by
    intro completes
    obtain ⟨chars, offset⟩ := input
    cases completes_iff_begins.mp completes with
    | finish | bar | closing => cases h
    | opening opening => cases opening <;> cases h
    | assertion leaf | atom leaf =>
      obtain ⟨p, offset', read, -⟩ := leaf.exists_scan? offset
      rw [read] at h
      cases h
  rintro ⟨g, l, awaits, -, -⟩
  rw [Awaits] at awaits
  split at awaits
  · rcases awaits with completes | ⟨rest, l', quantifies, -⟩
    · exact refused completes
    · obtain ⟨q, after, read⟩ := quantifies.exists_scan?
      rw [read] at h
      cases h
  · exact refused awaits

/-- Reading succeeds if the reader accepts the characters that are left. -/
theorem exists_read_iff {n : Nat} {input : Input} (bound : input.rest.length ≤ n)
    (h : reader.InBounds) :
    (∃ pattern, reader.read n input = .ok pattern) ↔ reader.Accepts input.rest := by
  induction n generalizing reader input with
  | zero => exact exists_finish_iff h (List.eq_nil_of_length_eq_zero (Nat.le_zero.mp bound))
  | succ n ih =>
    rw [read]
    rcases hs : Token.scan? input with error | _ | ⟨token, after⟩
    · refine iff_of_false ?_ (not_accepts_of_error hs)
      rintro ⟨pattern, ⟨⟩⟩
    · exact exists_finish_iff h (eq_nil_of_scan? hs)
    · have reads := reads_of_scan? hs
      have shorter := reads.length_lt
      rw [accepts_iff reads]
      constructor
      · rintro ⟨pattern, h'⟩
        obtain ⟨_, scanned, h'⟩ := exists_of_bind_eq_ok h'
        cases scanned
        obtain ⟨reader?, taken, h'⟩ := exists_of_bind_eq_ok h'
        rcases reader? with _ | reader'
        · -- the pattern would be over before the token
          obtain ⟨-, ends, -⟩ := finish_eq_ok_iff.mp h'
          rw [ends] at shorter
          cases shorter
        · have taken := take_eq_some_iff.mp taken
          exact ⟨reader', taken, (ih (by omega) (h.take taken)).mp ⟨pattern, h'⟩⟩
      · rintro ⟨reader', taken, accepts⟩
        obtain ⟨pattern, h'⟩ := (ih (by omega) (h.take taken)).mpr accepts
        refine ⟨pattern, ?_⟩
        simp only [bind, Except.bind, take_eq_some_iff.mpr taken]
        exact h'

end Reader

/-- **A text is read as a pattern just when the grammar derives it**, within the limits on groups
and quantifiers. -/
theorem parse_isOk_iff_isPattern (source : String) :
    (∃ pattern, NumberedPattern.parse source = .ok pattern) ↔ IsPattern source := by
  have empty : Reader.start.InBounds := ⟨Nat.zero_le _, Nat.zero_le _⟩
  have read : (∃ pattern, NumberedPattern.parse source = .ok pattern) ↔
      Reader.start.Accepts source.toList := Reader.exists_read_iff (Nat.le_refl _) empty
  rw [read]
  show (∃ g l, Completes 0 source.toList g l ∧ 0 + g ≤ maxGroups ∧ 0 + l ≤ maxLoops) ↔ _
  constructor
  · rintro ⟨g, l, ⟨rest, g', l', _, _, choice, ⟨rfl, rfl, rfl⟩, rfl, rfl⟩, hg, hl⟩
    exact ⟨_, _, choice, by omega, by omega⟩
  · rintro ⟨g, l, choice, hg, hl⟩
    exact ⟨g, l, ⟨[], g, l, 0, 0, choice, ⟨rfl, rfl, rfl⟩, rfl, rfl⟩, by omega, by omega⟩

end BacktrackRegex
