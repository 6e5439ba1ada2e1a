import BacktrackRegex.Proofs.Pattern.Leaf
import BacktrackRegex.Proofs.Pattern.Numbered

/-!
# Where the parts of a pattern stand

A tree says nothing about the text that it was read from. `Spells` reads the text once more, without
a reader: it tells which trees stand between two places of a text, and labels each group with the
place of its opening parenthesis.

The grammar it follows recurses on the left. So it takes terms and alternatives in the order in
which a `Reader` meets them, and what a reader has read so far is always spelled
(`Reader.Spelled.take`): for each open group what stands before its parenthesis, and for the
innermost what stands behind it. Hence every pattern that is read is spelled by its source
(`NumberedPattern.spelled_of_parse`).
-/

namespace BacktrackRegex

/-! ## What is left behind a token -/

section

open Grammar

variable {input rest : List Char}

theorem Grammar.Repeats.suffix {least : Nat} {most? : Option Nat}
    (h : Repeats input least most? rest) : rest <:+ input := by
  cases h with
  | star | plus | optional => exact List.suffix_cons ..
  | @exactly low => exact ⟨'{' :: (low ++ ['}']), by simp⟩
  | @atLeast low => exact ⟨'{' :: (low ++ [',', '}']), by simp⟩
  | @between low high => exact ⟨'{' :: (low ++ ',' :: (high ++ ['}'])), by simp⟩

theorem Grammar.Quantifies.suffix (h : Quantifies input rest) : rest <:+ input := by
  cases h with
  | greedy repeats _ => exact repeats.suffix
  | lazily repeats _ => exact (List.suffix_cons ..).trans repeats.suffix

theorem Grammar.HexCode.suffix {n code : Nat} (h : HexCode n input code rest) :
    rest <:+ input := by
  induction h with
  | nil => exact List.suffix_rfl
  | snoc _ _ ih => exact (List.suffix_cons ..).trans ih

theorem Grammar.EscapesChar.suffix {c : Char} (h : EscapesChar input c rest) :
    rest <:+ input := by
  cases h with
  | control | null | itself => exact List.suffix_cons ..
  | column => exact (List.suffix_cons ..).trans (List.suffix_cons ..)
  | short h | long h _ => exact h.suffix.trans (List.suffix_cons ..)

theorem Grammar.EscapesTerm.suffix (h : EscapesTerm input rest) : rest <:+ input := by
  cases h with
  | named => exact List.suffix_cons ..
  | @backreference first digits => exact ⟨first :: digits, rfl⟩
  | char h => exact h.suffix

theorem Grammar.SetMember.suffix {c? : Option Char} (h : SetMember input c? rest) :
    rest <:+ input := by
  cases h with
  | char => exact List.suffix_cons ..
  | named | backspace => exact (List.suffix_cons ..).trans (List.suffix_cons ..)
  | escaped h => exact h.suffix.trans (List.suffix_cons ..)

theorem Grammar.ClosesSet.suffix (h : ClosesSet input rest) : rest <:+ input := by
  induction h with
  | close => exact List.suffix_cons ..
  | member h _ _ ih => exact ih.trans h.suffix
  | range h h' _ _ ih | dash h h' _ _ ih =>
    exact ih.trans (h'.suffix.trans ((List.suffix_cons ..).trans h.suffix))

theorem Grammar.Leaf.suffix {quantifiable : Bool} (h : Leaf input quantifiable rest) :
    rest <:+ input := by
  cases h with
  | lineStart | lineEnd | dot | literal => exact List.suffix_cons ..
  | wordBoundary => exact (List.suffix_cons ..).trans (List.suffix_cons ..)
  | escape h => exact h.suffix.trans (List.suffix_cons ..)
  | negatedSet h => exact h.suffix.trans ((List.suffix_cons ..).trans (List.suffix_cons ..))
  | set _ h => exact h.suffix.trans (List.suffix_cons ..)

/-- A token leaves the end of the input. -/
theorem Token.Reads.suffix {token : Token} (h : token.Reads input rest) : rest <:+ input := by
  cases h with
  | bar | closing | capturing => exact List.suffix_cons ..
  | marked =>
    exact (List.suffix_cons ..).trans ((List.suffix_cons ..).trans (List.suffix_cons ..))
  | quantifier h _ => exact h.suffix
  | term _ h => exact h.suffix

end

/-- Whether a token stands between two places of a text. -/
def Token.Between (text : List Char) (token : Token) (start stop : Nat) : Prop :=
  token.Reads (text.drop start) (text.drop stop)

namespace Token

variable {text : List Char} {token : Token} {start stop : Nat}

theorem Between.lt (h : token.Between text start stop) : start < stop := by
  have := h.length_lt
  simp only [List.length_drop] at this
  omega

/-- A token that is read at a place of a text ends at a place of the text. -/
theorem Reads.exists_between {rest : List Char} (h : token.Reads (text.drop start) rest) :
    ∃ stop, rest = text.drop stop ∧ token.Between text start stop := by
  obtain ⟨front, back⟩ := h.suffix.trans (List.drop_suffix start text)
  have left : rest = text.drop front.length := by rw [← back, List.drop_left]
  rw [left] at h
  exact ⟨front.length, left, h⟩

/-- A parenthesis stands where a group opens. -/
theorem Between.getElem?_opening {kind : GroupKind} (h : (opening kind).Between text start stop) :
    text[start]? = some '(' := by
  rw [← List.head?_drop]
  rw [Between] at h
  generalize text.drop start = input at h
  cases h <;> rfl

end Token

namespace Pattern

variable {α β : Type}

/-! ## Other labels -/

mutual

/-- The same pattern with other labels. -/
def map (f : α → β) : Pattern α → Pattern β
  | empty => empty
  | char c => char c
  | coded c => coded c
  | named cls positive => named cls positive
  | set negated items => set negated items
  | dot => dot
  | lineStart => lineStart
  | lineEnd => lineEnd
  | wordBoundary inverted => wordBoundary inverted
  | backreference g => backreference g
  | group label kind body => group (f label) kind (map f body)
  | quantified label min max greedy body => quantified (f label) min max greedy (map f body)
  | seq terms => seq (mapAll f terms)
  | choice alternatives => choice (mapAll f alternatives)
termination_by structural p => p

/-- The patterns of a list with other labels. -/
def mapAll (f : α → β) : List (Pattern α) → List (Pattern β)
  | [] => []
  | p :: rest => map f p :: mapAll f rest
termination_by structural ps => ps

end

theorem mapAll_eq (f : α → β) (ps : List (Pattern α)) : mapAll f ps = ps.map (map f) := by
  induction ps with
  | nil => rfl
  | cons p rest ih => rw [mapAll, ih, List.map_cons]

@[simp] theorem map_ofTerms (f : α → β) (terms : List (Pattern α)) :
    (ofTerms terms).map f = ofTerms (terms.map (map f)) := by
  match terms with
  | [] | [_] | _ :: _ :: _ => simp [ofTerms, map, mapAll, mapAll_eq]

@[simp] theorem map_ofChoices (f : α → β) (alternatives : List (Pattern α)) :
    (ofChoices alternatives).map f = ofChoices (alternatives.map (map f)) := by
  match alternatives with
  | [] | [_] | _ :: _ :: _ => simp [ofChoices, map, mapAll, mapAll_eq]

/-- What has no parts has no labels, whatever they would be. -/
theorem exists_map_of_isFlat {p : Pattern β} (h : p.isFlat = true) :
    ∃ q : Pattern α, q.isFlat = true ∧ q.isQuantifiable = p.isQuantifiable ∧
      (∀ f : α → β, q.map f = p) ∧ ∀ (f : α → GroupRange) next, q.map f = (p.number next).1 := by
  cases p with
  | group | quantified | seq | choice => cases h
  | empty => exact ⟨.empty, rfl, rfl, fun _ => rfl, fun _ _ => rfl⟩
  | char c => exact ⟨.char c, rfl, rfl, fun _ => rfl, fun _ _ => rfl⟩
  | coded c => exact ⟨.coded c, rfl, rfl, fun _ => rfl, fun _ _ => rfl⟩
  | named cls positive => exact ⟨.named cls positive, rfl, rfl, fun _ => rfl, fun _ _ => rfl⟩
  | set negated items => exact ⟨.set negated items, rfl, rfl, fun _ => rfl, fun _ _ => rfl⟩
  | dot => exact ⟨.dot, rfl, rfl, fun _ => rfl, fun _ _ => rfl⟩
  | lineStart => exact ⟨.lineStart, rfl, rfl, fun _ => rfl, fun _ _ => rfl⟩
  | lineEnd => exact ⟨.lineEnd, rfl, rfl, fun _ => rfl, fun _ _ => rfl⟩
  | wordBoundary inverted => exact ⟨.wordBoundary inverted, rfl, rfl, fun _ => rfl, fun _ _ => rfl⟩
  | backreference g => exact ⟨.backreference g, rfl, rfl, fun _ => rfl, fun _ _ => rfl⟩

/-- Numbers do not depend on the labels that there were. -/
theorem number_map (f : α → β) (p : Pattern α) (next : Nat) :
    (p.map f).number next = p.number next := by
  have list {ps : List (Pattern α)} (h : ∀ p ∈ ps, ∀ next, (p.map f).number next = p.number next)
      (next : Nat) (done : List (Pattern GroupRange)) :
      numberList (mapAll f ps) next done = numberList ps next done := by
    induction ps generalizing next done with
    | nil => rfl
    | cons p rest ih =>
      rw [mapAll, numberList, numberList, h p List.mem_cons_self]
      exact ih (fun q hq => h q (List.mem_cons_of_mem p hq)) _ _
  induction p generalizing next with
  | group label kind body ih => rw [map, number, number, ih]
  | quantified label min max greedy body ih => rw [map, number, number, ih]
  | seq terms ih => rw [map, number, number, list ih]
  | choice alternatives ih => rw [map, number, number, list ih]
  | _ => rfl

/-! ## Spelling -/

/-- What stands between two places of a text, with the place of each opening parenthesis. -/
inductive Spells (text : List Char) : Grammar.Part → List (Pattern Nat) → Nat → Nat → Prop where
  /-- no terms -/
  | nil {place} : Spells text .sequence [] place place
  /-- terms, and one more -/
  | concat {terms term start middle stop} (h : Spells text .sequence terms start middle)
    (last : Spells text .term [term] middle stop) :
    Spells text .sequence (terms ++ [term]) start stop
  /-- no alternatives -/
  | none {place} : Spells text .choice [] place place
  /-- alternatives with a bar behind each, and one more with a bar behind it -/
  | bar {alternatives terms start middle place stop}
    (h : Spells text .choice alternatives start middle)
    (last : Spells text .sequence terms middle place) (bar : Token.bar.Between text place stop) :
    Spells text .choice (alternatives ++ [.ofTerms terms]) start stop
  /-- a term without parentheses -/
  | leaf {p start stop} (flat : p.isFlat = true)
    (h : Grammar.Leaf (text.drop start) p.isQuantifiable (text.drop stop)) :
    Spells text .term [p] start stop
  /-- alternatives with a bar behind each, the last one, and parentheses around them -/
  | group {kind alternatives terms start inner middle place stop}
    (opening : (Token.opening kind).Between text start inner)
    (h : Spells text .choice alternatives inner middle)
    (last : Spells text .sequence terms middle place)
    (closing : Token.closing.Between text place stop) :
    Spells text .term [.group start kind (.ofChoices (alternatives ++ [.ofTerms terms]))] start stop
  /-- a term and its quantifier -/
  | quantified {q : Quantifier} {body start middle stop} (h : Spells text .term [body] start middle)
    (quantifier : (Token.quantifier q).Between text middle stop) :
    Spells text .term [.quantified middle q.min q.max q.greedy body] start stop

/-- Whether a text spells a pattern from its beginning to its end. -/
def SpelledBy (text : List Char) (p : Pattern Nat) : Prop :=
  ∃ alternatives terms middle stop, Spells text .choice alternatives 0 middle ∧
    Spells text .sequence terms middle stop ∧ text.drop stop = [] ∧
    p = .ofChoices (alternatives ++ [.ofTerms terms])

theorem Spells.of_concat {text : List Char} {terms : List (Pattern Nat)} {term : Pattern Nat}
    {start stop : Nat} (h : Spells text .sequence (terms ++ [term]) start stop) :
    ∃ middle, Spells text .sequence terms start middle ∧ Spells text .term [term] middle stop := by
  generalize eq : terms ++ [term] = all at h
  cases h with
  | nil => simp at eq
  | @concat terms' term' _ middle _ before last =>
    obtain ⟨rfl, same⟩ := List.append_inj' eq rfl
    cases same
    exact ⟨middle, before, last⟩

end Pattern

/-! ## What a reader has read -/

namespace Reader

/-- Whether these alternatives and these terms, both the last one first, are what stands between two
places. -/
def Stands (text : List Char) (alternatives terms : List (Pattern Unit)) (start stop : Nat) :
    Prop :=
  ∃ alternatives' terms' middle, Pattern.Spells text .choice alternatives' start middle ∧
    Pattern.Spells text .sequence terms' middle stop ∧
    alternatives'.map (Pattern.map fun _ => ()) = alternatives.reverse ∧
    terms'.map (Pattern.map fun _ => ()) = terms.reverse

/-- Whether the open groups are those that are open at a place, right behind the innermost
parenthesis. -/
def Opens (text : List Char) : List OpenGroup → Nat → Prop
  | [], place => place = 0
  | outer :: enclosing, place => ∃ start stop, Opens text enclosing start ∧
    Stands text outer.alternatives outer.terms start stop ∧
    (Token.opening outer.kind).Between text stop place

/-- Whether a reader has read a text up to a place. -/
def Spelled (text : List Char) (reader : Reader) (place : Nat) : Prop :=
  ∃ start, Opens text reader.enclosing start ∧
    Stands text reader.alternatives reader.terms start place

variable {text : List Char} {alternatives terms : List (Pattern Unit)} {start middle stop : Nat}

theorem stands_nil (text : List Char) (place : Nat) : Stands text [] [] place place :=
  ⟨[], [], place, .none, .nil, rfl, rfl⟩

theorem spelled_start (text : List Char) : Reader.start.Spelled text 0 :=
  ⟨0, rfl, stands_nil text 0⟩

/-- Another term. -/
theorem Stands.concat {p : Pattern Nat} (h : Stands text alternatives terms start middle)
    (last : Pattern.Spells text .term [p] middle stop) :
    Stands text alternatives (p.map (fun _ => ()) :: terms) start stop := by
  obtain ⟨alternatives', terms', place, before, sequence, same, same'⟩ := h
  refine ⟨alternatives', terms' ++ [p], place, before, sequence.concat last, same, ?_⟩
  rw [List.map_append, same', List.reverse_cons]
  rfl

/-- A quantifier behind the last term. -/
theorem Stands.quantified {q : Quantifier} {term : Pattern Unit}
    (h : Stands text alternatives (term :: terms) start middle)
    (quantifier : (Token.quantifier q).Between text middle stop) :
    Stands text alternatives (.quantified () q.min q.max q.greedy term :: terms) start stop := by
  obtain ⟨alternatives', terms', place, before, sequence, same, same'⟩ := h
  rw [List.reverse_cons, List.map_eq_append_iff] at same'
  obtain ⟨terms', last, rfl, same', single⟩ := same'
  obtain ⟨p, rfl, rfl⟩ := List.map_eq_singleton_iff.mp single
  obtain ⟨inner, sequence, last⟩ := sequence.of_concat
  have front : Stands text alternatives terms start inner :=
    ⟨alternatives', terms', place, before, sequence, same, same'⟩
  exact front.concat (last.quantified quantifier)

/-- A bar behind the last alternative. -/
theorem Stands.bar (h : Stands text alternatives terms start middle)
    (bar : Token.bar.Between text middle stop) :
    Stands text (.ofTerms terms.reverse :: alternatives) [] start stop := by
  obtain ⟨alternatives', terms', place, before, sequence, same, same'⟩ := h
  refine ⟨_, [], stop, before.bar sequence bar, .nil, ?_, rfl⟩
  rw [List.map_append, same, List.reverse_cons, List.map_singleton, Pattern.map_ofTerms, same']

/-- The whole of a reader's innermost group. -/
theorem Stands.body {reader : Reader}
    (h : Stands text reader.alternatives reader.terms start stop) :
    ∃ alternatives terms middle, Pattern.Spells text .choice alternatives start middle ∧
      Pattern.Spells text .sequence terms middle stop ∧
      (Pattern.ofChoices (alternatives ++ [.ofTerms terms])).map (fun _ => ()) = reader.body := by
  obtain ⟨alternatives, terms, middle, before, sequence, same, same'⟩ := h
  refine ⟨alternatives, terms, middle, before, sequence, ?_⟩
  rw [Pattern.map_ofChoices, List.map_append, same, List.map_singleton, Pattern.map_ofTerms, same',
    Reader.body, List.reverse_cons]

/-- **What a reader has read stays spelled** by every token that it takes. -/
theorem Spelled.take {reader after : Reader} {token : Token} {place : Nat}
    (h : reader.Spelled text place) (stands : token.Between text place stop)
    (taken : reader.Takes token after) : after.Spelled text stop := by
  obtain ⟨start, opens, inner⟩ := h
  cases taken with
  | term p =>
    cases stands with
    | term flat leaf =>
      obtain ⟨q, flat, quantifiable, same, -⟩ := Pattern.exists_map_of_isFlat flat
      rw [← quantifiable] at leaf
      have concat := inner.concat (.leaf flat leaf)
      rw [same] at concat
      exact ⟨start, opens, concat⟩
  | bar => exact ⟨start, opens, inner.bar stands⟩
  | opening => exact ⟨stop, ⟨start, place, opens, inner, stands⟩, stands_nil text stop⟩
  | closing opened =>
    rw [opened] at opens
    obtain ⟨start', stop', opens, around, opening⟩ := opens
    obtain ⟨alternatives, terms, middle, choices, sequence, same⟩ := inner.body
    rw [← same]
    exact ⟨start', opens, around.concat (.group opening choices sequence stands)⟩
  | quantifier fresh last =>
    rw [last] at inner
    exact ⟨start, opens, inner.quantified stands⟩

/-- A reader that comes to the end has read the whole text. -/
theorem Spelled.of_finish {reader : Reader} {input : Input} {place : Nat}
    {pattern : NumberedPattern} (h : reader.Spelled text place)
    (here : input.rest = text.drop place) (finished : reader.finish input = .ok pattern) :
    ∃ p : Pattern Nat, p.SpelledBy text ∧ pattern.tree = (p.number 1).1 := by
  obtain ⟨start, opens, inner⟩ := h
  obtain ⟨closed, ends, rfl⟩ := finish_eq_ok_iff.mp finished
  rw [closed] at opens
  obtain rfl : start = 0 := opens
  obtain ⟨alternatives, terms, middle, choices, sequence, same⟩ := inner.body
  rw [here] at ends
  refine ⟨_, ⟨alternatives, terms, middle, place, choices, sequence, ends, rfl⟩, ?_⟩
  rw [← same, Pattern.number_map]

/-- So it is with every text that is read from some place on. -/
theorem Spelled.of_read {n : Nat} {reader : Reader} {input : Input} {place : Nat}
    {pattern : NumberedPattern} (h : reader.Spelled text place)
    (here : input.rest = text.drop place) (read : reader.read n input = .ok pattern) :
    ∃ p : Pattern Nat, p.SpelledBy text ∧ pattern.tree = (p.number 1).1 := by
  induction n generalizing reader input place with
  | zero => exact h.of_finish here read
  | succ n ih =>
    rw [Reader.read] at read
    rcases hs : Token.scan? input with fault | _ | ⟨token, behind⟩ <;> rw [hs] at read
    · cases read
    · exact h.of_finish here read
    · have reads := reads_of_scan? hs
      rw [here] at reads
      obtain ⟨stop, there, stands⟩ := reads.exists_between
      rcases ht : reader.take token input.offset behind.offset with fault | _ | after
      all_goals simp only [bind, Except.bind, ht] at read
      · cases read
      · exact h.of_finish here read
      · exact ih (h.take stands (take_eq_some_iff.mp ht)) there read

end Reader

/-- **A pattern that is read is what its source spells**, with its groups numbered. -/
theorem NumberedPattern.spelled_of_parse {source : String} {pattern : NumberedPattern}
    (h : parse source = .ok pattern) :
    ∃ p : Pattern Nat, p.SpelledBy source.toList ∧ pattern.tree = (p.number 1).1 := by
  have start : Reader.start.Spelled source.toList 0 := Reader.spelled_start _
  have read : Reader.start.read source.toList.length ⟨source.toList, 0⟩ = .ok pattern := h
  exact start.of_read rfl read

end BacktrackRegex
