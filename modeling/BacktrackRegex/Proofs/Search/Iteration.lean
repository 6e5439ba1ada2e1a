import BacktrackRegex.Proofs.Search.Reuse
import BacktrackRegex.Proofs.Search.Safety

/-!
# One match after the other

Where a scan goes on after a match is told by the match alone: at its end, or behind the next
character if it is empty (`exists_resume_of_item?`). So each match is ahead of those before it,
there are no more matches than places in the text, and what follows a match is what a search finds
that begins there. `Regex.enumerates_of_parse` says all this of the items of a search, and that they
are the same with a matcher that is used again.
-/

namespace BacktrackRegex

section

variable {task : Task} {pattern : NumberedPattern} (graph : task.graph = .ofPattern pattern)
  (numbered : pattern.tree.Numbered 1 (pattern.groupCount + 1))

include graph numbered

/-- A match that a scan finds is not before the beginning of the scan, and says where to scan
next. -/
theorem Task.Course.ahead {pos left : Nat} {tried : Array Nat} {scan : Scan}
    (course : task.Course pos left tried scan) {found : Match}
    (h : scan.result = .ok (some found)) :
    pos ≤ found.span.start ∧
      scan.resume = task.resumeAfter? found.span.start found.span.stop := by
  induction course with
  | exhausted next | cut next ends | last next ends further => cases h
  | found next ends =>
    cases h
    obtain ⟨same, -, -⟩ := task.ofState_of_attempt numbered graph ends
    rw [same]
    exact ⟨StartPredicate.le_of_next? next, rfl⟩
  | later next ends further more ih =>
    obtain ⟨ahead, resume⟩ := ih h
    have moved := Text.lt_of_afterChar? further
    have := StartPredicate.le_of_next? next
    exact ⟨by omega, resume⟩

end

namespace Regex

variable {regex : Regex} {text : String} {source : String} {pattern : NumberedPattern}

/-- What the items of a search are like. -/
structure Enumerates (regex : Regex) (text : String) (start : Nat) : Prop where
  /-- a match cuts a piece out of the text -/
  cuts : ∀ {n : Nat} {found : Match}, (regex.findFrom text start).item? n = some (.ok found) →
    found.span.Cuts text
  /-- it begins behind the beginnings of the matches before it, and not before their ends -/
  ahead : ∀ {m n : Nat} {before found : Match}, m < n →
    (regex.findFrom text start).item? m = some (.ok before) →
      (regex.findFrom text start).item? n = some (.ok found) →
        before.span.start < found.span.start ∧ before.span.stop ≤ found.span.start
  /-- there is at most one match for each character from the start on, and one more -/
  few : ∀ {n : Nat} {found : Match}, (regex.findFrom text start).item? n = some (.ok found) →
    ∃ before after, text.toList = before ++ after ∧
      Text.roundUp? text start = some (Text.width before) ∧ n < after.length + 1
  /-- what follows a match that is not empty is what a search from its end finds -/
  behind : ∀ {n : Nat} {found : Match}, (regex.findFrom text start).item? n = some (.ok found) →
    found.span.start < found.span.stop → ∀ k,
      (regex.findFrom text start).item? (n + 1 + k) =
        (regex.findFrom text found.span.stop).item? k
  /-- what follows an empty match is what a search from behind the next character finds -/
  beside : ∀ {n : Nat} {found : Match}, (regex.findFrom text start).item? n = some (.ok found) →
    found.span.start = found.span.stop → found.span.stop < text.utf8ByteSize →
      ∃ c, Text.charAt? text found.span.stop = some c ∧ ∀ k,
        (regex.findFrom text start).item? (n + 1 + k) =
          (regex.findFrom text (found.span.stop + c.utf8Size)).item? k
  /-- an empty match at the end of the text is the last item -/
  last : ∀ {m n : Nat} {found : Match}, (regex.findFrom text start).item? m = some (.ok found) →
    found.span.start = found.span.stop → found.span.stop = text.utf8ByteSize → m < n →
      (regex.findFrom text start).item? n = none
  /-- nothing follows the end, or a limit -/
  ends : ∀ {m n : Nat}, (∀ found, (regex.findFrom text start).item? m ≠ some (.ok found)) →
    m < n → (regex.findFrom text start).item? n = none
  /-- the list of all matches has all of them -/
  listed : ∀ n, (regex.findFrom text start).toArray[n]? = (regex.findFrom text start).item? n
  /-- one matcher for all attempts finds the same -/
  reused : ∀ n, (Sweep.start (regex.task text) start).item? n =
    (regex.findFrom text start).item? n

section

variable (graph : regex.graph = .ofPattern pattern)
  (numbered : pattern.tree.Numbered 1 (pattern.groupCount + 1)) {start m n : Nat}
  {found before : Match} (h : (regex.findFrom text start).item? n = some (.ok found))

include graph numbered h

/-- A match is not before the place where its scan began, and says where the next begins. -/
theorem exists_resume_of_item? :
    ∃ pos, ((regex.findFrom text start).after n).resume = some pos ∧ pos ≤ found.span.start ∧
      ((regex.findFrom text start).after (n + 1)).resume =
        (regex.task text).resumeAfter? found.span.start found.span.stop := by
  obtain ⟨pos, resume, item, next⟩ := Matches.exists_scan_of_item? h
  have boundary := (safe_scan graph numbered resume).1
  have course := (regex.task text).course_scan (Text.le_size_of_isBoundary boundary)
  obtain ⟨ahead, after⟩ := course.ahead graph numbered (Scan.item?_eq_ok.mp item)
  exact ⟨pos, resume, ahead, next.trans after⟩

theorem cuts_of_item? : found.span.Cuts text :=
  (safe_of_item? graph numbered h).pieces 0 found.span rfl

/-- What follows a match is found from where the next scan begins. -/
theorem item?_add_of_resumeAfter? {pos : Nat} (boundary : Text.isBoundary text pos = true)
    (resume : (regex.task text).resumeAfter? found.span.start found.span.stop = some pos)
    (k : Nat) :
    (regex.findFrom text start).item? (n + 1 + k) = (regex.findFrom text pos).item? k := by
  obtain ⟨-, -, -, next⟩ := exists_resume_of_item? graph numbered h
  have rounded := Text.roundUp?_of_isBoundary boundary
  have same : (regex.findFrom text start).after (n + 1) = regex.findFrom text pos := by
    rw [Matches.after_eq_mk, next, resume, ← rounded]
    rfl
  rw [Matches.item?_add, same]

/-- The next match is ahead. -/
theorem ahead_of_succ {after : Match}
    (h' : (regex.findFrom text start).item? (n + 1) = some (.ok after)) :
    found.span.start < after.span.start ∧ found.span.stop ≤ after.span.start := by
  have ordered := (cuts_of_item? graph numbered h).ordered
  obtain ⟨-, -, -, next⟩ := exists_resume_of_item? graph numbered h
  obtain ⟨pos, resume, ahead, -⟩ := exists_resume_of_item? graph numbered h'
  rw [next, Task.resumeAfter?] at resume
  split at resume
  · have moved := Text.lt_of_afterChar? resume
    omega
  · cases resume
    omega

/-- Behind the beginning of a match there are fewer characters than from the start on, by one at
least for each match before it. -/
theorem few_of_item? {front rest : List Char} (cut : text.toList = front ++ rest)
    (rounded : Text.roundUp? text start = some (Text.width front)) {front' rest' : List Char}
    (cut' : text.toList = front' ++ rest') (here : found.span.start = Text.width front') :
    n + rest'.length ≤ rest.length := by
  induction n generalizing found front' rest' with
  | zero =>
    obtain ⟨pos, resume, ahead, -⟩ := exists_resume_of_item? graph numbered h
    obtain rfl := Option.some.inj (rounded.symm.trans resume)
    obtain ⟨between, rfl, rfl⟩ := Text.exists_between (cut.symm.trans cut') (here ▸ ahead)
    simp
  | succ n ih =>
    obtain ⟨before, h'⟩ := Matches.exists_item?_of_lt h n.lt_succ_self
    obtain ⟨front'', rest'', cut'', there⟩ :=
      Text.isBoundary_iff.mp (cuts_of_item? graph numbered h').start
    have fewer := ih h' cut'' there
    have lt := (ahead_of_succ graph numbered h' h).1
    rw [here, there] at lt
    have := Text.length_lt_of_width_lt (cut''.symm.trans cut') lt
    omega

omit h in
/-- Each match is ahead of all before it. -/
theorem ahead_of_lt (lt : m < n)
    (h' : (regex.findFrom text start).item? m = some (.ok before))
    (h : (regex.findFrom text start).item? n = some (.ok found)) :
    before.span.start < found.span.start ∧ before.span.stop ≤ found.span.start := by
  induction n generalizing found with
  | zero => omega
  | succ n ih =>
    rcases Nat.lt_or_eq_of_le (Nat.le_of_lt_succ lt) with lt | rfl
    · obtain ⟨between, h''⟩ := Matches.exists_item?_of_lt h n.lt_succ_self
      have ordered := (cuts_of_item? graph numbered h'').ordered
      have := ih lt h''
      have := ahead_of_succ graph numbered h'' h
      omega
    · exact ahead_of_succ graph numbered h' h

omit graph numbered in
/-- Where there is an item, the search has a start. -/
theorem exists_roundUp?_of_item? :
    ∃ pos, Text.roundUp? text start = some pos := by
  refine Option.ne_none_iff_exists'.mp fun beyond => ?_
  have none : (regex.findFrom text start).item? n = none :=
    Matches.item?_of_resume_eq_none beyond n
  rw [none] at h
  cases h

/-- There are no more matches than characters from the start on, but for one. -/
theorem exists_cut_of_item? :
    ∃ front rest, text.toList = front ++ rest ∧
      Text.roundUp? text start = some (Text.width front) ∧ n < rest.length + 1 := by
  obtain ⟨pos, rounded⟩ := exists_roundUp?_of_item? h
  obtain ⟨front, rest, cut, rfl⟩ := Text.isBoundary_iff.mp (Text.isBoundary_of_roundUp? rounded)
  obtain ⟨front', rest', cut', here⟩ :=
    Text.isBoundary_iff.mp (cuts_of_item? graph numbered h).start
  have := few_of_item? graph numbered h cut rounded cut' here
  exact ⟨front, rest, cut, rounded, by omega⟩

end

/-- **A search enumerates matches.** The items of a search with an expression that comes from a
pattern that was read are, one after the other, what searches find that begin where the match before
has ended, and nothing else that went before matters. -/
theorem enumerates_of_parse (parsed : NumberedPattern.parse source = .ok pattern)
    (graph : regex.graph = .ofPattern pattern) (text : String) (start : Nat) :
    regex.Enumerates text start := by
  have numbered := NumberedPattern.numbered_groupCount parsed
  have few {n : Nat} {found : Match}
      (h : (regex.findFrom text start).item? n = some (.ok found)) :=
    exists_cut_of_item? graph numbered h
  constructor
  case cuts => exact cuts_of_item? graph numbered
  case ahead => exact fun lt h' h => ahead_of_lt graph numbered lt h' h
  case few => exact few
  case behind =>
    intro n found h nonempty k
    refine item?_add_of_resumeAfter? graph numbered h (cuts_of_item? graph numbered h).stop ?_ k
    rw [Task.resumeAfter?, if_neg (by omega)]
  case beside =>
    intro n found h empty inside
    have boundary := (cuts_of_item? graph numbered h).stop
    obtain ⟨next, after, -⟩ := Text.exists_after? boundary (Text.isBoundary_size text) inside
    obtain ⟨c, here, -, rfl⟩ := Text.afterChar?_eq_some_iff.mp after
    refine ⟨c, here, item?_add_of_resumeAfter? graph numbered h
      (Text.isBoundary_add_of_charAt? here) ?_⟩
    rw [Task.resumeAfter?, if_pos empty.symm]
    exact after
  case last =>
    intro m n found h empty atEnd lt
    obtain ⟨k, rfl⟩ := Nat.exists_eq_add_of_le (Nat.succ_le_of_lt lt)
    obtain ⟨-, -, -, next⟩ := exists_resume_of_item? graph numbered h
    have boundary := (cuts_of_item? graph numbered h).stop
    rw [Task.resumeAfter?, if_pos empty.symm] at next
    have none := next.trans ((Text.after?_eq_none_iff boundary).mpr atEnd)
    rw [Matches.item?_add]
    exact Matches.item?_of_resume_eq_none none k
  case ends => exact fun h lt => Matches.item?_eq_none_of_lt h lt
  case listed =>
    intro n
    rw [Matches.toArray, Matches.getElem?_take]
    split
    · rfl
    · next beyond =>
      -- the item before the last is a match, and there are not so many
      refine (Option.eq_none_iff_forall_ne_some.mpr fun item h => beyond ?_).symm
      rcases n with _ | n
      · exact Nat.succ_pos _
      obtain ⟨before, h'⟩ := Matches.exists_item?_of_lt h n.lt_succ_self
      obtain ⟨front, rest, cut, -, fewer⟩ := few h'
      have short := Text.length_le_width rest
      have size := Text.width_toList text
      rw [cut, Text.width_append] at size
      show n + 1 < text.utf8ByteSize + 2
      omega
  case reused => exact Sweep.item?_start (regex.task text) start

theorem enumerates_of_parse_empty :
    let pattern : NumberedPattern := ⟨.quantified ⟨1, 1⟩ 0 none true (.char 'a'), 0, 1⟩
    let regex : Regex := ⟨.ofPattern pattern, ⟨false, false, false⟩, ⟨100, 10⟩⟩
    NumberedPattern.parse "a*" = .ok pattern ∧ regex.Enumerates "baé" 0 ∧
      (regex.findFrom "baé" 0).item? 1 = some (.ok ⟨⟨1, 2⟩, #[]⟩) ∧
      (regex.findFrom "baé" 0).item? 2 = (regex.findFrom "baé" 2).item? 0 := by
  intro pattern regex
  have parsed : NumberedPattern.parse "a*" = .ok pattern := rfl
  have all : regex.Enumerates "baé" 0 := enumerates_of_parse parsed rfl "baé" 0
  have second : (regex.findFrom "baé" 0).item? 1 = some (.ok ⟨⟨1, 2⟩, #[]⟩) := by cbv
  exact ⟨parsed, all, second, all.behind second (by decide) 0⟩

end Regex

end BacktrackRegex
