import BacktrackRegex.Proofs.Search.Iteration

/-!
# One call after the other

With `exec` the matches of a text can be found call by call. There is no sequence of matches then:
each call begins a search of its own, and a last index is all that is handed from one to the next.

`Regex.lastIndex` and `Regex.call` are the last index before a call and what the call returns, where
calls follow each other. A match that is not empty sets the last index to just the place where a
sequence of matches resumes, so the calls return the items of the sequence
(`item?_add_lastIndex`). Behind an empty match the two part: a sequence goes on behind the next
character, and a call at the end of the match.
-/

namespace BacktrackRegex

namespace Regex

/-- What a call returns where a search has this item, or none. -/
def answer (regex : Regex) : Option (Except Limit Match) → Except Error (Option Match)
  | none => .ok none
  | some (.ok found) => .ok (some found)
  | some (.error limit) => .error (.ofLimit regex.limits limit)

/-- The last index before a call, where each is given what the one before has left and the first,
with the number 0, is given `start`. -/
def lastIndex (regex : Regex) (text : String) (start : Nat) : Nat → Nat
  | 0 => start
  | n + 1 => (regex.exec text (regex.lastIndex text start n)).2

/-- What such a call returns. -/
def call (regex : Regex) (text : String) (start n : Nat) : Except Error (Option Match) :=
  (regex.exec text (regex.lastIndex text start n)).1

/-- Whether all calls before this one have found matches that are not empty. -/
def Advances (regex : Regex) (text : String) (start n : Nat) : Prop :=
  ∀ m < n, ∃ found, regex.call text start m = .ok (some found) ∧
    found.span.start < found.span.stop

/-- What the calls with a global expression are like. -/
structure Resumes (regex : Regex) (text : String) (start : Nat) : Prop where
  /-- up to the first empty match, the first error or the end, they return the items of a search -/
  items : ∀ {n : Nat}, regex.Advances text start n →
    regex.call text start n = regex.answer ((regex.findFrom text start).item? n)
  /-- a search that keeps one matcher for all its items has the same -/
  reused : ∀ {n : Nat}, regex.Advances text start n →
    regex.call text start n = regex.answer ((Sweep.start (regex.task text) start).item? n)
  /-- a match leaves the last index at its end -/
  behind : ∀ {n : Nat} {found : Match}, regex.call text start n = .ok (some found) →
    regex.lastIndex text start (n + 1) = found.span.stop
  /-- where there is none, the next call searches from the start of the text -/
  reset : ∀ {n : Nat}, regex.call text start n = .ok none →
    regex.lastIndex text start (n + 1) = 0
  /-- an error leaves the last index as it was -/
  kept : ∀ {n : Nat} {error : Error}, regex.call text start n = .error error →
    regex.lastIndex text start (n + 1) = regex.lastIndex text start n

variable {regex : Regex} {text : String} {source : String} {pattern : NumberedPattern}

/-! ## A single call -/

/-- A search from an offset returns its first item. -/
theorem firstFrom_eq_answer (regex : Regex) (text : String) (pos : Nat) :
    regex.firstFrom text pos = regex.answer ((regex.findFrom text pos).item? 0) := by
  rw [firstFrom, Matches.item?, Matches.after]
  rcases (regex.findFrom text pos).next?.1 with _ | limit | found <;> rfl

/-- A search returns a match just where that is its first item. -/
theorem answer_eq_ok_some {item? : Option (Except Limit Match)} {found : Match} :
    regex.answer item? = .ok (some found) ↔ item? = some (.ok found) := by
  rcases item? with _ | limit | other <;> simp [answer]

/-- With a global expression, a call returns what a search from the last index does, and moves the
last index by what it returns. -/
theorem exec_of_global (global : regex.flags.global = true) (index : Nat) :
    regex.exec text index =
      (regex.firstFrom text index,
        match regex.firstFrom text index with
        | .ok (some found) => found.span.stop
        | .ok none => 0
        | .error _ => index) := by
  simp only [exec, global, Bool.not_true, Bool.false_eq_true, if_false]
  rcases regex.firstFrom text index with error | _ | found <;> rfl

/-- With any other, a call returns what a search from the start of the text does, and the last index
stays. -/
theorem exec_of_not_global (plain : regex.flags.global = false) (index : Nat) :
    regex.exec text index = (regex.find text, index) := by
  simp [exec, plain]

/-! ## Calls in a row -/

section

variable (global : regex.flags.global = true) {start n : Nat}

include global

theorem call_of_global :
    regex.call text start n =
      regex.answer ((regex.findFrom text (regex.lastIndex text start n)).item? 0) := by
  rw [call, exec_of_global global, firstFrom_eq_answer]

/-- The last index that a call leaves, by what it returns. -/
theorem lastIndex_succ :
    regex.lastIndex text start (n + 1) =
      match regex.call text start n with
      | .ok (some found) => found.span.stop
      | .ok none => 0
      | .error _ => regex.lastIndex text start n := by
  rw [lastIndex, call, exec_of_global global]

/-- **A call goes on where the calls before it have come to.** As long as they find matches that are
not empty, the items of a search that are left are those of a search from the last index. -/
theorem item?_add_lastIndex (graph : regex.graph = .ofPattern pattern)
    (numbered : pattern.tree.Numbered 1 (pattern.groupCount + 1))
    (advances : regex.Advances text start n) (k : Nat) :
    (regex.findFrom text start).item? (n + k) =
      (regex.findFrom text (regex.lastIndex text start n)).item? k := by
  induction n generalizing k with
  | zero =>
    rw [Nat.zero_add]
    rfl
  | succ n ih =>
    have before : regex.Advances text start n := fun m lt => advances m (Nat.lt_succ_of_lt lt)
    obtain ⟨found, called, nonempty⟩ := advances n n.lt_succ_self
    have left : regex.lastIndex text start (n + 1) = found.span.stop := by
      rw [lastIndex_succ global, called]
    -- the match is the first of the search that the last call begins, and the search goes on behind
    rw [call_of_global global, answer_eq_ok_some] at called
    have boundary := (cuts_of_item? graph numbered called).stop
    have resume : (regex.task text).resumeAfter? found.span.start found.span.stop =
        some found.span.stop := by
      rw [Task.resumeAfter?, if_neg (Nat.ne_of_gt nonempty)]
    have behind := item?_add_of_resumeAfter? graph numbered called boundary resume k
    rw [left, ← behind, Nat.add_assoc, ih before, Nat.zero_add]

end

/-- **Calls in a row find what a search finds.** A global expression that comes from a pattern that
was read returns the items of a search, call by call, up to the first that is no match or an empty
one, and moves the last index as it should. Any other expression returns the same each time and
never touches the last index. -/
theorem exec_resumes (parsed : NumberedPattern.parse source = .ok pattern)
    (graph : regex.graph = .ofPattern pattern) (text : String) (start : Nat) :
    (regex.flags.global = true → regex.Resumes text start) ∧
      (regex.flags.global = false → ∀ n,
        regex.call text start n = regex.find text ∧ regex.lastIndex text start n = start) := by
  have numbered := NumberedPattern.numbered_groupCount parsed
  constructor
  · intro global
    have items {n : Nat} (advances : regex.Advances text start n) :
        regex.call text start n = regex.answer ((regex.findFrom text start).item? n) := by
      rw [call_of_global global, ← item?_add_lastIndex global graph numbered advances]
      rfl
    constructor
    case items => exact items
    case reused =>
      intro n advances
      rw [Sweep.item?_start]
      exact items advances
    case behind =>
      intro n found called
      rw [lastIndex_succ global, called]
    case reset =>
      intro n called
      rw [lastIndex_succ global, called]
    case kept =>
      intro n error called
      rw [lastIndex_succ global, called]
  · intro plain n
    have kept : regex.lastIndex text start n = start := by
      induction n with
      | zero => rfl
      | succ n ih => rw [lastIndex, exec_of_not_global plain, ih]
    exact ⟨by rw [call, exec_of_not_global plain], kept⟩

theorem exec_resumes_empty :
    let pattern : NumberedPattern := ⟨.quantified ⟨1, 1⟩ 0 none true (.char 'a'), 0, 1⟩
    let regex : Regex := ⟨.ofPattern pattern, ⟨false, false, true⟩, ⟨100, 10⟩⟩
    NumberedPattern.parse "a*" = .ok pattern ∧ regex.Resumes "éaab" 1 ∧
      regex.call "éaab" 1 0 = .ok (some ⟨⟨2, 4⟩, #[]⟩) ∧ regex.Advances "éaab" 1 1 ∧
      regex.call "éaab" 1 1 = regex.answer ((regex.findFrom "éaab" 1).item? 1) ∧
      regex.lastIndex "éaab" 1 1 = 4 := by
  intro pattern regex
  have parsed : NumberedPattern.parse "a*" = .ok pattern := rfl
  have resumes : regex.Resumes "éaab" 1 := (exec_resumes parsed rfl "éaab" 1).1 rfl
  have first : regex.call "éaab" 1 0 = .ok (some ⟨⟨2, 4⟩, #[]⟩) := by cbv
  have advances : regex.Advances "éaab" 1 1 := by
    intro m lt
    obtain rfl : m = 0 := Nat.lt_one_iff.mp lt
    exact ⟨_, first, by decide⟩
  exact ⟨parsed, resumes, first, advances, resumes.items advances, resumes.behind first⟩

end Regex

end BacktrackRegex
