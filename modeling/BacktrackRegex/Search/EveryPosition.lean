import BacktrackRegex.Search.Scan

/-!
# Trying every position

The plainest search there is: an attempt at every position from a given one on, with no regard to
where a match may begin. A scan leaves out the positions that its start predicate rules out, and
this search is what its answers are measured by.
-/

namespace BacktrackRegex

namespace Task

/-- Attempt a match at each position from `pos` on, with a number of steps left for all attempts
together. The first argument bounds the positions that remain. -/
def tryFrom (task : Task) : Nat → Nat → Nat → Except Limit (Option Match)
  | 0, _, _ => .ok none
  | n + 1, pos, left =>
    let ending := task.attempt task.graph.anchored pos left
    match ending.result with
    | .error limit => .error limit
    | .ok (some final) =>
      .ok (some ⟨⟨pos, final.pos⟩, final.captures.extract 1 final.captures.size⟩)
    | .ok none =>
      match Text.after? task.text pos with
      | none => .ok none
      | some pos => tryFrom task n pos ending.left

/-- The first match among the attempts at all positions from `pos` on. -/
def tryAll (task : Task) (pos : Nat) : Except Limit (Option Match) :=
  task.tryFrom (task.text.utf8ByteSize + 1 - pos) pos task.limits.steps

end Task

end BacktrackRegex
