import BacktrackRegex.Pattern.Numbering

/-!
# Slots

What the groups of a pattern captured is kept in an array with a slot for each group. A range of
groups can be emptied, or given the values of another array; the slots outside it stay as they are.
-/

namespace BacktrackRegex

namespace GroupRange

variable {β : Type}

/-- Empty the slots of these groups. -/
def clear (groups : GroupRange) (slots : Array (Option β)) : Array (Option β) :=
  groups.toList.foldl (fun slots g => slots.setIfInBounds g none) slots

/-- Give the slots of these groups the values they have in `source`. -/
def copy (groups : GroupRange) (source slots : Array (Option β)) : Array (Option β) :=
  groups.toList.foldl (fun slots g => slots.setIfInBounds g source[g]?.join) slots

/-! ## What becomes of a slot -/

/-- Setting slots by their numbers alone sets those on the list and no others. -/
theorem getElem?_foldl_setIfInBounds (value : Nat → Option β) (numbers : List Nat)
    (slots : Array (Option β)) (g : Nat) :
    (numbers.foldl (fun slots g => slots.setIfInBounds g (value g)) slots)[g]? =
      if g ∈ numbers ∧ g < slots.size then some (value g) else slots[g]? := by
  induction numbers generalizing slots with
  | nil => simp
  | cons n numbers ih =>
    rw [List.foldl_cons, ih, Array.size_setIfInBounds, Array.getElem?_setIfInBounds]
    by_cases hn : n = g
    · subst hn
      by_cases hs : n < slots.size <;> simp [hs]
    · simp [hn, Ne.symm hn]

theorem getElem?_clear (groups : GroupRange) (slots : Array (Option β)) (g : Nat) :
    (groups.clear slots)[g]? =
      if (groups.first ≤ g ∧ g < groups.next) ∧ g < slots.size then some none else slots[g]? := by
  rw [clear, getElem?_foldl_setIfInBounds (fun _ => none)]
  simp [mem_toList]

theorem getElem?_copy (groups : GroupRange) (source slots : Array (Option β)) (g : Nat) :
    (groups.copy source slots)[g]? =
      if (groups.first ≤ g ∧ g < groups.next) ∧ g < slots.size then some source[g]?.join
      else slots[g]? := by
  rw [copy, getElem?_foldl_setIfInBounds (fun g => source[g]?.join)]
  simp [mem_toList]

/-- Setting slots does not change how many there are. -/
theorem size_foldl_setIfInBounds (value : Nat → Option β) (numbers : List Nat)
    (slots : Array (Option β)) :
    (numbers.foldl (fun slots g => slots.setIfInBounds g (value g)) slots).size = slots.size := by
  induction numbers generalizing slots with
  | nil => rfl
  | cons n numbers ih => rw [List.foldl_cons, ih, Array.size_setIfInBounds]

@[simp] theorem size_clear (groups : GroupRange) (slots : Array (Option β)) :
    (groups.clear slots).size = slots.size :=
  size_foldl_setIfInBounds (fun _ => none) groups.toList slots

@[simp] theorem size_copy (groups : GroupRange) (source slots : Array (Option β)) :
    (groups.copy source slots).size = slots.size :=
  size_foldl_setIfInBounds (fun g => source[g]?.join) groups.toList slots

end GroupRange

end BacktrackRegex
