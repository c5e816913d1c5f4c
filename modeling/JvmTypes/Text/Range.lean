/-!
# Tables of code point ranges

A character class is written as a list of ranges in increasing order, each with
the datum that its members share. `Range.find?` looks a code point up and stops
as soon as the ranges have passed it.
-/

namespace JvmTypes.Text

/-- The code points from `first` to `last`, both included, and what they
share. -/
structure Range (α : Type) where
  first : Nat
  last : Nat
  tag : α

/-- The first range that holds `n`, in a list of increasing ranges. -/
def Range.find? {α : Type} : List (Range α) → Nat → Option (Range α)
  | [], _ => none
  | range :: rest, n =>
      if n < range.first then none
      else if n ≤ range.last then some range
      else find? rest n

/-- Whether some range of an increasing list holds `n`. -/
def Range.holds {α : Type} (ranges : List (Range α)) (n : Nat) : Bool :=
  (find? ranges n).isSome

/-- A range that is found holds the code point that was looked up. -/
theorem Range.mem_of_find? {α : Type} {ranges : List (Range α)} {n : Nat}
    {range : Range α} (hFind : find? ranges n = some range) :
    range ∈ ranges ∧ range.first ≤ n ∧ n ≤ range.last := by
  induction ranges with
  | nil => simp [find?] at hFind
  | cons head rest ih =>
      simp only [find?] at hFind
      split at hFind
      · simp at hFind
      · split at hFind
        · cases hFind
          exact ⟨List.mem_cons_self, by omega, by assumption⟩
        · obtain ⟨hMem, hBounds⟩ := ih hFind
          exact ⟨List.mem_cons_of_mem _ hMem, hBounds⟩

end JvmTypes.Text
