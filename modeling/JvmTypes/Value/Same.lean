import JvmTypes.Value

/-!
# Equality of type values

Two values are the same when they are built alike from the same parts. Classes
are compared by name alone, and the bounds of a wildcard as sets: neither their
order nor a repetition counts.

Bounds can hold wildcards again, so each bound of one side is compared only once
with each bound of the other, and the answers are kept in a table. Main
statement: `same_wildcard_iff`, the comparison of sets that the table decides.
-/

namespace JvmTypes.Value

/-- Whether a table of answers, with a row for each member of one list and a
column for each of `width` members of another, has a yes in each row and in each
column. -/
def pairsUp (width : Nat) (table : List (List Bool)) : Bool :=
  table.all (fun row => row.contains true) &&
    (List.range width).all fun j => table.any fun row => row[j]? = some true

mutual

/-- Whether two values are the same: classes by name, placeholders by serial
number, wildcards by `pairsUp` of their bounds as sets, and the rest part by
part. -/
def same : Value → Value → Bool
  | classType a, classType b => a.name = b.name
  | var a, var b => a = b
  | placeholder a, placeholder b => a.serial = b.serial
  | parameterized a as, parameterized b bs => same a b && sameAll as bs
  | array a, array b => same a b
  | wildcard us ls, wildcard us' ls' =>
      pairsUp us'.length (sameTable us us') &&
        pairsUp ls'.length (sameTable ls ls')
  | foreign x, foreign y => x.sameKey y
  | _, _ => false

/-- Whether two lists hold the same values by `same`, one by one. -/
def sameAll : List Value → List Value → Bool
  | [], [] => true
  | a :: as, b :: bs => same a b && sameAll as bs
  | _, _ => false

/-- For each value of the first list, whether it is `same` as each of the
second. -/
def sameTable : List Value → List Value → List (List Bool)
  | [], _ => []
  | a :: as, bs => bs.map (same a) :: sameTable as bs

end

theorem sameTable_eq_map (as bs : List Value) :
    sameTable as bs = as.map fun a => bs.map (same a) := by
  induction as with
  | nil => rfl
  | cons a as ih => simp [sameTable, ih]

/-- A table of answers `pairsUp` exactly when each member of either list has a
partner in the other. -/
theorem pairsUp_iff (as bs : List Value) :
    pairsUp bs.length (sameTable as bs) = true ↔
      (∀ a ∈ as, ∃ b ∈ bs, same a b = true) ∧
      (∀ b ∈ bs, ∃ a ∈ as, same a b = true) := by
  simp only [pairsUp, sameTable_eq_map, Bool.and_eq_true,
    List.all_eq_true, List.mem_map, List.contains_iff_mem, List.any_eq_true,
    List.mem_range, decide_eq_true_eq, forall_exists_index, and_imp,
    forall_apply_eq_imp_iff₂]
  refine and_congr Iff.rfl ⟨fun hColumns b hMem => ?_, fun hPartners j hj => ?_⟩
  · obtain ⟨j, hj, rfl⟩ := List.mem_iff_getElem.1 hMem
    obtain ⟨_, ⟨a, hA, rfl⟩, hAt⟩ := hColumns j hj
    exact ⟨a, hA, by simpa [hj] using hAt⟩
  · obtain ⟨a, hA, hSame⟩ := hPartners bs[j] (List.getElem_mem hj)
    exact ⟨_, ⟨a, hA, rfl⟩, by simp [hj, hSame]⟩

/-- Wildcards are the same by `same` exactly when their upper and their lower
bounds are the same sets. -/
theorem same_wildcard_iff (us ls us' ls' : List Value) :
    same (wildcard us ls) (wildcard us' ls') = true ↔
      ((∀ a ∈ us, ∃ b ∈ us', same a b = true) ∧
        (∀ b ∈ us', ∃ a ∈ us, same a b = true)) ∧
      ((∀ a ∈ ls, ∃ b ∈ ls', same a b = true) ∧
        (∀ b ∈ ls', ∃ a ∈ ls, same a b = true)) := by
  rw [same, Bool.and_eq_true, pairsUp_iff, pairsUp_iff]

/-- The index of the first known value that is the same as `v`, with the known
values after `v` has become known too. -/
def classify (known : List Value) (v : Value) : Nat × List Value :=
  match known.findIdx? (fun k => k.same v) with
  | some i => (i, known)
  | none => (known.length, known ++ [v])

/-- Numbers for the given values, in which values share one if they are the same
by `same`; numbers are given out in the order of first appearance. -/
def groups (values : List Value) : List Nat :=
  (values.foldl
    (fun (done : List Nat × List Value) v =>
      let next := classify done.2 v
      (done.1 ++ [next.1], next.2))
    ([], [])).1

end JvmTypes.Value
