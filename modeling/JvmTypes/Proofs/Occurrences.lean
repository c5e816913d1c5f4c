import JvmTypes.Error
import JvmTypes.Proofs.Sequence
import Mathlib.Logic.Relation

/-!
# What occurs in a value

A composite casts its parts in roles: as type arguments, as bounds, as the
component of an array. What can be reached from a value in this way occurs in it
(`Holds`), and the search for placeholders looks at exactly that
(`hasPlaceholder_iff_holds`).

Substituting keeps track of occurrences. What occurs in a value is replaced, and
its replacement occurs in the result in the same roles (`holds_of_apply`). What
occurs in a result is such a replacement, or it came along with a binding
(`cases_of_holds`). So nothing is lost when a component becomes a class and its
array an array class.

## Main results

* `Substitution.fails_of_apply`: why substituting fails.
* `Substitution.resolve_placeholders`: no placeholder is left, and apart from
  arrays of `void`, resolving fails only for placeholders.
-/

namespace JvmTypes

namespace Value

/-- The parts of a value and the roles in which it casts them. An array class
casts the class it is of. -/
inductive Casts : Value → Role → Value → Prop
  | argument {raw a : Value} {arguments : List Value} (hMem : a ∈ arguments) :
      Casts (.parameterized raw arguments) .typeArgument a
  | upper {b : Value} {upper lower : List Value} (hMem : b ∈ upper) :
      Casts (.wildcard upper lower) .wildcardBound b
  | lower {b : Value} {upper lower : List Value} (hMem : b ∈ lower) :
      Casts (.wildcard upper lower) .wildcardBound b
  | component {component : Value} :
      Casts (.array component) .arrayComponent component
  | element {c : ClassType} :
      Casts (.classType (.array c)) .arrayComponent (.classType c)

/-- A value occurs in another, at any depth: a chain of `Casts` leads to it. -/
def Holds : Value → Value → Prop := Relation.ReflTransGen fun v w => ∃ role,
    v.Casts role w

/-- A value occurs in another in a role: something that the other `Holds` casts
it. -/
def HoldsAs (v : Value) (role : Role) (part : Value) : Prop :=
  ∃ w, v.Holds w ∧ w.Casts role part

variable {v w part : Value} {role : Role}

theorem Holds.refl : v.Holds v := Relation.ReflTransGen.refl

theorem Casts.holds (hCasts : v.Casts role part) (hHolds : part.Holds w) :
    v.Holds w :=
  .head ⟨role, hCasts⟩ hHolds

theorem HoldsAs.holds (hHolds : v.HoldsAs role part) : v.Holds part := by
  obtain ⟨w, hWhole, hCasts⟩ := hHolds
  exact hWhole.tail ⟨role, hCasts⟩

/-- What a value holds in a role by `HoldsAs` it casts itself in that role, or
one of its parts holds it so. -/
theorem holdsAs_iff :
    v.HoldsAs role w ↔
      v.Casts role w ∨ ∃ other part, v.Casts other part ∧
      part.HoldsAs role w := by
  constructor
  · rintro ⟨u, hHolds, hCasts⟩
    rcases Relation.ReflTransGen.cases_head hHolds
      with rfl | ⟨part, ⟨other, hOther⟩, hPart⟩
    · exact .inl hCasts
    · exact .inr ⟨other, part, hOther, u, hPart, hCasts⟩
  · rintro (hCasts | ⟨other, part, hOther, u, hPart, hCasts⟩)
    · exact ⟨v, .refl, hCasts⟩
    · exact ⟨u, hOther.holds hPart, hCasts⟩

/-- An array over a variable is of that variable and of nothing else. -/
theorem eq_of_array_var {y : TypeVariable}
    (hHolds : (array (.var y)).HoldsAs role part) : part = .var y := by
  rcases holdsAs_iff.1 hHolds with hCasts | ⟨other, inner, hCasts, hInner⟩
  · cases hCasts
    rfl
  · cases hCasts
    rcases holdsAs_iff.1 hInner with hNone | ⟨_, _, hNone, -⟩ <;> cases hNone

/-! ## The search for placeholders -/

theorem Casts.hasPlaceholder (hCasts : v.Casts role part)
    (hPart : part.hasPlaceholder = true) : v.hasPlaceholder = true := by
  have hAny : ∀ {vs : List Value}, part ∈ vs → anyPlaceholder vs = true := by
    intro vs hMem
    by_contra hNone
    simp [anyPlaceholder_eq_false_iff.1
      (by simpa using hNone) part hMem] at hPart
  cases hCasts with
  | argument hMem => exact hAny hMem
  | upper hMem => exact Bool.or_eq_true_iff.2 (.inl (hAny hMem))
  | lower hMem => exact Bool.or_eq_true_iff.2 (.inr (hAny hMem))
  | component => exact hPart
  | element => cases hPart

-- The recursion is that of the search.
mutual

private theorem exists_of_hasPlaceholder :
    ∀ v : Value, v.hasPlaceholder = true → ∃ p, v.Holds (.placeholder p)
  | .placeholder p, _ => ⟨p, .refl⟩
  | .parameterized _ arguments, hFound => by
      obtain ⟨a, hMem, p, hHolds⟩ := exists_of_anyPlaceholder arguments hFound
      exact ⟨p, (Casts.argument hMem).holds hHolds⟩
  | .array component, hFound => by
      obtain ⟨p, hHolds⟩ := exists_of_hasPlaceholder component hFound
      exact ⟨p, Casts.component.holds hHolds⟩
  | .wildcard upper lower, hFound => by
      rcases Bool.or_eq_true_iff.1 hFound with hUpper | hLower
      · obtain ⟨b, hMem, p, hHolds⟩ := exists_of_anyPlaceholder upper hUpper
        exact ⟨p, (Casts.upper hMem).holds hHolds⟩
      · obtain ⟨b, hMem, p, hHolds⟩ := exists_of_anyPlaceholder lower hLower
        exact ⟨p, (Casts.lower hMem).holds hHolds⟩

private theorem exists_of_anyPlaceholder :
    ∀ vs : List Value, anyPlaceholder vs = true →
      ∃ v ∈ vs, ∃ p, v.Holds (.placeholder p)
  | v :: vs, hFound => by
      rcases Bool.or_eq_true_iff.1 hFound with hHead | hTail
      · exact ⟨v, List.mem_cons_self, exists_of_hasPlaceholder v hHead⟩
      · obtain ⟨w, hMem, hHolds⟩ := exists_of_anyPlaceholder vs hTail
        exact ⟨w, List.mem_cons_of_mem v hMem, hHolds⟩

end

/-- `hasPlaceholder` finds a placeholder exactly if the value `Holds` one. -/
theorem hasPlaceholder_iff_holds :
    v.hasPlaceholder = true ↔ ∃ p, v.Holds (.placeholder p) := by
  constructor
  · exact exists_of_hasPlaceholder v
  · rintro ⟨p, hHolds⟩
    induction hHolds using Relation.ReflTransGen.head_induction_on with
    | refl => rfl
    | head hStep _ ih =>
        obtain ⟨role, hCasts⟩ := hStep
        exact hCasts.hasPlaceholder ih

end Value

namespace Substitution

open Value

variable {s : Substitution} {t u v w x b part : Value} {role : Role}
    {e : CompositionError}

/-- A variable is bound to a value. -/
structure Binds (s : Substitution) (x b : Value) : Prop where
  isVariable : x.isVariable = true
  find? : s.find? x = some b

theorem Binds.apply (hBinds : s.Binds x b) : s.apply x = .ok b := by
  obtain ⟨hVariable, hFind⟩ := hBinds
  cases x with
  | var v => rw [Substitution.apply, hFind, Option.getD_some]
  | placeholder p => rw [Substitution.apply, hFind]
  | _ => cases hVariable

/-- A placeholder that `apply` replaces is bound, and one that is not bound
makes it fail. -/
theorem binds_of_apply_placeholder {p : Placeholder}
    (hApply : s.apply (.placeholder p) = .ok w) :
    s.Binds (.placeholder p) w := by
  rw [apply] at hApply
  cases hFind : s.find? (.placeholder p) with
  | none => simp [hFind] at hApply
  | some b =>
      obtain rfl : b = w := by simpa [hFind] using hApply
      exact ⟨rfl, hFind⟩

/-- A type variable is replaced by `apply` if it is bound, and stays
otherwise. -/
theorem cases_of_apply_var {y : TypeVariable}
    (hApply : s.apply (.var y) = .ok w) : s.Binds (.var y) w ∨ w = .var y := by
  rw [apply] at hApply
  obtain rfl := Except.ok.inj hApply
  cases hFind : s.find? (.var y) with
  | none => exact .inr rfl
  | some b => exact .inl ⟨rfl, hFind⟩

/-! ## Occurrences before and after -/

theorem arrayOver_casts (hArray : arrayOver v = .ok w) :
    w.Casts role part ↔ role = .arrayComponent ∧ part = v := by
  rcases cases_of_arrayOver hArray with ⟨c, rfl, rfl⟩ | rfl
  · exact ⟨fun | .element => ⟨rfl, rfl⟩, fun ⟨hRole, hPart⟩ => hRole ▸
      hPart ▸ .element⟩
  · exact ⟨fun | .component => ⟨rfl, rfl⟩, fun ⟨hRole, hPart⟩ => hRole ▸
      hPart ▸ .component⟩

/-- What a value `Casts` in a role is replaced, and the replacement is cast in
that role. -/
theorem casts_of_apply (hApply : s.apply v = .ok w)
    (hCasts : v.Casts role part) :
    ∃ part', s.apply part = .ok part' ∧ w.Casts role part' := by
  cases hCasts with
  | argument hMem =>
      obtain ⟨ws, hArguments, rfl⟩ := apply_parameterized_eq_ok_iff.1 hApply
      obtain ⟨a', hMem', hOk⟩ := (matching_of_applyAll hArguments).1 _ hMem
      exact ⟨a', hOk, .argument hMem'⟩
  | upper hMem =>
      obtain ⟨us, ls, hUpper, -, rfl⟩ := apply_wildcard_eq_ok_iff.1 hApply
      obtain ⟨b', hMem', hOk⟩ := (matching_of_applyAll hUpper).1 _ hMem
      exact ⟨b', hOk, .upper hMem'⟩
  | lower hMem =>
      obtain ⟨us, ls, -, hLower, rfl⟩ := apply_wildcard_eq_ok_iff.1 hApply
      obtain ⟨b', hMem', hOk⟩ := (matching_of_applyAll hLower).1 _ hMem
      exact ⟨b', hOk, .lower hMem'⟩
  | component =>
      obtain ⟨inner, hInner, hArray⟩ := apply_array_eq_ok_iff.1 hApply
      exact ⟨inner, hInner, (arrayOver_casts hArray).2 ⟨rfl, rfl⟩⟩
  | element =>
      rw [apply] at hApply
      cases hApply
      exact ⟨_, by rw [apply], .element⟩

/-- What the result of `apply` casts in a role was cast in that role, unless all
of the result is what a variable was bound to. -/
theorem cases_of_casts (hApply : s.apply v = .ok w)
    (hCasts : w.Casts role part) :
    s.Binds v w ∨ ∃ before, v.Casts role before ∧
    s.apply before = .ok part := by
  cases v with
  | var y =>
      rcases cases_of_apply_var hApply with hBinds | rfl
      · exact .inl hBinds
      · cases hCasts
  | placeholder p => exact .inl (binds_of_apply_placeholder hApply)
  | classType c =>
      rw [apply] at hApply
      cases hApply
      cases hCasts
      exact .inr ⟨_, .element, by rw [apply]⟩
  | foreign y =>
      rw [apply] at hApply
      cases hApply
      cases hCasts
  | parameterized raw arguments =>
      obtain ⟨ws, hArguments, rfl⟩ := apply_parameterized_eq_ok_iff.1 hApply
      cases hCasts with
      | argument hMem =>
          obtain ⟨a, hMem', hOk⟩ := (matching_of_applyAll hArguments).2 _ hMem
          exact .inr ⟨a, .argument hMem', hOk⟩
  | wildcard upper lower =>
      obtain ⟨us, ls, hUpper, hLower, rfl⟩ := apply_wildcard_eq_ok_iff.1 hApply
      cases hCasts with
      | upper hMem =>
          obtain ⟨b, hMem', hOk⟩ := (matching_of_applyAll hUpper).2 _ hMem
          exact .inr ⟨b, .upper hMem', hOk⟩
      | lower hMem =>
          obtain ⟨b, hMem', hOk⟩ := (matching_of_applyAll hLower).2 _ hMem
          exact .inr ⟨b, .lower hMem', hOk⟩
  | array component =>
      obtain ⟨inner, hInner, hArray⟩ := apply_array_eq_ok_iff.1 hApply
      obtain ⟨rfl, rfl⟩ := (arrayOver_casts hArray).1 hCasts
      exact .inr ⟨component, .component, hInner⟩

/-- A value that casts nothing stays, unless it is a variable that `Binds`
something. -/
theorem cases_of_apply_atom (hNothing : ∀ role part, ¬ v.Casts role part)
    (hApply : s.apply v = .ok w) : s.Binds v w ∨ w = v := by
  have hNil : ∀ {vs : List Value}, (∀ u ∈ vs, ∃ role, v.Casts role u) →
      vs = [] := by
    intro vs hCasts
    refine List.eq_nil_iff_forall_not_mem.2 fun u hMem => ?_
    obtain ⟨role, hCast⟩ := hCasts u hMem
    exact hNothing role u hCast
  cases v with
  | var y => exact cases_of_apply_var hApply
  | placeholder p => exact .inl (binds_of_apply_placeholder hApply)
  | classType c =>
      rw [apply] at hApply
      exact .inr (Except.ok.inj hApply).symm
  | foreign y =>
      rw [apply] at hApply
      exact .inr (Except.ok.inj hApply).symm
  | parameterized raw arguments =>
      obtain rfl := hNil fun a hMem => ⟨_, .argument hMem⟩
      exact .inr (Except.ok.inj hApply).symm
  | wildcard upper lower =>
      obtain rfl := hNil fun b hMem => ⟨_, .upper hMem⟩
      obtain rfl := hNil fun b hMem => ⟨_, .lower hMem⟩
      exact .inr (Except.ok.inj hApply).symm
  | array component => exact absurd .component (hNothing _ component)

/-- A result that casts nothing was there from the start, or is what a variable
was bound to. -/
theorem cases_of_apply_eq_atom (hNothing : ∀ role part, ¬ w.Casts role part)
    (hApply : s.apply v = .ok w) : s.Binds v w ∨ w = v := by
  refine cases_of_apply_atom (fun role part hCasts => ?_) hApply
  obtain ⟨part', -, hAfter⟩ := casts_of_apply hApply hCasts
  exact hNothing role part' hAfter

/-- What a value `Holds` is replaced, and the replacement occurs in the
result. -/
theorem holds_of_apply (hApply : s.apply t = .ok u) (hHolds : t.Holds v) :
    ∃ w, s.apply v = .ok w ∧ u.Holds w := by
  induction hHolds with
  | refl => exact ⟨u, hApply, .refl⟩
  | tail _ hStep ih =>
      obtain ⟨role, hCasts⟩ := hStep
      obtain ⟨w, hOk, hWhole⟩ := ih
      obtain ⟨part, hPart, hCasts⟩ := casts_of_apply hOk hCasts
      exact ⟨part, hPart, hWhole.tail ⟨role, hCasts⟩⟩

/-- What the result of `apply` holds is a replacement, or came along with a
binding. -/
theorem cases_of_holds (hApply : s.apply t = .ok u) (hHolds : u.Holds w) :
    (∃ v, t.Holds v ∧ s.apply v = .ok w) ∨ ∃ x b, t.Holds x ∧ s.Binds x b ∧
    b.Holds w := by
  induction hHolds with
  | refl => exact .inl ⟨t, .refl, hApply⟩
  | @tail w part _ hStep ih =>
      rcases ih with ⟨v, hWhole, hOk⟩ | ⟨x, b, hWhole, hBinds, hHolds⟩
      · obtain ⟨role, hCasts⟩ := hStep
        rcases cases_of_casts hOk hCasts with hBinds | ⟨before, hBefore, hPart⟩
        · exact .inr ⟨v, w, hWhole, hBinds, .single ⟨role, hCasts⟩⟩
        · exact .inl ⟨before, hWhole.tail ⟨role, hBefore⟩, hPart⟩
      · exact .inr ⟨x, b, hWhole, hBinds, hHolds.tail hStep⟩

/-- What a value holds in a role by `HoldsAs` is replaced, and the result holds
the replacement in the same role. -/
theorem holdsAs_of_apply (hApply : s.apply t = .ok u)
    (hHolds : t.HoldsAs role part) :
    ∃ part', s.apply part = .ok part' ∧ u.HoldsAs role part' := by
  obtain ⟨v, hWhole, hCasts⟩ := hHolds
  obtain ⟨w, hOk, hResult⟩ := holds_of_apply hApply hWhole
  obtain ⟨part', hPart, hAfter⟩ := casts_of_apply hOk hCasts
  exact ⟨part', hPart, w, hResult, hAfter⟩

/-- What the result of `apply` holds in some role replaces what was in that
role, or came along with a binding. -/
theorem cases_of_holdsAs (hApply : s.apply t = .ok u)
    (hHolds : u.HoldsAs role part) :
    (∃ before, t.HoldsAs role before ∧ s.apply before = .ok part) ∨
      ∃ x b, t.Holds x ∧ s.Binds x b ∧ b.HoldsAs role part := by
  obtain ⟨w, hWhole, hCasts⟩ := hHolds
  rcases cases_of_holds hApply hWhole with ⟨v, hV, hOk⟩ | ⟨x, b, hX, hBinds, hB⟩
  · rcases cases_of_casts hOk hCasts with hBinds | ⟨before, hBefore, hPart⟩
    · exact .inr ⟨v, w, hV, hBinds, w, .refl, hCasts⟩
    · exact .inl ⟨before, ⟨v, hV, hBefore⟩, hPart⟩
  · exact .inr ⟨x, b, hX, hBinds, w, hB, hCasts⟩

/-! ## Why substituting fails -/

/-- The failures of substituting in a value: a placeholder without a binding
occurs in it, or a component that becomes `void`. -/
inductive Fails (s : Substitution) (t : Value) : CompositionError → Prop
  | unbound {p : Placeholder} (hHolds : t.Holds (.placeholder p))
      (hFree : s.find? (.placeholder p) = none) : Fails s t (.unbound p)
  | voidComponent {part : Value} (hHolds : t.HoldsAs .arrayComponent part)
      (hVoid : s.apply part = .ok (.classType (.primitive .void))) :
      Fails s t .voidComponent

private theorem Fails.of_casts (hCasts : t.Casts role part)
    (hFails : s.Fails part e) : s.Fails t e := by
  cases hFails with
  | unbound hHolds hFree => exact .unbound (hCasts.holds hHolds) hFree
  | voidComponent hHolds hVoid =>
      exact .voidComponent (holdsAs_iff.2 (.inr ⟨_, _, hCasts, hHolds⟩)) hVoid

private theorem eq_of_arrayOver_error (hArray : arrayOver v = .error e) :
    v = .classType (.primitive .void) ∧ e = .voidComponent := by
  cases v with
  | classType c =>
      by_cases hVoid : c = .primitive .void
      · subst hVoid
        exact ⟨rfl, (Except.error.inj hArray).symm⟩
      · have hOk := Composition.arrayOf_classType_eq_ok_iff.2 ⟨hVoid, rfl⟩
        cases hOk.symm.trans hArray
  | _ => cases hArray

mutual

/-- `Substitution.apply` fails for one of the reasons that `Fails` lists
only. -/
theorem fails_of_apply : ∀ t e, s.apply t = .error e → s.Fails t e
  | .var y, e, hError => by
      rw [apply] at hError
      cases hError
  | .placeholder p, e, hError => by
      rw [apply] at hError
      cases hFind : s.find? (.placeholder p) with
      | some b => simp [hFind] at hError
      | none =>
          obtain rfl : CompositionError.unbound p = e := by
            simpa [hFind] using hError
          exact .unbound .refl hFind
  | .classType c, e, hError => by
      rw [apply] at hError
      cases hError
  | .foreign y, e, hError => by
      rw [apply] at hError
      cases hError
  | .parameterized raw arguments, e, hError => by
      rw [apply] at hError
      rcases cases_of_bind_eq_error hError with hArguments | ⟨ws, -, hOk⟩
      · obtain ⟨a, hMem, hFails⟩ := fails_of_applyAll arguments e hArguments
        exact .of_casts (.argument hMem) hFails
      · cases hOk
  | .wildcard upper lower, e, hError => by
      rw [apply] at hError
      rcases cases_of_bind_eq_error hError with hUpper | ⟨us, -, hRest⟩
      · obtain ⟨b, hMem, hFails⟩ := fails_of_applyAll upper e hUpper
        exact .of_casts (.upper hMem) hFails
      · rcases cases_of_bind_eq_error hRest with hLower | ⟨ls, -, hOk⟩
        · obtain ⟨b, hMem, hFails⟩ := fails_of_applyAll lower e hLower
          exact .of_casts (.lower hMem) hFails
        · cases hOk
  | .array component, e, hError => by
      rw [apply] at hError
      rcases cases_of_bind_eq_error hError
        with hComponent | ⟨inner, hInner, hArray⟩
      · exact .of_casts .component (fails_of_apply component e hComponent)
      · obtain ⟨rfl, rfl⟩ := eq_of_arrayOver_error hArray
        exact .voidComponent ⟨_, .refl, .component⟩ hInner

private theorem fails_of_applyAll :
    ∀ ts e, s.applyAll ts = .error e → ∃ t ∈ ts, s.Fails t e
  | [], e, hError => by
      rw [applyAll] at hError
      cases hError
  | t :: ts, e, hError => by
      rw [applyAll] at hError
      rcases cases_of_bind_eq_error hError with hHead | ⟨u, -, hRest⟩
      · exact ⟨t, List.mem_cons_self, fails_of_apply t e hHead⟩
      · rcases cases_of_bind_eq_error hRest with hTail | ⟨us, -, hOk⟩
        · obtain ⟨w, hMem, hFails⟩ := fails_of_applyAll ts e hTail
          exact ⟨w, List.mem_cons_of_mem t hMem, hFails⟩
        · cases hOk

end

/-! ## Placeholders that are left -/

/-- What `resolve` yields holds no placeholder. -/
theorem not_holds_placeholder_of_resolve (hResolve : s.resolve t = .ok u)
    (p : Placeholder) : ¬ u.Holds (.placeholder p) := by
  intro hHolds
  have hFound := hasPlaceholder_iff_holds.2 ⟨p, hHolds⟩
  simp [(resolve_eq_ok_iff.1 hResolve).2] at hFound

theorem cases_of_resolve_error (hResolve : s.resolve t = .error e) :
    s.Fails t e ∨ ∃ u p, s.apply t = .ok u ∧ u.Holds (.placeholder p) ∧
    e = .leak u := by
  rcases cases_of_bind_eq_error hResolve with hApply | ⟨u, hApply, hLeft⟩
  · exact .inl (fails_of_apply t e hApply)
  · split at hLeft
    · next hFound =>
        obtain ⟨p, hHolds⟩ := hasPlaceholder_iff_holds.1 hFound
        exact .inr ⟨u, p, hApply, hHolds, (Except.error.inj hLeft).symm⟩
    · cases hLeft

/-- A placeholder that the result of `apply` holds came along with a binding. -/
theorem exists_of_holds_placeholder {p : Placeholder}
    (hApply : s.apply t = .ok u) (hHolds : u.Holds (.placeholder p)) :
    ∃ x b, t.Holds x ∧ s.Binds x b ∧ b.Holds (.placeholder p) := by
  rcases cases_of_holds hApply hHolds with ⟨v, hWhole, hOk⟩ | hBrought
  · rcases cases_of_apply_eq_atom (by rintro role part ⟨⟩) hOk with hBinds | rfl
    · exact ⟨v, _, hWhole, hBinds, .refl⟩
    · exact ⟨_, _, hWhole, binds_of_apply_placeholder hOk, .refl⟩
  · exact hBrought

/-- No placeholder is left in what is resolved. If no component is `void` or a
variable bound to `void`, then resolving fails exactly if a placeholder occurs
that is not bound, or a variable that is bound to something in which a
placeholder occurs. -/
theorem resolve_placeholders (s : Substitution) (t : Value) :
    (∀ u, s.resolve t = .ok u → ∀ p, ¬ u.Holds (.placeholder p)) ∧
      ((∀ part, t.HoldsAs .arrayComponent part →
          part ≠ .classType (.primitive .void) ∧
          ¬ s.Binds part (.classType (.primitive .void))) →
        ((∃ e, s.resolve t = .error e) ↔
          (∃ p, t.Holds (.placeholder p) ∧ s.find? (.placeholder p) = none) ∨
            ∃ x b p, t.Holds x ∧ s.Binds x b ∧ b.Holds (.placeholder p)) ∧
        ∀ e, s.resolve t = .error e → e.report.kind = .canonicalization) := by
  refine ⟨fun u => not_holds_placeholder_of_resolve, fun hVoid => ?_⟩
  -- Without `void`, the error names a placeholder.
  have hReasons : ∀ e, s.resolve t = .error e →
      ((∃ p, t.Holds (.placeholder p) ∧ s.find? (.placeholder p) = none) ∨
        ∃ x b p, t.Holds x ∧ s.Binds x b ∧ b.Holds (.placeholder p)) ∧
      e.report.kind = .canonicalization := by
    intro e hError
    rcases cases_of_resolve_error hError
      with hFails | ⟨u, p, hApply, hHolds, rfl⟩
    · cases hFails with
      | unbound hHolds hFree => exact ⟨.inl ⟨_, hHolds, hFree⟩, rfl⟩
      | voidComponent hHolds hOk =>
          obtain ⟨hKept, hBound⟩ := hVoid _ hHolds
          rcases cases_of_apply_eq_atom (by rintro role part ⟨⟩) hOk
            with hBinds | hEq
          · exact absurd hBinds hBound
          · exact absurd hEq.symm hKept
    · obtain ⟨x, b, hWhole, hBinds, hBrought⟩ :=
        exists_of_holds_placeholder hApply hHolds
      exact ⟨.inr ⟨x, b, p, hWhole, hBinds, hBrought⟩, rfl⟩
  refine ⟨⟨fun ⟨e, hError⟩ => (hReasons e hError).1, fun hReason => ?_⟩,
    fun e hError => (hReasons e hError).2⟩
  cases hResolve : s.resolve t with
  | error e => exact ⟨e, rfl⟩
  | ok u =>
      exfalso
      have hApply := (resolve_eq_ok_iff.1 hResolve).1
      rcases hReason with ⟨p, hHolds, hFree⟩ | ⟨x, b, p, hHolds,
        hBinds, hBrought⟩
      · obtain ⟨w, hOk, -⟩ := holds_of_apply hApply hHolds
        simp [(binds_of_apply_placeholder hOk).find?] at hFree
      · obtain ⟨w, hOk, hWhole⟩ := holds_of_apply hApply hHolds
        obtain rfl := Except.ok.inj (hBinds.apply.symm.trans hOk)
        exact not_holds_placeholder_of_resolve hResolve p
          (hWhole.trans hBrought)

/-- The type parameter of `Box`, bound to `List` of a placeholder. -/
def boxOfSlots : Substitution :=
  .ofList [(.var ⟨"T", "Box"⟩,
    .parameterized (.classType (.declared ⟨"List", ["E"]⟩))
      [.placeholder ⟨"E", 0⟩])]

/-- An array over the parameter is not resolved, for a placeholder would be
left. In one over a parameter that is bound to arrays of `int` there is none. -/
theorem resolve_placeholders_array :
    let t := Value.array (.var ⟨"T", "Box"⟩)
    (∀ part, t.HoldsAs .arrayComponent part →
      part ≠ .classType (.primitive .void) ∧
        ¬ boxOfSlots.Binds part (.classType (.primitive .void))) ∧
      (∃ e, boxOfSlots.resolve t = .error e ∧
        e.report.kind = .canonicalization) ∧
      ∃ u, boundToInts.resolve (.array (.var ⟨"E", "List"⟩)) = .ok u ∧
        ∀ p, ¬ u.Holds (.placeholder p) := by
  intro t
  have hFind : boxOfSlots.find? (.var ⟨"T", "Box"⟩) = some (.parameterized
      (.classType (.declared ⟨"List", ["E"]⟩)) [.placeholder ⟨"E", 0⟩]) := rfl
  have hVoid : ∀ part, t.HoldsAs .arrayComponent part →
      part ≠ .classType (.primitive .void) ∧
        ¬ boxOfSlots.Binds part (.classType (.primitive .void)) := by
    intro part hHolds
    obtain rfl : part = .var ⟨"T", "Box"⟩ := eq_of_array_var hHolds
    refine ⟨by simp, fun hBinds => ?_⟩
    cases hFind.symm.trans hBinds.find?
  obtain ⟨hFails, hKind⟩ := (resolve_placeholders boxOfSlots t).2 hVoid
  have hBinds : boxOfSlots.Binds (.var ⟨"T", "Box"⟩) _ := ⟨rfl, hFind⟩
  obtain ⟨e, hError⟩ :=
    hFails.2 (.inr ⟨_, _, ⟨"E", 0⟩, Casts.component.holds .refl, hBinds,
      (Casts.argument List.mem_cons_self).holds .refl⟩)
  have hInts :=
    (resolve_placeholders boundToInts (.array (.var ⟨"E", "List"⟩))).1 _ rfl
  exact ⟨hVoid, ⟨e, hError, hKind e hError⟩, _, rfl, hInts⟩

end Substitution

end JvmTypes
