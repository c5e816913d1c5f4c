import JvmTypes.Proofs.Bindings
import JvmTypes.Proofs.Rebuilding

/-!
# One substitution after another

Substituting in a value and then in the result is one substitution: it binds
what the first one binds to what the second makes of that, and the rest as the
second does (`Composed`). The array over a variable is where this could go
wrong, for it turns into an array class as soon as its component becomes a
class. That can happen in the first substitution, in the second, or already in a
binding of the composed one. It does not matter when, for making an array and
substituting can be exchanged (`exists_arrayOver_apply_iff`), failures included.

## Main results

* `Substitution.composed_of_andThen`: `andThen` makes such a substitution.
* `Substitution.Composed.apply_eq_ok_iff`: it does in one step what the two do.
* `Substitution.resolve_andThen`: the same for values without placeholders.
-/

namespace JvmTypes

private theorem Value.eq_var_of_same {v : TypeVariable} {w : Value}
    (hSame : w.same (.var v) = true) : w = .var v := by
  cases w with
  | var u => rw [same_var_iff.1 hSame]
  | _ => cases hSame

namespace Substitution

variable {s t st : Substitution}

/-! ## What substituting yields -/

theorem apply_parameterized_eq_ok_iff {raw w : Value} {arguments : List Value} :
    s.apply (.parameterized raw arguments) = .ok w ↔
      ∃ ws, s.applyAll arguments = .ok ws ∧ w = .parameterized raw ws := by
  rw [apply, bind_eq_ok_iff]
  simp only [Except.ok.injEq, eq_comm]

theorem apply_wildcard_eq_ok_iff {w : Value} {upper lower : List Value} :
    s.apply (.wildcard upper lower) = .ok w ↔
      ∃ us ls, s.applyAll upper = .ok us ∧ s.applyAll lower = .ok ls ∧
        w = .wildcard us ls := by
  rw [apply, bind_eq_ok_iff]
  constructor
  · rintro ⟨us, hUpper, hRest⟩
    obtain ⟨ls, hLower, hOk⟩ := bind_eq_ok_iff.1 hRest
    exact ⟨us, ls, hUpper, hLower, (Except.ok.inj hOk).symm⟩
  · rintro ⟨us, ls, hUpper, hLower, rfl⟩
    exact ⟨us, hUpper, bind_eq_ok_iff.2 ⟨ls, hLower, rfl⟩⟩

theorem apply_array_eq_ok_iff {component w : Value} :
    s.apply (.array component) = .ok w ↔
      ∃ inner, s.apply component = .ok inner ∧ arrayOver inner = .ok w := by
  rw [apply, bind_eq_ok_iff]

theorem applyAll_cons_eq_ok_iff {v : Value} {vs ws : List Value} :
    s.applyAll (v :: vs) = .ok ws ↔
      ∃ u us, s.apply v = .ok u ∧ s.applyAll vs = .ok us ∧ ws = u :: us := by
  rw [applyAll, bind_eq_ok_iff]
  constructor
  · rintro ⟨u, hHead, hRest⟩
    obtain ⟨us, hTail, hOk⟩ := bind_eq_ok_iff.1 hRest
    exact ⟨u, us, hHead, hTail, (Except.ok.inj hOk).symm⟩
  · rintro ⟨u, us, hHead, hTail, rfl⟩
    exact ⟨u, hHead, bind_eq_ok_iff.2 ⟨us, hTail, rfl⟩⟩

/-- Each of several values is replaced by `apply`, and the results are these
replacements. -/
theorem matching_of_applyAll {vs ws : List Value}
    (hApply : s.applyAll vs = .ok ws) :
    (∀ v ∈ vs, ∃ w ∈ ws, s.apply v = .ok w) ∧
    ∀ w ∈ ws, ∃ v ∈ vs, s.apply v = .ok w :=
  Value.Matching.of_forall₂ (applyAll_eq_ok_iff.1 hApply)

theorem cases_of_arrayOver {v w : Value} (hArray : arrayOver v = .ok w) :
    (∃ c, v = .classType c ∧ w = .classType (.array c)) ∨ w = .array v := by
  cases v with
  | classType c =>
      obtain ⟨-, rfl⟩ := Composition.arrayOf_classType_eq_ok_iff.1 hArray
      exact .inl ⟨c, rfl, rfl⟩
  | _ => exact .inr (Except.ok.inj hArray).symm

theorem resolve_eq_ok_iff {v w : Value} :
    s.resolve v = .ok w ↔ s.apply v = .ok w ∧ w.hasPlaceholder = false := by
  rw [resolve, bind_eq_ok_iff]
  constructor
  · rintro ⟨u, hApply, hLeft⟩
    cases hPlaceholder : u.hasPlaceholder with
    | true => simp [hPlaceholder] at hLeft
    | false =>
        obtain rfl : u = w := by simpa [hPlaceholder] using hLeft
        exact ⟨hApply, hPlaceholder⟩
  · rintro ⟨hApply, hPlaceholder⟩
    exact ⟨w, hApply, by rw [hPlaceholder]; rfl⟩

/-! ## Types without placeholders stay such -/

theorem ByTypes.isPlain (hBindings : s.ByTypes) {key b : Value}
    (hFind : s.find? key = some b) : b.IsPlain := by
  rw [find?_eq_map hBindings.types, Option.map_eq_some_iff] at hFind
  obtain ⟨x, hFirst, rfl⟩ := hFind
  have hMem := List.mem_of_find?_eq_some hFirst
  exact ⟨hBindings.types x hMem, hBindings.hasPlaceholder x hMem⟩

private theorem isPlain_of_arrayOver {v w : Value} (hPlain : v.IsPlain)
    (hArray : arrayOver v = .ok w) : w.IsPlain := by
  rcases cases_of_arrayOver hArray with ⟨c, -, rfl⟩ | rfl
  · exact ⟨.classType trivial, rfl⟩
  · exact ⟨.array hPlain.types, hPlain.hasPlaceholder⟩

private theorem isPlain_of_applyAll {vs ws : List Value}
    (hEach : ∀ v ∈ vs, v.hasPlaceholder = false →
      ∀ w, s.apply v = .ok w → w.IsPlain)
    (hPlaceholder : Value.anyPlaceholder vs = false)
    (hApply : s.applyAll vs = .ok ws) :
    (∀ w ∈ ws, w.IsTypeValue) ∧ Value.anyPlaceholder ws = false := by
  have hResults : ∀ w ∈ ws, w.IsPlain := by
    intro w hW
    obtain ⟨v, hV, hOk⟩ := (matching_of_applyAll hApply).2 w hW
    exact
      hEach v hV (Value.anyPlaceholder_eq_false_iff.1 hPlaceholder v hV) w hOk
  refine ⟨fun w hW => (hResults w hW).types, ?_⟩
  exact Value.anyPlaceholder_eq_false_iff.2 fun w hW =>
    (hResults w hW).hasPlaceholder

/-- What `apply` makes of types without placeholders for the variables of such a
type is one. -/
theorem ByTypes.isPlain_of_apply (hBindings : s.ByTypes) {v : Value}
    (hPlain : v.IsPlain) : ∀ w, s.apply v = .ok w → w.IsPlain := by
  obtain ⟨hType, hPlaceholder⟩ := hPlain
  induction hType with
  | classType =>
      intro w hApply
      cases hApply
      exact ⟨.classType trivial, rfl⟩
  | var v =>
      intro w hApply
      obtain rfl := Except.ok.inj hApply
      cases hFind : s.find? (.var v) with
      | none => exact ⟨.var v, rfl⟩
      | some b => exact hBindings.isPlain hFind
  | placeholder p => cases hPlaceholder
  | parameterized hRaw _ _ ihArguments =>
      intro w hApply
      obtain ⟨ws, hArguments, rfl⟩ := apply_parameterized_eq_ok_iff.1 hApply
      obtain ⟨hTypes, hNone⟩ :=
        isPlain_of_applyAll ihArguments hPlaceholder hArguments
      exact ⟨.parameterized hRaw hTypes, hNone⟩
  | array _ ih =>
      intro w hApply
      obtain ⟨inner, hInner, hArray⟩ := apply_array_eq_ok_iff.1 hApply
      exact isPlain_of_arrayOver (ih hPlaceholder inner hInner) hArray
  | wildcard _ _ ihUpper ihLower =>
      intro w hApply
      obtain ⟨us, ls, hUpper, hLower, rfl⟩ := apply_wildcard_eq_ok_iff.1 hApply
      obtain ⟨hNoUpper, hNoLower⟩ := Bool.or_eq_false_iff.1 hPlaceholder
      obtain ⟨hUppers, hNoUpper⟩ := isPlain_of_applyAll ihUpper hNoUpper hUpper
      obtain ⟨hLowers, hNoLower⟩ := isPlain_of_applyAll ihLower hNoLower hLower
      exact ⟨.wildcard hUppers hLowers,
        Bool.or_eq_false_iff.2 ⟨hNoUpper, hNoLower⟩⟩

/-- On types without placeholders `resolve` finds nothing left and yields what
`apply` does. -/
theorem ByTypes.resolve_eq_ok_iff (hBindings : s.ByTypes) {v w : Value}
    (hPlain : v.IsPlain) : s.resolve v = .ok w ↔ s.apply v = .ok w := by
  rw [Substitution.resolve_eq_ok_iff]
  exact and_iff_left_of_imp fun hApply =>
    (hBindings.isPlain_of_apply hPlain w hApply).hasPlaceholder

/-! ## Composed substitutions -/

/-- The substitution `st` binds what `s` binds to what `t` makes of it, and the
other variables as `t` does. -/
structure Composed (s t st : Substitution) : Prop where
  bound {v : TypeVariable} {b : Value} (hFind : s.find? (.var v) = some b) :
    ∃ u, t.resolve b = .ok u ∧ st.find? (.var v) = some u
  free {v : TypeVariable} (hFind : s.find? (.var v) = none) :
    st.find? (.var v) = t.find? (.var v)

/-- On the value `v` the substitution `st` does what `s` and then `t` do. -/
def Follows (s t st : Substitution) (v : Value) : Prop :=
  ∀ w, st.apply v = .ok w ↔ ∃ u, s.apply v = .ok u ∧ t.apply u = .ok w

private theorem Composed.follows_var (hComposed : Composed s t st)
    (v : TypeVariable) : Follows s t st (.var v) := by
  intro w
  have hSecond : t.apply (s.valueOf v) = .ok (st.valueOf v) := by
    cases hFind : s.find? (.var v) with
    | none =>
        rw [valueOf, hFind, Option.getD_none, valueOf,
          hComposed.free hFind, apply]
    | some b =>
        obtain ⟨u, hResolve, hBound⟩ := hComposed.bound hFind
        rw [valueOf, hFind, Option.getD_some, valueOf, hBound]
        exact (Substitution.resolve_eq_ok_iff.1 hResolve).1
  rw [apply_var, apply_var]
  constructor
  · intro hOk
    exact ⟨s.valueOf v, rfl, hSecond.trans hOk⟩
  · rintro ⟨u, hOk, hApply⟩
    obtain rfl := Except.ok.inj hOk
    exact hSecond.symm.trans hApply

private theorem follows_all {vs ws : List Value}
    (hEach : ∀ v ∈ vs, Follows s t st v) :
    st.applyAll vs = .ok ws ↔ ∃ us, s.applyAll vs = .ok us ∧
    t.applyAll us = .ok ws := by
  induction vs generalizing ws with
  | nil =>
      constructor
      · intro hWhole
        exact ⟨[], rfl, hWhole⟩
      · rintro ⟨us, hFirst, hSecond⟩
        cases hFirst
        exact hSecond
  | cons v vs ih =>
      obtain ⟨hHead, hTail⟩ := List.forall_mem_cons.1 hEach
      constructor
      · intro hWhole
        obtain ⟨w, rest, hW, hRest, rfl⟩ := applyAll_cons_eq_ok_iff.1 hWhole
        obtain ⟨u, hU, hW⟩ := (hHead w).1 hW
        obtain ⟨us, hUs, hRest⟩ := (ih hTail).1 hRest
        exact ⟨u :: us, applyAll_cons_eq_ok_iff.2 ⟨u, us, hU, hUs, rfl⟩,
          applyAll_cons_eq_ok_iff.2 ⟨w, rest, hW, hRest, rfl⟩⟩
      · rintro ⟨us, hFirst, hSecond⟩
        obtain ⟨u, us, hU, hUs, rfl⟩ := applyAll_cons_eq_ok_iff.1 hFirst
        obtain ⟨w, rest, hW, hRest, rfl⟩ := applyAll_cons_eq_ok_iff.1 hSecond
        exact applyAll_cons_eq_ok_iff.2
          ⟨w, rest, (hHead w).2 ⟨u, hU, hW⟩, (ih hTail).2 ⟨us, hUs, hRest⟩, rfl⟩

/-- Making an array by `arrayOver` and substituting can be exchanged. -/
theorem exists_arrayOver_apply_iff {v w : Value} :
    (∃ array, arrayOver v = .ok array ∧ t.apply array = .ok w) ↔
      ∃ inner, t.apply v = .ok inner ∧ arrayOver inner = .ok w := by
  by_cases hClass : v.isClass = true
  · match v, hClass with
    | .classType c, _ =>
        -- A class stays as it is, and so does the array class over it.
        have hInner : t.apply (.classType c) = .ok (.classType c) := by
          rw [apply]
        constructor
        · rintro ⟨array, hArray, hApply⟩
          obtain ⟨-, rfl⟩ := Composition.arrayOf_classType_eq_ok_iff.1 hArray
          rw [apply] at hApply
          exact ⟨.classType c, hInner, hArray.trans hApply⟩
        · rintro ⟨inner, hOk, hArray⟩
          obtain rfl := Except.ok.inj (hInner.symm.trans hOk)
          obtain ⟨-, rfl⟩ := Composition.arrayOf_classType_eq_ok_iff.1 hArray
          exact ⟨_, hArray, by rw [apply]⟩
  · have hArray :=
      Composition.arrayOver_of_not_class (v := v) (by simpa using hClass)
    constructor
    · rintro ⟨array, hOk, hApply⟩
      obtain rfl := Except.ok.inj (hArray.symm.trans hOk)
      exact apply_array_eq_ok_iff.1 hApply
    · intro hInner
      exact ⟨.array v, hArray, apply_array_eq_ok_iff.2 hInner⟩

private theorem follows_parameterized {raw : Value} {arguments : List Value}
    (hEach : ∀ v ∈ arguments, Follows s t st v) :
    Follows s t st (.parameterized raw arguments) := by
  intro w
  constructor
  · intro hWhole
    obtain ⟨ws, hArguments, rfl⟩ := apply_parameterized_eq_ok_iff.1 hWhole
    obtain ⟨us, hFirst, hSecond⟩ := (follows_all hEach).1 hArguments
    exact ⟨.parameterized raw us,
      apply_parameterized_eq_ok_iff.2 ⟨us, hFirst, rfl⟩,
      apply_parameterized_eq_ok_iff.2 ⟨ws, hSecond, rfl⟩⟩
  · rintro ⟨u, hFirst, hSecond⟩
    obtain ⟨us, hUs, rfl⟩ := apply_parameterized_eq_ok_iff.1 hFirst
    obtain ⟨ws, hWs, rfl⟩ := apply_parameterized_eq_ok_iff.1 hSecond
    exact apply_parameterized_eq_ok_iff.2
      ⟨ws, (follows_all hEach).2 ⟨us, hUs, hWs⟩, rfl⟩

private theorem follows_array {component : Value}
    (hComponent : Follows s t st component) :
    Follows s t st (.array component) := by
  intro w
  calc st.apply (.array component) = .ok w
      ↔ ∃ inner, st.apply component = .ok inner ∧ arrayOver inner = .ok w :=
        apply_array_eq_ok_iff
    _ ↔ ∃ u, s.apply component = .ok u ∧
          ∃ inner, t.apply u = .ok inner ∧ arrayOver inner = .ok w := by
        simp only [hComponent _]
        grind
    _ ↔ ∃ u, s.apply component = .ok u ∧
          ∃ array, arrayOver u = .ok array ∧ t.apply array = .ok w := by
        simp only [exists_arrayOver_apply_iff]
    _ ↔ ∃ array, s.apply (.array component) = .ok array ∧
      t.apply array = .ok w := by
        simp only [apply_array_eq_ok_iff]
        grind

private theorem follows_wildcard {upper lower : List Value}
    (hUppers : ∀ v ∈ upper, Follows s t st v)
    (hLowers : ∀ v ∈ lower, Follows s t st v) :
    Follows s t st (.wildcard upper lower) := by
  intro w
  constructor
  · intro hWhole
    obtain ⟨us, ls, hUpper, hLower, rfl⟩ := apply_wildcard_eq_ok_iff.1 hWhole
    obtain ⟨us', hUpper, hUpper'⟩ := (follows_all hUppers).1 hUpper
    obtain ⟨ls', hLower, hLower'⟩ := (follows_all hLowers).1 hLower
    exact ⟨.wildcard us' ls',
      apply_wildcard_eq_ok_iff.2 ⟨us', ls', hUpper, hLower, rfl⟩,
      apply_wildcard_eq_ok_iff.2 ⟨us, ls, hUpper', hLower', rfl⟩⟩
  · rintro ⟨u, hFirst, hSecond⟩
    obtain ⟨us, ls, hUpper, hLower, rfl⟩ := apply_wildcard_eq_ok_iff.1 hFirst
    obtain ⟨us', ls', hUpper', hLower', rfl⟩ :=
      apply_wildcard_eq_ok_iff.1 hSecond
    exact apply_wildcard_eq_ok_iff.2
      ⟨us', ls', (follows_all hUppers).2 ⟨us, hUpper, hUpper'⟩,
      (follows_all hLowers).2 ⟨ls, hLower, hLower'⟩, rfl⟩

/-- A substitution that is `Composed` does in one step what the two do one after
another. -/
theorem Composed.apply_eq_ok_iff (hComposed : Composed s t st) {v : Value}
    (hPlain : v.IsPlain) : Follows s t st v := by
  obtain ⟨hType, hPlaceholder⟩ := hPlain
  induction hType with
  | @classType c =>
      intro w
      simp [apply]
  | var v => exact hComposed.follows_var v
  | placeholder p => cases hPlaceholder
  | parameterized _ _ _ ihArguments =>
      refine follows_parameterized fun v hV => ihArguments v hV ?_
      exact Value.anyPlaceholder_eq_false_iff.1 hPlaceholder v hV
  | array _ ih => exact follows_array (ih hPlaceholder)
  | wildcard _ _ ihUpper ihLower =>
      obtain ⟨hNoUpper, hNoLower⟩ := Bool.or_eq_false_iff.1 hPlaceholder
      refine follows_wildcard (fun v hV => ihUpper v hV ?_) fun v hV =>
        ihLower v hV ?_
      · exact Value.anyPlaceholder_eq_false_iff.1 hNoUpper v hV
      · exact Value.anyPlaceholder_eq_false_iff.1 hNoLower v hV

theorem Composed.resolve_eq_ok_iff (hComposed : Composed s t st)
    (hFirst : s.ByTypes) (hSecond : t.ByTypes) {v w : Value}
    (hPlain : v.IsPlain) :
    st.resolve v = .ok w ↔ ∃ u, s.resolve v = .ok u ∧ t.resolve u = .ok w := by
  rw [Substitution.resolve_eq_ok_iff, hComposed.apply_eq_ok_iff hPlain w]
  constructor
  · rintro ⟨⟨u, hU, hW⟩, -⟩
    have hPlainU := hFirst.isPlain_of_apply hPlain u hU
    exact ⟨u, (hFirst.resolve_eq_ok_iff hPlain).2 hU,
      (hSecond.resolve_eq_ok_iff hPlainU).2 hW⟩
  · rintro ⟨u, hU, hW⟩
    obtain ⟨hApplyU, -⟩ := Substitution.resolve_eq_ok_iff.1 hU
    obtain ⟨hApplyW, hPlaceholder⟩ := Substitution.resolve_eq_ok_iff.1 hW
    exact ⟨⟨u, hApplyU, hApplyW⟩, hPlaceholder⟩

/-! ## Composing substitutions -/

/-- A binding with `t` substituted in what it binds to. -/
def resolveBinding (t : Substitution) (x : Value × Value) :
    Except CompositionError (Value × Value) := do
  let actual ← t.resolve x.2
  .ok (x.1, actual)

/-- The bindings of `s`, with `t` substituted in what they bind to by
`resolveBinding`, and the bindings of `t` for the variables that are left. -/
def andThen (s t : Substitution) : Except CompositionError Substitution := do
  let resolved ← s.bindings.mapM t.resolveBinding
  .ok ⟨resolved ++ t.bindings.filter fun x => (s.find? x.1).isNone⟩

theorem resolveBinding_eq_ok_iff {x y : Value × Value} :
    t.resolveBinding x = .ok y ↔ y.1 = x.1 ∧ t.resolve x.2 = .ok y.2 := by
  obtain ⟨key, actual⟩ := y
  rw [resolveBinding, bind_eq_ok_iff]
  constructor
  · rintro ⟨u, hResolve, hOk⟩
    cases hOk
    exact ⟨rfl, hResolve⟩
  · rintro ⟨rfl, hResolve⟩
    exact ⟨actual, hResolve, rfl⟩

theorem andThen_eq_ok_iff :
    s.andThen t = .ok st ↔
      ∃ resolved, s.bindings.mapM t.resolveBinding = .ok resolved ∧
        st = ⟨resolved ++ t.bindings.filter fun x => (s.find? x.1).isNone⟩ := by
  rw [andThen, bind_eq_ok_iff]
  simp only [Except.ok.injEq, eq_comm]

/-- `andThen` succeeds exactly when the second substitution yields on all that
the first one binds to. -/
theorem exists_andThen_iff :
    (∃ st, s.andThen t = .ok st) ↔
    ∀ x ∈ s.bindings, ∃ u, t.resolve x.2 = .ok u := by
  have hBinding : ∀ x, (∃ y, t.resolveBinding x = .ok y) ↔
      ∃ u, t.resolve x.2 = .ok u := by
    intro x
    simp only [resolveBinding_eq_ok_iff]
    constructor
    · rintro ⟨y, -, hResolve⟩
      exact ⟨y.2, hResolve⟩
    · rintro ⟨u, hResolve⟩
      exact ⟨(x.1, u), rfl, hResolve⟩
  calc (∃ st, s.andThen t = .ok st)
      ↔ ∃ resolved, s.bindings.mapM t.resolveBinding = .ok resolved := by
        simp only [andThen_eq_ok_iff]
        constructor
        · rintro ⟨_, resolved, hResolved, -⟩
          exact ⟨resolved, hResolved⟩
        · rintro ⟨resolved, hResolved⟩
          exact ⟨_, resolved, hResolved, rfl⟩
    _ ↔ ∀ x ∈ s.bindings, ∃ y, t.resolveBinding x = .ok y := exists_mapM_iff
    _ ↔ ∀ x ∈ s.bindings, ∃ u, t.resolve x.2 = .ok u := by simp only [hBinding]

/-- `resolveBinding` keeps the keys, so that a variable is found at the same
place. -/
theorem find?_resolved {xs ys : List (Value × Value)}
    (hResolved : List.Forall₂ (fun x y => t.resolveBinding x = .ok y) xs ys)
    (key : Value) :
    (∀ x, xs.find? (fun x => x.1.same key) = some x →
        ∃ y, ys.find? (fun y => y.1.same key) = some y ∧
          t.resolve x.2 = .ok y.2) ∧
      (xs.find? (fun x => x.1.same key) = none →
        ys.find? (fun y => y.1.same key) = none) := by
  induction hResolved with
  | nil => simp
  | @cons x y xs ys hFirst _ ih =>
      obtain ⟨hKey, hResolve⟩ := resolveBinding_eq_ok_iff.1 hFirst
      rw [List.find?_cons, List.find?_cons, hKey]
      cases x.1.same key with
      | false => exact ih
      | true =>
          refine ⟨fun z hZ => ?_, fun hNone => ?_⟩
          · cases hZ
            exact ⟨y, rfl, hResolve⟩
          · cases hNone

/-- What `andThen` makes binds types, as the two substitutions do. -/
theorem types_of_andThen (hFirst : s.ByTypes) (hSecond : t.ByTypes)
    (hComposes : s.andThen t = .ok st) :
    ∀ x ∈ st.bindings, x.2.IsTypeValue := by
  obtain ⟨resolved, hResolved, rfl⟩ := andThen_eq_ok_iff.1 hComposes
  intro y hY
  rcases List.mem_append.1 hY with hOld | hRest
  · obtain ⟨x, hX, hBinding⟩ := exists_of_mem_mapM hResolved y hOld
    obtain ⟨-, hResolve⟩ := resolveBinding_eq_ok_iff.1 hBinding
    have hPlain : x.2.IsPlain := ⟨hFirst.types x hX, hFirst.hasPlaceholder x hX⟩
    exact (hSecond.isPlain_of_apply hPlain _
      ((hSecond.resolve_eq_ok_iff hPlain).1 hResolve)).types
  · exact hSecond.types y (List.mem_filter.1 hRest).1

theorem composed_of_andThen (hFirst : s.ByTypes) (hSecond : t.ByTypes)
    (hComposes : s.andThen t = .ok st) : Composed s t st := by
  have hTypes := types_of_andThen hFirst hSecond hComposes
  obtain ⟨resolved, hResolved, rfl⟩ := andThen_eq_ok_iff.1 hComposes
  have hPairs := mapM_eq_ok_iff.1 hResolved
  refine ⟨fun {v b} hFind => ?_, fun {v} hFind => ?_⟩
  · rw [find?_eq_map hFirst.types, Option.map_eq_some_iff] at hFind
    obtain ⟨x, hX, rfl⟩ := hFind
    obtain ⟨y, hY, hResolve⟩ := (find?_resolved hPairs (.var v)).1 x hX
    refine ⟨y.2, hResolve, ?_⟩
    rw [find?_eq_map hTypes, List.find?_append, hY]
    rfl
  · have hNone : s.bindings.find? (fun x => x.1.same (.var v)) = none := by
      rw [find?_eq_map hFirst.types, Option.map_eq_none_iff] at hFind
      exact hFind
    -- A key that is the same as a type variable is that variable, so it is
    -- kept.
    have hKept : ∀ x : Value × Value,
        ((s.find? x.1).isNone && x.1.same (.var v)) = x.1.same (.var v) := by
      intro x
      by_cases hSame : x.1.same (.var v) = true
      · rw [Value.eq_var_of_same hSame, hFind]
        rfl
      · simp [hSame]
    have hOthers : (t.bindings.filter fun x => (s.find? x.1).isNone).find?
        (fun x => x.1.same (.var v)) = t.bindings.find? fun x =>
          x.1.same (.var v) := by
      simp only [List.find?_filter, Bool.decide_and, Bool.decide_eq_true, hKept]
    rw [find?_eq_map hTypes, find?_eq_map hSecond.types, List.find?_append,
      (find?_resolved hPairs (.var v)).2 hNone, Option.none_or, hOthers]

/-! ## Substituting twice -/

/-- For substitutions by types without placeholders: `andThen` succeeds when the
second one yields on all that the first one binds to, and its result is
`Composed` of the two. However a composed one was made, it resolves a type
without placeholders exactly when the two do one after another, and then to the
same value. -/
theorem resolve_andThen (hFirst : s.ByTypes) (hSecond : t.ByTypes) :
    ((∃ st, s.andThen t = .ok st) ↔
      ∀ x ∈ s.bindings, ∃ u, t.resolve x.2 = .ok u) ∧
    (∀ st, s.andThen t = .ok st → Composed s t st) ∧
    ∀ st, Composed s t st → ∀ v : Value, v.IsTypeValue →
      v.hasPlaceholder = false →
      ((∃ w, st.resolve v = .ok w) ↔ ∃ u w, s.resolve v = .ok u ∧
        t.resolve u = .ok w) ∧
      ∀ u w w', s.resolve v = .ok u → t.resolve u = .ok w →
        st.resolve v = .ok w' →
        w = w' ∧ w.same w' = true := by
  refine ⟨exists_andThen_iff, fun st => composed_of_andThen hFirst hSecond, ?_⟩
  intro st hComposed v hType hPlaceholder
  have hPlain : v.IsPlain := ⟨hType, hPlaceholder⟩
  refine ⟨?_, fun u w w' hU hW hW' => ?_⟩
  · simp only [hComposed.resolve_eq_ok_iff hFirst hSecond hPlain]
    exact exists_comm
  · have hWhole : st.resolve v = .ok w :=
      (hComposed.resolve_eq_ok_iff hFirst hSecond hPlain).2 ⟨u, hU, hW⟩
    obtain rfl := Except.ok.inj (hWhole.symm.trans hW')
    have hPlainU :=
      hFirst.isPlain_of_apply hPlain u ((hFirst.resolve_eq_ok_iff hPlain).1 hU)
    have hPlainW := hSecond.isPlain_of_apply hPlainU w
      ((hSecond.resolve_eq_ok_iff hPlainU).1 hW)
    exact ⟨rfl, hPlainW.types.same_self⟩

/-- The type parameter of `Box`, bound to the array over that of `List`. -/
def boxOfArrays : Substitution :=
  .ofList [(.var ⟨"T", "Box"⟩, .array (.var ⟨"E", "List"⟩))]

/-- An array over the parameter of `Box` becomes one over arrays, and only then
an array class. -/
theorem resolve_andThen_ints :
    let v := Value.array (.var ⟨"T", "Box"⟩)
    let u := Value.array (.array (.var ⟨"E", "List"⟩))
    boxOfArrays.ByTypes ∧ boundToInts.ByTypes ∧ boxOfArrays.resolve v = .ok u ∧
      ∃ st w w', boxOfArrays.andThen boundToInts = .ok st ∧
        boundToInts.resolve u = .ok w ∧
        st.resolve v = .ok w' ∧ w.same w' = true := by
  intro v u
  have hFirst : boxOfArrays.ByTypes := by
    refine ⟨fun x hMem => ?_, fun x hMem => ?_⟩
    · rw [List.mem_singleton.1 hMem]
      exact .array (.var _)
    · rw [List.mem_singleton.1 hMem]
      rfl
  have hSecond : boundToInts.ByTypes := by
    refine ⟨fun x hMem => ?_, fun x hMem => ?_⟩
    · rw [List.mem_singleton.1 hMem]
      exact .classType trivial
    · rw [List.mem_singleton.1 hMem]
      rfl
  obtain ⟨hExists, hComposed, hLaw⟩ := resolve_andThen hFirst hSecond
  obtain ⟨st, hSt⟩ := hExists.2 fun x hMem => by
    rw [List.mem_singleton.1 hMem]
    exact ⟨_, rfl⟩
  obtain ⟨hYields, hSame⟩ := hLaw st (hComposed st hSt) v (.array (.var _)) rfl
  have hU : boxOfArrays.resolve v = .ok u := rfl
  have hW : boundToInts.resolve u =
      .ok (.classType (.array (.array (.array (.primitive .int))))) := rfl
  obtain ⟨w', hW'⟩ := hYields.2 ⟨u, _, hU, hW⟩
  exact ⟨hFirst, hSecond, hU, st, _, w', hSt, hW, hW',
    (hSame u _ w' hU hW hW').2⟩

end Substitution

end JvmTypes
