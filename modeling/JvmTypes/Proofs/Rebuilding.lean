import JvmTypes.Proofs.Congruence

/-!
# Substituting and rebuilding

A value that was composed of classes and type variables can have its variables
replaced in two ways: by substituting in the value, or by composing it once more
of the replacements. Whenever the second way succeeds, so does the first. The
two agree on arrays, for both turn an array over a class into an array class.
They part at upper bounds: composing drops `Object` beside another bound,
substituting leaves it where a variable was. So they give the same value if, in
each wildcard, either every upper bound becomes `Object` or none does, and if
the replacements are themselves free of such bounds, only then.

The two ways are followed side by side (`Track`), from the parts of a
composition to the composite.

## Main results

* `Track.exists_arrayOf`, `exists_subtypeOf`, `exists_supertypeOf`,
  `exists_parameterizedOf`: each composition keeps the two ways side by side.
* `Substitution.resolve_rebuilt`: when substituting gives what rebuilding gives.
-/

namespace JvmTypes

/-! ## Object beside other bounds -/

/-- Either all members of a list have the property `p` or none has. -/
def AllOrNone (p : Value → Prop) (vs : List Value) : Prop :=
  (∀ v ∈ vs, p v) ∨ ∀ v ∈ vs, ¬ p v

namespace Value

/-- Values in which the upper bounds of every wildcard have the property `p`. -/
inductive EachUpper (p : List Value → Prop) : Value → Prop
  | classType (c : ClassType) : EachUpper p (.classType c)
  | var (v : TypeVariable) : EachUpper p (.var v)
  | placeholder (q : Placeholder) : EachUpper p (.placeholder q)
  | parameterized {raw : Value} {arguments : List Value}
      (hArguments : ∀ a ∈ arguments, EachUpper p a) :
      EachUpper p (.parameterized raw arguments)
  | array {component : Value} (hComponent : EachUpper p component) :
      EachUpper p (.array component)
  | wildcard {upper lower : List Value} (hBounds : p upper)
      (hUpper : ∀ b ∈ upper, EachUpper p b)
      (hLower : ∀ b ∈ lower, EachUpper p b) :
      EachUpper p (.wildcard upper lower)

/-- Values in which `Object` nowhere stands beside another upper bound. -/
abbrev IsTidy (v : Value) : Prop :=
  v.EachUpper (AllOrNone fun b => b.isObject = true)

private theorem isClass_of_isObject {v : Value} (hObject : v.isObject = true) :
    v.isClass = true := by
  cases v <;> first | rfl | cases hObject

private theorem isTidy_object : object.IsTidy := .classType _

/-- What is the same by `Value.same` as a value that `IsTidy` is tidy. -/
theorem Over.isTidy_of_same {known : ClassType → Prop} {a b : Value}
    (hOver : a.Over known) (hSame : a.same b = true) (hTidy : b.IsTidy) :
    a.IsTidy := by
  induction hOver generalizing b with
  | classType => exact .classType _
  | var v => exact .var v
  | placeholder p => exact .placeholder p
  | parameterized _ _ _ ihArguments =>
      obtain ⟨raw', arguments', rfl, -, hSames⟩ :=
        same_parameterized_iff.1 hSame
      cases hTidy with
      | parameterized hArguments =>
          refine .parameterized fun x hMem => ?_
          obtain ⟨y, hY, hPartner⟩ := (Matching.of_forall₂ hSames).1 x hMem
          exact ihArguments x hMem hPartner (hArguments y hY)
  | array _ ih =>
      obtain ⟨component', rfl, hComponent⟩ := same_array_iff.1 hSame
      cases hTidy with
      | array hInner => exact .array (ih hComponent hInner)
  | wildcard _ _ ihUpper ihLower =>
      obtain ⟨upper', lower', rfl, hUppers, hLowers⟩ :=
        same_wildcard_sets_iff.1 hSame
      cases hTidy with
      | wildcard hBounds hUpper hLower =>
          refine .wildcard ?_ (fun x hMem => ?_) fun x hMem => ?_
          · refine hBounds.imp (fun hAll x hMem => ?_)
              fun hNone x hMem hObject => ?_
            · obtain ⟨y, hY, hPartner⟩ := hUppers.1 x hMem
              exact (isObject_congr hPartner).trans (hAll y hY)
            · obtain ⟨y, hY, hPartner⟩ := hUppers.1 x hMem
              exact hNone y hY ((isObject_congr hPartner).symm.trans hObject)
          · obtain ⟨y, hY, hPartner⟩ := hUppers.1 x hMem
            exact ihUpper x hMem hPartner (hUpper y hY)
          · obtain ⟨y, hY, hPartner⟩ := hLowers.1 x hMem
            exact ihLower x hMem hPartner (hLower y hY)

end Value

namespace Substitution

/-- A substitution makes `Object` of a value. -/
def MakesObject (s : Substitution) (v : Value) : Prop :=
  ∃ u, s.apply v = .ok u ∧ u.isObject = true

/-- A substitution puts `Object` beside no other upper bound of a value. -/
abbrev KeepsTidy (s : Substitution) (v : Value) : Prop :=
  v.EachUpper (AllOrNone s.MakesObject)

/-- What a type variable is replaced by: its binding by `find?`, or it stays. -/
def valueOf (s : Substitution) (v : TypeVariable) : Value :=
  (s.find? (.var v)).getD (.var v)

theorem apply_var (s : Substitution) (v : TypeVariable) :
    s.apply (.var v) = .ok (s.valueOf v) := by
  rw [apply]
  rfl

/-- Substitutions by types without placeholders. -/
structure ByTypes (s : Substitution) : Prop where
  types : ∀ binding ∈ s.bindings, binding.2.IsTypeValue
  hasPlaceholder : ∀ binding ∈ s.bindings, binding.2.hasPlaceholder = false

/-- What holds of a variable and of all that variables are bound to holds of
`valueOf` the variable. -/
theorem valueOf_property {s : Substitution} {p : Value → Prop}
    {v : TypeVariable} (hVar : p (.var v))
    (hBindings : ∀ binding ∈ s.bindings, p binding.2) : p (s.valueOf v) := by
  unfold valueOf find?
  split
  · exact hVar
  · next hFind => exact hBindings _ (List.mem_of_find?_eq_some hFind)
  · exact hVar

end Substitution

/-! ## Compositions done once and again -/

/-- How a value is composed of classes and type variables. -/
inductive Recipe where
  | classType (c : ClassType)
  | var (v : TypeVariable)
  | array (component : Recipe)
  | subtype (bounds : List Recipe)
  | supertype (bound : Recipe)
  | parameterized (raw : ClassType) (arguments : List Recipe)

namespace Recipe

mutual

/-- The value that a recipe gives, by the operations of `Composition`, if each
variable stands for a given `value`. -/
def build (value : TypeVariable → Value) :
    Recipe → Except CompositionError Value
  | classType c => .ok (.classType c)
  | var v => .ok (value v)
  | array component => do Composition.arrayOf (← build value component)
  | subtype bounds => do Composition.subtypeOf (← buildAll value bounds)
  | supertype bound => do Composition.supertypeOf (← build value bound)
  | parameterized raw arguments => do
      Composition.parameterizedOf (.classType raw) (← buildAll value arguments)

/-- The values that several recipes give. -/
def buildAll (value : TypeVariable → Value) :
    List Recipe → Except CompositionError (List Value)
  | [] => .ok []
  | r :: rs => do
      let v ← build value r
      let vs ← buildAll value rs
      .ok (v :: vs)

end

end Recipe

namespace Composition

private theorem effectiveBounds_congr {as bs : List Value}
    (hOthers : as.filter (fun b => !b.isObject) = bs.filter fun b =>
      !b.isObject) :
    effectiveBounds as = effectiveBounds bs := by
  rw [effectiveBounds, effectiveBounds, hOthers]

private theorem effectiveBounds_of_all {bs : List Value}
    (hAll : ∀ b ∈ bs, b.isObject = true) : effectiveBounds bs = [.object] := by
  have hNone : bs.filter (fun b => !b.isObject) = [] := by simpa using hAll
  rw [effectiveBounds, hNone]

private theorem effectiveBounds_of_none {bs : List Value} (hNonempty : bs ≠ [])
    (hNone : ∀ b ∈ bs, ¬ b.isObject = true) : effectiveBounds bs = bs := by
  have hKept : bs.filter (fun b => !b.isObject) = bs := by
    rw [List.filter_eq_self]
    simpa using hNone
  rw [effectiveBounds, hKept]
  split
  · next hEmpty => exact absurd rfl hNonempty
  · rfl

private theorem isTidy_object_alone {lower : List Value}
    (hLower : ∀ b ∈ lower, b.IsTidy) :
    (Value.wildcard [.object] lower).IsTidy := by
  refine .wildcard (.inl ?_) ?_ hLower
  · simp [Value.isObject, Value.object]
  · simpa using Value.isTidy_object

/-- Composing leaves `Object` beside no other bound. -/
theorem isTidy_effectiveBounds {bounds : List Value}
    (hTidy : ∀ b ∈ bounds, b.IsTidy) :
    (Value.wildcard (effectiveBounds bounds) []).IsTidy := by
  rcases effectiveBounds_cases bounds with ⟨-, hEq⟩ | ⟨-, hEq⟩
  · rw [hEq]
    exact isTidy_object_alone (by simp)
  · rw [hEq]
    refine .wildcard (.inr fun b hMem => ?_) (fun b hMem => ?_) (by simp)
    · simpa using (List.mem_filter.1 hMem).2
    · exact hTidy b (List.mem_filter.1 hMem).1

end Composition

/-! ## Both ways side by side -/

/-- A composed value, what substituting makes of it, and what it is rebuilt to.
If either of these is a class, they are equal and not only the same: an array
over them looks at whether its component is a class, and a bound at whether it
is `Object`. -/
structure Track (s : Substitution) where
  source : Value
  result : Value
  rebuilt : Value
  apply : s.apply source = .ok result
  hasPlaceholder : result.hasPlaceholder = false
  types : result.IsTypeValue
  eq_of_isClass : result.isClass = true ∨ rebuilt.isClass = true →
  result = rebuilt
  same : s.KeepsTidy source → result.same rebuilt = true
  keepsTidy : result.IsTidy → s.KeepsTidy source
  tidy : (∀ binding ∈ s.bindings, binding.2.IsTidy) → rebuilt.IsTidy

namespace Track

variable {s : Substitution}

/-- A class stays as it is. -/
def classType (s : Substitution) (c : ClassType) : Track s where
  source := .classType c
  result := .classType c
  rebuilt := .classType c
  apply := rfl
  hasPlaceholder := rfl
  types := .classType trivial
  eq_of_isClass _ := rfl
  same _ := Value.same_classType_iff.2 ⟨c, rfl, rfl⟩
  keepsTidy _ := .classType c
  tidy _ := .classType c

/-- A variable is replaced by its value. -/
def var (hBindings : s.ByTypes) (v : TypeVariable) : Track s where
  source := .var v
  result := s.valueOf v
  rebuilt := s.valueOf v
  apply := rfl
  hasPlaceholder :=
    Substitution.valueOf_property (p := fun u => u.hasPlaceholder = false) rfl
      hBindings.hasPlaceholder
  types := Substitution.valueOf_property (.var v) hBindings.types
  eq_of_isClass _ := rfl
  same _ :=
    Substitution.valueOf_property (p := fun u => u.same u = true)
      (Value.same_var_iff.2 rfl)
      fun binding hMem => (hBindings.types binding hMem).same_self
  keepsTidy _ := .var v
  tidy hTidy := Substitution.valueOf_property (.var v) hTidy

/-! ### Arrays -/

variable (x : Track s)

private theorem of_classType {c : ClassType}
    (hSource : x.source = .classType c) :
    x.result = .classType c ∧ x.rebuilt = .classType c := by
  have hApply := x.apply
  rw [hSource, Substitution.apply] at hApply
  have hResult : x.result = .classType c := (Except.ok.inj hApply).symm
  have hClass : x.result.isClass = true := by rw [hResult]; rfl
  exact ⟨hResult, (x.eq_of_isClass (.inl hClass)).symm.trans hResult⟩

/-- An array over what becomes a class becomes an array class. -/
def arrayClass {c : ClassType} (hVoid : c ≠ .primitive .void)
    (hResult : x.result = .classType c) :
    Track s where
  source := .array x.source
  result := .classType (.array c)
  rebuilt := .classType (.array c)
  apply := by
    have hArray := Composition.arrayOf_classType_eq_ok_iff.2 ⟨hVoid, rfl⟩
    rw [Substitution.apply, x.apply, hResult]
    exact hArray
  hasPlaceholder := rfl
  types := .classType trivial
  eq_of_isClass _ := rfl
  same _ := Value.same_classType_iff.2 ⟨_, rfl, rfl⟩
  keepsTidy _ := .array (x.keepsTidy (hResult ▸ .classType c))
  tidy _ := .classType _

/-- An array over anything else stays an array. -/
def array (hResult : x.result.isClass = false) : Track s where
  source := .array x.source
  result := .array x.result
  rebuilt := .array x.rebuilt
  apply := by
    rw [Substitution.apply, x.apply]
    exact Composition.arrayOver_of_not_class hResult
  hasPlaceholder := x.hasPlaceholder
  types := .array x.types
  eq_of_isClass hClass := by simp [Value.isClass] at hClass
  same hKeeps := by
    cases hKeeps with
    | array hComponent =>
        exact Value.same_array_iff.2 ⟨_, rfl, x.same hComponent⟩
  keepsTidy hTidy := by
    cases hTidy with
    | array hComponent => exact .array (x.keepsTidy hComponent)
  tidy hTidy := .array (x.tidy hTidy)

theorem exists_arrayOf {t w : Value}
    (hSource : Composition.arrayOf x.source = .ok t)
    (hRebuilt : Composition.arrayOf x.rebuilt = .ok w) :
    ∃ y : Track s, y.source = t ∧ y.rebuilt = w := by
  rcases Composition.cases_of_arrayOf hSource
    with ⟨c, hClass, -, rfl⟩ | ⟨-, -, rfl⟩
  · obtain ⟨-, hAgain⟩ := x.of_classType hClass
    rw [hAgain] at hRebuilt
    obtain ⟨-, rfl⟩ := Composition.arrayOf_classType_eq_ok_iff.1 hRebuilt
    exact ⟨classType s (.array c), rfl, rfl⟩
  · rcases Composition.cases_of_arrayOf hRebuilt
      with ⟨c, hClass, hVoid, rfl⟩ | ⟨hClass, -, rfl⟩
    · have hResult : x.result = .classType c :=
        (x.eq_of_isClass (.inr (by rw [hClass]; rfl))).trans hClass
      exact ⟨x.arrayClass hVoid hResult, rfl, rfl⟩
    · have hResult : x.result.isClass = false := by
        by_contra hNot
        have hEq := x.eq_of_isClass (.inl (by simpa using hNot))
        exact hNot (hEq ▸ hClass)
      exact ⟨x.array hResult, rfl, rfl⟩

/-! ### Wildcards -/

theorem makesObject_iff :
    s.MakesObject x.source ↔ x.result.isObject = true := by
  constructor
  · rintro ⟨u, hApply, hObject⟩
    rw [x.apply] at hApply
    exact Except.ok.inj hApply ▸ hObject
  · exact fun hObject => ⟨x.result, x.apply, hObject⟩

private theorem isObject_rebuilt : x.rebuilt.isObject = x.result.isObject := by
  by_cases hClass : x.result.isClass = true ∨ x.rebuilt.isClass = true
  · rw [x.eq_of_isClass hClass]
  · obtain ⟨hResult, hRebuilt⟩ := not_or.1 hClass
    rw [Bool.eq_iff_iff]
    exact ⟨fun hObject => absurd (Value.isClass_of_isObject hObject) hRebuilt,
      fun hObject => absurd (Value.isClass_of_isObject hObject) hResult⟩

/-- What is `Object` from the start is `Object` again when it is rebuilt. -/
theorem isObject_of_source (hObject : x.source.isObject = true) :
    x.rebuilt.isObject = true := by
  cases hSource : x.source with
  | classType c =>
      obtain ⟨-, hRebuilt⟩ := x.of_classType hSource
      rwa [hRebuilt, ← hSource]
  | _ =>
      rw [hSource] at hObject
      cases hObject

variable (xs : List (Track s))

private theorem forall₂_map {related : Value → Value → Prop}
    {f g : Track s → Value} {xs : List (Track s)}
    (hEach : ∀ x ∈ xs, related (f x) (g x)) :
    List.Forall₂ related (xs.map f) (xs.map g) :=
  List.forall₂_map_left_iff.2
    (List.forall₂_map_right_iff.2 (List.forall₂_same.2 hEach))

private theorem applyAll_sources :
    s.applyAll (xs.map source) = .ok (xs.map result) :=
  Substitution.applyAll_eq_ok_iff.2 (forall₂_map fun x _ => x.apply)

private theorem anyPlaceholder_results :
    Value.anyPlaceholder (xs.map result) = false := by
  rw [Value.anyPlaceholder_eq_false_iff, List.forall_mem_map]
  exact fun x _ => x.hasPlaceholder

variable {xs}

private theorem sameLists_of_keepsTidy
    (hKeeps : ∀ v ∈ xs.map source, s.KeepsTidy v) :
    Value.SameLists (xs.map result) (xs.map rebuilt) :=
  forall₂_map fun x hMem => x.same (hKeeps _ (List.mem_map_of_mem hMem))

private theorem keepsTidy_of_results (hTidy : ∀ v ∈ xs.map result, v.IsTidy) :
    ∀ v ∈ xs.map source, s.KeepsTidy v := by
  rw [List.forall_mem_map] at hTidy ⊢
  exact fun x hMem => x.keepsTidy (hTidy x hMem)

private theorem tidy_rebuilts
    (hTidy : ∀ binding ∈ s.bindings, binding.2.IsTidy) :
    ∀ v ∈ xs.map rebuilt, v.IsTidy := by
  rw [List.forall_mem_map]
  exact fun x _ => x.tidy hTidy

private theorem types_results : ∀ v ∈ xs.map result, v.IsTypeValue := by
  rw [List.forall_mem_map]
  exact fun x _ => x.types

/-- Bounds that all become `Object` or all do not are the same bounds when they
are composed again. -/
theorem sameSets_effectiveBounds (hNonempty : xs ≠ [])
    (hBounds : AllOrNone s.MakesObject (xs.map source))
    (hKeeps : ∀ v ∈ xs.map source, s.KeepsTidy v) :
    Value.SameSets (xs.map result)
      (Composition.effectiveBounds (xs.map rebuilt)) := by
  have hLists := sameLists_of_keepsTidy hKeeps
  rcases hBounds with hAll | hNone
  · rw [List.forall_mem_map] at hAll
    have hObjects : ∀ v ∈ xs.map rebuilt, v.isObject = true := by
      rw [List.forall_mem_map]
      exact fun x hMem =>
        x.isObject_rebuilt.trans (x.makesObject_iff.1 (hAll x hMem))
    rw [Composition.effectiveBounds_of_all hObjects]
    have hSame : ∀ x ∈ xs, x.result.same .object = true := fun x hMem =>
      Value.same_object (x.makesObject_iff.1 (hAll x hMem))
    obtain ⟨first, hFirst⟩ := List.exists_mem_of_ne_nil xs hNonempty
    constructor
    · rw [List.forall_mem_map]
      exact fun x hMem => ⟨.object, List.mem_singleton_self _, hSame x hMem⟩
    · intro b hMem
      rw [List.mem_singleton.1 hMem]
      exact ⟨first.result, List.mem_map_of_mem hFirst, hSame first hFirst⟩
  · rw [List.forall_mem_map] at hNone
    have hOthers : ∀ v ∈ xs.map rebuilt, ¬ v.isObject = true := by
      rw [List.forall_mem_map]
      intro x hMem hObject
      exact hNone x hMem (x.makesObject_iff.2
        (x.isObject_rebuilt.symm.trans hObject))
    rw [Composition.effectiveBounds_of_none (by simpa using hNonempty) hOthers]
    exact .of_forall₂ hLists

/-- A wildcard with upper bounds keeps them, and loses `Object` beside others
only when it is rebuilt. -/
def upper (hNonempty : xs ≠ []) : Track s where
  source := .wildcard (xs.map source) []
  result := .wildcard (xs.map result) []
  rebuilt := .wildcard (Composition.effectiveBounds (xs.map rebuilt)) []
  apply := by
    rw [Substitution.apply, applyAll_sources]
    rfl
  hasPlaceholder := by
    rw [Value.hasPlaceholder, anyPlaceholder_results]
    rfl
  types := .wildcard types_results (by simp)
  eq_of_isClass hClass := by simp [Value.isClass] at hClass
  same hKeeps := by
    cases hKeeps with
    | wildcard hBounds hUpper =>
        exact Value.same_wildcard_sets_iff.2
          ⟨_, _, rfl, sameSets_effectiveBounds hNonempty hBounds hUpper,
            by simp, by simp⟩
  keepsTidy hTidy := by
    cases hTidy with
    | wildcard hBounds hUpper =>
        refine .wildcard ?_ (keepsTidy_of_results hUpper) (by simp)
        refine hBounds.imp (fun hAll => ?_) fun hNone => ?_
        · rw [List.forall_mem_map] at hAll ⊢
          exact fun x hMem => x.makesObject_iff.2 (hAll x hMem)
        · rw [List.forall_mem_map] at hNone ⊢
          exact fun x hMem hMakes => hNone x hMem (x.makesObject_iff.1 hMakes)
  tidy hTidy := Composition.isTidy_effectiveBounds (tidy_rebuilts hTidy)

variable (xs)

/-- A bound that is `Object` from the start is dropped both times. -/
theorem others_rebuilts :
    (xs.map rebuilt).filter (fun b => !b.isObject) =
      ((xs.filter fun x => !x.source.isObject).map rebuilt).filter fun b =>
        !b.isObject := by
  rw [List.filter_map, List.filter_map, List.filter_filter]
  refine congrArg _ (List.filter_congr fun x _ => ?_)
  cases hObject : x.source.isObject with
  | false => simp
  | true => simp [x.isObject_of_source hObject]

private theorem others_sources :
    (xs.map source).filter (fun b => !b.isObject) =
      (xs.filter fun x => !x.source.isObject).map source := by
  rw [List.filter_map]
  rfl

theorem exists_subtypeOf {t w : Value}
    (hSource : Composition.subtypeOf (xs.map source) = .ok t)
    (hRebuilt : Composition.subtypeOf (xs.map rebuilt) = .ok w) :
    ∃ y : Track s, y.source = t ∧ y.rebuilt = w := by
  obtain ⟨-, -, rfl⟩ := Composition.subtypeOf_eq_ok_iff.1 hSource
  obtain ⟨-, -, rfl⟩ := Composition.subtypeOf_eq_ok_iff.1 hRebuilt
  have hSources := others_sources xs
  have hRebuilts := others_rebuilts xs
  generalize xs.filter (fun x => !x.source.isObject) =
    others at hSources hRebuilts
  by_cases hNone : others = []
  · -- Without other bounds, `Object` is the only one, before and after.
    subst hNone
    have hObject : Composition.effectiveBounds (xs.map source) = [.object] := by
      rw [Composition.effectiveBounds, hSources]
      rfl
    have hAgain : Composition.effectiveBounds (xs.map rebuilt) = [.object] := by
      rw [Composition.effectiveBounds, hRebuilts]
      rfl
    have hOne : [classType s .object] ≠ [] := List.cons_ne_nil _ _
    refine ⟨upper hOne, ?_, ?_⟩
    · rw [hObject]
      rfl
    · rw [hAgain]
      rfl
  · refine ⟨upper hNone, ?_, ?_⟩
    · have hOthers : Composition.effectiveBounds (xs.map source) =
          others.map source := by
        rw [Composition.effectiveBounds, hSources]
        cases others with
        | nil => exact absurd rfl hNone
        | cons first rest => rfl
      rw [hOthers]
      rfl
    · rw [Composition.effectiveBounds_congr hRebuilts]
      rfl

/-- A wildcard with a lower bound keeps it. -/
def lower : Track s where
  source := .wildcard [.object] [x.source]
  result := .wildcard [.object] [x.result]
  rebuilt := .wildcard [.object] [x.rebuilt]
  apply := by
    simp [Substitution.apply, Substitution.applyAll, Value.object,
      x.apply, bind,
    Except.bind]
  hasPlaceholder := by
    simp [Value.hasPlaceholder, Value.anyPlaceholder, Value.object,
      x.hasPlaceholder]
  types :=
    .wildcard (by simpa using .classType trivial) (by simpa using x.types)
  eq_of_isClass hClass := by simp [Value.isClass] at hClass
  same hKeeps := by
    cases hKeeps with
    | wildcard _ _ hLower =>
        have hObject : Value.object.same .object = true := Value.same_object rfl
        have hBound := x.same (hLower _ (List.mem_singleton_self _))
        exact Value.same_wildcard_sets_iff.2
          ⟨_, _, rfl, .of_forall₂ (.cons hObject .nil),
            .of_forall₂ (.cons hBound .nil)⟩
  keepsTidy hTidy := by
    cases hTidy with
    | wildcard _ _ hLower =>
        have hObject : s.MakesObject .object := ⟨.object, rfl, rfl⟩
        refine .wildcard (.inl (by simpa using hObject))
          (by simpa using .classType _) ?_
        simpa using x.keepsTidy (hLower _ (List.mem_singleton_self _))
  tidy hTidy := Composition.isTidy_object_alone (by simpa using x.tidy hTidy)

theorem exists_supertypeOf {t w : Value}
    (hSource : Composition.supertypeOf x.source = .ok t)
    (hRebuilt : Composition.supertypeOf x.rebuilt = .ok w) :
    ∃ y : Track s, y.source = t ∧ y.rebuilt = w := by
  obtain ⟨-, -, rfl⟩ := Composition.supertypeOf_eq_ok_iff.1 hSource
  obtain ⟨-, -, rfl⟩ := Composition.supertypeOf_eq_ok_iff.1 hRebuilt
  exact ⟨x.lower, rfl, rfl⟩

/-! ### Type arguments -/

/-- A class keeps its arguments. -/
def parameterized (c : ClassType) : Track s where
  source := .parameterized (.classType c) (xs.map source)
  result := .parameterized (.classType c) (xs.map result)
  rebuilt := .parameterized (.classType c) (xs.map rebuilt)
  apply := by
    rw [Substitution.apply, applyAll_sources]
    rfl
  hasPlaceholder := anyPlaceholder_results xs
  types := .parameterized (.classType trivial) types_results
  eq_of_isClass hClass := by simp [Value.isClass] at hClass
  same hKeeps := by
    cases hKeeps with
    | parameterized hArguments =>
        have hRaw := Value.same_classType_iff.2 ⟨c, rfl, rfl⟩
        exact Value.same_parameterized_iff.2
          ⟨_, _, rfl, hRaw, sameLists_of_keepsTidy hArguments⟩
  keepsTidy hTidy := by
    cases hTidy with
    | parameterized hArguments =>
        exact .parameterized (keepsTidy_of_results hArguments)
  tidy hTidy := .parameterized (tidy_rebuilts hTidy)

theorem exists_parameterizedOf {c : ClassType} {t w : Value}
    (hSource : Composition.parameterizedOf (.classType c)
      (xs.map source) = .ok t)
    (hRebuilt : Composition.parameterizedOf (.classType c)
      (xs.map rebuilt) = .ok w) :
    ∃ y : Track s, y.source = t ∧ y.rebuilt = w := by
  obtain ⟨-, -, -, -, -, rfl⟩ := Composition.parameterizedOf_eq_ok_iff.1 hSource
  obtain ⟨-, -, -, -, -, rfl⟩ :=
    Composition.parameterizedOf_eq_ok_iff.1 hRebuilt
  exact ⟨parameterized xs c, rfl, rfl⟩

/-! ### Whole compositions -/

-- The recursion is on the recipe; each composition is one lemma above.
mutual

/-- What `build` composes, and composes again of replacements, is on a
`Track`. -/
theorem exists_of_build (hBindings : s.ByTypes) :
    ∀ (r : Recipe) {t w : Value}, r.build .var = .ok t →
      r.build s.valueOf = .ok w →
      ∃ x : Track s, x.source = t ∧ x.rebuilt = w
  | .classType c, _, _, hSource, hRebuilt =>
      ⟨classType s c, Except.ok.inj hSource, Except.ok.inj hRebuilt⟩
  | .var v, _, _, hSource, hRebuilt =>
      ⟨var hBindings v, Except.ok.inj hSource, Except.ok.inj hRebuilt⟩
  | .array component, _, _, hSource, hRebuilt => by
      obtain ⟨_, hComponent, hArray⟩ := exists_of_bind_eq_ok hSource
      obtain ⟨_, hAgain, hArrayAgain⟩ := exists_of_bind_eq_ok hRebuilt
      obtain ⟨x, rfl, rfl⟩ :=
        exists_of_build hBindings component hComponent hAgain
      exact x.exists_arrayOf hArray hArrayAgain
  | .subtype bounds, _, _, hSource, hRebuilt => by
      obtain ⟨_, hBounds, hSubtype⟩ := exists_of_bind_eq_ok hSource
      obtain ⟨_, hAgain, hSubtypeAgain⟩ := exists_of_bind_eq_ok hRebuilt
      obtain ⟨xs, rfl, rfl⟩ :=
        exists_of_buildAll hBindings bounds hBounds hAgain
      exact exists_subtypeOf xs hSubtype hSubtypeAgain
  | .supertype bound, _, _, hSource, hRebuilt => by
      obtain ⟨_, hBound, hSupertype⟩ := exists_of_bind_eq_ok hSource
      obtain ⟨_, hAgain, hSupertypeAgain⟩ := exists_of_bind_eq_ok hRebuilt
      obtain ⟨x, rfl, rfl⟩ := exists_of_build hBindings bound hBound hAgain
      exact x.exists_supertypeOf hSupertype hSupertypeAgain
  | .parameterized c arguments, _, _, hSource, hRebuilt => by
      obtain ⟨_, hArguments, hParameterized⟩ := exists_of_bind_eq_ok hSource
      obtain ⟨_, hAgain, hParameterizedAgain⟩ := exists_of_bind_eq_ok hRebuilt
      obtain ⟨xs, rfl, rfl⟩ :=
        exists_of_buildAll hBindings arguments hArguments hAgain
      exact exists_parameterizedOf xs hParameterized hParameterizedAgain

private theorem exists_of_buildAll (hBindings : s.ByTypes) :
    ∀ (rs : List Recipe) {ts ws : List Value},
      Recipe.buildAll .var rs = .ok ts →
      Recipe.buildAll s.valueOf rs = .ok ws →
      ∃ xs : List (Track s), xs.map source = ts ∧ xs.map rebuilt = ws
  | [], _, _, hSources, hRebuilts =>
      ⟨[], Except.ok.inj hSources, Except.ok.inj hRebuilts⟩
  | r :: rs, _, _, hSources, hRebuilts => by
      obtain ⟨_, hHead, hSources⟩ := exists_of_bind_eq_ok hSources
      obtain ⟨_, hTail, hSource⟩ := exists_of_bind_eq_ok hSources
      obtain ⟨_, hHeadAgain, hRebuilts⟩ := exists_of_bind_eq_ok hRebuilts
      obtain ⟨_, hTailAgain, hRebuilt⟩ := exists_of_bind_eq_ok hRebuilts
      obtain ⟨x, rfl, rfl⟩ := exists_of_build hBindings r hHead hHeadAgain
      obtain ⟨xs, rfl, rfl⟩ := exists_of_buildAll hBindings rs hTail hTailAgain
      exact ⟨x :: xs, Except.ok.inj hSource, Except.ok.inj hRebuilt⟩

end

end Track

/-! ## Substituting against rebuilding -/

/-- If a value that was composed of classes and type variables can be composed
again of what the variables are bound to, then substituting succeeds too. It
gives what rebuilding gives if it puts `Object` beside no other upper bound, and
unless the bindings bring such bounds along, only if it does not. -/
theorem Substitution.resolve_rebuilt {s : Substitution} (hBindings : s.ByTypes)
    {r : Recipe} {t w : Value} (hBuilt : r.build .var = .ok t)
    (hRebuilt : r.build s.valueOf = .ok w) :
    ∃ u, s.resolve t = .ok u ∧ (s.KeepsTidy t → u.same w = true) ∧
      ((∀ binding ∈ s.bindings, binding.2.IsTidy) → u.same w = true →
        s.KeepsTidy t) := by
  obtain ⟨x, rfl, rfl⟩ := Track.exists_of_build hBindings r hBuilt hRebuilt
  refine ⟨x.result, ?_, x.same, fun hTidy hSame => ?_⟩
  · rw [resolve, x.apply]
    show (if x.result.hasPlaceholder then _ else _) = _
    rw [if_neg (by simp [x.hasPlaceholder])]
  · exact x.keepsTidy (x.types.isTidy_of_same hSame (x.tidy hTidy))

/-- The type parameter of `List`, bound to a class. -/
def elementsOf (name : String) : Substitution :=
  .ofList [(.var ⟨"E", "java.util.List"⟩, .classType (.ofName name))]

private theorem byTypes_elementsOf (name : String) :
    (elementsOf name).ByTypes := by
  refine ⟨fun binding hMem => ?_, fun binding hMem => ?_⟩
  · rw [List.mem_singleton.1 hMem]
    exact .classType trivial
  · rw [List.mem_singleton.1 hMem]
    rfl

/-- With its elements bound to `Number`, `List<E[]>` becomes
`List<Number[]>`. -/
theorem Substitution.resolve_rebuilt_numbers :
    let list : Declaration := ⟨"java.util.List", ["E"]⟩
    let r := Recipe.parameterized (.declared list)
      [.array (.var ⟨"E", "java.util.List"⟩)]
    let w := Value.parameterized (.classType (.declared list))
      [.classType (.array (.ofName "java.lang.Number"))]
    (elementsOf "java.lang.Number").ByTypes ∧
      r.build (elementsOf "java.lang.Number").valueOf = .ok w ∧
      ∃ t u, r.build .var = .ok t ∧
        (elementsOf "java.lang.Number").resolve t = .ok u ∧
        u.same w = true := by
  intro list r w
  have hBindings := byTypes_elementsOf "java.lang.Number"
  have hBuilt : r.build .var = .ok (.parameterized (.classType (.declared list))
      [.array (.var ⟨"E", "java.util.List"⟩)]) := rfl
  have hRebuilt : r.build (elementsOf "java.lang.Number").valueOf = .ok w := rfl
  obtain ⟨u, hResolve, hSame, -⟩ :=
    Substitution.resolve_rebuilt hBindings hBuilt hRebuilt
  have hKeeps : (elementsOf "java.lang.Number").KeepsTidy (.parameterized
      (.classType (.declared list)) [.array (.var ⟨"E", "java.util.List"⟩)]) :=
    .parameterized (by simpa using .array (.var _))
  exact ⟨hBindings, hRebuilt, _, u, hBuilt, hResolve, hSame hKeeps⟩

/-- With `E` bound to `Object`, `? extends E & Number` becomes
`? extends Object & Number`, but it is rebuilt to `? extends Number`. -/
theorem Substitution.resolve_object_beside_number :
    let number := ClassType.ofName "java.lang.Number"
    let r := Recipe.subtype [.var ⟨"E", "java.util.List"⟩, .classType number]
    let u := Value.wildcard [.object, .classType number] []
    let w := Value.wildcard [.classType number] []
    (elementsOf "java.lang.Object").ByTypes ∧
      (∃ t, r.build .var = .ok t ∧
        (elementsOf "java.lang.Object").resolve t = .ok u) ∧
      r.build (elementsOf "java.lang.Object").valueOf = .ok w ∧
      u.same w = false := by
  intro number r u w
  exact ⟨byTypes_elementsOf _, ⟨_, rfl, rfl⟩, rfl, by decide⟩

end JvmTypes
