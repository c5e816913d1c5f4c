import JvmTypes.Proofs.Meaning

/-!
# Built and formed values

Two descriptions of the same values. `Built` says how they come about: from
primitive types and classes of a catalog, by composing. `Formed` says what they
look like. What a text denotes is built (`built_of_parse`), and what is built is
formed (`Built.formed`), so a fact about the shape of values is a fact about all
that parsing and composing can yield.

## Main results

* `Built.formed`: composition keeps values in shape, however often it is used.
* `Scope.built_of_parse`: parsing yields nothing that composing could not.
-/

namespace JvmTypes

open Grammar

/-! ## Built values -/

/-- Values that the operations of `Composition` put together from primitive
types and classes of a catalog. -/
inductive Built (catalog : Catalog) : Value → Prop
  | primitive (p : Primitive) : Built catalog (.classType (.primitive p))
  | declared {d : Declaration} (hFind : catalog.find? d.name = some d) :
      Built catalog (.classType (.declared d))
  | array {component v : Value} (hComponent : Built catalog component)
      (hArray : Composition.arrayOf component = .ok v) : Built catalog v
  | subtype {bounds : List Value} {v : Value}
      (hBounds : ∀ b ∈ bounds, Built catalog b)
      (hSubtype : Composition.subtypeOf bounds = .ok v) : Built catalog v
  | supertype {bound v : Value} (hBound : Built catalog bound)
      (hSupertype : Composition.supertypeOf bound = .ok v) : Built catalog v
  | parameterized {raw v : Value} {arguments : List Value}
      (hRaw : Built catalog raw) (hArguments : ∀ a ∈ arguments, Built catalog a)
      (hNonempty : arguments ≠ [])
      (hParameterized : Composition.parameterizedOf raw arguments = .ok v) :
      Built catalog v

/-! ## Formed values -/

/-- Classes over a catalog: array classes of `void` are left out. -/
inductive IsClass (catalog : Catalog) : ClassType → Prop
  | primitive (p : Primitive) : IsClass catalog (.primitive p)
  | declared {d : Declaration} (hFind : catalog.find? d.name = some d) :
      IsClass catalog (.declared d)
  | array {c : ClassType} (hComponent : IsClass catalog c)
      (hVoid : c ≠ .primitive .void) :
      IsClass catalog (.array c)

/-- Whether a value can bound a wildcard, as `Role.check` decides for the role
`wildcardBound`. -/
def Value.IsBound (v : Value) : Prop :=
  v.isWildcard = false ∧ v.isPrimitive = false

/-- Values over a catalog, by what they look like and not by how they were
`Built`. -/
inductive Formed (catalog : Catalog) : Value → Prop
  | classType {c : ClassType} (hClass : IsClass catalog c) :
      Formed catalog (.classType c)
  | parameterized {d : Declaration} {arguments : List Value}
      (hFind : catalog.find? d.name = some d)
      (hLength : arguments.length = d.parameters.length)
      (hNonempty : arguments ≠ [])
      (hArguments : ∀ a ∈ arguments, Formed catalog a)
      (hPrimitive : ∀ a ∈ arguments, a.isPrimitive = false) :
      Formed catalog (.parameterized (.classType (.declared d)) arguments)
  | array {component : Value} (hComponent : Formed catalog component)
      (hClass : component.isClass = false)
      (hWildcard : component.isWildcard = false) :
      Formed catalog (.array component)
  | unbounded : Formed catalog (.wildcard [.object] [])
  | upper {bounds : List Value} (hNonempty : bounds ≠ [])
      (hBounds : ∀ b ∈ bounds, Formed catalog b)
      (hBound : ∀ b ∈ bounds, b.IsBound)
      (hObject : ∀ b ∈ bounds, b.isObject = false) :
      Formed catalog (.wildcard bounds [])
  | lower {bound : Value} (hFormed : Formed catalog bound)
      (hBound : bound.IsBound) :
      Formed catalog (.wildcard [.object] [bound])

namespace Formed

variable {catalog : Catalog} {v : Value}

theorem isForeign (hFormed : Formed catalog v) : v.isForeign = false := by
  cases hFormed <;> rfl

theorem hasPlaceholder (hFormed : Formed catalog v) :
    v.hasPlaceholder = false := by
  induction hFormed with
  | classType => rfl
  | parameterized _ _ _ _ _ ih =>
      rw [Value.hasPlaceholder]
      exact Value.anyPlaceholder_eq_false_iff.2 ih
  | array _ _ _ ih => exact ih
  | unbounded => rfl
  | upper _ _ _ _ ih =>
      rw [Value.hasPlaceholder, Value.anyPlaceholder_eq_false_iff.2 ih]
      rfl
  | lower _ _ ih =>
      simp [Value.hasPlaceholder, Value.anyPlaceholder, Value.object, ih]

theorem isClass_of_classType {c : ClassType}
    (hFormed : Formed catalog (.classType c)) : IsClass catalog c := by
  cases hFormed with
  | classType hClass => exact hClass

theorem isBound_iff_check (hFormed : Formed catalog v) :
    Role.wildcardBound.check v = .ok () ↔ v.IsBound := by
  rw [Role.check_eq_ok_iff, Value.IsBound]
  simp [hFormed.isForeign, and_comm]

theorem isPrimitive_iff_check (hFormed : Formed catalog v) :
    Role.typeArgument.check v = .ok () ↔ v.isPrimitive = false := by
  rw [Role.check_eq_ok_iff]
  simp [hFormed.isForeign]

theorem isComponent_iff_check (hFormed : Formed catalog v)
    (hClass : v.isClass = false) :
    Role.arrayComponent.check v = .ok () ↔ v.isWildcard = false := by
  rw [Role.check_eq_ok_iff]
  simp [hFormed.isForeign, Value.isPrimitive_of_not_class hClass]

end Formed

/-! ## What is built is formed -/

section Composites

variable {catalog : Catalog}

private theorem formed_of_arrayOf {component v : Value}
    (hFormed : Formed catalog component)
    (hArray : Composition.arrayOf component = .ok v) : Formed catalog v := by
  rcases Composition.cases_of_arrayOf hArray
    with ⟨c, rfl, hVoid, rfl⟩ | ⟨hClass, hCheck, rfl⟩
  · exact .classType (.array hFormed.isClass_of_classType hVoid)
  · exact .array hFormed hClass
      ((hFormed.isComponent_iff_check hClass).1 hCheck)

private theorem formed_of_subtypeOf {bounds : List Value} {v : Value}
    (hFormed : ∀ b ∈ bounds, Formed catalog b)
    (hSubtype : Composition.subtypeOf bounds = .ok v) : Formed catalog v := by
  obtain ⟨hChecks, -, rfl⟩ := Composition.subtypeOf_eq_ok_iff.1 hSubtype
  rcases Composition.effectiveBounds_cases bounds
    with ⟨-, hEq⟩ | ⟨hNonempty, hEq⟩
  · rw [hEq]
    exact .unbounded
  · rw [hEq] at hChecks ⊢
    have hOthers : ∀ b ∈ bounds.filter (fun b => !b.isObject),
        Formed catalog b :=
      fun b hMem => hFormed b ((List.mem_filter.1 hMem).1)
    refine .upper hNonempty hOthers (fun b hMem => ?_) fun b hMem => ?_
    · exact (hOthers b hMem).isBound_iff_check.1 (hChecks b hMem)
    · simpa using (List.mem_filter.1 hMem).2

private theorem formed_of_supertypeOf {bound v : Value}
    (hFormed : Formed catalog bound)
    (hSupertype : Composition.supertypeOf bound = .ok v) :
    Formed catalog v := by
  obtain ⟨hCheck, -, rfl⟩ := Composition.supertypeOf_eq_ok_iff.1 hSupertype
  exact .lower hFormed (hFormed.isBound_iff_check.1 hCheck)

theorem formed_of_parameterizedOf {raw v : Value} {arguments : List Value}
    (hRaw : Formed catalog raw) (hFormed : ∀ a ∈ arguments, Formed catalog a)
    (hNonempty : arguments ≠ [])
    (hParameterized : Composition.parameterizedOf raw arguments = .ok v) :
    Formed catalog v := by
  obtain ⟨d, rfl, hLength, hChecks, -, rfl⟩ :=
    Composition.parameterizedOf_eq_ok_iff.1 hParameterized
  cases hRaw.isClass_of_classType with
  | declared hFind =>
      refine .parameterized hFind hLength hNonempty hFormed fun a hMem => ?_
      exact (hFormed a hMem).isPrimitive_iff_check.1 (hChecks a hMem)

/-- What is `Built` is `Formed`. -/
theorem Built.formed {v : Value} (hBuilt : Built catalog v) :
    Formed catalog v := by
  induction hBuilt with
  | primitive p => exact .classType (.primitive p)
  | declared hFind => exact .classType (.declared hFind)
  | array _ hArray ih => exact formed_of_arrayOf ih hArray
  | subtype _ hSubtype ih => exact formed_of_subtypeOf ih hSubtype
  | supertype _ hSupertype ih => exact formed_of_supertypeOf ih hSupertype
  | parameterized _ _ hNonempty hParameterized ihRaw ihArguments =>
      exact formed_of_parameterizedOf ihRaw ihArguments hNonempty hParameterized

end Composites

/-! ## What a text denotes is built -/

namespace Scope

variable (scope : Scope)

/-- An expression whose `meaning`, if there is one, is `Built`. -/
def MeansBuilt (tree : Expression) : Prop :=
  ∀ v, scope.meaning tree = some v → Built scope.catalog v

/-- Expressions whose `meanings`, if there are any, are `Built`. -/
def MeanBuilt (trees : List Expression) : Prop :=
  ∀ vs, scope.meanings trees = some vs → ∀ v ∈ vs, Built scope.catalog v

private theorem meanBuilt_cons {tree : Expression} {trees : List Expression}
    (hTree : scope.MeansBuilt tree) (hTrees : scope.MeanBuilt trees) :
    scope.MeanBuilt (tree :: trees) := by
  intro vs hMeanings
  obtain ⟨v, hMeaning, rest, hRest, rfl⟩ :=
    scope.meanings_cons_eq_some_iff.1 hMeanings
  exact List.forall_mem_cons.2 ⟨hTree v hMeaning, hTrees rest hRest⟩

private theorem meanBuilt_nil : scope.MeanBuilt [] := by
  intro vs hMeanings
  rw [meanings_nil] at hMeanings
  cases hMeanings
  simp

private theorem built_arrays {c : ClassType}
    (hBuilt : Built scope.catalog (.classType c)) (hVoid : c ≠ .primitive .void)
    (n : Nat) : Built scope.catalog (.classType (c.arrays n)) := by
  induction n generalizing c with
  | zero => exact hBuilt
  | succ n ih =>
      have hArray := Composition.arrayOf_classType_eq_ok_iff.2 ⟨hVoid, rfl⟩
      exact ih (.array hBuilt hArray) (by simp)

private theorem built_of_lookup? {name : String} {d : Declaration}
    (hLookup : scope.lookup? name = some d) :
    Built scope.catalog (.classType (.declared d)) :=
  .declared (scope.find?_of_lookup? hLookup)

private theorem meansBuilt_name (raw : RawName) :
    scope.MeansBuilt (.raw raw) := by
  intro v hMeaning
  obtain ⟨d, hLookup, rfl⟩ := meaning_raw_eq_some_iff.1 hMeaning
  exact scope.built_of_lookup? hLookup

private theorem meansBuilt_primitive (p : Primitive) (span : Option Span) :
    scope.MeansBuilt (.primitive p.name span) := by
  intro v hMeaning
  rw [meaning_primitive] at hMeaning
  cases hMeaning
  exact .primitive p

private theorem meansBuilt_internal {text : String}
    (hInternal : InternalName.IsInternalName text.toList) (span : Option Span) :
    scope.MeansBuilt (.internal text span) := by
  intro v hMeaning
  obtain ⟨n, c, rfl, hElement⟩ :=
    scope.exists_arrays_of_internal hInternal hMeaning
  rcases hElement with ⟨p, hVoid, rfl⟩ | ⟨d, hFind, rfl⟩
  · exact scope.built_arrays (.primitive p) (by simpa using hVoid) (n + 1)
  · exact scope.built_arrays (.declared hFind) (by simp) (n + 1)

private theorem meansBuilt_array {component : Expression}
    (hComponent : scope.MeansBuilt component) (span : Option Span) :
    scope.MeansBuilt (.array component span) := by
  intro v hMeaning
  obtain ⟨w, hWhole, hArray⟩ := meaning_array_eq_some_iff.1 hMeaning
  exact .array (hComponent w hWhole) hArray

private theorem meansBuilt_parameterized {arguments : List Expression}
    (hArguments : scope.MeanBuilt arguments) (hNonempty : arguments ≠ [])
    (raw : RawName) (span : Option Span) :
    scope.MeansBuilt (.parameterized raw arguments span) := by
  intro v hMeaning
  obtain ⟨d, hLookup, vs, hMeanings, hParameterized⟩ :=
    meaning_parameterized_eq_some_iff.1 hMeaning
  have hLength := scope.length_meanings hMeanings
  refine .parameterized (scope.built_of_lookup? hLookup)
    (hArguments vs hMeanings) ?_
    hParameterized
  rintro rfl
  exact hNonempty (List.length_eq_zero_iff.1 hLength.symm)

private theorem meansBuilt_upper {kind : BoundKind} (hKind : kind ≠ .lower)
    {bounds : List Expression} (hBounds : scope.MeanBuilt bounds)
    (span : Option Span) : scope.MeansBuilt (.wildcard kind bounds span) := by
  intro v hMeaning
  obtain ⟨vs, hMeanings, hSubtype⟩ :=
    (meaning_upper_eq_some_iff hKind).1 hMeaning
  exact .subtype (hBounds vs hMeanings) hSubtype

private theorem meansBuilt_lower {bound : Expression}
    (hBound : scope.MeansBuilt bound) (span : Option Span) :
    scope.MeansBuilt (.wildcard .lower [bound] span) := by
  intro v hMeaning
  obtain ⟨w, hWhole, hSupertype⟩ := meaning_lower_eq_some_iff.1 hMeaning
  exact .supertype (hBound w hWhole) hSupertype

-- The recursion is on the derivation; each kind of expression is one lemma
-- above.
mutual

/-- What `IsType` derives means only what can be `Built`. -/
theorem meansBuilt_of_isType {ls : List Lexeme} {tree : Expression} :
    IsType ls tree → scope.MeansBuilt tree
  | .wildcard hWildcard => meansBuilt_of_isWildcard hWildcard
  | .bare hBare => meansBuilt_of_isBare hBare

private theorem meansBuilt_of_isWildcard {ls : List Lexeme}
    {tree : Expression} :
    IsWildcard ls tree → scope.MeansBuilt tree
  | .unbounded _ => scope.meansBuilt_upper (by simp) scope.meanBuilt_nil none
  | .upper _ _ hBounds =>
      scope.meansBuilt_upper (by simp) (meanBuilt_of_isBounds hBounds) none
  | .lower _ _ hBare _ =>
      scope.meansBuilt_lower (meansBuilt_of_isBare hBare) none

theorem meansBuilt_of_isBare {ls : List Lexeme} {tree : Expression} :
    IsBare ls tree → scope.MeansBuilt tree
  | .base hBase => meansBuilt_of_isBase hBase
  | .array _ _ hBare _ =>
      scope.meansBuilt_array (meansBuilt_of_isBare hBare) none

private theorem meansBuilt_of_isBase {ls : List Lexeme} {tree : Expression} :
    IsBase ls tree → scope.MeansBuilt tree
  | .primitive p => scope.meansBuilt_primitive p none
  | .name _ => scope.meansBuilt_name _
  | .internal hInternal => scope.meansBuilt_internal hInternal none
  | .parameterized _ _ _ hArguments =>
      scope.meansBuilt_parameterized (meanBuilt_of_isArguments hArguments)
        hArguments.ne_nil _ none

private theorem meanBuilt_of_isArguments {ls : List Lexeme}
    {trees : List Expression} :
    IsArguments ls trees → scope.MeanBuilt trees
  | .one hType _ =>
      scope.meanBuilt_cons (meansBuilt_of_isType hType) scope.meanBuilt_nil
  | .more _ hType _ hRest =>
      scope.meanBuilt_cons (meansBuilt_of_isType hType)
        (meanBuilt_of_isArguments hRest)

private theorem meanBuilt_of_isBounds {ls : List Lexeme}
    {trees : List Expression} :
    IsBounds ls trees → scope.MeanBuilt trees
  | .one hBare _ =>
      scope.meanBuilt_cons (meansBuilt_of_isBare hBare) scope.meanBuilt_nil
  | .more _ hBare _ hRest =>
      scope.meanBuilt_cons (meansBuilt_of_isBare hBare)
        (meanBuilt_of_isBounds hRest)

end

/-- What a text denotes by `parse` is `Built` from the catalog. -/
theorem built_of_parse {text : String} {v : Value}
    (hParse : (scope.parse text).result = .ok v) : Built scope.catalog v := by
  obtain ⟨tree, ⟨ls, -, hType⟩, hMeaning⟩ := scope.parse_eq_ok_iff.1 hParse
  exact scope.meansBuilt_of_isType hType v hMeaning

end Scope

end JvmTypes
