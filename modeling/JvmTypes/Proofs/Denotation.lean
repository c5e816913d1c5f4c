import JvmTypes.Proofs.WellFormed

/-!
# Texts and the values they denote

The tree of a text and its value are of the same kind (`agrees_of_isType`): the
grammar refuses by looking at trees what composition refuses by looking at
values, so the two refuse the same. What follows is that composing values is
putting their texts together. For each composite there is one rule: if the parts
compose, the text made of the texts of the parts denotes the composite.

## Main results

* `agrees_of_isType`: trees and values are of the same kind.
* `Denotes.array`, `Denotes.parameterized`, `Denotes.upper`, `Denotes.lower`:
  texts of composites.
* `parse_eq_ok_iff_denotes`: what parsing yields.
-/

namespace JvmTypes

open Grammar

/-! ## Kinds of trees and of values -/

/-- A tree and a value are of the same kind, so far as composition looks. -/
structure Agrees (tree : Expression) (v : Value) : Prop where
  wildcard : v.isWildcard = tree.isWildcard
  primitive : v.isPrimitive = tree.isPrimitive
  void : tree.isVoid = true ↔ v = .classType (.primitive .void)

private theorem Expression.isPrimitive_of_isVoid {e : Expression}
    (hVoid : e.isVoid = true) : e.isPrimitive = true := by
  cases e <;> first | rfl | cases hVoid

/-- Where nothing is primitive, nothing is `void`. -/
theorem agrees_of_not_primitive {tree : Expression} {v : Value}
    (hWildcard : v.isWildcard = tree.isWildcard)
    (hTree : tree.isPrimitive = false) (hValue : v.isPrimitive = false) :
    Agrees tree v := by
  refine ⟨hWildcard, by rw [hTree, hValue], fun hVoid => ?_, ?_⟩
  · simp [Expression.isPrimitive_of_isVoid hVoid] at hTree
  · rintro rfl
    cases hValue

private theorem kind_of_arrayOf {component v : Value}
    (hArray : Composition.arrayOf component = .ok v) :
    v.isWildcard = false ∧ v.isPrimitive = false := by
  rcases Composition.cases_of_arrayOf hArray with ⟨c, -, -, rfl⟩ | ⟨-, -, rfl⟩
  · exact ⟨rfl, rfl⟩
  · exact ⟨rfl, rfl⟩

namespace Scope

variable {scope : Scope}

private theorem agrees_of_isBase {ls : List Lexeme} {tree : Expression}
    {v : Value} (hBase : IsBase ls tree)
    (hMeaning : scope.meaning tree = some v) : Agrees tree v := by
  cases hBase with
  | primitive p =>
      rw [meaning_primitive] at hMeaning
      cases hMeaning
      refine ⟨rfl, rfl, ?_⟩
      cases p <;> simp [Expression.isVoid, Primitive.name]
  | name hName =>
      obtain ⟨d, -, rfl⟩ := meaning_raw_eq_some_iff.1 hMeaning
      exact agrees_of_not_primitive rfl rfl rfl
  | internal hInternal =>
      obtain ⟨n, c, rfl, -⟩ :=
        scope.exists_arrays_of_internal hInternal hMeaning
      rw [ClassType.arrays_succ]
      exact agrees_of_not_primitive rfl rfl rfl
  | parameterized opening closing hName hArguments =>
      obtain ⟨d, -, vs, -, hParameterized⟩ :=
        meaning_parameterized_eq_some_iff.1 hMeaning
      obtain ⟨-, -, -, -, -, rfl⟩ :=
        Composition.parameterizedOf_eq_ok_iff.1 hParameterized
      exact agrees_of_not_primitive rfl rfl rfl

/-- The tree that `IsType` derives and its value are of the same kind. -/
theorem agrees_of_isType {ls : List Lexeme} {tree : Expression} {v : Value}
    (hType : IsType ls tree) (hMeaning : scope.meaning tree = some v) :
    Agrees tree v := by
  have hUpper : ∀ kind bounds, kind ≠ .lower →
      scope.meaning (.wildcard kind bounds none) = some v →
      Agrees (.wildcard kind bounds none) v := by
    intro kind bounds hKind hMeaning
    obtain ⟨vs, -, hSubtype⟩ := (meaning_upper_eq_some_iff hKind).1 hMeaning
    obtain ⟨-, -, rfl⟩ := Composition.subtypeOf_eq_ok_iff.1 hSubtype
    exact agrees_of_not_primitive rfl rfl rfl
  cases hType with
  | wildcard hWildcard =>
      cases hWildcard with
      | unbounded => exact hUpper _ _ (by simp) hMeaning
      | upper => exact hUpper _ _ (by simp) hMeaning
      | lower =>
          obtain ⟨w, -, hSupertype⟩ := meaning_lower_eq_some_iff.1 hMeaning
          obtain ⟨-, -, rfl⟩ := Composition.supertypeOf_eq_ok_iff.1 hSupertype
          exact agrees_of_not_primitive rfl rfl rfl
  | bare hBare =>
      cases hBare with
      | base hBase => exact agrees_of_isBase hBase hMeaning
      | array =>
          obtain ⟨w, -, hArray⟩ := meaning_array_eq_some_iff.1 hMeaning
          obtain ⟨hWildcard, hPrimitive⟩ := kind_of_arrayOf hArray
          exact agrees_of_not_primitive hWildcard rfl hPrimitive

/-! ## Denotation -/

/-- A text that denotes a value: its lexemes derive a tree (`TextOf IsType`)
that means the value. -/
def Denotes (scope : Scope) (text : String) (v : Value) : Prop :=
  ∃ tree, TextOf IsType text tree ∧ scope.meaning tree = some v

theorem parse_eq_ok_iff_denotes {text : String} {v : Value} :
    (scope.parse text).result = .ok v ↔ scope.Denotes text v :=
  scope.parse_eq_ok_iff

/-- The value that a text `Denotes` as a bound: its tree is bare and not
primitive. -/
theorem Denotes.bound {text : String} {v : Value} (hText : scope.Denotes text v)
    (hBound : v.IsBound) :
    ∃ tree, TextOf (NotPrimitive IsBare) text tree ∧
      scope.meaning tree = some v := by
  obtain ⟨tree, ⟨ls, hLexes, hType⟩, hMeaning⟩ := hText
  have hAgrees := agrees_of_isType hType hMeaning
  have hWildcard : tree.isWildcard = false := by
    rw [← hAgrees.wildcard, hBound.1]
  have hPrimitive : tree.isPrimitive = false := by
    rw [← hAgrees.primitive, hBound.2]
  exact ⟨tree, ⟨ls, hLexes, hType.toBare hWildcard, hPrimitive⟩, hMeaning⟩

/-- The value that a text `Denotes` as a type argument: its tree is not
primitive. -/
theorem Denotes.argument {text : String} {v : Value}
    (hText : scope.Denotes text v) (hPrimitive : v.isPrimitive = false) :
    ∃ tree, TextOf (NotPrimitive IsType) text tree ∧
      scope.meaning tree = some v := by
  obtain ⟨tree, ⟨ls, hLexes, hType⟩, hMeaning⟩ := hText
  have hAgrees := agrees_of_isType hType hMeaning
  exact ⟨tree, ⟨ls, hLexes, hType, by rw [← hAgrees.primitive, hPrimitive]⟩,
    hMeaning⟩

/-- What each member of a list has, the members have together in one list of
pairs. -/
theorem exists_pairs {α β : Type} {p : α → β → Prop} {items : List α}
    (hItems : ∀ i ∈ items, ∃ b, p i b) :
    ∃ pairs : List (α × β), pairs.map Prod.fst = items ∧
      ∀ pair ∈ pairs, p pair.1 pair.2 := by
  induction items with
  | nil => exact ⟨[], rfl, by simp⟩
  | cons i items ih =>
      obtain ⟨⟨b, hHead⟩, hRest⟩ := List.forall_mem_cons.1 hItems
      obtain ⟨pairs, rfl, hPairs⟩ := ih hRest
      exact ⟨(i, b) :: pairs, rfl, List.forall_mem_cons.2 ⟨hHead, hPairs⟩⟩

theorem meanings_map (scope : Scope) {α : Type} (tree : α → Expression)
    (value : α → Value) {items : List α}
    (hItems : ∀ i ∈ items, scope.meaning (tree i) = some (value i)) :
    scope.meanings (items.map tree) = some (items.map value) := by
  induction items with
  | nil => exact scope.meanings_nil
  | cons i items ih =>
      obtain ⟨hHead, hRest⟩ := List.forall_mem_cons.1 hItems
      rw [List.map_cons, meanings_cons, hHead, ih hRest]
      rfl

/-! ## Texts of composites -/

theorem Denotes.array {text : String} {v w : Value}
    (hText : scope.Denotes text v) (hWildcard : v.isWildcard = false)
    (hArray : Composition.arrayOf v = .ok w) :
    scope.Denotes (text ++ "[]") w := by
  obtain ⟨tree, ⟨ls, hLexes, hType⟩, hMeaning⟩ := hText
  have hAgrees := agrees_of_isType hType hMeaning
  have hVoid : tree.isVoid = false := by
    refine Bool.eq_false_iff.2 fun hVoid => ?_
    rw [hAgrees.void.1 hVoid] at hArray
    exact (Composition.arrayOf_classType_eq_ok_iff.1 hArray).1 rfl
  have hBare : TextOf IsBare text tree :=
    ⟨ls, hLexes, hType.toBare (by rw [← hAgrees.wildcard, hWildcard])⟩
  exact ⟨_, (hBare.array hVoid).mono fun _ => .bare,
    meaning_array_eq_some_iff.2 ⟨v, hMeaning, hArray⟩⟩

theorem Denotes.parameterized {ι : Type} {raw name separator comma : String}
    {d : Declaration} (hRaw : TextOf IsName raw name)
    (hLookup : scope.lookup? name = some d)
    (hSeparates : Separates separator.toList ⟨.comma, comma⟩)
    (text : ι → String) (value : ι → Value) {items : List ι} {w : Value}
    (hNonempty : items ≠ [])
    (hItems : ∀ i ∈ items, scope.Denotes (text i) (value i))
    (hParameterized :
      Composition.parameterizedOf (.classType (.declared d))
        (items.map value) = .ok w) :
    scope.Denotes (raw ++ "<" ++
      separator.intercalate (items.map text) ++ ">") w := by
  obtain ⟨-, -, -, hChecks, -, -⟩ :=
    Composition.parameterizedOf_eq_ok_iff.1 hParameterized
  obtain ⟨pairs, rfl, hPairs⟩ := exists_pairs fun i hMem =>
    (hItems i hMem).argument
      (Role.check_eq_ok_iff.1 (hChecks _ (List.mem_map_of_mem hMem))).2.1
  rw [List.map_map] at hParameterized ⊢
  have hArguments := TextOf.arguments hSeparates (text ∘ Prod.fst) Prod.snd
    (by simpa using hNonempty) fun pair hMem => (hPairs pair hMem).1
  have hMeanings := scope.meanings_map Prod.snd (value ∘ Prod.fst)
    fun pair hMem => (hPairs pair hMem).2
  exact ⟨_, (hRaw.parameterized hArguments).mono fun _ => .bare,
    meaning_parameterized_eq_some_iff.2 ⟨d, hLookup, _, hMeanings,
      hParameterized⟩⟩

theorem isBound_of_isObject {v : Value} (hObject : v.isObject = true) :
    v.IsBound := by
  match v, hObject with
  | .classType (.primitive p), hObject =>
      cases p <;> exact absurd hObject (by decide)
  | .classType (.declared d), _ => exact ⟨rfl, rfl⟩
  | .classType (.array c), _ => exact ⟨rfl, rfl⟩

/-- Every bound that a wildcard is made of can be one, `Object` included. -/
theorem isBound_of_subtypeOf {bounds : List Value} {w : Value}
    (hSubtype : Composition.subtypeOf bounds = .ok w) :
    ∀ b ∈ bounds, b.IsBound := by
  intro b hMem
  obtain ⟨hChecks, -, -⟩ := Composition.subtypeOf_eq_ok_iff.1 hSubtype
  by_cases hObject : b.isObject = true
  · exact isBound_of_isObject hObject
  · have hKept : b ∈ bounds.filter (fun b => !b.isObject) :=
      List.mem_filter.2 ⟨hMem, by simpa using hObject⟩
    rcases Composition.effectiveBounds_cases bounds with ⟨hNone, -⟩ | ⟨-, hEq⟩
    · exact absurd (hNone b hMem) hObject
    · rw [hEq] at hChecks
      obtain ⟨-, hPrimitive, hWildcard⟩ :=
        Role.check_eq_ok_iff.1 (hChecks b hKept)
      exact ⟨by simpa using hWildcard, hPrimitive⟩

theorem Denotes.upper {ι : Type} (text : ι → String) (value : ι → Value)
    {items : List ι} {w : Value} (hNonempty : items ≠ [])
    (hItems : ∀ i ∈ items, scope.Denotes (text i) (value i))
    (hSubtype : Composition.subtypeOf (items.map value) = .ok w) :
    scope.Denotes ("? extends " ++ " & ".intercalate (items.map text)) w := by
  obtain ⟨pairs, rfl, hPairs⟩ := exists_pairs fun i hMem =>
    (hItems i hMem).bound
      (isBound_of_subtypeOf hSubtype _ (List.mem_map_of_mem hMem))
  rw [List.map_map] at hSubtype ⊢
  have hBounds := TextOf.bounds (text ∘ Prod.fst) Prod.snd
    (by simpa using hNonempty) fun pair hMem => (hPairs pair hMem).1
  have hMeanings := scope.meanings_map Prod.snd (value ∘ Prod.fst)
    fun pair hMem => (hPairs pair hMem).2
  exact ⟨_, hBounds.upper,
    (meaning_upper_eq_some_iff (by simp)).2 ⟨_, hMeanings, hSubtype⟩⟩

theorem Denotes.lower {text : String} {v w : Value}
    (hText : scope.Denotes text v)
    (hSupertype : Composition.supertypeOf v = .ok w) :
    scope.Denotes ("? super " ++ text) w := by
  obtain ⟨hCheck, -, -⟩ := Composition.supertypeOf_eq_ok_iff.1 hSupertype
  obtain ⟨-, hPrimitive, hWildcard⟩ := Role.check_eq_ok_iff.1 hCheck
  obtain ⟨tree, hBound, hMeaning⟩ :=
    hText.bound ⟨by simpa using hWildcard, hPrimitive⟩
  exact ⟨_, hBound.lower, meaning_lower_eq_some_iff.2 ⟨v, hMeaning, hSupertype⟩⟩

end Scope

end JvmTypes
