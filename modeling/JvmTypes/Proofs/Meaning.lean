import JvmTypes.Proofs.Composition
import JvmTypes.Proofs.Spelling
import JvmTypes.Scope

/-!
# What expressions mean

An evaluation traces events and reports errors with their offsets. What an
expression *means* is the value it evaluates to, if it does; events, errors and
spans play no part in that (`meaning_erase`), and each kind of expression has
one equation for it. A text denotes what the tree of its lexemes means
(`parse_eq_ok_iff`).

## Main results

* `meaning_raw`, `meaning_array`, `meaning_parameterized`, ...: the equations.
* `meaning_internal_primitive`, `meaning_internal_class`: internal array names.
* `find?_of_lookup?`: what a name means is in the catalog under its own name.
* `parse_eq_ok_iff`: the value of a text.
-/

namespace JvmTypes

open Grammar

/-! ## Results apart from events -/

theorem toOption_eq_some_iff {ε α : Type} {x : Except ε α} {a : α} :
    x.toOption = some a ↔ x = .ok a := by
  cases x <;> simp [Except.toOption]

@[simp] theorem toOption_mapError {ε ε' α : Type} (f : ε → ε')
    (x : Except ε α) : (x.mapError f).toOption = x.toOption := by
  cases x <;> rfl

namespace Traced

variable {event error α β : Type}

/-- What a computation yields, if it succeeds. -/
def value? (x : Traced event error α) : Option α := x.result.toOption

theorem value?_eq_some_iff {x : Traced event error α} {a : α} :
    x.value? = some a ↔ x.result = .ok a := toOption_eq_some_iff

@[simp] theorem value?_pure (a : α) :
    (pure a : Traced event error α).value? = some a := rfl

@[simp] theorem value?_fail (e : error) :
    (fail e : Traced event error α).value? = none := rfl

@[simp] theorem value?_ofExcept (x : Except error α) :
    (ofExcept x : Traced event error α).value? = x.toOption := rfl

@[simp] theorem value?_bind (x : Traced event error α)
    (f : α → Traced event error β) :
    (x >>= f).value? = x.value?.bind fun a => (f a).value? := by
  obtain ⟨events, a | e⟩ := x <;> rfl

@[simp] theorem value?_emit (e : event) :
    (emit e : Traced event error Unit).value? = some () := rfl

end Traced

/-! ## Array classes -/

namespace ClassType

/-- The text of a class inside an internal array name: the letter of a primitive
type, the name of an array class, and any other name between `L` and `;`. -/
def descriptor : ClassType → String
  | primitive p => p.code.toString
  | array c => name (array c)
  | declared d => "L" ++ d.name ++ ";"

/-- The name of an array class is a bracket and the `descriptor` of its
component. -/
theorem name_array (c : ClassType) : (array c).name = "[" ++ c.descriptor := by
  cases c with
  | declared d =>
      rw [name, descriptor, ← String.append_assoc, ← String.append_assoc]
      rfl
  | primitive p => rw [name, descriptor]
  | array component => rw [name, descriptor]

/-- The array class with `n` dimensions over a class. -/
def arrays : Nat → ClassType → ClassType
  | 0, c => c
  | n + 1, c => arrays n (array c)

theorem arrays_succ (n : Nat) (c : ClassType) :
    c.arrays (n + 1) = array (c.arrays n) := by
  induction n generalizing c with
  | zero => rfl
  | succ n ih => rw [arrays, ih, arrays]

/-- Every class is `arrays` of some number of dimensions over a class that is no
array class. -/
theorem exists_arrays (c : ClassType) : ∃ n element, isArray element = false ∧
    c = element.arrays n := by
  induction c with
  | declared d => exact ⟨0, declared d, rfl, rfl⟩
  | primitive p => exact ⟨0, primitive p, rfl, rfl⟩
  | array component ih =>
      obtain ⟨n, element, hPlain, rfl⟩ := ih
      exact ⟨n + 1, element, hPlain, (arrays_succ n element).symm⟩

/-- The `name` of an array class has a bracket for each dimension. -/
theorem name_arrays (n : Nat) (c : ClassType) :
    (c.arrays (n + 1)).name.toList = List.replicate (n + 1) '[' ++
      c.descriptor.toList := by
  induction n with
  | zero =>
      rw [arrays, arrays, name_array, String.toList_append]
      rfl
  | succ n ih =>
      have hDescriptor : (c.arrays (n + 1)).descriptor =
          (c.arrays (n + 1)).name := by
        rw [arrays_succ, descriptor]
      rw [arrays_succ, name_array, hDescriptor, String.toList_append, ih]
      rfl

end ClassType

namespace Scope

variable (scope : Scope)

theorem arrayTimes_classType (n : Nat) {c : ClassType}
    (hVoid : c ≠ .primitive .void) :
    arrayTimes n (.classType c) = .ok (.classType (c.arrays n)) := by
  induction n generalizing c with
  | zero => rfl
  | succ n ih =>
      have hArray := Composition.arrayOf_classType_eq_ok_iff.2 ⟨hVoid, rfl⟩
      rw [arrayTimes, hArray]
      exact ih (by simp)

/-! ## Names -/

/-- The class that `resolveClass` yields for a name, if there is one: that of
the name itself, or that of a name without dots in the default package. -/
def lookup? (name : String) : Option Declaration :=
  (scope.catalog.find? name).or
    (if name.toList.contains '.' || scope.defaultPackage = "" then none
    else scope.catalog.find? (scope.defaultPackage ++ "." ++ name))

@[simp] theorem value?_resolveClass (name : String) (position : Option Int) :
    (scope.resolveClass name position).value? = scope.lookup? name := by
  rw [resolveClass, lookup?]
  cases scope.catalog.find? name with
  | some d => rfl
  | none =>
      rw [Option.none_or]
      dsimp only
      split
      · rfl
      · rw [Traced.value?_bind, Traced.value?_emit, Option.bind_some]
        cases scope.catalog.find? (scope.defaultPackage ++ "." ++ name) <;> rfl

/-- A name of the catalog means by `lookup?` the class of that name. -/
theorem lookup?_of_find? {name : String} {d : Declaration}
    (hFind : scope.catalog.find? name = some d) :
    scope.lookup? name = some d := by
  rw [lookup?, hFind, Option.some_or]

private theorem name_of_find? {catalog : Catalog} {name : String}
    {d : Declaration} (hFind : catalog.find? name = some d) :
    d.name = name := by
  simpa using List.find?_some hFind

/-- The class that `lookup?` yields for a name is in the catalog under its own
name. -/
theorem find?_of_lookup? {name : String} {d : Declaration}
    (hLookup : scope.lookup? name = some d) :
    scope.catalog.find? d.name = some d := by
  rw [lookup?] at hLookup
  rcases Option.or_eq_some_iff.1 hLookup with hFind | ⟨-, hFind⟩
  · rwa [name_of_find? hFind]
  · split at hFind
    · cases hFind
    · rwa [name_of_find? hFind]

/-! ## The equations -/

/-- The value that `evaluate` yields for an expression, if it does. -/
def meaning (e : Expression) : Option Value := (scope.evaluate e).value?

/-- The values that `evaluateAll` yields for several expressions, if it does for
all. -/
def meanings (es : List Expression) : Option (List Value) :=
  (scope.evaluateAll es).value?

@[simp] theorem value?_composed (result : Except CompositionError Value) :
    (composed result).value? = result.toOption := by
  rw [composed, Traced.value?_ofExcept, toOption_mapError]

@[simp] theorem meanings_nil : scope.meanings [] = some [] := by
  rw [meanings, evaluateAll, Traced.value?_pure]

@[simp] theorem meanings_cons (e : Expression) (es : List Expression) :
    scope.meanings (e :: es) =
      (scope.meaning e).bind fun v =>
        (scope.meanings es).map fun vs => v :: vs := by
  rw [meanings, evaluateAll, Traced.value?_bind, ← meaning]
  refine congrArg _ (funext fun v => ?_)
  rw [Traced.value?_bind, ← meanings]
  cases scope.meanings es <;> rfl

theorem meanings_cons_eq_some_iff {e : Expression} {es : List Expression}
    {vs : List Value} :
    scope.meanings (e :: es) = some vs ↔
      ∃ w, scope.meaning e = some w ∧ ∃ ws, scope.meanings es = some ws ∧
        vs = w :: ws := by
  rw [meanings_cons, Option.bind_eq_some_iff]
  simp only [Option.map_eq_some_iff, eq_comm (b := vs)]

theorem mem_meanings_iff {es : List Expression} {vs : List Value}
    (hMeanings : scope.meanings es = some vs) {v : Value} :
    v ∈ vs ↔ ∃ e ∈ es, scope.meaning e = some v := by
  induction es generalizing vs with
  | nil =>
      rw [meanings_nil] at hMeanings
      cases hMeanings
      simp
  | cons e es ih =>
      obtain ⟨w, hHead, ws, hTail, rfl⟩ :=
        scope.meanings_cons_eq_some_iff.1 hMeanings
      rw [List.mem_cons, ih hTail]
      simp [hHead, eq_comm]

theorem meaning_primitive (p : Primitive) (span : Option Span) :
    scope.meaning (.primitive p.name span) =
      some (.classType (.primitive p)) := by
  rw [meaning, evaluate, Primitive.ofName?_name, Traced.value?_pure]

theorem meaning_raw (raw : RawName) :
    scope.meaning (.raw raw) =
      (scope.lookup? raw.name).map fun d => .classType (.declared d) := by
  rw [meaning, evaluate, Traced.value?_bind, value?_resolveClass]
  cases scope.lookup? raw.name <;> rfl

theorem meaning_array (component : Expression) (span : Option Span) :
    scope.meaning (.array component span) =
      (scope.meaning component).bind fun v =>
        (Composition.arrayOf v).toOption := by
  rw [meaning, evaluate, Traced.value?_bind, ← meaning]
  simp only [value?_composed]

theorem length_meanings {es : List Expression} {vs : List Value}
    (hMeanings : scope.meanings es = some vs) : vs.length = es.length := by
  induction es generalizing vs with
  | nil =>
      rw [meanings_nil] at hMeanings
      cases hMeanings
      rfl
  | cons e es ih =>
      obtain ⟨v, -, rest, hRest, rfl⟩ :=
        scope.meanings_cons_eq_some_iff.1 hMeanings
      rw [List.length_cons, List.length_cons, ih hRest]

/-- The `meaning` of a class with type arguments. Evaluation counts the
arguments before it looks at their values, but that makes no difference to the
result. -/
theorem meaning_parameterized (raw : RawName) (arguments : List Expression)
    (span : Option Span) :
    scope.meaning (.parameterized raw arguments span) =
      (scope.lookup? raw.name).bind fun d =>
        (scope.meanings arguments).bind fun vs =>
          (Composition.parameterizedOf (.classType (.declared d))
            vs).toOption := by
  rw [meaning, evaluate, Traced.value?_bind, value?_resolveClass]
  refine congrArg _ (funext fun d => ?_)
  by_cases hLength : arguments.length = d.parameters.length
  · rw [if_pos hLength, Traced.value?_bind, ← meanings]
    simp only [value?_composed]
  · rw [if_neg hLength, Traced.value?_fail, eq_comm, Option.bind_eq_none_iff]
    intro vs hMeanings
    have hCount : vs.length ≠ d.parameters.length := by
      rw [length_meanings scope hMeanings]
      exact hLength
    rw [Composition.parameterizedOf, if_neg hCount]
    rfl

theorem meaning_upper {kind : BoundKind} (hKind : kind ≠ .lower)
    (bounds : List Expression) (span : Option Span) :
    scope.meaning (.wildcard kind bounds span) =
      (scope.meanings bounds).bind fun vs =>
        (Composition.subtypeOf vs).toOption := by
  rw [meaning, evaluate, Traced.value?_bind, ← meanings]
  refine congrArg _ (funext fun vs => ?_)
  cases kind with
  | lower => exact absurd rfl hKind
  | unbounded => rw [value?_composed]
  | upper => rw [value?_composed]

theorem meaning_lower (bound : Expression) (span : Option Span) :
    scope.meaning (.wildcard .lower [bound] span) =
      (scope.meaning bound).bind fun v =>
        (Composition.supertypeOf v).toOption := by
  rw [meaning, evaluate, Traced.value?_bind, ← meanings, meanings_cons]
  cases scope.meaning bound with
  | none => rfl
  | some v =>
      rw [meanings_nil]
      exact value?_composed _

/-! ## The equations, read from the value -/

variable {scope}

theorem meaning_raw_eq_some_iff {raw : RawName} {v : Value} :
    scope.meaning (.raw raw) = some v ↔
      ∃ d, scope.lookup? raw.name = some d ∧ v = .classType (.declared d) := by
  rw [meaning_raw, Option.map_eq_some_iff]
  simp only [eq_comm (b := v)]

theorem meaning_array_eq_some_iff {component : Expression} {span : Option Span}
    {v : Value} :
    scope.meaning (.array component span) = some v ↔
      ∃ w, scope.meaning component = some w ∧
        Composition.arrayOf w = .ok v := by
  rw [meaning_array, Option.bind_eq_some_iff]
  simp only [toOption_eq_some_iff]

theorem meaning_parameterized_eq_some_iff {raw : RawName}
    {arguments : List Expression} {span : Option Span} {v : Value} :
    scope.meaning (.parameterized raw arguments span) = some v ↔
      ∃ d, scope.lookup? raw.name = some d ∧
        ∃ vs, scope.meanings arguments = some vs ∧
        Composition.parameterizedOf (.classType (.declared d)) vs = .ok v := by
  rw [meaning_parameterized, Option.bind_eq_some_iff]
  simp only [Option.bind_eq_some_iff, toOption_eq_some_iff]

theorem meaning_upper_eq_some_iff {kind : BoundKind} (hKind : kind ≠ .lower)
    {bounds : List Expression} {span : Option Span} {v : Value} :
    scope.meaning (.wildcard kind bounds span) = some v ↔
      ∃ vs, scope.meanings bounds = some vs ∧
        Composition.subtypeOf vs = .ok v := by
  rw [scope.meaning_upper hKind, Option.bind_eq_some_iff]
  simp only [toOption_eq_some_iff]

theorem meaning_lower_eq_some_iff {bound : Expression} {span : Option Span}
    {v : Value} :
    scope.meaning (.wildcard .lower [bound] span) = some v ↔
      ∃ w, scope.meaning bound = some w ∧
        Composition.supertypeOf w = .ok v := by
  rw [meaning_lower, Option.bind_eq_some_iff]
  simp only [toOption_eq_some_iff]

variable (scope)

/-! ## Internal array names -/

theorem meaning_internal_primitive {text : String} (span : Option Span)
    {n : Nat} {p : Primitive} (hVoid : p ≠ .void)
    (hText : text.toList = List.replicate n '[' ++ [p.code]) :
    scope.meaning (.internal text span) =
      some (.classType ((ClassType.primitive p).arrays n)) := by
  have hHead : [p.code].head? ≠ some '[' :=
    InternalName.head?_ne_bracket_of_isElement (.inl ⟨p, hVoid, rfl⟩)
  rw [meaning, evaluate, evaluateInternal, hText,
    InternalName.element_brackets n hHead, InternalName.depth_brackets n hHead]
  simp only [Primitive.ofCode?_code hVoid, value?_composed]
  rw [arrayTimes_classType n (by simpa using hVoid)]
  rfl

theorem meaning_internal_class {text : String} (span : Option Span) {n : Nat}
    {name : List Char}
    (hText : text.toList = List.replicate n '[' ++
      InternalName.classDescriptor name) :
    scope.meaning (.internal text span) =
      (scope.lookup? (String.ofList name)).map fun d =>
        .classType ((ClassType.declared d).arrays n) := by
  have hHead : (InternalName.classDescriptor name).head? ≠ some '[' := by
    simp [InternalName.classDescriptor]
  have hLetter : ∀ c, InternalName.classDescriptor name ≠ [c] := by
    intro c
    simp [InternalName.classDescriptor]
  rw [meaning, evaluate, evaluateInternal, hText,
    InternalName.element_brackets n hHead, InternalName.depth_brackets n hHead]
  split
  · next hSingle => exact absurd hSingle (hLetter _)
  · rw [evaluateClassArray, Traced.value?_bind, value?_resolveClass,
      InternalName.body_classDescriptor]
    cases scope.lookup? (String.ofList name) with
    | none => rfl
    | some d =>
        rw [Option.bind_some, value?_composed, arrayTimes_classType n (by simp)]
        rfl

/-- The `meaning` of an internal array name is an array class over a primitive
type or over a class of the catalog. -/
theorem exists_arrays_of_internal {text : String}
    (hInternal : InternalName.IsInternalName text.toList) {span : Option Span}
    {v : Value} (hMeaning : scope.meaning (.internal text span) = some v) :
    ∃ n c, v = .classType (ClassType.arrays (n + 1) c) ∧
      ((∃ p, p ≠ .void ∧ c = .primitive p) ∨
        ∃ d, scope.catalog.find? d.name = some d ∧ c = .declared d) := by
  obtain ⟨n, descriptor, hPositive, hElement, hText⟩ := hInternal
  obtain ⟨n, rfl⟩ := Nat.exists_eq_succ_of_ne_zero (Nat.ne_of_gt hPositive)
  rcases hElement with ⟨p, hVoid, rfl⟩ | ⟨name, -, rfl⟩
  · rw [scope.meaning_internal_primitive span hVoid hText] at hMeaning
    cases hMeaning
    exact ⟨n, .primitive p, rfl, .inl ⟨p, hVoid, rfl⟩⟩
  · rw [scope.meaning_internal_class span hText] at hMeaning
    obtain ⟨d, hLookup, rfl⟩ := Option.map_eq_some_iff.1 hMeaning
    exact ⟨n, .declared d, rfl, .inr ⟨d, scope.find?_of_lookup? hLookup, rfl⟩⟩

/-! ## Spans -/

mutual

/-- The `meaning` of an expression does not depend on its spans. -/
theorem meaning_erase (e : Expression) :
    scope.meaning e.erase = scope.meaning e := by
  cases e with
  | primitive name span =>
      rw [Expression.erase, meaning, meaning, evaluate, evaluate]
      cases Primitive.ofName? name <;> rfl
  | raw r => rw [Expression.erase, meaning_raw, meaning_raw]
  | internal encoded span =>
      have hPosition : ∀ position : Option Int,
          (scope.evaluateInternal encoded position).value? =
            (scope.evaluateInternal encoded none).value? := by
        intro position
        unfold evaluateInternal evaluateClassArray
        dsimp only
        split
        · split
          · rfl
          · simp only [Traced.value?_bind, value?_resolveClass]
        · simp only [Traced.value?_bind, value?_resolveClass]
      rw [Expression.erase, meaning, meaning, evaluate, evaluate]
      exact (hPosition _).symm
  | array component span =>
      rw [Expression.erase, meaning_array, meaning_array,
        meaning_erase component]
  | parameterized r arguments span =>
      rw [Expression.erase, meaning_parameterized, meaning_parameterized,
        meanings_eraseAll arguments]
  | wildcard kind bounds span =>
      rw [Expression.erase, meaning, meaning, evaluate, evaluate,
        Traced.value?_bind, Traced.value?_bind, ← meanings, ← meanings,
        meanings_eraseAll bounds]

private theorem meanings_eraseAll (es : List Expression) :
    scope.meanings (Expression.eraseAll es) = scope.meanings es := by
  cases es with
  | nil => rfl
  | cons e es =>
      rw [Expression.eraseAll, meanings_cons, meanings_cons, meaning_erase e,
        meanings_eraseAll es]

end

/-! ## Texts -/

/-- A text whose tree is known ends as `evaluate` does on the tree. -/
theorem result_parse {scope : Scope} {text : String} {e : Expression}
    (hText : Expression.ofText text = .ok e) :
    (scope.parse text).result = (scope.evaluate e).result := by
  rw [parse, hText]
  show (scope.evaluate e >>= _ : Traced Event Error Value).result = _
  generalize scope.evaluate e = evaluation
  obtain ⟨events, result⟩ := evaluation
  cases result <;> rfl

/-- A text denotes by `parse` what the tree that its lexemes derive means. -/
theorem parse_eq_ok_iff {text : String} {v : Value} :
    (scope.parse text).result = .ok v ↔
      ∃ tree, TextOf IsType text tree ∧ scope.meaning tree = some v := by
  have hValue : (scope.parse text).value? =
      (Expression.ofText text).toOption.bind scope.meaning := by
    rw [parse, Traced.value?_bind, Traced.value?_ofExcept, toOption_mapError]
    refine congrArg _ (funext fun e => ?_)
    rw [Traced.value?_bind, ← meaning]
    cases scope.meaning e <;> rfl
  rw [← Traced.value?_eq_some_iff, hValue, Option.bind_eq_some_iff]
  constructor
  · rintro ⟨e, hText, hMeaning⟩
    refine ⟨e.erase, Expression.ofText_iff_textOf.1
      ⟨e, toOption_eq_some_iff.1 hText, rfl⟩, ?_⟩
    rw [meaning_erase, hMeaning]
  · rintro ⟨tree, hText, hMeaning⟩
    obtain ⟨e, hRead, rfl⟩ := Expression.ofText_iff_textOf.2 hText
    exact ⟨e, toOption_eq_some_iff.2 hRead, by rwa [meaning_erase] at hMeaning⟩

end Scope

/-! ## A scope with one class -/

/-- A scope that knows `List<E>` alone. -/
def listScope : Scope := ⟨⟨[⟨"List", ["E"]⟩]⟩, "java.lang"⟩

theorem isLexable_list : IsLexable "List".toList := by
  refine ⟨["List".toList], by simp, fun w hMem => ?_, rfl⟩
  rw [List.mem_singleton.1 hMem]
  exact ⟨'L', "ist".toList, rfl, by decide, List.all_eq_true.1 rfl, by decide⟩

/-- The value of `List<? super int[]>`. -/
def listOfInts : Value :=
  .parameterized (.classType (.declared ⟨"List", ["E"]⟩))
    [.wildcard [.object] [.classType (.array (.primitive .int))]]

theorem parse_listOfInts :
    (listScope.parse "List<? super int[]>").result = .ok listOfInts := by
  have hBound := (textOf_primitive .int).array rfl
  have hArgument := TextOf.lower (hBound.mono fun _ hBare => ⟨hBare, rfl⟩)
  have hArguments := TextOf.arguments separates_comma Prod.fst Prod.snd
    (List.cons_ne_nil (_, _) []) (List.forall_mem_singleton.2
      (hArgument.mono fun _ hType => ⟨hType, rfl⟩))
  have hText := (textOf_name isLexable_list).parameterized hArguments
  refine listScope.parse_eq_ok_iff.2 ⟨_, hText.mono fun _ => .bare, ?_⟩
  rfl

end JvmTypes
