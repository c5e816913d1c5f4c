import JvmTypes.Proofs.Arrays
import JvmTypes.Proofs.Sameness

/-!
# Values read back from their texts

The text of a value denotes the value, in either form: with array classes under
their internal names or in source form. The catalog has to be one whose names
can be written (`IsLexable`), for a class under any other name has no text of
its own. The induction is over formed values, and each of its cases is the rule
for the text of that composite; what the two forms share is everything but
classes.

## Main results

* `denotes_format`: the text of a formed value denotes it.
* `Formed.same_self`: a formed value is the same as itself.
* `format_parse`: whatever is built reads back, to a value that is the same and
  has the same text.
* `parse_parameterizedOf`: a class applied to an empty list of type arguments is
  what has no text.
-/

namespace JvmTypes

open Grammar

/-! ## Texts of lists of values -/

namespace Value

theorem formatAll_eq_map (canonical : Bool) (vs : List Value) :
    formatAll canonical vs = vs.map (format canonical) := by
  induction vs with
  | nil => rfl
  | cons v vs ih => rw [formatAll, ih, List.map_cons]

theorem formatBounds_eq_map (canonical : Bool) {vs : List Value}
    (hObject : ∀ v ∈ vs, v.isObject = false) :
    formatBounds canonical vs = vs.map (format canonical) := by
  induction vs with
  | nil => rfl
  | cons v vs ih =>
      obtain ⟨hHead, hRest⟩ := List.forall_mem_cons.1 hObject
      rw [formatBounds, if_neg (by simp [hHead]), ih hRest, List.map_cons]

private theorem format_unbounded (canonical : Bool) :
    (wildcard [object] []).format canonical = "?" := by
  have hObject : object.isObject = true := by decide
  rw [format, formatBounds, if_pos hObject, formatBounds]

private theorem format_upper (canonical : Bool) {bounds : List Value}
    (hNonempty : bounds ≠ []) (hObject : ∀ b ∈ bounds, b.isObject = false) :
    (wildcard bounds []).format canonical =
      "? extends " ++ " & ".intercalate (bounds.map (format canonical)) := by
  rw [format, formatBounds_eq_map canonical hObject]
  cases bounds with
  | nil => exact absurd rfl hNonempty
  | cons b bounds => rfl

private theorem format_lower (canonical : Bool) (upper : List Value)
    (bound : Value) :
    (wildcard upper [bound]).format canonical = "? super " ++
      bound.format canonical := by
  rw [format, formatAll, String.intercalate_singleton]

end Value

/-! ## Classes -/

theorem IsClass.of_arrays {catalog : Catalog} {n : Nat} {c : ClassType}
    (hClass : IsClass catalog (c.arrays n)) : IsClass catalog c := by
  induction n generalizing c with
  | zero => exact hClass
  | succ n ih =>
      cases ih hClass with
      | array hComponent => exact hComponent

private theorem IsClass.ne_void_of_arrays {catalog : Catalog} {n : Nat}
    {c : ClassType} (hClass : IsClass catalog (c.arrays (n + 1))) :
    c ≠ .primitive .void := by
  cases IsClass.of_arrays (c := .array c) hClass with
  | array _ hVoid => exact hVoid

namespace Scope

variable {scope : Scope}

section Lexable

variable (hLexable : ∀ name ∈ scope.catalog.names, IsLexable name.toList)
include hLexable

private theorem isLexable_of_find? {d : Declaration}
    (hFind : scope.catalog.find? d.name = some d) : IsLexable d.name.toList :=
  hLexable d.name (List.mem_map_of_mem (List.mem_of_find?_eq_some hFind))

private theorem denotes_declared {d : Declaration}
    (hFind : scope.catalog.find? d.name = some d) :
    scope.Denotes d.name (.classType (.declared d)) :=
  denotes_name (isLexable_of_find? hLexable hFind) hFind

/-- The `name` of an array class denotes it. -/
theorem denotes_internal {n : Nat} {c : ClassType}
    (hClass : IsClass scope.catalog (c.arrays (n + 1)))
    (hPlain : c.isArray = false) :
    scope.Denotes (c.arrays (n + 1)).name (.classType (c.arrays (n + 1))) := by
  have hVoid := hClass.ne_void_of_arrays
  have hElement : IsArrayElement scope.catalog c := by
    cases hClass.of_arrays with
    | primitive p => exact .primitive (by simpa using hVoid)
    | declared hFind =>
        have hName :=
          isClassName_of_isLexable (isLexable_of_find? hLexable hFind)
        exact .declared hFind ((isClassName_iff _).2 hName)
    | array => cases hPlain
  rw [ClassType.name_arrays_eq (Nat.succ_pos n)]
  exact denotes_internalText hElement (Nat.succ_pos n)

/-- The `classText` of a class denotes it, in either form. -/
theorem denotes_classText (canonical : Bool) {c : ClassType}
    (hClass : IsClass scope.catalog c) :
    scope.Denotes (Value.classText canonical c) (.classType c) := by
  cases canonical with
  | false =>
      rw [Value.classText_false]
      obtain ⟨n, element, hPlain, rfl⟩ := c.exists_arrays
      cases n with
      | succ n => exact denotes_internal hLexable hClass hPlain
      | zero =>
          cases hClass with
          | primitive p => exact denotes_primitive p
          | declared hFind => exact denotes_declared hLexable hFind
          | array => cases hPlain
  | true =>
      induction hClass with
      | primitive p => exact denotes_primitive p
      | declared hFind => exact denotes_declared hLexable hFind
      | array _ hVoid ih =>
          rw [Value.classText_true_array]
          exact ih.array rfl (Composition.arrayOf_classType_eq_ok_iff.2
            ⟨hVoid, rfl⟩)

/-! ## Values -/

/-- The text that `format` gives a formed value denotes it. -/
theorem denotes_format (canonical : Bool) {v : Value}
    (hFormed : Formed scope.catalog v) :
    scope.Denotes (v.format canonical) v := by
  induction hFormed with
  | classType hClass =>
      rw [Value.format]
      exact denotes_classText hLexable canonical hClass
  | @parameterized d arguments hFind hLength hNonempty hArguments
      hPrimitive ih =>
      have hRaw := textOf_name (isLexable_of_find? hLexable hFind)
      have hWhole :=
        Formed.parameterized hFind hLength hNonempty hArguments hPrimitive
      have hParameterized :
          Composition.parameterizedOf (.classType (.declared d))
            (arguments.map id) =
            .ok (.parameterized (.classType (.declared d)) arguments) := by
        rw [List.map_id]
        exact Composition.parameterizedOf_eq_ok_iff.2
          ⟨d, rfl, hLength, fun a hMem =>
          (hArguments a hMem).isPrimitive_iff_check.2 (hPrimitive a hMem),
          hWhole.hasPlaceholder, rfl⟩
      rw [Value.format, Value.formatAll_eq_map, Value.rawText]
      exact Denotes.parameterized hRaw
        (scope.lookup?_of_find? hFind) separates_commaBlank
        (Value.format canonical) id hNonempty ih hParameterized
  | array hComponent hClass hWildcard ih =>
      rw [Value.format]
      exact ih.array hWildcard ((Composition.arrayOf_eq_ok_iff hClass).2
        ⟨(hComponent.isComponent_iff_check hClass).2 hWildcard,
          hComponent.hasPlaceholder, rfl⟩)
  | unbounded =>
      rw [Value.format_unbounded]
      exact ⟨_, textOf_unbounded, rfl⟩
  | @upper bounds hNonempty hBounds hBound hObject ih =>
      have hEffective : Composition.effectiveBounds bounds = bounds := by
        have hFilter : bounds.filter (fun b => !b.isObject) = bounds :=
          List.filter_eq_self.2 fun b hMem => by simp [hObject b hMem]
        rcases Composition.effectiveBounds_cases bounds
          with ⟨hAll, -⟩ | ⟨-, hEq⟩
        · obtain ⟨b, hMem⟩ := List.exists_mem_of_ne_nil bounds hNonempty
          exact absurd (hAll b hMem) (by simp [hObject b hMem])
        · rw [hEq, hFilter]
      have hWhole := Formed.upper hNonempty hBounds hBound hObject
      have hSubtype : Composition.subtypeOf (bounds.map id) =
          .ok (.wildcard bounds []) := by
        rw [List.map_id, Composition.subtypeOf_eq_ok_iff, hEffective]
        exact ⟨fun b hMem => (hBounds b hMem).isBound_iff_check.2
          (hBound b hMem),
          hWhole.hasPlaceholder, rfl⟩
      rw [Value.format_upper canonical hNonempty hObject]
      exact Denotes.upper (Value.format canonical) id hNonempty ih hSubtype
  | lower hFormed hBound ih =>
      rw [Value.format_lower]
      exact ih.lower (Composition.supertypeOf_eq_ok_iff.2
        ⟨hFormed.isBound_iff_check.2 hBound,
          (Formed.lower hFormed hBound).hasPlaceholder, rfl⟩)

end Lexable

end Scope

/-! ## Sameness -/

/-- A value that is `Formed` is made of classes. -/
theorem Formed.over {catalog : Catalog} {v : Value}
    (hFormed : Formed catalog v) : v.Over fun _ => True := by
  have hObject : ∀ b ∈ [Value.object], b.Over fun _ => True := by
    intro b hMem
    rw [List.mem_singleton.1 hMem]
    exact .classType trivial
  induction hFormed with
  | classType => exact .classType trivial
  | parameterized _ _ _ _ _ ih => exact .parameterized (.classType trivial) ih
  | array _ _ _ ih => exact .array ih
  | unbounded => exact .wildcard hObject (by simp)
  | upper _ _ _ _ ih => exact .wildcard ih (by simp)
  | lower _ _ ih => exact .wildcard hObject (by simpa using ih)

/-- A value that is `Formed` is the same as itself. -/
theorem Formed.same_self {catalog : Catalog} {v : Value}
    (hFormed : Formed catalog v) : v.same v = true :=
  hFormed.over.same_self

namespace Scope

/-- Over a catalog whose names are lexable (`IsLexable`), every value that is
`Built` reads back from its text in either form, to a value that is the same and
has the same text again. The values that `parse` yields are among these. -/
theorem format_parse (scope : Scope)
    (hLexable : ∀ name ∈ scope.catalog.names, IsLexable name.toList) :
    (∀ v, Built scope.catalog v → ∀ canonical, ∃ w,
      (scope.parse (v.format canonical)).result = .ok w ∧ w.same v = true ∧
      v.same w = true ∧
        w.format canonical = v.format canonical) ∧
    ∀ text v, (scope.parse text).result = .ok v → Built scope.catalog v := by
  refine ⟨fun v hBuilt canonical => ?_, fun text v => scope.built_of_parse⟩
  have hSame := hBuilt.formed.same_self
  have hDenotes := denotes_format hLexable canonical hBuilt.formed
  exact ⟨v, parse_eq_ok_iff_denotes.2 hDenotes, hSame, hSame, rfl⟩

/-- `List<? super int[]>` reads back from its text in source form. -/
theorem format_parse_listOfInts :
    (∀ name ∈ listScope.catalog.names, IsLexable name.toList) ∧
    Built listScope.catalog listOfInts ∧
    ∃ w, (listScope.parse (listOfInts.format true)).result = .ok w ∧
      w.same listOfInts = true ∧
      listOfInts.same w = true ∧ w.format true = listOfInts.format true := by
  have hLexable : ∀ name ∈ listScope.catalog.names, IsLexable name.toList := by
    intro name hMem
    obtain rfl : name = "List" := List.mem_singleton.1 hMem
    exact isLexable_list
  have hBuilt := listScope.built_of_parse parse_listOfInts
  exact ⟨hLexable, hBuilt,
    (format_parse listScope hLexable).1 listOfInts hBuilt true⟩

/-! ## Type arguments -/

/-- Angle brackets behind a name have to have something between them: without,
`ofText` fails with `emptyArguments`. -/
theorem ofText_emptyArguments {name : String} (hName : IsLexable name.toList) :
    ∃ position, Expression.ofText (name ++ "<" ++ "" ++ ">") =
      .error ⟨.emptyArguments name, position⟩ := by
  obtain ⟨ls, hLexes, hDerives⟩ := textOf_name hName
  have hEmpty : Token.Lexes "".toList [] := .nil
  have hWhole := lexes_angles hLexes hEmpty
  obtain ⟨tokens, stop, hScan, -, hTokens⟩ := hWhole.scan 0
  obtain ⟨front, brackets, rfl, hFront, hBrackets⟩ :=
    List.map_eq_append_iff.1 hTokens
  obtain ⟨opening, rest, rfl, hOpening, -, hRest⟩ :=
    exists_of_lexemes_cons hBrackets
  obtain ⟨closing, rfl, hClosing, -⟩ := exists_of_lexemes_singleton hRest
  obtain ⟨span, hRun⟩ := Reader.run_of_isName [] hDerives hFront
  -- Behind the name the reader waits for a first argument, and meets a `>`.
  have hOpened := Reader.step_name_lt ⟨name, span⟩ [] hOpening
  have hRefused : Reader.step ⟨.start, [.arguments ⟨name, span⟩ []]⟩ closing =
      .error ⟨.emptyArguments name, some closing.start⟩ := by
    simp [Reader.step, Reader.start, hClosing]
  refine ⟨some closing.start, ?_⟩
  have hNonempty : name ++ "<" ++ "" ++ ">" ≠ "" := by
    intro hEmpty
    have hLength := congrArg (List.length ∘ String.toList) hEmpty
    simp at hLength
  rw [Expression.ofText, if_neg hNonempty, tokenize, hScan]
  show Expression.read (front ++ [opening, closing] ++ [stop]) = _
  rw [Expression.read, List.append_assoc, Reader.run_append_of_run _ hRun,
    List.cons_append, Reader.run_cons_of_step _ hOpened]
  simp [Reader.run, hRefused, bind, Except.bind]

private theorem parse_emptyArguments (scope : Scope) {name : String}
    (hName : IsLexable name.toList) :
    ∃ position, (scope.parse (name ++ "<" ++ "" ++ ">")).result =
      .error (.grammar ⟨.emptyArguments name, position⟩) := by
  obtain ⟨position, hText⟩ := ofText_emptyArguments hName
  refine ⟨position, ?_⟩
  rw [parse, hText]
  rfl

/-- What `parameterizedOf` makes of a class and type arguments that texts denote
reads back from its text, unless there are no arguments: a class without
parameters takes an empty list of them, but the angle brackets in its text may
not be empty. -/
theorem parse_parameterizedOf (scope : Scope)
    (hLexable : ∀ name ∈ scope.catalog.names, IsLexable name.toList)
    {d : Declaration} (hFind : scope.catalog.find? d.name = some d)
    {arguments : List Value} {v : Value}
    (hArguments : ∀ a ∈ arguments, ∃ text, (scope.parse text).result = .ok a)
    (hParameterized : Composition.parameterizedOf
      (.classType (.declared d)) arguments = .ok v)
    (canonical : Bool) :
    (arguments ≠ [] → (scope.parse (v.format canonical)).result = .ok v ∧
      v.same v = true) ∧
      (arguments = [] → ∃ position, (scope.parse (v.format canonical)).result =
        .error (.grammar ⟨.emptyArguments d.name, position⟩)) := by
  constructor
  · intro hNonempty
    have hFormed : Formed scope.catalog v :=
      formed_of_parameterizedOf (.classType (.declared hFind)) (fun a hMem => by
        obtain ⟨text, hParse⟩ := hArguments a hMem
        exact (scope.built_of_parse hParse).formed) hNonempty hParameterized
    exact ⟨parse_eq_ok_iff_denotes.2
      (denotes_format hLexable canonical hFormed),
      hFormed.same_self⟩
  · rintro rfl
    obtain ⟨-, -, -, -, -, rfl⟩ :=
      Composition.parameterizedOf_eq_ok_iff.1 hParameterized
    exact scope.parse_emptyArguments (isLexable_of_find? hLexable hFind)

/-- `List<List<? super int[]>>` reads back. -/
theorem parse_parameterizedOf_list :
    let v :=
      Value.parameterized (.classType (.declared ⟨"List", ["E"]⟩)) [listOfInts]
    Composition.parameterizedOf (.classType (.declared ⟨"List", ["E"]⟩))
      [listOfInts] = .ok v ∧
      (listScope.parse (v.format false)).result = .ok v := by
  intro v
  have hLexable : ∀ name ∈ listScope.catalog.names, IsLexable name.toList := by
    intro name hMem
    obtain rfl : name = "List" := List.mem_singleton.1 hMem
    exact isLexable_list
  have hArguments : ∀ a ∈ [listOfInts], ∃ text,
      (listScope.parse text).result = .ok a :=
    List.forall_mem_singleton.2 ⟨_, parse_listOfInts⟩
  have hParameterized :
      Composition.parameterizedOf (.classType (.declared ⟨"List", ["E"]⟩))
        [listOfInts] =
        .ok v := rfl
  have hParse :=
    parse_parameterizedOf listScope hLexable rfl hArguments hParameterized false
  exact ⟨hParameterized, (hParse.1 (List.cons_ne_nil _ _)).1⟩

/-- A class without parameters is applied to no arguments by `parameterizedOf`,
and printed with empty angle brackets, which no text may have. -/
theorem parse_parameterizedOf_noArguments :
    let scope : Scope := ⟨⟨[⟨"List", []⟩]⟩, "java.lang"⟩
    let v := Value.parameterized (.classType (.declared ⟨"List", []⟩)) []
    Composition.parameterizedOf (.classType (.declared ⟨"List", []⟩))
      [] = .ok v ∧
      v.format false = "List<>" ∧ ∃ position, (scope.parse "List<>").result =
        .error (.grammar ⟨.emptyArguments "List", position⟩) := by
  intro scope v
  exact ⟨rfl, by decide, scope.parse_emptyArguments isLexable_list⟩

end Scope

end JvmTypes
