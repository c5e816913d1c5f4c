import JvmTypes.Proofs.WellFormed

/-!
# Parts of values

A value is made of parts, each of which stands at a place inside its whole.
`Part` names them all, down to the components of array classes, and `WellPlaced`
says what may stand where, one sentence a field. Going from a value to one of
its parts keeps what is known of it (`Stands`), so every part of a formed value
is well placed.

## Main results

* `Formed.stands`: a part of a formed value is formed as well, except that
  `Object` stands as the bound of what has no other.
* `Scope.wellPlaced_of_parse`: every part of what a text denotes is well placed.
-/

namespace JvmTypes

/-! ## Places -/

/-- Where a part stands: as the whole value, as the component of an array class,
or as a part of a composite. An upper bound stands among all upper bounds. -/
inductive Place where
  | whole
  | element
  | raw
  | argument
  | upper (bounds : List Value)
  | lower
  | component

/-- The parts of a value and the `Place` of each. -/
inductive Part (v : Value) : Place → Value → Prop
  | whole : Part v .whole v
  | element {place : Place} {c : ClassType}
      (hPart : Part v place (.classType (.array c))) :
      Part v .element (.classType c)
  | raw {place : Place} {r : Value} {arguments : List Value}
      (hPart : Part v place (.parameterized r arguments)) : Part v .raw r
  | argument {place : Place} {r a : Value} {arguments : List Value}
      (hPart : Part v place (.parameterized r arguments))
      (hMem : a ∈ arguments) :
      Part v .argument a
  | upper {place : Place} {b : Value} {bounds others : List Value}
      (hPart : Part v place (.wildcard bounds others)) (hMem : b ∈ bounds) :
      Part v (.upper bounds) b
  | lower {place : Place} {b : Value} {bounds others : List Value}
      (hPart : Part v place (.wildcard others bounds)) (hMem : b ∈ bounds) :
      Part v .lower b
  | component {place : Place} {c : Value} (hPart : Part v place (.array c)) :
      Part v .component c

/-- What may stand at a place inside a value over a catalog. -/
structure WellPlaced (catalog : Catalog) (place : Place) (part : Value) :
    Prop where
  /-- A class that is no array class is a primitive type or in the catalog, or
  it is the `Object` that alone bounds a wildcard from above. -/
  plainClass : ∀ c, part = .classType c → c.isArray = false →
    (∃ p, c = .primitive p) ∨
    (∃ d, c = .declared d ∧ catalog.find? d.name = some d) ∨
      (c = .object ∧ place = .upper [.object])
  /-- An array class is not that of `void`, and its name is a bracket and the
  descriptor of its component. -/
  arrayClass : ∀ c, part = .classType (.array c) →
    c ≠ .primitive .void ∧ (ClassType.array c).name = "[" ++ c.descriptor
  /-- Type arguments are applied to a class of the catalog, as many as it takes
  and at least one. -/
  parameterized : ∀ raw arguments, part = .parameterized raw arguments →
    ∃ d, raw = .classType (.declared d) ∧ catalog.find? d.name = some d ∧
      arguments.length = (ClassType.declared d).arity ∧ 1 ≤ arguments.length
  /-- A wildcard is the whole value or a type argument. -/
  wildcardPlace : part.isWildcard = true → place = .whole ∨ place = .argument
  /-- A wildcard is bounded from above alone, by `Object` only if by nothing
  else, or by one bound from below and `Object` from above. -/
  wildcardBounds : ∀ upper lower, part = .wildcard upper lower →
    (lower = [] ∧ upper ≠ [] ∧
      ((∃ b ∈ upper, b.isObject = true) → upper = [.object])) ∨
      (upper = [.object] ∧ ∃ bound, lower = [bound])
  /-- A primitive type is neither a type argument nor a bound. -/
  primitivePlace : part.isPrimitive = true →
    place ≠ .argument ∧ place ≠ .lower ∧ ∀ bounds, place ≠ .upper bounds
  /-- A composite array is one of a class with type arguments or of another
  composite array. -/
  component : ∀ c, part = .array c →
    (∃ raw arguments, c = .parameterized raw arguments) ∨
    ∃ inner, c = .array inner
  /-- No variable, no placeholder and nothing that is no type stands
  anywhere. -/
  closed : (∀ x, part ≠ .var x) ∧ (∀ p, part ≠ .placeholder p) ∧
  ∀ x, part ≠ .foreign x

/-! ## From a value to its parts -/

/-- What is known of a part: it is formed and in a place for its kind, or it is
the `Object` that alone bounds a wildcard from above. -/
inductive Stands (catalog : Catalog) : Place → Value → Prop
  | object : Stands catalog (.upper [.object]) .object
  | formed {place : Place} {part : Value} (hFormed : Formed catalog part)
      (hWildcard : part.isWildcard = true → place = .whole ∨ place = .argument)
      (hPrimitive : part.isPrimitive = true →
        place ≠ .argument ∧ place ≠ .lower ∧ ∀ bounds, place ≠ .upper bounds) :
      Stands catalog place part

section Parts

variable {catalog : Catalog} {v part : Value} {place : Place}

/-- A composite or an array class that `Stands` somewhere is `Formed`. -/
theorem Stands.formed_of_ne_object (hStands : Stands catalog place part)
    (hObject : part ≠ .object) : Formed catalog part := by
  cases hStands with
  | object => exact absurd rfl hObject
  | formed hFormed => exact hFormed

/-- What can be a bound `Stands` wherever a primitive type or a wildcard
cannot. -/
theorem Stands.of_isBound (hFormed : Formed catalog part)
    (hBound : part.IsBound) : Stands catalog place part :=
  .formed hFormed (by simp [hBound.1]) (by simp [hBound.2])

/-- The parts of a `Formed` value are formed, each in a place for its kind. -/
theorem Formed.stands (hValue : Formed catalog v) (hPart : Part v place part) :
    Stands catalog place part := by
  -- One step from a part to a part of it, over the path from the whole value.
  induction hPart with
  | whole => exact .formed hValue (by simp) (by simp)
  | element _ ih =>
      have hFormed := ih.formed_of_ne_object
        (by simp [Value.object, ClassType.object, ClassType.ofName])
      cases hFormed.isClass_of_classType with
      | array hComponent _ =>
          exact .formed (.classType hComponent)
            (by simp [Value.isWildcard]) (by simp)
  | raw _ ih =>
      cases ih.formed_of_ne_object (by simp [Value.object]) with
      | parameterized hFind =>
          exact .of_isBound (.classType (.declared hFind)) ⟨rfl, rfl⟩
  | argument _ hMem ih =>
      cases ih.formed_of_ne_object (by simp [Value.object]) with
      | parameterized _ _ _ hArguments hPrimitive =>
          exact .formed (hArguments _ hMem) (by simp)
            (by simp [hPrimitive _ hMem])
  | upper _ hMem ih =>
      cases ih.formed_of_ne_object (by simp [Value.object]) with
      | unbounded =>
          rw [List.mem_singleton.1 hMem]
          exact .object
      | upper _ hBounds hBound =>
          exact .of_isBound (hBounds _ hMem) (hBound _ hMem)
      | lower =>
          rw [List.mem_singleton.1 hMem]
          exact .object
  | lower _ hMem ih =>
      cases ih.formed_of_ne_object (by simp [Value.object]) with
      | unbounded => cases hMem
      | upper => cases hMem
      | lower hFormed hBound =>
          rw [List.mem_singleton.1 hMem]
          exact .of_isBound hFormed hBound
  | component _ ih =>
      cases ih.formed_of_ne_object (by simp [Value.object]) with
      | array hComponent hClass hWildcard =>
          exact .of_isBound hComponent
            ⟨hWildcard, Value.isPrimitive_of_not_class hClass⟩

/-- What `Stands` somewhere is well placed there. -/
theorem Stands.wellPlaced (hStands : Stands catalog place part) :
    WellPlaced catalog place part := by
  cases hStands with
  | object =>
      exact
        { plainClass := by
            rintro c ⟨⟩ -
            exact .inr (.inr ⟨rfl, rfl⟩)
          arrayClass := by rintro c ⟨⟩
          parameterized := by rintro raw arguments ⟨⟩
          wildcardPlace := by rintro ⟨⟩
          wildcardBounds := by rintro upper lower ⟨⟩
          primitivePlace := by rintro ⟨⟩
          component := by rintro c ⟨⟩
          closed := by simp [Value.object] }
  | formed hFormed hWildcard hPrimitive =>
      refine ⟨?_, ?_, ?_, hWildcard, ?_, hPrimitive, ?_, ?_⟩
      · rintro c rfl hArray
        cases hFormed.isClass_of_classType with
        | primitive p => exact .inl ⟨p, rfl⟩
        | declared hFind => exact .inr (.inl ⟨_, rfl, hFind⟩)
        | array => cases hArray
      · rintro c rfl
        cases hFormed.isClass_of_classType with
        | array _ hVoid => exact ⟨hVoid, c.name_array⟩
      · rintro raw arguments rfl
        cases hFormed with
        | parameterized hFind hLength hNonempty =>
            refine ⟨_, rfl, hFind, ?_, List.length_pos_iff.2 hNonempty⟩
            rw [hLength, ClassType.arity, ClassType.typeVariables,
              Declaration.typeVariables, List.length_map]
      · rintro upper lower rfl
        cases hFormed with
        | unbounded => exact .inl ⟨rfl, by simp, fun _ => rfl⟩
        | upper hNonempty _ _ hObject =>
            refine .inl ⟨rfl, hNonempty, ?_⟩
            rintro ⟨b, hMem, hIs⟩
            simp [hObject b hMem] at hIs
        | lower => exact .inr ⟨rfl, _, rfl⟩
      · rintro c rfl
        cases hFormed with
        | array hComponent hClass hTree =>
            cases hComponent with
            | classType => cases hClass
            | parameterized => exact .inl ⟨_, _, rfl⟩
            | array => exact .inr ⟨_, rfl⟩
            | unbounded => cases hTree
            | upper => cases hTree
            | lower => cases hTree
      · refine ⟨?_, ?_, ?_⟩ <;> rintro x rfl <;> cases hFormed

end Parts

namespace Scope

/-- Every part of a value that `parse` yields is `WellPlaced`. -/
theorem wellPlaced_of_parse (scope : Scope) {text : String} {v : Value}
    (hParse : (scope.parse text).result = .ok v) {place : Place} {part : Value}
    (hPart : Part v place part) : WellPlaced scope.catalog place part :=
  ((scope.built_of_parse hParse).formed.stands hPart).wellPlaced

/-- In `List<? super int[]>` the array class stands as a lower bound. -/
theorem wellPlaced_listOfInts :
    (listScope.parse "List<? super int[]>").result = .ok listOfInts ∧
    Part listOfInts .lower (.classType (.array (.primitive .int))) ∧
    WellPlaced listScope.catalog .lower
      (.classType (.array (.primitive .int))) := by
  have hPart : Part listOfInts .lower (.classType (.array (.primitive .int))) :=
    .lower (.argument .whole (List.mem_singleton.2 rfl))
      (List.mem_singleton.2 rfl)
  exact ⟨parse_listOfInts, hPart,
    wellPlaced_of_parse listScope parse_listOfInts hPart⟩

end Scope

end JvmTypes
