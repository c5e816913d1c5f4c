import JvmTypes.Composition

/-!
# Composition is direct

Composites are described by templates over numbered placeholders, and the parts
are substituted for these. None of that shows in the result: a composition
refuses the first part that cannot play its role, then a composite in which some
part left a placeholder, and otherwise is the template filled in with the parts
(`compose_eq`). The reason is that each slot is numbered above every slot before
it, so no binding is ever in conflict with another (`addAll_eq`), and each slot
is found again under its own number (`applyAll_slotsFrom`).

## Main results

* `compose_eq`: the whole of `compose`, errors included.
* `subtypeOf_eq_ok_iff`, `supertypeOf_eq_ok_iff`, `parameterizedOf_eq_ok_iff`,
  `arrayOf_eq_ok_iff`: when the composite values exist, and which they are.
-/

namespace JvmTypes

/-! ## Kinds of values -/

namespace Value

/-- Whether a value is a primitive type. -/
def isPrimitive : Value → Bool
  | classType c => c.isPrimitive
  | _ => false

/-- Whether a value is a wildcard. -/
def isWildcard : Value → Bool
  | wildcard .. => true
  | _ => false

/-- Whether a value is a class. -/
def isClass : Value → Bool
  | classType _ => true
  | _ => false

/-- Whether a value is no type. -/
def isForeign : Value → Bool
  | foreign _ => true
  | _ => false

theorem isPrimitive_of_not_class {v : Value} (hClass : v.isClass = false) :
    v.isPrimitive = false := by
  cases v <;> first | rfl | cases hClass

theorem anyPlaceholder_eq_false_iff {vs : List Value} :
    anyPlaceholder vs = false ↔ ∀ v ∈ vs, v.hasPlaceholder = false := by
  induction vs with
  | nil => simp [anyPlaceholder]
  | cons v vs ih => simp [anyPlaceholder, ih]

end Value

/-- What `Role.check` lets pass: types other than primitive ones and, except as
a `typeArgument`, other than wildcards. -/
theorem Role.check_eq_ok_iff {role : Role} {v : Value} :
    role.check v = .ok () ↔
      v.isForeign = false ∧ v.isPrimitive = false ∧
        (v.isWildcard = true → role = .typeArgument) := by
  cases v with
  | classType c =>
      cases c <;>
        simp [Role.check, Value.isForeign, Value.isPrimitive, Value.isWildcard,
          ClassType.isPrimitive]
  | wildcard upper lower =>
      by_cases hRole : role = .typeArgument <;>
        simp [Role.check, hRole, Value.isForeign, Value.isPrimitive,
          Value.isWildcard]
  | _ => simp [Role.check, Value.isForeign, Value.isPrimitive, Value.isWildcard]

/-- Checks several values by `Role.check`, from the first to the last. -/
def Role.checkAll (role : Role) : List Value → Except CompositionError Unit
  | [] => .ok ()
  | v :: vs => do
      role.check v
      role.checkAll vs

theorem Role.checkAll_eq_ok_iff {role : Role} {vs : List Value} :
    role.checkAll vs = .ok () ↔ ∀ v ∈ vs, role.check v = .ok () := by
  induction vs with
  | nil => simp [Role.checkAll]
  | cons v vs ih =>
      rw [List.forall_mem_cons, ← ih, Role.checkAll]
      cases role.check v <;> simp [bind, Except.bind]

namespace Composition

/-! ## Slots -/

/-- The slots for some parts, numbered from `serial` on. -/
def slotsFrom (name : String) (serial : Nat) : List Value → List Value
  | [] => []
  | _ :: parts =>
      .placeholder ⟨name, serial⟩ :: slotsFrom name (serial + 1) parts

/-- Bindings of placeholders whose numbers all lie below `serial`. -/
def KeysBelow (serial : Nat) (bindings : List (Value × Value)) : Prop :=
  ∀ binding ∈ bindings, ∃ p : Placeholder, binding.1 = .placeholder p ∧
    p.serial < serial

theorem keysBelow_nil (serial : Nat) : KeysBelow serial [] := by
  intro binding hMem
  cases hMem

theorem KeysBelow.concat {serial : Nat} {bindings : List (Value × Value)}
    (hBelow : KeysBelow serial bindings) (name : String) (part : Value) :
    KeysBelow (serial + 1)
      (bindings ++ [(.placeholder ⟨name, serial⟩, part)]) := by
  intro binding hMem
  rcases List.mem_append.1 hMem with hOld | hNew
  · obtain ⟨p, hKey, hSerial⟩ := hBelow binding hOld
    exact ⟨p, hKey, by omega⟩
  · rw [List.mem_singleton.1 hNew]
    exact ⟨⟨name, serial⟩, rfl, Nat.lt_succ_self serial⟩

/-- If all numbers that are bound are below `serial`, the placeholder `serial`
is bound by none of them. -/
theorem KeysBelow.same {serial : Nat} {bindings : List (Value × Value)}
    (hBelow : KeysBelow serial bindings) (name : String) :
    ∀ binding ∈ bindings,
      binding.1.same (.placeholder ⟨name, serial⟩) = false := by
  intro binding hMem
  obtain ⟨p, hKey, hSerial⟩ := hBelow binding hMem
  rw [hKey]
  simp only [Value.same, decide_eq_false_iff_not]
  omega

theorem KeysBelow.find? {serial : Nat} {bindings : List (Value × Value)}
    (hBelow : KeysBelow serial bindings) (name : String)
    (rest : List (Value × Value)) :
    (bindings ++ rest).find?
      (fun binding => binding.1.same (.placeholder ⟨name, serial⟩)) =
      rest.find? (fun binding =>
        binding.1.same (.placeholder ⟨name, serial⟩)) := by
  rw [List.find?_append, List.find?_eq_none.2 fun binding hMem => ?_,
    Option.none_or]
  simp [hBelow.same name binding hMem]

private theorem insertBinding_of_not_same {key actual : Value}
    {bindings : List (Value × Value)}
    (hNew : ∀ binding ∈ bindings, binding.1.same key = false) :
    Substitution.insertBinding key actual bindings = bindings ++
      [(key, actual)] := by
  induction bindings with
  | nil => rfl
  | cons binding rest ih =>
      obtain ⟨hHead, hRest⟩ := List.forall_mem_cons.1 hNew
      rw [Substitution.insertBinding, if_neg (by simp [hHead]), ih hRest,
        List.cons_append]

/-- A slot with a new number is bound by `bind` without conflict. -/
theorem bind_of_keysBelow {serial : Nat} {bindings : List (Value × Value)}
    (hBelow : KeysBelow serial bindings) (name : String) (part : Value) :
    (⟨bindings⟩ : Substitution).bind (.placeholder ⟨name, serial⟩) part =
      .ok ⟨bindings ++ [(.placeholder ⟨name, serial⟩, part)]⟩ := by
  have hFind : (⟨bindings⟩ : Substitution).find? (.placeholder ⟨name, serial⟩) =
      none := by
    have hNone := hBelow.find? name []
    rw [List.append_nil] at hNone
    simp only [Substitution.find?, hNone, List.find?_nil]
  simp only [Substitution.bind, hFind, Substitution.insert,
    insertBinding_of_not_same (hBelow.same name)]

/-- The slots of a template are numbered from `serial` and hold its parts, and
`addAll` fails only where `Role.checkAll` does. -/
theorem addAll_eq (role : Role) (name : String) (serial : Nat)
    (slots : List Value) {bindings : List (Value × Value)}
    (hBelow : KeysBelow serial bindings) (parts : List Value) :
    Slots.addAll role name serial ⟨slots, ⟨bindings⟩⟩ parts =
      (role.checkAll parts).map fun _ =>
        ⟨slots ++ slotsFrom name serial parts,
          ⟨bindings ++ (slotsFrom name serial parts).zip parts⟩⟩ := by
  induction parts generalizing serial slots bindings with
  | nil => simp [Slots.addAll, slotsFrom, Role.checkAll, Except.map]
  | cons part parts ih =>
      rw [Slots.addAll, Slots.add, Role.checkAll]
      cases hCheck : role.check part with
      | error e => rfl
      | ok _ =>
          have hRest := ih (serial + 1) (slots ++ [.placeholder ⟨name, serial⟩])
            (hBelow.concat name part)
          simp only [bind, Except.bind, bind_of_keysBelow hBelow]
          rw [hRest]
          simp [slotsFrom]

/-- Each of the `slotsFrom` a number on is replaced by its part. -/
theorem applyAll_slotsFrom (name : String) (serial : Nat)
    {bindings : List (Value × Value)} (hBelow : KeysBelow serial bindings)
    {parts : List Value} (hTypes : ∀ part ∈ parts, part.isForeign = false) :
    (⟨bindings ++ (slotsFrom name serial parts).zip parts⟩ :
      Substitution).applyAll
      (slotsFrom name serial parts) = .ok parts := by
  induction parts generalizing serial bindings with
  | nil => rfl
  | cons part parts ih =>
      obtain ⟨hHead, hParts⟩ := List.forall_mem_cons.1 hTypes
      have hRest := ih (serial + 1) (hBelow.concat name part) hParts
      have hSelf :
          (Value.placeholder ⟨name, serial⟩).same
            (.placeholder ⟨name, serial⟩) = true := by
        simp [Value.same]
      have hFind : (⟨bindings ++
        (slotsFrom name serial (part :: parts)).zip (part :: parts)⟩ :
          Substitution).find? (.placeholder ⟨name, serial⟩) = some part := by
        simp only [Substitution.find?, hBelow.find? name, slotsFrom,
          List.zip_cons_cons, List.find?_cons, hSelf]
        cases part with
        | foreign x => cases hHead
        | _ => rfl
      rw [slotsFrom, Substitution.applyAll, Substitution.apply,
        ← slotsFrom, hFind]
      simp only [List.append_assoc, List.singleton_append] at hRest
      simp only [bind, Except.bind, slotsFrom, List.zip_cons_cons, hRest]

/-! ## Filling in templates -/

/-- A template that substitution fills in: `apply` makes of the template over
some slots what the template is over what `apply` makes of the slots. -/
def Fills (template : List Value → Value) (parts : List Value) : Prop :=
  ∀ (s : Substitution) (slots : List Value), s.applyAll slots = .ok parts →
    s.apply (template slots) = .ok (template parts)

/-- Whatever number the slots start from: the parts are checked by
`Role.checkAll`, and then the template is filled in with them, unless a
placeholder is left in it. -/
theorem fill_eq (role : Role) (name : String) (serial : Nat)
    (parts : List Value) {template : List Value → Value}
    (hTemplate : Fills template parts) :
    (Slots.addAll role name serial ⟨[], .empty⟩ parts >>= fun filled =>
        filled.bindings.resolve (template filled.slots)) =
      (role.checkAll parts >>= fun _ =>
        if (template parts).hasPlaceholder then .error (.leak (template parts))
        else .ok (template parts)) := by
  rw [Substitution.empty, addAll_eq role name _ _ (keysBelow_nil _)]
  cases hChecks : role.checkAll parts with
  | error e => rfl
  | ok _ =>
      have hTypes : ∀ part ∈ parts, part.isForeign = false := fun part hMem =>
        (Role.check_eq_ok_iff.1 (Role.checkAll_eq_ok_iff.1 hChecks part hMem)).1
      have hApply := hTemplate _ _
        (applyAll_slotsFrom name serial (keysBelow_nil _) hTypes)
      simp only [Except.map, bind, Except.bind, Substitution.resolve,
        List.nil_append] at hApply ⊢
      rw [hApply]

/-- A `compose` checks its parts one by one and then is the template filled in
with them, unless a placeholder is left in it. -/
theorem compose_eq (role : Role) (name : String) (parts : List Value)
    {template : List Value → Value} (hTemplate : Fills template parts) :
    compose role name parts template =
      (role.checkAll parts >>= fun _ =>
        if (template parts).hasPlaceholder then .error (.leak (template parts))
        else .ok (template parts)) :=
  fill_eq role name (Value.serialBoundAll parts) parts hTemplate

theorem compose_eq_ok_iff (role : Role) (name : String) (parts : List Value)
    {template : List Value → Value} {v : Value}
    (hTemplate : Fills template parts) :
    compose role name parts template = .ok v ↔
      (∀ part ∈ parts, role.check part = .ok ()) ∧ v.hasPlaceholder = false ∧
        v = template parts := by
  rw [compose_eq role name parts hTemplate, ← Role.checkAll_eq_ok_iff]
  cases role.checkAll parts with
  | error e => simp [bind, Except.bind]
  | ok _ =>
      by_cases hLeak : (template parts).hasPlaceholder = true
      · simp only [bind, Except.bind, hLeak, if_true, true_and,
          reduceCtorEq, false_iff]
        rintro ⟨hNone, rfl⟩
        simp [hLeak] at hNone
      · simp only [bind, Except.bind, hLeak, true_and]
        constructor
        · rintro ⟨⟩
          exact ⟨by simpa using hLeak, rfl⟩
        · rintro ⟨-, rfl⟩
          rfl

/-! ## The templates -/

theorem fills_subtype (bounds : List Value) :
    Fills (fun slots => .wildcard slots []) bounds := by
  intro s slots hSlots
  simp [Substitution.apply, hSlots, Substitution.applyAll, bind, Except.bind]

theorem fills_supertype (bounds : List Value) :
    Fills (fun slots => .wildcard [.object] slots) bounds := by
  intro s slots hSlots
  simp [Substitution.apply, hSlots, Substitution.applyAll, Value.object,
    bind, Except.bind]

theorem fills_parameterized (raw : Value) (arguments : List Value) :
    Fills (fun slots => .parameterized raw slots) arguments := by
  intro s slots hSlots
  simp [Substitution.apply, hSlots, bind, Except.bind]

theorem arrayOver_of_not_class {v : Value} (hClass : v.isClass = false) :
    Substitution.arrayOver v = .ok (.array v) := by
  cases v <;> first | rfl | cases hClass

/-- The template of `arrayOf` fills in its single slot; over what is no class an
array stays composite. -/
theorem fills_array {component : Value} (hClass : component.isClass = false) :
    Fills (fun slots => .array (slots.headD component)) [component] := by
  intro s slots hSlots
  match slots, hSlots with
  | slot :: rest, hSlots =>
      cases hFirst : s.apply slot with
      | error e =>
          simp [Substitution.applyAll, hFirst, bind, Except.bind] at hSlots
      | ok first =>
          cases hRest : s.applyAll rest with
          | error e =>
              simp [Substitution.applyAll, hFirst, hRest, bind,
                Except.bind] at hSlots
          | ok others =>
              simp only [Substitution.applyAll, hFirst, hRest,
                bind, Except.bind, Except.ok.injEq, List.cons.injEq] at hSlots
              obtain ⟨rfl, -⟩ := hSlots
              simp [Substitution.apply, hFirst, bind, Except.bind,
                arrayOver_of_not_class hClass]

/-- Over what is no class `arrayOf` composes. -/
theorem arrayOf_of_not_class {component : Value}
    (hClass : component.isClass = false) :
    arrayOf component =
      compose .arrayComponent "E" [component] fun slots =>
        .array (slots.headD component) := by
  cases component <;> first | rfl | cases hClass

/-! ## The composite values -/

theorem subtypeOf_eq_ok_iff {bounds : List Value} {v : Value} :
    subtypeOf bounds = .ok v ↔
      (∀ b ∈ effectiveBounds bounds, Role.wildcardBound.check b = .ok ()) ∧
        v.hasPlaceholder = false ∧ v = .wildcard (effectiveBounds bounds) [] :=
  compose_eq_ok_iff _ _ _ (fills_subtype _)

theorem supertypeOf_eq_ok_iff {bound v : Value} :
    supertypeOf bound = .ok v ↔
      Role.wildcardBound.check bound = .ok () ∧ v.hasPlaceholder = false ∧
        v = .wildcard [.object] [bound] := by
  rw [supertypeOf, compose_eq_ok_iff _ _ _ (fills_supertype _)]
  simp

theorem parameterizedOf_eq_ok_iff {raw v : Value} {arguments : List Value} :
    parameterizedOf raw arguments = .ok v ↔
      ∃ d : Declaration, raw = .classType (.declared d) ∧
        arguments.length = d.parameters.length ∧
        (∀ a ∈ arguments, Role.typeArgument.check a = .ok ()) ∧
        v.hasPlaceholder = false ∧
        v = .parameterized raw arguments := by
  unfold parameterizedOf
  split
  · next d =>
      by_cases hLength : arguments.length = d.parameters.length
      · rw [if_pos hLength, compose_eq_ok_iff _ _ _ (fills_parameterized _ _)]
        simp [hLength]
      · rw [if_neg hLength]
        simp [hLength]
  · next hRaw =>
      constructor
      · intro hError
        cases hError
      · rintro ⟨d, rfl, -⟩
        exact absurd rfl (hRaw d)

theorem arrayOf_classType_eq_ok_iff {c : ClassType} {v : Value} :
    arrayOf (.classType c) = .ok v ↔ c ≠ .primitive .void ∧
      v = .classType (.array c) := by
  rw [arrayOf, Substitution.arrayOver]
  unfold ClassType.arrayClass?
  split
  · next hArray =>
      split at hArray
      · cases hArray
      · next hVoid =>
          cases hArray
          exact ⟨fun hOk => ⟨hVoid, by simpa [eq_comm] using hOk⟩,
            fun hOk => by rw [hOk.2]⟩
  · next hArray =>
      split at hArray
      · simp
      · cases hArray

theorem arrayOf_eq_ok_iff {component v : Value}
    (hClass : component.isClass = false) :
    arrayOf component = .ok v ↔
      Role.arrayComponent.check component = .ok () ∧ v.hasPlaceholder = false ∧
        v = .array component := by
  rw [arrayOf_of_not_class hClass, compose_eq_ok_iff _ _ _ (fills_array hClass)]
  simp

/-- What `arrayOf` makes is an array class over a class, and a composite over
anything else. -/
theorem cases_of_arrayOf {component v : Value}
    (hArray : arrayOf component = .ok v) :
    (∃ c, component = .classType c ∧ c ≠ .primitive .void ∧
      v = .classType (.array c)) ∨
      (component.isClass = false ∧
        Role.arrayComponent.check component = .ok () ∧
        v = .array component) := by
  by_cases hClass : component.isClass = true
  · match component, hClass with
    | .classType c, _ =>
        obtain ⟨hVoid, rfl⟩ := arrayOf_classType_eq_ok_iff.1 hArray
        exact .inl ⟨c, rfl, hVoid, rfl⟩
  · have hComposite : component.isClass = false := by simpa using hClass
    obtain ⟨hCheck, -, rfl⟩ := (arrayOf_eq_ok_iff hComposite).1 hArray
    exact .inr ⟨hComposite, hCheck, rfl⟩

/-! ## The upper bounds that count -/

/-- The bounds that count are either `Object` alone or all that are not
`Object`. -/
theorem effectiveBounds_cases (bounds : List Value) :
    ((∀ b ∈ bounds, b.isObject = true) ∧ effectiveBounds bounds = [.object]) ∨
      (bounds.filter (fun b => !b.isObject) ≠ [] ∧
        effectiveBounds bounds = bounds.filter (fun b => !b.isObject)) := by
  unfold effectiveBounds
  split
  · next hNone =>
      left
      exact ⟨by simpa using hNone, rfl⟩
  · next hSome => exact .inr ⟨hSome, rfl⟩

theorem mem_effectiveBounds_iff {b : Value} {bounds : List Value} :
    b ∈ effectiveBounds bounds ↔
      (b ∈ bounds ∧ b.isObject = false) ∨
      (b = .object ∧ ∀ c ∈ bounds, c.isObject = true) := by
  rcases effectiveBounds_cases bounds with ⟨hAll, hEq⟩ | ⟨hSome, hEq⟩
  · rw [hEq, List.mem_singleton]
    constructor
    · rintro rfl
      exact .inr ⟨rfl, hAll⟩
    · rintro (⟨hMem, hOther⟩ | ⟨rfl, -⟩)
      · simp [hAll b hMem] at hOther
      · rfl
  · have hNotAll : ¬ ∀ c ∈ bounds, c.isObject = true := by simpa using hSome
    rw [hEq, List.mem_filter]
    simp [hNotAll]

/-- A bound that counts is one of those that were given, or `Object`. -/
theorem mem_of_mem_effectiveBounds {b : Value} {bounds : List Value}
    (hMem : b ∈ effectiveBounds bounds) : b = .object ∨ b ∈ bounds := by
  rcases mem_effectiveBounds_iff.1 hMem with ⟨hGiven, -⟩ | ⟨hObject, -⟩
  · exact .inr hGiven
  · exact .inl hObject

end Composition

end JvmTypes
