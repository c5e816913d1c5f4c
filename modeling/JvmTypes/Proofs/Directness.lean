import JvmTypes.Error
import JvmTypes.Proofs.Composition

/-!
# Templates leave no trace

Every composite is made by a detour: a template is written over fresh
placeholders, and the parts are substituted for them. Here each request for a
composite is compared with the composite written down directly
(`Request.direct`). They agree, except that a composite which holds a
placeholder is refused; and such a placeholder came with a part, since the slots
are numbered above whatever the parts mention (`notMentioned_of_slots`).

## Main results

* `Value.hasPlaceholder_iff`: the search for placeholders finds one exactly if
  one stands somewhere in the value.
* `Composition.Request.Answers.shows_supplied`: a placeholder seen in a result
  or in an error was supplied with the request.
* `Composition.Request.outcome_direct`: a request and the composite it asks for.
-/

namespace JvmTypes

/-! ## Where placeholders stand -/

namespace Value

/-- A placeholder stands somewhere in a value. -/
inductive Mentions (p : Placeholder) : Value → Prop
  | placeholder : Mentions p (.placeholder p)
  | raw {raw : Value} {arguments : List Value} (hRaw : Mentions p raw) :
      Mentions p (.parameterized raw arguments)
  | argument {raw a : Value} {arguments : List Value} (hMem : a ∈ arguments)
      (hArgument : Mentions p a) : Mentions p (.parameterized raw arguments)
  | component {component : Value} (hComponent : Mentions p component) :
      Mentions p (.array component)
  | upper {b : Value} {upper lower : List Value} (hMem : b ∈ upper)
      (hBound : Mentions p b) :
      Mentions p (.wildcard upper lower)
  | lower {b : Value} {upper lower : List Value} (hMem : b ∈ lower)
      (hBound : Mentions p b) :
      Mentions p (.wildcard upper lower)

/-- Values that are types throughout: nothing in them is foreign, and type
arguments are given to classes only. -/
inductive IsType : Value → Prop
  | classType (c : ClassType) : IsType (.classType c)
  | var (v : TypeVariable) : IsType (.var v)
  | placeholder (p : Placeholder) : IsType (.placeholder p)
  | parameterized (c : ClassType) {arguments : List Value}
      (hArguments : ∀ a ∈ arguments, IsType a) :
      IsType (.parameterized (.classType c) arguments)
  | array {component : Value} (hComponent : IsType component) :
      IsType (.array component)
  | wildcard {upper lower : List Value} (hUpper : ∀ b ∈ upper, IsType b)
      (hLower : ∀ b ∈ lower, IsType b) : IsType (.wildcard upper lower)

variable {p : Placeholder}

private theorem not_mentions_classType {c : ClassType} :
    ¬ (classType c).Mentions p := nofun

theorem mentions_parameterized_iff {raw : Value} {arguments : List Value} :
    (parameterized raw arguments).Mentions p ↔
      raw.Mentions p ∨ ∃ a ∈ arguments, a.Mentions p := by
  constructor
  · rintro (_ | hRaw | ⟨hMem, hArgument⟩)
    · exact .inl hRaw
    · exact .inr ⟨_, hMem, hArgument⟩
  · rintro (hRaw | ⟨a, hMem, hArgument⟩)
    · exact .raw hRaw
    · exact .argument hMem hArgument

theorem mentions_array_iff {component : Value} :
    (array component).Mentions p ↔ component.Mentions p :=
  ⟨fun | .component hComponent => hComponent, .component⟩

theorem mentions_wildcard_iff {upper lower : List Value} :
    (wildcard upper lower).Mentions p ↔
      (∃ b ∈ upper, b.Mentions p) ∨ ∃ b ∈ lower, b.Mentions p := by
  constructor
  · intro hMentions
    cases hMentions with
    | upper hMem hBound => exact .inl ⟨_, hMem, hBound⟩
    | lower hMem hBound => exact .inr ⟨_, hMem, hBound⟩
  · rintro (⟨b, hMem, hBound⟩ | ⟨b, hMem, hBound⟩)
    · exact .upper hMem hBound
    · exact .lower hMem hBound

theorem anyPlaceholder_iff {vs : List Value}
    (hEach : ∀ v ∈ vs, v.hasPlaceholder = true ↔ ∃ p, v.Mentions p) :
    anyPlaceholder vs = true ↔ ∃ p, ∃ v ∈ vs, v.Mentions p := by
  induction vs with
  | nil => simp [anyPlaceholder]
  | cons v vs ih =>
      obtain ⟨hHead, hRest⟩ := List.forall_mem_cons.1 hEach
      rw [anyPlaceholder, Bool.or_eq_true, hHead, ih hRest, ← exists_or]
      simp

/-- In a value that `IsType` holds of, `hasPlaceholder` finds a placeholder
exactly if one stands somewhere in it. -/
theorem hasPlaceholder_iff {v : Value} (hType : v.IsType) :
    v.hasPlaceholder = true ↔ ∃ p, v.Mentions p := by
  induction hType with
  | classType c => simp [hasPlaceholder, not_mentions_classType]
  | var v => exact ⟨nofun, nofun⟩
  | placeholder p => exact ⟨fun _ => ⟨p, .placeholder⟩, fun _ => rfl⟩
  | parameterized c _ ih =>
      rw [hasPlaceholder, anyPlaceholder_iff ih]
      simp [mentions_parameterized_iff, not_mentions_classType]
  | array _ ih =>
      rw [hasPlaceholder, ih]
      simp [mentions_array_iff]
  | wildcard _ _ ihUpper ihLower =>
      rw [hasPlaceholder, Bool.or_eq_true, anyPlaceholder_iff ihUpper,
        anyPlaceholder_iff ihLower, ← exists_or]
      simp [mentions_wildcard_iff]

private theorem serialBound_le_of_mem {v : Value} {vs : List Value}
    (hMem : v ∈ vs) : v.serialBound ≤ serialBoundAll vs := by
  induction vs with
  | nil => cases hMem
  | cons w vs ih =>
      rw [serialBoundAll]
      rcases List.mem_cons.1 hMem with rfl | hRest
      · exact Nat.le_max_left _ _
      · exact Nat.le_trans (ih hRest) (Nat.le_max_right _ _)

/-- The number of a placeholder that a value `Mentions` is below its
`serialBound`. -/
theorem serial_lt_of_mentions {v : Value} (hMentions : v.Mentions p) :
    p.serial < v.serialBound := by
  induction hMentions with
  | placeholder => exact Nat.lt_succ_self p.serial
  | raw _ ih =>
      rw [serialBound]
      omega
  | argument hMem _ ih =>
      have hBound := serialBound_le_of_mem hMem
      rw [serialBound]
      omega
  | component _ ih => exact ih
  | upper hMem _ ih =>
      have hBound := serialBound_le_of_mem hMem
      rw [serialBound]
      omega
  | lower hMem _ ih =>
      have hBound := serialBound_le_of_mem hMem
      rw [serialBound]
      omega

end Value

/-- A placeholder stands in a value that an error names. -/
def CompositionError.Mentions (p : Placeholder) : CompositionError → Prop
  | noType _ v | wildcardAs _ v | notParameterizable v | notVariable v | leak
      v => v.Mentions p
  | conflict key existing actual =>
      key.Mentions p ∨ existing.Mentions p ∨ actual.Mentions p
  | unbound q => q = p
  | primitiveAs .. | voidComponent | arityMismatch .. | severalLowerBounds =>
      False

namespace Role

variable {role : Role} {v : Value} {e : CompositionError}

/-- What `Role.check` refuses, and how. -/
theorem cases_of_check (hCheck : role.check v = .error e) :
    e = .noType role v ∨ e = .wildcardAs role v ∨
    ∃ name, e = .primitiveAs role name := by
  unfold check at hCheck
  split at hCheck
  · exact .inl (Except.error.inj hCheck).symm
  · split at hCheck
    · cases hCheck
    · exact .inr (.inl (Except.error.inj hCheck).symm)
  · exact .inr (.inr ⟨_, (Except.error.inj hCheck).symm⟩)
  · cases hCheck

/-- The error of `Role.check` mentions no more than what it refuses. -/
theorem mentions_of_check {p : Placeholder} (hCheck : role.check v = .error e)
    (hMentions : e.Mentions p) : v.Mentions p := by
  rcases cases_of_check hCheck with rfl | rfl | ⟨name, rfl⟩
  · exact hMentions
  · exact hMentions
  · exact hMentions.elim

private theorem check_ne_conflict (key existing actual : Value) :
    role.check v ≠ .error (.conflict key existing actual) := by
  intro hCheck
  rcases cases_of_check hCheck with hEq | hEq | ⟨name, hEq⟩ <;> cases hEq

private theorem exists_of_checkAll {vs : List Value}
    (hChecks : role.checkAll vs = .error e) :
    ∃ v ∈ vs, role.check v = .error e := by
  induction vs with
  | nil => cases hChecks
  | cons v vs ih =>
      rw [checkAll] at hChecks
      cases hCheck : role.check v with
      | error e' =>
          rw [hCheck] at hChecks
          cases hChecks
          exact ⟨v, List.mem_cons_self, hCheck⟩
      | ok _ =>
          rw [hCheck] at hChecks
          obtain ⟨w, hMem, hError⟩ := ih hChecks
          exact ⟨w, List.mem_cons_of_mem v hMem, hError⟩

end Role

namespace Composition

/-! ## Slots are fresh -/

theorem exists_of_mem_slotsFrom {name : String} {serial : Nat}
    {parts : List Value} {slot : Value}
    (hMem : slot ∈ slotsFrom name serial parts) :
    ∃ p : Placeholder, slot = .placeholder p ∧ serial ≤ p.serial := by
  induction parts generalizing serial with
  | nil => cases hMem
  | cons part parts ih =>
      rcases List.mem_cons.1 hMem with rfl | hRest
      · exact ⟨⟨name, serial⟩, rfl, Nat.le_refl serial⟩
      · obtain ⟨p, hSlot, hSerial⟩ := ih hRest
        exact ⟨p, hSlot, by omega⟩

/-- Slots that are numbered from the `serialBoundAll` of some values on are
mentioned by none of them. -/
theorem notMentioned_of_slots {name : String} {serial : Nat}
    {parts : List Value} {slot : Value}
    (hAbove : Value.serialBoundAll parts ≤ serial)
    (hMem : slot ∈ slotsFrom name serial parts) :
    ∃ p : Placeholder, slot = .placeholder p ∧
      ∀ part ∈ parts, ¬ part.Mentions p := by
  obtain ⟨p, hSlot, hSerial⟩ := exists_of_mem_slotsFrom hMem
  refine ⟨p, hSlot, fun part hPart hMentions => ?_⟩
  have hBelow := Value.serial_lt_of_mentions hMentions
  have hBound := Value.serialBound_le_of_mem hPart
  omega

/-! ## What a composition shows -/

/-- A placeholder can be seen in a result or in an error: these `Mentions`
it. -/
def Shows (p : Placeholder) : Except CompositionError Value → Prop
  | .ok v => v.Mentions p
  | .error e => e.Mentions p

/-- A `compose` refuses a part, or refuses a composite that holds a placeholder,
or is the template filled in. -/
theorem compose_cases (role : Role) (name : String) (parts : List Value)
    {template : List Value → Value} (hTemplate : Fills template parts) :
    (∃ part ∈ parts, ∃ e, role.check part = .error e ∧
        compose role name parts template = .error e) ∨
      compose role name parts template = .error (.leak (template parts)) ∨
        compose role name parts template = .ok (template parts) := by
  rw [compose_eq role name parts hTemplate]
  cases hChecks : role.checkAll parts with
  | error e =>
      obtain ⟨part, hMem, hCheck⟩ := Role.exists_of_checkAll hChecks
      exact .inl ⟨part, hMem, e, hCheck, rfl⟩
  | ok _ =>
      right
      by_cases hLeak : (template parts).hasPlaceholder = true
      · exact .inl (by simp [bind, Except.bind, hLeak])
      · exact .inr (by simp [bind, Except.bind, hLeak])

/-- A `compose` shows placeholders of its parts only, if its template has none
of its own. -/
theorem shows_compose {role : Role} {name : String} {parts : List Value}
    {template : List Value → Value} (hTemplate : Fills template parts)
    {p : Placeholder}
    (hParts : (template parts).Mentions p → ∃ part ∈ parts, part.Mentions p)
    (hShows : Shows p (compose role name parts template)) :
    ∃ part ∈ parts, part.Mentions p := by
  rcases compose_cases role name parts hTemplate with
    ⟨part, hMem, e, hCheck, hEq⟩ | hEq | hEq <;> rw [hEq] at hShows
  · exact ⟨part, hMem, Role.mentions_of_check hCheck hShows⟩
  · exact hParts hShows
  · exact hParts hShows

private theorem compose_ne_conflict {role : Role} {name : String}
    {parts : List Value} {template : List Value → Value}
    (hTemplate : Fills template parts) (key existing actual : Value) :
    compose role name parts template ≠
      .error (.conflict key existing actual) := by
  intro hConflict
  rcases compose_cases role name parts hTemplate with
    ⟨part, -, e, hCheck, hEq⟩ | hEq | hEq <;>
      rw [hEq] at hConflict <;> cases hConflict
  exact Role.check_ne_conflict key existing actual hCheck

/-! ## Requests -/

/-- A composite that is asked for, with the values to make it of. -/
inductive Request where
  | array (component : Value)
  | subtype (bounds : List Value)
  | supertype (bound : Value)
  | parameterized (raw : Value) (arguments : List Value)

/-- What is left of upper bounds without `Object`, or `Object` if nothing is. -/
def withoutObject (bounds : List Value) : List Value :=
  if bounds.all Value.isObject then [.object]
  else bounds.filter fun b => !b.isObject

namespace Request

/-- What a request comes to in `Composition`. -/
def outcome : Request → Except CompositionError Value
  | array component => arrayOf component
  | subtype bounds => subtypeOf bounds
  | supertype bound => supertypeOf bound
  | parameterized raw arguments => parameterizedOf raw arguments

/-- The values that are supplied with a request. -/
def supplied : Request → List Value
  | array component => [component]
  | subtype bounds => bounds
  | supertype bound => [bound]
  | parameterized raw arguments => raw :: arguments

/-- Whether the values can play their roles by `Role.check`: an array is of no
wildcard, a bound is neither a wildcard nor primitive, and a class that is
neither primitive nor an array takes as many arguments as it declares
parameters, none of them primitive. -/
def IsAdmissible : Request → Prop
  | array component =>
      component.isForeign = false ∧ component.isWildcard = false
  | subtype bounds =>
      ∀ b ∈ bounds, b.isForeign = false ∧ b.isWildcard = false ∧
        b.isPrimitive = false
  | supertype bound =>
      bound.isForeign = false ∧ bound.isWildcard = false ∧
      bound.isPrimitive = false
  | parameterized raw arguments =>
      ∃ c : ClassType, raw = .classType c ∧ c.isPrimitive = false ∧
        c.isArray = false ∧
        arguments.length = c.arity ∧ ∀ a ∈ arguments, a.isForeign = false ∧
        a.isPrimitive = false

/-- The composite that a request asks for, without a detour. There is none for
an array of `void`. -/
def direct : Request → Except CompositionError Value
  | array (.classType c) =>
      match c.arrayClass? with
      | some arrayClass => .ok (.classType arrayClass)
      | none => .error .voidComponent
  | array component => .ok (.array component)
  | subtype bounds => .ok (.wildcard (withoutObject bounds) [])
  | supertype bound => .ok (.wildcard [.object] [bound])
  | parameterized raw arguments => .ok (.parameterized raw arguments)

end Request

/-- A composite is refused with `leak` if it holds a placeholder. -/
def sealComposite (composite : Except CompositionError Value) :
    Except CompositionError Value :=
  composite >>= fun v => if v.hasPlaceholder then .error (.leak v) else .ok v

private theorem withoutObject_eq (bounds : List Value) :
    withoutObject bounds = effectiveBounds bounds := by
  unfold withoutObject effectiveBounds
  split
  · next hAll =>
      have hNone : bounds.filter (fun b => !b.isObject) = [] := by
        simpa using hAll
      rw [hNone]
  · next hSome =>
      have hOthers : bounds.filter (fun b => !b.isObject) ≠ [] := by
        simpa using hSome
      split
      · next hNone => exact absurd hNone hOthers
      · rfl

/-- Parts that pass `Role.check` are composed to the template filled in with
them, if that is free of placeholders. -/
theorem compose_of_checks (role : Role) (name : String) (parts : List Value)
    {template : List Value → Value} (hTemplate : Fills template parts)
    (hChecks : ∀ part ∈ parts, role.check part = .ok ()) :
    compose role name parts template =
      sealComposite (.ok (template parts)) := by
  rw [compose_eq role name parts hTemplate, Role.checkAll_eq_ok_iff.2 hChecks]
  rfl

private theorem check_bound {b : Value}
    (hBound : b.isForeign = false ∧ b.isWildcard = false ∧
      b.isPrimitive = false) :
    Role.wildcardBound.check b = .ok () := by
  obtain ⟨hForeign, hWildcard, hPrimitive⟩ := hBound
  exact Role.check_eq_ok_iff.2 ⟨hForeign, hPrimitive, by simp [hWildcard]⟩

private theorem arrayOf_direct {component : Value}
    (hForeign : component.isForeign = false)
    (hWildcard : component.isWildcard = false) :
    arrayOf component = sealComposite (Request.array component).direct := by
  by_cases hClass : component.isClass = true
  · match component, hClass with
    | .classType c, _ =>
        simp only [arrayOf, Substitution.arrayOver, Request.direct]
        cases c.arrayClass? <;> rfl
  · have hComposite : component.isClass = false := by simpa using hClass
    have hCheck : Role.arrayComponent.check component = .ok () :=
      Role.check_eq_ok_iff.2
        ⟨hForeign, Value.isPrimitive_of_not_class hComposite,
          by simp [hWildcard]⟩
    rw [arrayOf_of_not_class hComposite,
      compose_of_checks _ _ _ (fills_array hComposite) (by simpa using hCheck)]
    cases component <;> first | rfl | cases hComposite

private theorem subtypeOf_direct {bounds : List Value}
    (hBounds : ∀ b ∈ bounds, b.isForeign = false ∧ b.isWildcard = false ∧
      b.isPrimitive = false) :
    subtypeOf bounds = sealComposite (Request.subtype bounds).direct := by
  rw [Request.direct, withoutObject_eq]
  refine compose_of_checks _ _ _ (fills_subtype _) fun b hMem => ?_
  rcases mem_of_mem_effectiveBounds hMem with rfl | hGiven
  · rfl
  · exact check_bound (hBounds b hGiven)

private theorem parameterizedOf_direct {raw : Value} {arguments : List Value}
    (hAdmissible : (Request.parameterized raw arguments).IsAdmissible) :
    parameterizedOf raw arguments =
      sealComposite (Request.parameterized raw arguments).direct := by
  obtain ⟨c, rfl, hPrimitive, hArray, hLength, hArguments⟩ := hAdmissible
  cases c with
  | primitive p => cases hPrimitive
  | array c => cases hArray
  | declared d =>
      have hParameters : arguments.length = d.parameters.length := by
        simpa [ClassType.arity, ClassType.typeVariables,
          Declaration.typeVariables] using hLength
      rw [parameterizedOf, if_pos hParameters]
      refine compose_of_checks _ _ _ (fills_parameterized _ _) fun a hMem => ?_
      exact Role.check_eq_ok_iff.2
        ⟨(hArguments a hMem).1, (hArguments a hMem).2, fun _ => rfl⟩

namespace Request

variable (r : Request)

/-- A request that `IsAdmissible` comes to the composite it asks for,
`direct`. -/
theorem outcome_of_isAdmissible (hAdmissible : r.IsAdmissible) :
    r.outcome = sealComposite r.direct := by
  cases r with
  | array component => exact arrayOf_direct hAdmissible.1 hAdmissible.2
  | subtype bounds => exact subtypeOf_direct hAdmissible
  | supertype bound =>
      exact compose_of_checks _ _ _ (fills_supertype _)
        (by simpa using check_bound hAdmissible)
  | parameterized raw arguments => exact parameterizedOf_direct hAdmissible

/-- How a request is answered: with an array class, with an error about the
classes involved, or with what is composed of supplied values. -/
inductive Answers : Except CompositionError Value → Prop
  | arrayClass (c : ClassType) : Answers (.ok (.classType c))
  | voidComponent : Answers (.error .voidComponent)
  | arityMismatch (raw : String) (expected actual : Nat) :
      Answers (.error (.arityMismatch raw expected actual))
  | notParameterizable {raw : Value} (hRaw : raw ∈ r.supplied) :
      Answers (.error (.notParameterizable raw))
  | composed (role : Role) (name : String) {parts : List Value}
      {template : List Value → Value} (hTemplate : Fills template parts)
      (hOwn : ∀ p, (template parts).Mentions p →
        ∃ part ∈ parts, part.Mentions p)
      (hParts : ∀ p, ∀ part ∈ parts, part.Mentions p → part ∈ r.supplied) :
      Answers (compose role name parts template)

private theorem answers_array (component : Value) :
    (Request.array component).Answers (arrayOf component) := by
  by_cases hClass : component.isClass = true
  · match component, hClass with
    | .classType c, _ =>
        show (Request.array (.classType c)).Answers
          (Request.array (.classType c)).direct
        rw [direct]
        cases c.arrayClass? with
        | some arrayClass => exact .arrayClass arrayClass
        | none => exact .voidComponent
  · have hComposite : component.isClass = false := by simpa using hClass
    rw [arrayOf_of_not_class hComposite]
    refine .composed _ _ (fills_array hComposite) (fun p hMentions => ?_)
      fun _ _ hMem _ => hMem
    exact ⟨component, List.mem_cons_self, Value.mentions_array_iff.1 hMentions⟩

private theorem answers_subtype (bounds : List Value) :
    (Request.subtype bounds).Answers (subtypeOf bounds) := by
  refine .composed _ _ (fills_subtype _) (fun p hMentions => ?_)
    fun p b hMem hBound => ?_
  · simpa [Value.mentions_wildcard_iff] using hMentions
  · rcases mem_of_mem_effectiveBounds hMem with rfl | hGiven
    · -- `Object` was not supplied, but it mentions nothing.
      exact absurd hBound Value.not_mentions_classType
    · exact hGiven

private theorem answers_supertype (bound : Value) :
    (Request.supertype bound).Answers (supertypeOf bound) := by
  refine .composed _ _ (fills_supertype _) (fun p hMentions => ?_)
    fun _ _ hMem _ => hMem
  simpa [Value.mentions_wildcard_iff, Value.object,
    Value.not_mentions_classType] using hMentions

private theorem answers_parameterized (raw : Value) (arguments : List Value) :
    (Request.parameterized raw arguments).Answers
      (parameterizedOf raw arguments) := by
  unfold parameterizedOf
  split
  · next d =>
      split
      · refine .composed _ _ (fills_parameterized _ _) (fun p hMentions => ?_)
          fun p a hMem _ => ?_
        · simpa [Value.mentions_parameterized_iff, Value.not_mentions_classType]
            using hMentions
        · exact List.mem_cons_of_mem _ hMem
      · exact .arityMismatch _ _ _
  · exact .notParameterizable List.mem_cons_self

/-- Every request is answered in one of the ways that `Answers` lists. -/
theorem answers_outcome : r.Answers r.outcome := by
  cases r with
  | array component => exact answers_array component
  | subtype bounds => exact answers_subtype bounds
  | supertype bound => exact answers_supertype bound
  | parameterized raw arguments => exact answers_parameterized raw arguments

variable {r : Request} {outcome : Except CompositionError Value}

/-- No placeholder is seen in an answer that was not `supplied`. -/
theorem Answers.shows_supplied (hAnswers : r.Answers outcome) {p : Placeholder}
    (hShows : Shows p outcome) : ∃ v ∈ r.supplied, v.Mentions p := by
  cases hAnswers with
  | arrayClass c => exact absurd hShows Value.not_mentions_classType
  | voidComponent => exact hShows.elim
  | arityMismatch => exact hShows.elim
  | notParameterizable hRaw => exact ⟨_, hRaw, hShows⟩
  | composed role name hTemplate hOwn hParts =>
      obtain ⟨part, hMem, hPart⟩ := shows_compose hTemplate (hOwn p) hShows
      exact ⟨part, hParts p part hMem hPart, hPart⟩

/-- No slot of a template is ever bound twice, so there is no `conflict`. -/
theorem Answers.ne_conflict (hAnswers : r.Answers outcome)
    (key existing actual : Value) :
    outcome ≠ .error (.conflict key existing actual) := by
  cases hAnswers with
  | composed role name hTemplate =>
      exact compose_ne_conflict hTemplate key existing actual
  | _ => simp

end Request

/-- Slots are bound freshly to some parts: only a part that cannot play the role
is in the way, and no part mentions a slot. -/
def BindsFreshly (role : Role) (parts : List Value) :
    Except CompositionError Slots → Prop
  | .error e => ∃ part ∈ parts, role.check part = .error e
  | .ok filled =>
      ∀ slot ∈ filled.slots, ∃ p : Placeholder,
        slot = .placeholder p ∧ ∀ part ∈ parts, ¬ part.Mentions p

/-- The slots of `addAll` are fresh if they are numbered above all that the
parts mention. -/
theorem bindsFreshly_addAll (role : Role) (name : String) {serial : Nat}
    {parts : List Value} (hAbove : Value.serialBoundAll parts ≤ serial) :
    BindsFreshly role parts
      (Slots.addAll role name serial ⟨[], .empty⟩ parts) := by
  rw [Substitution.empty, addAll_eq role name serial [] (keysBelow_nil _)]
  cases hChecks : role.checkAll parts with
  | error e => exact Role.exists_of_checkAll hChecks
  | ok _ =>
      intro slot hMem
      exact notMentioned_of_slots hAbove (by simpa using hMem)

/-- Making a composite by its template is making it directly. Whatever can be
composed comes to the composite it asks for, unless that holds a placeholder;
then the error names it, and the placeholder was supplied with the request. The
slots of the template are seen in no result and in no error, and are never in
conflict. All this is so whatever number, above all that the parts mention, the
slots start from. -/
theorem Request.outcome_direct (r : Request) :
    (r.IsAdmissible → r.outcome = sealComposite r.direct) ∧
      (∀ v : Value, v.IsType → (v.hasPlaceholder = true ↔ ∃ p, v.Mentions p)) ∧
      (∀ v : Value, (CompositionError.leak v).report.kind = .canonicalization ∧
        (CompositionError.leak v).report.text =
          "unbound placeholder left in " ++ v.shown) ∧
      (∀ p, Shows p r.outcome → ∃ v ∈ r.supplied, v.Mentions p) ∧
      (∀ key existing actual,
        r.outcome ≠ .error (.conflict key existing actual)) ∧
      ∀ (role : Role) (name : String) (serial : Nat) (parts : List Value),
        Value.serialBoundAll parts ≤ serial →
          BindsFreshly role parts
            (Slots.addAll role name serial ⟨[], .empty⟩ parts) ∧
          ∀ template, Fills template parts →
            (Slots.addAll role name serial ⟨[], .empty⟩ parts >>= fun filled =>
              filled.bindings.resolve (template filled.slots)) =
                compose role name parts template := by
  refine ⟨r.outcome_of_isAdmissible, fun v => Value.hasPlaceholder_iff,
    fun v => ⟨rfl, rfl⟩,
    fun p => r.answers_outcome.shows_supplied,
    r.answers_outcome.ne_conflict, ?_⟩
  intro role name serial parts hAbove
  refine ⟨bindsFreshly_addAll role name hAbove, fun template hTemplate => ?_⟩
  rw [fill_eq role name serial parts hTemplate,
    compose_eq role name parts hTemplate]

/-- The bounds `Object` and `Number` ask for `? extends Number`. -/
theorem Request.outcome_direct_number :
    let number := Value.classType (.ofName "java.lang.Number")
    (Request.subtype [.object, number]).IsAdmissible ∧
      (Request.subtype [.object, number]).outcome =
        .ok (.wildcard [number] []) := by
  intro number
  have hAdmissible : (Request.subtype [.object, number]).IsAdmissible := by
    intro b hMem
    rcases List.mem_cons.1 hMem with rfl | hNumber
    · exact ⟨rfl, rfl, rfl⟩
    · rw [List.mem_singleton.1 hNumber]
      exact ⟨rfl, rfl, rfl⟩
  refine ⟨hAdmissible, ?_⟩
  rw [(Request.outcome_direct _).1 hAdmissible]
  rfl

end Composition

end JvmTypes
