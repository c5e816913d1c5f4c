import JvmTypes.Proofs.Directness
import JvmTypes.Proofs.Occurrences
import JvmTypes.Proofs.WellFormed

/-!
# Substitution and the rules of composition

Composition checks its parts: a type argument is not primitive, a bound neither
primitive nor a wildcard, and an array is neither of a wildcard nor of `void`.
So what is composed of classes and type variables obeys these rules in all that
occurs in it (`Value.Assembled.obeys`).

Substitution makes composites without these checks. Only the array class of
`void` is refused, as there is none. So the rules hold in what is substituted as
far as they hold of the replacements of the variables, in the roles in which the
variables occur: all else is as it was.

## Main results

* `Value.Assembled.obeys`: what is composed obeys the rules.
* `Substitution.obeys_resolve_iff`: when substitution keeps them.
* `Substitution.resolve_primitive_argument`: it does not always.
-/

namespace JvmTypes

/-! ## Rules -/

/-- What may be cast in a role, as `Role.check` and `Composition.arrayOf` let it
pass. -/
def Role.Admits : Role → Value → Prop
  | typeArgument, v => v.isPrimitive = false
  | wildcardBound, v => v.IsBound
  | arrayComponent, v =>
      v.isWildcard = false ∧ v ≠ .classType (.primitive .void)

namespace Value

/-- What a value holds in a role is admitted to it by `Role.Admits`. -/
def Obeys (v : Value) (role : Role) : Prop :=
  ∀ part, v.HoldsAs role part → role.Admits part

/-- The values that are composed, step by step, of classes and type
variables. -/
inductive Assembled : Value → Prop
  | declared (d : Declaration) : Assembled (.classType (.declared d))
  | primitive (p : Primitive) : Assembled (.classType (.primitive p))
  | var (y : TypeVariable) : Assembled (.var y)
  | composed {request : Composition.Request} {v : Value}
      (hParts : ∀ part ∈ request.supplied, Assembled part)
      (hOutcome : request.outcome = .ok v) :
      Assembled v

variable {v part : Value} {role : Role}

private theorem obeys_of_casts
    (hDirect : ∀ part, v.Casts role part → role.Admits part)
    (hParts : ∀ other part, v.Casts other part → part.Obeys role) :
    v.Obeys role := by
  intro part hHolds
  rcases holdsAs_iff.1 hHolds with hCasts | ⟨other, inner, hCasts, hInner⟩
  · exact hDirect part hCasts
  · exact hParts other inner hCasts part hInner

/-- A value that casts no part in any role obeys every rule. -/
theorem obeys_of_not_casts (hNothing : ∀ other part, ¬ v.Casts other part) :
    v.Obeys role :=
  obeys_of_casts (fun part hCasts => absurd hCasts (hNothing role part))
    fun other part hCasts => absurd hCasts (hNothing other part)

end Value

/-! ## What is composed obeys the rules -/

theorem Role.admits_of_check {role : Role} {v : Value}
    (hCheck : role.check v = .ok ()) : role.Admits v := by
  obtain ⟨-, hPrimitive, hWildcard⟩ := Role.check_eq_ok_iff.1 hCheck
  cases role with
  | typeArgument => exact hPrimitive
  | wildcardBound => exact ⟨by simpa using hWildcard, hPrimitive⟩
  | arrayComponent =>
      refine ⟨by simpa using hWildcard, ?_⟩
      rintro rfl
      cases hPrimitive

namespace Composition.Request

variable {request : Request} {v part : Value} {role : Role}

/-- A composite casts what was supplied with the request, besides `Object`, and
only what the role admits. -/
theorem admits_of_outcome (hOutcome : request.outcome = .ok v)
    (hCasts : v.Casts role part) :
    role.Admits part ∧ (part ∈ request.supplied ∨ part = .object) := by
  cases request with
  | array component =>
      rcases cases_of_arrayOf hOutcome
        with ⟨c, rfl, hVoid, rfl⟩ | ⟨-, hCheck, rfl⟩
      · cases hCasts
        exact ⟨⟨rfl, by simpa using hVoid⟩, .inl (List.mem_singleton_self _)⟩
      · cases hCasts
        exact ⟨Role.admits_of_check hCheck, .inl (List.mem_singleton_self _)⟩
  | subtype bounds =>
      obtain ⟨hChecks, -, rfl⟩ := subtypeOf_eq_ok_iff.1 hOutcome
      cases hCasts with
      | upper hMem =>
          exact ⟨Role.admits_of_check (hChecks _ hMem),
            (mem_of_mem_effectiveBounds hMem).symm⟩
      | lower hMem => cases hMem
  | supertype bound =>
      obtain ⟨hCheck, -, rfl⟩ := supertypeOf_eq_ok_iff.1 hOutcome
      cases hCasts with
      | upper hMem =>
          obtain rfl := List.mem_singleton.1 hMem
          exact ⟨⟨rfl, rfl⟩, .inr rfl⟩
      | lower hMem =>
          obtain rfl := List.mem_singleton.1 hMem
          exact ⟨Role.admits_of_check hCheck, .inl hMem⟩
  | parameterized raw arguments =>
      obtain ⟨d, rfl, -, hChecks, -, rfl⟩ :=
        parameterizedOf_eq_ok_iff.1 hOutcome
      cases hCasts with
      | argument hMem =>
          exact ⟨Role.admits_of_check (hChecks _ hMem),
            .inl (List.mem_cons_of_mem _ hMem)⟩

private theorem hasPlaceholder_of_outcome (hOutcome : request.outcome = .ok v) :
    v.hasPlaceholder = false := by
  cases request with
  | array component =>
      by_cases hClass : component.isClass = true
      · match component, hClass with
        | .classType c, _ =>
            obtain ⟨-, rfl⟩ := arrayOf_classType_eq_ok_iff.1 hOutcome
            rfl
      · exact ((arrayOf_eq_ok_iff (by simpa using hClass)).1 hOutcome).2.1
  | subtype bounds => exact (subtypeOf_eq_ok_iff.1 hOutcome).2.1
  | supertype bound => exact (supertypeOf_eq_ok_iff.1 hOutcome).2.1
  | parameterized raw arguments =>
      obtain ⟨d, -, -, -, hPlaceholder, -⟩ :=
        parameterizedOf_eq_ok_iff.1 hOutcome
      exact hPlaceholder

end Composition.Request

namespace Value.Assembled

variable {v : Value}

theorem hasPlaceholder (hAssembled : v.Assembled) :
    v.hasPlaceholder = false := by
  cases hAssembled with
  | declared d => rfl
  | primitive p => rfl
  | var y => rfl
  | composed _ hOutcome =>
      exact Composition.Request.hasPlaceholder_of_outcome hOutcome

private theorem not_holds_placeholder (hAssembled : v.Assembled)
    (p : Placeholder) : ¬ v.Holds (.placeholder p) := by
  intro hHolds
  have hFound := hasPlaceholder_iff_holds.2 ⟨p, hHolds⟩
  simp [hAssembled.hasPlaceholder] at hFound

/-- What is `Assembled` of classes and type variables obeys all rules. -/
theorem obeys (hAssembled : v.Assembled) (role : Role) : v.Obeys role := by
  induction hAssembled with
  | declared d => exact obeys_of_not_casts (by rintro other part ⟨⟩)
  | primitive p => exact obeys_of_not_casts (by rintro other part ⟨⟩)
  | var y => exact obeys_of_not_casts (by rintro other part ⟨⟩)
  | composed _ hOutcome ih =>
      refine obeys_of_casts (fun part hCasts => ?_) fun other part hCasts => ?_
      · exact (Composition.Request.admits_of_outcome hOutcome hCasts).1
      · rcases (Composition.Request.admits_of_outcome hOutcome hCasts).2
          with hSupplied | rfl
        · exact ih part hSupplied
        · exact obeys_of_not_casts (by rintro other part ⟨⟩)

end Value.Assembled

namespace Substitution

open Value

variable {s : Substitution} {t u v w x b part : Value} {role : Role}
    {e : CompositionError}

/-! ## Substituting without checks -/

/-- What `apply` makes of a value that is no variable is of its kind. -/
theorem kind_of_apply (hVariable : v.isVariable = false)
    (hApply : s.apply v = .ok w) :
    w.isPrimitive = v.isPrimitive ∧ w.isWildcard = v.isWildcard ∧
      (w = .classType (.primitive .void) →
        v = .classType (.primitive .void)) := by
  cases v with
  | var y => cases hVariable
  | placeholder p => cases hVariable
  | classType c =>
      rw [apply] at hApply
      cases hApply
      exact ⟨rfl, rfl, id⟩
  | foreign y =>
      rw [apply] at hApply
      cases hApply
      exact ⟨rfl, rfl, id⟩
  | parameterized raw arguments =>
      obtain ⟨ws, -, rfl⟩ := apply_parameterized_eq_ok_iff.1 hApply
      exact ⟨rfl, rfl, by simp⟩
  | wildcard upper lower =>
      obtain ⟨us, ls, -, -, rfl⟩ := apply_wildcard_eq_ok_iff.1 hApply
      exact ⟨rfl, rfl, by simp⟩
  | array component =>
      obtain ⟨inner, -, hArray⟩ := apply_array_eq_ok_iff.1 hApply
      rcases cases_of_arrayOver hArray with ⟨c, -, rfl⟩ | rfl <;>
        exact ⟨rfl, rfl, by simp⟩

private theorem admits_of_apply (hVariable : v.isVariable = false)
    (hAdmits : role.Admits v) (hApply : s.apply v = .ok w) : role.Admits w := by
  obtain ⟨hPrimitive, hWildcard, hVoid⟩ := kind_of_apply hVariable hApply
  cases role with
  | typeArgument => exact hPrimitive.trans hAdmits
  | wildcardBound =>
      exact ⟨hWildcard.trans hAdmits.1, hPrimitive.trans hAdmits.2⟩
  | arrayComponent =>
      exact ⟨hWildcard.trans hAdmits.1, fun hEq => hAdmits.2 (hVoid hEq)⟩

/-- The variables that occur in what is `Assembled` are type variables. -/
theorem exists_var_of_holds (hT : t.Assembled) (hHolds : t.Holds x)
    (hVariable : x.isVariable = true) : ∃ y, x = .var y := by
  cases x with
  | var y => exact ⟨y, rfl⟩
  | placeholder p => exact absurd hHolds (hT.not_holds_placeholder p)
  | _ => cases hVariable

private theorem valueOf_of_binds {y : TypeVariable}
    (hBinds : s.Binds (.var y) b) : s.valueOf y = b :=
  Except.ok.inj ((s.apply_var y).symm.trans hBinds.apply)

section Assembled

variable (hBindings : ∀ binding ∈ s.bindings, binding.2.Assembled)
    (hT : t.Assembled)

include hBindings

private theorem assembled_valueOf (y : TypeVariable) :
    (s.valueOf y).Assembled :=
  valueOf_property (.var y) hBindings

include hT

/-- Where all bindings are to values that are `Assembled`, so is what a variable
of an assembled value is bound to. -/
theorem assembled_of_binds (hHolds : t.Holds x) (hBinds : s.Binds x b) :
    b.Assembled := by
  obtain ⟨y, rfl⟩ := exists_var_of_holds hT hHolds hBinds.isVariable
  rw [← valueOf_of_binds hBinds]
  exact assembled_valueOf hBindings y

/-- What has a role in the result of `apply` is admitted to it, or has come
there for a variable. -/
theorem admits_of_holdsAs (hApply : s.apply t = .ok u)
    (hHolds : u.HoldsAs role part) :
    role.Admits part ∨ ∃ y, t.HoldsAs role (.var y) ∧ s.valueOf y = part := by
  rcases cases_of_holdsAs hApply hHolds
    with ⟨before, hBefore, hPart⟩ | ⟨x, b, hX, hBinds, hB⟩
  · cases hVariable : before.isVariable with
    | false =>
        exact .inl (admits_of_apply hVariable
          (hT.obeys role before hBefore) hPart)
    | true =>
        obtain ⟨y, rfl⟩ := exists_var_of_holds hT hBefore.holds hVariable
        exact .inr ⟨y, hBefore,
          Except.ok.inj ((s.apply_var y).symm.trans hPart)⟩
  · exact .inl ((assembled_of_binds hBindings hT hX hBinds).obeys role part hB)

/-- Resolving what is composed fails only for an array of `void`. -/
theorem exists_of_resolve_error (hError : s.resolve t = .error e) :
    e = .voidComponent ∧ ∃ y, t.HoldsAs .arrayComponent (.var y) ∧
      s.valueOf y = .classType (.primitive .void) := by
  rcases cases_of_resolve_error hError with hFails | ⟨u, p, hApply, hHolds, -⟩
  · cases hFails with
    | unbound hHolds => exact absurd hHolds (hT.not_holds_placeholder _)
    | @voidComponent part hHolds hOk =>
        refine ⟨rfl, ?_⟩
        rcases cases_of_apply_eq_atom (by rintro role part ⟨⟩) hOk
          with hBinds | rfl
        · obtain ⟨y, rfl⟩ :=
            exists_var_of_holds hT hHolds.holds hBinds.isVariable
          exact ⟨y, hHolds, valueOf_of_binds hBinds⟩
        · exact absurd rfl (hT.obeys .arrayComponent _ hHolds).2
  · obtain ⟨x, b, hX, hBinds, hB⟩ := exists_of_holds_placeholder hApply hHolds
    exact absurd hB ((assembled_of_binds hBindings hT hX
      hBinds).not_holds_placeholder p)

end Assembled

/-- A component does not become `void`, for then there would be no result. -/
theorem valueOf_ne_void (hApply : s.apply t = .ok u) {y : TypeVariable}
    (hHolds : t.HoldsAs .arrayComponent (.var y)) :
    s.valueOf y ≠ .classType (.primitive .void) := by
  intro hVoid
  obtain ⟨w, hWhole, hCasts⟩ := hHolds
  obtain ⟨w', hOk, -⟩ := holds_of_apply hApply hWhole
  cases hCasts
  obtain ⟨inner, hInner, hArray⟩ := apply_array_eq_ok_iff.1 hOk
  obtain rfl : s.valueOf y = inner :=
    Except.ok.inj ((s.apply_var y).symm.trans hInner)
  rw [hVoid] at hArray
  cases hArray

/-- In what is composed of classes and type variables, substitute such values
for the variables. This fails exactly if an array becomes one of `void`.
Otherwise the result obeys the rule of a role exactly if that role admits the
replacement of each variable that occurs in it, and it holds no array of
`void`. -/
theorem obeys_resolve_iff
    (hBindings : ∀ binding ∈ s.bindings, binding.2.Assembled)
    (hT : t.Assembled) :
    (∀ e, s.resolve t = .error e ↔
        e = .voidComponent ∧ ∃ y, t.HoldsAs .arrayComponent (.var y) ∧
          s.valueOf y = .classType (.primitive .void)) ∧
      ∀ u, s.resolve t = .ok u →
        (∀ role, u.Obeys role ↔ ∀ y, t.HoldsAs role (.var y) →
          role.Admits (s.valueOf y)) ∧
        ¬ u.HoldsAs .arrayComponent (.classType (.primitive .void)) := by
  constructor
  · intro e
    constructor
    · exact exists_of_resolve_error hBindings hT
    · rintro ⟨rfl, y, hHolds, hVoid⟩
      cases hResolve : s.resolve t with
      | error e => rw [(exists_of_resolve_error hBindings hT hResolve).1]
      | ok u =>
          exact absurd hVoid (valueOf_ne_void
            (resolve_eq_ok_iff.1 hResolve).1 hHolds)
  · intro u hResolve
    have hApply := (resolve_eq_ok_iff.1 hResolve).1
    refine ⟨fun role => ⟨fun hObeys y hHolds => ?_,
      fun hAdmits part hHolds => ?_⟩, fun hVoid => ?_⟩
    · obtain ⟨part, hPart, hResult⟩ := holdsAs_of_apply hApply hHolds
      obtain rfl : s.valueOf y = part :=
        Except.ok.inj ((s.apply_var y).symm.trans hPart)
      exact hObeys _ hResult
    · rcases admits_of_holdsAs hBindings hT hApply hHolds
        with hDone | ⟨y, hVar, rfl⟩
      · exact hDone
      · exact hAdmits y hVar
    · rcases admits_of_holdsAs hBindings hT hApply hVoid
        with hAdmits | ⟨y, hVar, hEq⟩
      · exact hAdmits.2 rfl
      · exact valueOf_ne_void hApply hVar hEq

/-- A list of the values of its own parameter. -/
def listOfElements : Value :=
  .parameterized (.classType (.declared ⟨"java.util.List", ["E"]⟩))
    [.var ⟨"E", "java.util.List"⟩]

private theorem assembled_listOfElements : listOfElements.Assembled := by
  let request := Composition.Request.parameterized
    (.classType (.declared ⟨"java.util.List", ["E"]⟩))
    [.var ⟨"E", "java.util.List"⟩]
  have hParts : ∀ part ∈ request.supplied, part.Assembled := by
    intro part hMem
    rcases List.mem_cons.1 hMem with rfl | hArgument
    · exact .declared _
    · rw [List.mem_singleton.1 hArgument]
      exact .var _
  exact .composed hParts rfl

/-- With its elements bound to an unbounded wildcard, `List<E>` becomes
`List<?>`. -/
theorem obeys_resolve_unbounded :
    let s := ofList [(.var ⟨"E", "java.util.List"⟩, .wildcard [.object] [])]
    (∀ binding ∈ s.bindings, binding.2.Assembled) ∧ listOfElements.Assembled ∧
      ∃ u, s.resolve listOfElements = .ok u ∧ u.Obeys .typeArgument := by
  intro s
  have hBindings : ∀ binding ∈ s.bindings, binding.2.Assembled := by
    intro binding hMem
    rw [List.mem_singleton.1 hMem]
    have hParts : ∀ part ∈ (Composition.Request.subtype []).supplied,
        part.Assembled := by
      rintro part ⟨⟩
    exact .composed hParts rfl
  refine ⟨hBindings, assembled_listOfElements, _, rfl, ?_⟩
  have hRules :=
    ((obeys_resolve_iff hBindings assembled_listOfElements).2 _ rfl).1
  refine (hRules .typeArgument).2 fun y _ => ?_
  refine valueOf_property (p := fun v => v.isPrimitive = false) rfl
    fun binding hMem => ?_
  rw [List.mem_singleton.1 hMem]
  rfl

/-- With its elements bound to `int`, it becomes `List<int>`. -/
theorem resolve_primitive_argument :
    let int := Value.classType (.primitive .int)
    let s := ofList [(.var ⟨"E", "java.util.List"⟩, int)]
    let u := Value.parameterized
      (.classType (.declared ⟨"java.util.List", ["E"]⟩)) [int]
    (∀ binding ∈ s.bindings, binding.2.Assembled) ∧ listOfElements.Assembled ∧
      s.resolve listOfElements = .ok u ∧ ¬ u.Obeys .typeArgument := by
  intro int s u
  refine ⟨fun binding hMem => ?_, assembled_listOfElements, rfl,
    fun hObeys => ?_⟩
  · rw [List.mem_singleton.1 hMem]
    exact .primitive .int
  · cases hObeys int ⟨u, .refl, .argument (List.mem_singleton_self int)⟩

end Substitution

end JvmTypes
