import JvmTypes.Proofs.Composition
import Mathlib.Data.List.Forall2

/-!
# Sameness is an equivalence

`Value.same` compares values part by part, but the bounds of a wildcard as sets,
and these can hold wildcards again. So sameness is no equality of shapes: on one
side a bound may be repeated or moved, at any depth. It is an equivalence all
the same, for each law passes from the bounds to the sets of them (`SameSets`).
The induction is on `Value.Over`, which says of what classes a value is made and
that nothing in it is foreign.

## Main results

* `Value.Over.same_self`, `Value.Over.same_symm`, `Value.Over.same_trans`.
* `Value.Over.hasPlaceholder_congr`: of two values that are the same, either
  both hold a placeholder or neither does.
-/

namespace JvmTypes

namespace Value

/-! ## Values over given classes -/

/-- Values made of classes that are `known`, of variables and of
placeholders. -/
inductive Over (known : ClassType → Prop) : Value → Prop
  | classType {c : ClassType} (hKnown : known c) : Over known (.classType c)
  | var (v : TypeVariable) : Over known (.var v)
  | placeholder (p : Placeholder) : Over known (.placeholder p)
  | parameterized {raw : Value} {arguments : List Value} (hRaw : Over known raw)
      (hArguments : ∀ a ∈ arguments, Over known a) :
      Over known (.parameterized raw arguments)
  | array {component : Value} (hComponent : Over known component) :
      Over known (.array component)
  | wildcard {upper lower : List Value} (hUpper : ∀ b ∈ upper, Over known b)
      (hLower : ∀ b ∈ lower, Over known b) : Over known (.wildcard upper lower)

/-- Values that are types throughout: nothing in them is foreign. -/
abbrev IsTypeValue (v : Value) : Prop := v.Over fun _ => True

/-- Types in which no placeholder stands. -/
structure IsPlain (v : Value) : Prop where
  types : v.IsTypeValue
  hasPlaceholder : v.hasPlaceholder = false

theorem Over.isTypeValue {known : ClassType → Prop} {v : Value}
    (hOver : v.Over known) : v.IsTypeValue := by
  induction hOver with
  | classType => exact .classType trivial
  | var v => exact .var v
  | placeholder p => exact .placeholder p
  | parameterized _ _ ihRaw ihArguments =>
      exact .parameterized ihRaw ihArguments
  | array _ ih => exact .array ih
  | wildcard _ _ ihUpper ihLower => exact .wildcard ihUpper ihLower

theorem Over.isForeign {known : ClassType → Prop} {v : Value}
    (hOver : v.Over known) : v.isForeign = false := by
  cases hOver <;> rfl

/-! ## Lists and sets of values -/

/-- Two lists that hold the same values by `Value.same`, one by one. -/
abbrev SameLists (as bs : List Value) : Prop :=
  List.Forall₂ (fun a b => a.same b = true) as bs

/-- Two lists in which each member of either has a partner in the other, by
`partners`. -/
def Matching (partners : Value → Value → Prop) (as bs : List Value) : Prop :=
  (∀ a ∈ as, ∃ b ∈ bs, partners a b) ∧ ∀ b ∈ bs, ∃ a ∈ as, partners a b

/-- Two lists that hold the same values by `Value.same`, as sets. -/
abbrev SameSets (as bs : List Value) : Prop :=
  Matching (fun a b => a.same b = true) as bs

private theorem sameAll_iff_sameLists {as bs : List Value} :
    sameAll as bs = true ↔ SameLists as bs := by
  induction as generalizing bs with
  | nil => cases bs <;> simp [sameAll]
  | cons a as ih => cases bs <;> simp [sameAll, ih]

theorem SameLists.symm {as bs : List Value} (hSame : SameLists as bs)
    (hSymm : ∀ a ∈ as, ∀ b, a.same b = true → b.same a = true) :
    SameLists bs as := by
  induction hSame with
  | nil => exact .nil
  | cons hHead _ ih =>
      obtain ⟨hFirst, hRest⟩ := List.forall_mem_cons.1 hSymm
      exact .cons (hFirst _ hHead) (ih hRest)

theorem SameLists.trans {as bs cs : List Value} (hSame : SameLists as bs)
    (hNext : SameLists bs cs)
    (hTrans : ∀ a ∈ as, ∀ b c, a.same b = true → b.same c = true →
      a.same c = true) :
    SameLists as cs := by
  induction hSame generalizing cs with
  | nil => exact hNext
  | cons hHead _ ih =>
      obtain ⟨hFirst, hRest⟩ := List.forall_mem_cons.1 hTrans
      cases hNext with
      | cons hHead' hTail' =>
          exact .cons (hFirst _ _ hHead hHead') (ih hTail' hRest)

theorem Matching.of_forall₂ {partners : Value → Value → Prop}
    {as bs : List Value} (hPairs : List.Forall₂ partners as bs) :
    Matching partners as bs := by
  induction hPairs with
  | nil => exact ⟨by simp, by simp⟩
  | @cons a b as bs hHead _ ih =>
      refine ⟨List.forall_mem_cons.2
        ⟨⟨b, List.mem_cons_self, hHead⟩, fun x hMem => ?_⟩,
        List.forall_mem_cons.2 ⟨⟨a, List.mem_cons_self, hHead⟩,
          fun y hMem => ?_⟩⟩
      · obtain ⟨y, hY, hPartner⟩ := ih.1 x hMem
        exact ⟨y, List.mem_cons_of_mem b hY, hPartner⟩
      · obtain ⟨x, hX, hPartner⟩ := ih.2 y hMem
        exact ⟨x, List.mem_cons_of_mem a hX, hPartner⟩

theorem Matching.imp {partners partners' : Value → Value → Prop}
    {as bs : List Value} (hMatching : Matching partners as bs)
    (hImp : ∀ a b, partners a b → partners' a b) :
    Matching partners' as bs := by
  refine ⟨fun a hA => ?_, fun b hB => ?_⟩
  · obtain ⟨b, hB, hPartner⟩ := hMatching.1 a hA
    exact ⟨b, hB, hImp a b hPartner⟩
  · obtain ⟨a, hA, hPartner⟩ := hMatching.2 b hB
    exact ⟨a, hA, hImp a b hPartner⟩

/-- Lists with the same members are `Matching`, if each of these is its own
partner. -/
theorem Matching.of_mem_iff {partners : Value → Value → Prop}
    {as bs : List Value} (hSelf : ∀ a ∈ as, partners a a)
    (hMembers : ∀ a, a ∈ as ↔ a ∈ bs) : Matching partners as bs :=
  ⟨fun a hA => ⟨a, (hMembers a).1 hA, hSelf a hA⟩,
    fun b hB => ⟨b, (hMembers b).2 hB, hSelf b ((hMembers b).2 hB)⟩⟩

theorem SameSets.self {as : List Value} (hSame : ∀ a ∈ as, a.same a = true) :
    SameSets as as :=
  .of_mem_iff hSame fun _ => Iff.rfl

theorem SameSets.symm {as bs : List Value} (hSame : SameSets as bs)
    (hSymm : ∀ a ∈ as, ∀ b, a.same b = true → b.same a = true) :
    SameSets bs as := by
  refine ⟨fun b hB => ?_, fun a hA => ?_⟩
  · obtain ⟨a, hA, hPartner⟩ := hSame.2 b hB
    exact ⟨a, hA, hSymm a hA b hPartner⟩
  · obtain ⟨b, hB, hPartner⟩ := hSame.1 a hA
    exact ⟨b, hB, hSymm a hA b hPartner⟩

theorem SameSets.trans {as bs cs : List Value} (hSame : SameSets as bs)
    (hNext : SameSets bs cs)
    (hTrans : ∀ a ∈ as, ∀ b c, a.same b = true → b.same c = true →
      a.same c = true) :
    SameSets as cs := by
  refine ⟨fun a hA => ?_, fun c hC => ?_⟩
  · obtain ⟨b, hB, hPartner⟩ := hSame.1 a hA
    obtain ⟨c, hC, hPartner'⟩ := hNext.1 b hB
    exact ⟨c, hC, hTrans a hA b c hPartner hPartner'⟩
  · obtain ⟨b, hB, hPartner'⟩ := hNext.2 c hC
    obtain ⟨a, hA, hPartner⟩ := hSame.2 b hB
    exact ⟨a, hA, hTrans a hA b c hPartner hPartner'⟩

/-! ## What a value can be the same as -/

theorem same_classType_iff {c : ClassType} {w : Value} :
    (classType c).same w = true ↔ ∃ d, w = classType d ∧ c.name = d.name := by
  cases w <;> simp [same]

theorem same_var_iff {v : TypeVariable} {w : Value} :
    (var v).same w = true ↔ w = var v := by
  cases w <;> simp [same, eq_comm]

theorem same_placeholder_iff {p : Placeholder} {w : Value} :
    (placeholder p).same w = true ↔ ∃ q, w = placeholder q ∧
    p.serial = q.serial := by
  cases w <;> simp [same]

theorem same_parameterized_iff {raw w : Value} {arguments : List Value} :
    (parameterized raw arguments).same w = true ↔
      ∃ raw' arguments', w = parameterized raw' arguments' ∧
        raw.same raw' = true ∧
        SameLists arguments arguments' := by
  cases w <;> simp [same, sameAll_iff_sameLists]

theorem same_array_iff {component w : Value} :
    (array component).same w = true ↔
      ∃ component', w = array component' ∧
        component.same component' = true := by
  cases w <;> simp [same]

theorem same_wildcard_sets_iff {upper lower : List Value} {w : Value} :
    (wildcard upper lower).same w = true ↔
      ∃ upper' lower', w = wildcard upper' lower' ∧ SameSets upper upper' ∧
        SameSets lower lower' := by
  cases w with
  | wildcard upper' lower' =>
      rw [same_wildcard_iff]
      exact ⟨fun hSame => ⟨upper', lower', rfl, hSame⟩,
        by rintro ⟨_, _, ⟨⟩, hSame⟩; exact hSame⟩
  | _ => simp [same]

/-! ## The laws of an equivalence -/

namespace Over

variable {known : ClassType → Prop} {a b c : Value}

/-- A value `Over` the known classes is the same as itself. -/
theorem same_self (hOver : a.Over known) : a.same a = true := by
  induction hOver with
  | classType => exact same_classType_iff.2 ⟨_, rfl, rfl⟩
  | var => exact same_var_iff.2 rfl
  | placeholder => exact same_placeholder_iff.2 ⟨_, rfl, rfl⟩
  | parameterized _ _ ihRaw ihArguments =>
      exact same_parameterized_iff.2
        ⟨_, _, rfl, ihRaw, List.forall₂_same.2 ihArguments⟩
  | array _ ih => exact same_array_iff.2 ⟨_, rfl, ih⟩
  | wildcard _ _ ihUpper ihLower =>
      exact same_wildcard_sets_iff.2 ⟨_, _, rfl, .self ihUpper, .self ihLower⟩

/-- On values `Over` the known classes `Value.same` is symmetric. -/
theorem same_symm (hOver : a.Over known) (hSame : a.same b = true) :
    b.same a = true := by
  induction hOver generalizing b with
  | classType =>
      obtain ⟨d, rfl, hName⟩ := same_classType_iff.1 hSame
      exact same_classType_iff.2 ⟨_, rfl, hName.symm⟩
  | var v =>
      obtain rfl := same_var_iff.1 hSame
      exact hSame
  | placeholder =>
      obtain ⟨q, rfl, hSerial⟩ := same_placeholder_iff.1 hSame
      exact same_placeholder_iff.2 ⟨_, rfl, hSerial.symm⟩
  | parameterized _ _ ihRaw ihArguments =>
      obtain ⟨raw, arguments, rfl, hRaw, hArguments⟩ :=
        same_parameterized_iff.1 hSame
      exact same_parameterized_iff.2
        ⟨_, _, rfl, ihRaw hRaw,
          hArguments.symm fun x hMem y => ihArguments x hMem⟩
  | array _ ih =>
      obtain ⟨component, rfl, hComponent⟩ := same_array_iff.1 hSame
      exact same_array_iff.2 ⟨_, rfl, ih hComponent⟩
  | wildcard _ _ ihUpper ihLower =>
      obtain ⟨upper, lower, rfl, hUpper, hLower⟩ :=
        same_wildcard_sets_iff.1 hSame
      exact same_wildcard_sets_iff.2
        ⟨_, _, rfl, hUpper.symm fun x hMem y => ihUpper x hMem,
          hLower.symm fun x hMem y => ihLower x hMem⟩

/-- On values `Over` the known classes `Value.same` is transitive. -/
theorem same_trans (hOver : a.Over known) (hSame : a.same b = true)
    (hNext : b.same c = true) : a.same c = true := by
  induction hOver generalizing b c with
  | classType =>
      obtain ⟨d, rfl, hName⟩ := same_classType_iff.1 hSame
      obtain ⟨e, rfl, hName'⟩ := same_classType_iff.1 hNext
      exact same_classType_iff.2 ⟨e, rfl, hName.trans hName'⟩
  | var v =>
      obtain rfl := same_var_iff.1 hSame
      exact hNext
  | placeholder =>
      obtain ⟨q, rfl, hSerial⟩ := same_placeholder_iff.1 hSame
      obtain ⟨r, rfl, hSerial'⟩ := same_placeholder_iff.1 hNext
      exact same_placeholder_iff.2 ⟨r, rfl, hSerial.trans hSerial'⟩
  | parameterized _ _ ihRaw ihArguments =>
      obtain ⟨raw, arguments, rfl, hRaw, hArguments⟩ :=
        same_parameterized_iff.1 hSame
      obtain ⟨raw', arguments', rfl, hRaw', hArguments'⟩ :=
        same_parameterized_iff.1 hNext
      exact same_parameterized_iff.2
        ⟨_, _, rfl, ihRaw hRaw hRaw',
          hArguments.trans hArguments' fun x hMem y z => ihArguments x hMem⟩
  | array _ ih =>
      obtain ⟨component, rfl, hComponent⟩ := same_array_iff.1 hSame
      obtain ⟨component', rfl, hComponent'⟩ := same_array_iff.1 hNext
      exact same_array_iff.2 ⟨_, rfl, ih hComponent hComponent'⟩
  | wildcard _ _ ihUpper ihLower =>
      obtain ⟨upper, lower, rfl, hUpper, hLower⟩ :=
        same_wildcard_sets_iff.1 hSame
      obtain ⟨upper', lower', rfl, hUpper', hLower'⟩ :=
        same_wildcard_sets_iff.1 hNext
      exact same_wildcard_sets_iff.2
        ⟨_, _, rfl, hUpper.trans hUpper' fun x hMem y z => ihUpper x hMem,
          hLower.trans hLower' fun x hMem y z => ihLower x hMem⟩

end Over

/-! ## What values that are the same have in common -/

theorem isObject_congr {a b : Value} (hSame : a.same b = true) :
    a.isObject = b.isObject := by
  cases a with
  | classType c =>
      obtain ⟨d, rfl, hName⟩ := same_classType_iff.1 hSame
      simp [isObject, hName]
  | _ => cases b <;> first | rfl | cases hSame

theorem isClass_congr {a b : Value} (hSame : a.same b = true) :
    a.isClass = b.isClass := by
  cases a <;> cases b <;> first | rfl | cases hSame

theorem isWildcard_congr {a b : Value} (hSame : a.same b = true) :
    a.isWildcard = b.isWildcard := by
  cases a <;> cases b <;> first | rfl | cases hSame

theorem same_object {v : Value} (hObject : v.isObject = true) :
    v.same object = true := by
  cases v with
  | classType c => simpa [isObject, same, object] using hObject
  | _ => cases hObject

theorem anyPlaceholder_eq_true_iff {vs : List Value} :
    anyPlaceholder vs = true ↔ ∃ v ∈ vs, v.hasPlaceholder = true := by
  induction vs with
  | nil => simp [anyPlaceholder]
  | cons v vs ih => simp [anyPlaceholder, ih]

theorem Matching.anyPlaceholder {as bs : List Value} (hSame : SameSets as bs)
    (hCongr : ∀ a ∈ as, ∀ b, a.same b = true →
      a.hasPlaceholder = b.hasPlaceholder) :
    anyPlaceholder as = Value.anyPlaceholder bs := by
  rw [Bool.eq_iff_iff, anyPlaceholder_eq_true_iff, anyPlaceholder_eq_true_iff]
  constructor
  · rintro ⟨a, hA, hHas⟩
    obtain ⟨b, hB, hPartner⟩ := hSame.1 a hA
    exact ⟨b, hB, hCongr a hA b hPartner ▸ hHas⟩
  · rintro ⟨b, hB, hHas⟩
    obtain ⟨a, hA, hPartner⟩ := hSame.2 b hB
    exact ⟨a, hA, (hCongr a hA b hPartner).symm ▸ hHas⟩

/-- Of two values that are the same, either both hold a placeholder by
`hasPlaceholder` or neither. -/
theorem Over.hasPlaceholder_congr {known : ClassType → Prop} {a b : Value}
    (hOver : a.Over known) (hSame : a.same b = true) :
    a.hasPlaceholder = b.hasPlaceholder := by
  induction hOver generalizing b with
  | classType =>
      obtain ⟨d, rfl, -⟩ := same_classType_iff.1 hSame
      rfl
  | var v =>
      obtain rfl := same_var_iff.1 hSame
      rfl
  | placeholder =>
      obtain ⟨q, rfl, -⟩ := same_placeholder_iff.1 hSame
      rfl
  | parameterized _ _ _ ihArguments =>
      obtain ⟨raw, arguments, rfl, -, hArguments⟩ :=
        same_parameterized_iff.1 hSame
      exact (Matching.of_forall₂ hArguments).anyPlaceholder fun x hMem y =>
        ihArguments x hMem
  | array _ ih =>
      obtain ⟨component, rfl, hComponent⟩ := same_array_iff.1 hSame
      rw [hasPlaceholder, hasPlaceholder, ih hComponent]
  | wildcard _ _ ihUpper ihLower =>
      obtain ⟨upper, lower, rfl, hUpper, hLower⟩ :=
        same_wildcard_sets_iff.1 hSame
      rw [hasPlaceholder, hasPlaceholder,
        hUpper.anyPlaceholder fun x hMem y => ihUpper x hMem,
        hLower.anyPlaceholder fun x hMem y => ihLower x hMem]

end Value

end JvmTypes
