import JvmTypes.Proofs.Nominal
import JvmTypes.Proofs.Sameness

/-!
# Composing values that are alike

Values are alike (`Value.Alike`) if they are the same and over classes of one
sort; a composite of parts that are alike is alike, and a composite is alike
only to one of parts that are.

Composing looks at more of a class than the name by which it is compared: at its
kind and at its number of parameters. So composing does not respect sameness as
it stands. It does respect it between types that are one class as soon as they
are classes (`Value.Akin`): what is composed of them is the same again, or
composed of neither. Below a composite no such condition is needed. Over classes
that their names tell apart (`Nominal`), types that are alike are akin.

Each composition is looked at from one side: if it yields on some values, it
yields on values that are akin, and what it yields is the same. Likeness being
symmetric, the other side is the same statement.

## Main results

* `Value.Alike.array`, `parameterized`, `wildcard`: composites of parts that are
  alike.
* `Value.Akin.check`: types that are akin can play the same roles.
* `Value.Akin.exists_arrayOf`, `exists_supertypeOf`, `exists_subtypeOf`,
  `exists_parameterizedOf`: the compositions, from one side.
* `Value.Alike.akin`: types that are alike are akin.
-/

namespace JvmTypes

variable {known : ClassType → Prop}

namespace Value

/-! ## Types that are alike -/

/-- Values over the `known` classes that are the same. -/
structure Alike (known : ClassType → Prop) (a b : Value) : Prop where
  left : a.Over known
  right : b.Over known
  same : a.same b = true

namespace Alike

variable {a b : Value}

theorem refl (hOver : a.Over known) : Alike known a a :=
  ⟨hOver, hOver, hOver.same_self⟩

theorem symm (hAlike : Alike known a b) : Alike known b a :=
  ⟨hAlike.right, hAlike.left, hAlike.left.same_symm hAlike.same⟩

theorem hasPlaceholder (hAlike : Alike known a b) :
    a.hasPlaceholder = b.hasPlaceholder :=
  hAlike.left.hasPlaceholder_congr hAlike.same

/-! ## Parts of values that are alike -/

theorem all_of_sameLists {as bs : List Value} (hLeft : ∀ a ∈ as, a.Over known)
    (hRight : ∀ b ∈ bs, b.Over known) (hSame : SameLists as bs) :
    List.Forall₂ (Alike known) as bs :=
  List.forall₂_iff_zip.2 ⟨hSame.length_eq, fun hMem =>
    ⟨hLeft _ (List.of_mem_zip hMem).1, hRight _ (List.of_mem_zip hMem).2,
      List.forall₂_zip hSame hMem⟩⟩

private theorem matching_of_sameSets {as bs : List Value}
    (hLeft : ∀ a ∈ as, a.Over known) (hRight : ∀ b ∈ bs, b.Over known)
    (hSame : SameSets as bs) : Matching (Alike known) as bs := by
  refine ⟨fun a hA => ?_, fun b hB => ?_⟩
  · obtain ⟨b, hB, hPartner⟩ := hSame.1 a hA
    exact ⟨b, hB, hLeft a hA, hRight b hB, hPartner⟩
  · obtain ⟨a, hA, hPartner⟩ := hSame.2 b hB
    exact ⟨a, hA, hLeft a hA, hRight b hB, hPartner⟩

theorem classType_cases {c : ClassType} (hNominal : Nominal known)
    (hAlike : Alike known (.classType c) b) : known c ∧ b = .classType c := by
  obtain ⟨d, rfl, hName⟩ := same_classType_iff.1 hAlike.same
  cases hAlike.left with
  | classType hFirst =>
      cases hAlike.right with
      | classType hSecond =>
          exact ⟨hFirst, by rw [hNominal.eq_of_name hFirst hSecond hName]⟩

theorem parameterized_cases {raw : Value} {arguments : List Value}
    (hAlike : Alike known (.parameterized raw arguments) b) :
    ∃ raw' arguments', b = .parameterized raw' arguments' ∧
      Alike known raw raw' ∧
      List.Forall₂ (Alike known) arguments arguments' := by
  obtain ⟨raw', arguments', rfl, hRaw, hArguments⟩ :=
    same_parameterized_iff.1 hAlike.same
  cases hAlike.left with
  | parameterized hLeft hLefts =>
      cases hAlike.right with
      | parameterized hRight hRights =>
          exact ⟨raw', arguments', rfl, ⟨hLeft, hRight, hRaw⟩,
            all_of_sameLists hLefts hRights hArguments⟩

theorem array_cases {component : Value}
    (hAlike : Alike known (.array component) b) :
    ∃ component', b = .array component' ∧ Alike known component component' := by
  obtain ⟨component', rfl, hComponent⟩ := same_array_iff.1 hAlike.same
  cases hAlike.left with
  | array hLeft =>
      cases hAlike.right with
      | array hRight => exact ⟨component', rfl, hLeft, hRight, hComponent⟩

theorem wildcard_cases {upper lower : List Value}
    (hAlike : Alike known (.wildcard upper lower) b) :
    ∃ upper' lower', b = .wildcard upper' lower' ∧
      Matching (Alike known) upper upper' ∧
      Matching (Alike known) lower lower' := by
  obtain ⟨upper', lower', rfl, hUpper, hLower⟩ :=
    same_wildcard_sets_iff.1 hAlike.same
  cases hAlike.left with
  | wildcard hUppers hLowers =>
      cases hAlike.right with
      | wildcard hUppers' hLowers' =>
          exact ⟨upper', lower', rfl,
            matching_of_sameSets hUppers hUppers' hUpper,
            matching_of_sameSets hLowers hLowers' hLower⟩

private theorem sameSets_of_matching {as bs : List Value}
    (hMatching : Matching (Alike known) as bs) :
    (∀ a ∈ as, a.Over known) ∧ (∀ b ∈ bs, b.Over known) ∧ SameSets as bs := by
  refine ⟨fun a hA => ?_, fun b hB => ?_,
    hMatching.imp fun _ _ hAlike => hAlike.same⟩
  · obtain ⟨b, -, hAlike⟩ := hMatching.1 a hA
    exact hAlike.left
  · obtain ⟨a, -, hAlike⟩ := hMatching.2 b hB
    exact hAlike.right

theorem parameterized {raw raw' : Value} {arguments arguments' : List Value}
    (hRaw : Alike known raw raw')
    (hArguments : List.Forall₂ (Alike known) arguments arguments') :
    Alike known (.parameterized raw arguments)
      (.parameterized raw' arguments') := by
  obtain ⟨hLeft, hRight, -⟩ :=
    sameSets_of_matching (Matching.of_forall₂ hArguments)
  exact ⟨.parameterized hRaw.left hLeft, .parameterized hRaw.right hRight,
    same_parameterized_iff.2
      ⟨raw', arguments', rfl, hRaw.same,
        hArguments.imp fun _ _ hAlike => hAlike.same⟩⟩

theorem array {component component' : Value}
    (hAlike : Alike known component component') :
    Alike known (.array component) (.array component') :=
  ⟨.array hAlike.left, .array hAlike.right,
    same_array_iff.2 ⟨_, rfl, hAlike.same⟩⟩

theorem wildcard {upper upper' lower lower' : List Value}
    (hUpper : Matching (Alike known) upper upper')
    (hLower : Matching (Alike known) lower lower') :
    Alike known (.wildcard upper lower) (.wildcard upper' lower') := by
  obtain ⟨hUppers, hUppers', hSameUpper⟩ := sameSets_of_matching hUpper
  obtain ⟨hLowers, hLowers', hSameLower⟩ := sameSets_of_matching hLower
  exact ⟨.wildcard hUppers hLowers, .wildcard hUppers' hLowers',
    same_wildcard_sets_iff.2 ⟨_, _, rfl, hSameUpper, hSameLower⟩⟩

end Alike

/-! ## Types that are akin -/

/-- Types that are `Alike`, and one class if they are classes: what composition
cannot tell apart. -/
structure Akin (a b : Value) : Prop extends Alike (fun _ => True) a b where
  eq_of_isClass : a.isClass = true → a = b

namespace Akin

variable {a b v : Value}

theorem refl (hType : a.IsTypeValue) : Akin a a := ⟨.refl hType, fun _ => rfl⟩

/-- Composites are `Akin` as soon as they are `Alike`. -/
theorem of_composite (hAlike : Alike (fun _ => True) a b)
    (hClass : a.isClass = false) : Akin a b := by
  refine ⟨hAlike, fun hIs => ?_⟩
  rw [hClass] at hIs
  cases hIs

theorem isPrimitive (hAkin : Akin a b) : a.isPrimitive = b.isPrimitive := by
  by_cases hClass : a.isClass = true
  · rw [hAkin.eq_of_isClass hClass]
  · have hLeft : a.isClass = false := by simpa using hClass
    have hRight : b.isClass = false := isClass_congr hAkin.same ▸ hLeft
    rw [isPrimitive_of_not_class hLeft, isPrimitive_of_not_class hRight]

/-- Of types that are `Akin`, either both pass `Role.check` or neither does. -/
theorem check {role : Role} (hAkin : Akin a b)
    (hCheck : role.check a = .ok ()) : role.check b = .ok () := by
  rw [Role.check_eq_ok_iff, hAkin.isPrimitive,
    isWildcard_congr hAkin.same] at hCheck
  exact Role.check_eq_ok_iff.2 ⟨hAkin.right.isForeign, hCheck.2⟩

/-! ## Composites of types that are akin -/

theorem array (hAkin : Akin a b) : Akin (.array a) (.array b) :=
  of_composite hAkin.toAlike.array rfl

theorem parameterized {raw : Value} {as bs : List Value}
    (hRaw : raw.IsTypeValue) (hArguments : List.Forall₂ Akin as bs) :
    Akin (.parameterized raw as) (.parameterized raw bs) :=
  of_composite
    (.parameterized (.refl hRaw)
      (hArguments.imp fun _ _ hAkin => hAkin.toAlike)) rfl

theorem wildcard {us us' ls ls' : List Value} (hUpper : Matching Akin us us')
    (hLower : Matching Akin ls ls') :
    Akin (.wildcard us ls) (.wildcard us' ls') :=
  of_composite (.wildcard (hUpper.imp fun _ _ hAkin => hAkin.toAlike)
    (hLower.imp fun _ _ hAkin => hAkin.toAlike)) rfl

/-! ## Composition -/

theorem exists_arrayOf (hAkin : Akin a b)
    (hArray : Composition.arrayOf a = .ok v) :
    ∃ w, Composition.arrayOf b = .ok w ∧ Akin v w := by
  rcases Composition.cases_of_arrayOf hArray
    with ⟨c, rfl, -, rfl⟩ | ⟨hClass, hCheck, rfl⟩
  · obtain rfl := hAkin.eq_of_isClass rfl
    exact ⟨_, hArray, refl (.classType trivial)⟩
  · have hPlaceholder := ((Composition.arrayOf_eq_ok_iff hClass).1 hArray).2.1
    have hOther : b.isClass = false := isClass_congr hAkin.same ▸ hClass
    have hComposite := (Composition.arrayOf_eq_ok_iff hOther).2
      ⟨hAkin.check hCheck, hAkin.array.hasPlaceholder ▸ hPlaceholder, rfl⟩
    exact ⟨_, hComposite, hAkin.array⟩

private theorem matching_object : Matching Akin [object] [object] :=
  .of_forall₂ (.cons (refl (.classType trivial)) .nil)

theorem exists_supertypeOf (hAkin : Akin a b)
    (hSupertype : Composition.supertypeOf a = .ok v) :
    ∃ w, Composition.supertypeOf b = .ok w ∧ Akin v w := by
  obtain ⟨hCheck, hPlaceholder, rfl⟩ :=
    Composition.supertypeOf_eq_ok_iff.1 hSupertype
  have hResult : Akin (.wildcard [object] [a]) (.wildcard [object] [b]) :=
    wildcard matching_object (.of_forall₂ (.cons hAkin .nil))
  exact ⟨_, Composition.supertypeOf_eq_ok_iff.2
    ⟨hAkin.check hCheck, hResult.hasPlaceholder ▸ hPlaceholder, rfl⟩, hResult⟩

/-- Only the `effectiveBounds` matter to `subtypeOf`, as a set. -/
theorem exists_subtypeOf_of_matching {as bs : List Value}
    (hBounds : Matching Akin (Composition.effectiveBounds as)
      (Composition.effectiveBounds bs))
    (hSubtype : Composition.subtypeOf as = .ok v) :
    ∃ w, Composition.subtypeOf bs = .ok w ∧ Akin v w := by
  obtain ⟨hChecks, hPlaceholder, rfl⟩ :=
    Composition.subtypeOf_eq_ok_iff.1 hSubtype
  have hResult := wildcard hBounds (.of_forall₂ .nil)
  refine ⟨_, Composition.subtypeOf_eq_ok_iff.2
    ⟨fun b hB => ?_, hResult.hasPlaceholder ▸ hPlaceholder, rfl⟩, hResult⟩
  obtain ⟨a, hA, hAkin⟩ := hBounds.2 b hB
  exact hAkin.check (hChecks a hA)

private theorem matching_effectiveBounds {as bs : List Value}
    (hBounds : List.Forall₂ Akin as bs) :
    Matching Akin (Composition.effectiveBounds as)
      (Composition.effectiveBounds bs) := by
  have hOthers : List.Forall₂ Akin (as.filter fun x => !x.isObject)
      (bs.filter fun x => !x.isObject) :=
    List.rel_filter (fun _ _ hAkin =>
      by simp [isObject_congr hAkin.same]) hBounds
  unfold Composition.effectiveBounds
  generalize as.filter (fun x => !x.isObject) = xs at hOthers ⊢
  generalize bs.filter (fun x => !x.isObject) = ys at hOthers ⊢
  cases hOthers with
  | nil => exact matching_object
  | cons hHead hTail => exact .of_forall₂ (.cons hHead hTail)

theorem exists_subtypeOf {as bs : List Value}
    (hBounds : List.Forall₂ Akin as bs)
    (hSubtype : Composition.subtypeOf as = .ok v) :
    ∃ w, Composition.subtypeOf bs = .ok w ∧ Akin v w :=
  exists_subtypeOf_of_matching (matching_effectiveBounds hBounds) hSubtype

theorem exists_parameterizedOf {raw : Value} {as bs : List Value}
    (hArguments : List.Forall₂ Akin as bs)
    (hParameterized : Composition.parameterizedOf raw as = .ok v) :
    ∃ w, Composition.parameterizedOf raw bs = .ok w ∧ Akin v w := by
  obtain ⟨d, rfl, hLength, hChecks, hPlaceholder, rfl⟩ :=
    Composition.parameterizedOf_eq_ok_iff.1 hParameterized
  have hResult :=
    parameterized (.classType (c := .declared d) trivial) hArguments
  refine ⟨_, Composition.parameterizedOf_eq_ok_iff.2
    ⟨d, rfl, hArguments.length_eq ▸ hLength,
    fun b hB => ?_, hResult.hasPlaceholder ▸ hPlaceholder, rfl⟩, hResult⟩
  obtain ⟨a, hA, hAkin⟩ := (Matching.of_forall₂ hArguments).2 b hB
  exact hAkin.check (hChecks a hA)

end Akin

/-! ## Over classes that their names tell apart -/

namespace Alike

variable {a b : Value}

theorem akin (hNominal : Nominal known) (hAlike : Alike known a b) :
    Akin a b := by
  refine ⟨⟨hAlike.left.isTypeValue, hAlike.right.isTypeValue, hAlike.same⟩,
    fun hClass => ?_⟩
  match a, hClass with
  | .classType c, _ =>
      obtain ⟨-, rfl⟩ := hAlike.classType_cases hNominal
      rfl

private theorem all_akin {as bs : List Value} (hNominal : Nominal known)
    (hAll : List.Forall₂ (Alike known) as bs) : List.Forall₂ Akin as bs :=
  hAll.imp fun _ _ hAlike => hAlike.akin hNominal

variable {v : Value}

theorem exists_arrayOver (hNominal : Nominal known) (hAlike : Alike known a b)
    (hArray : Substitution.arrayOver a = .ok v) :
    ∃ w, Substitution.arrayOver b = .ok w ∧ Alike known v w := by
  by_cases hClass : a.isClass = true
  · match a, hClass with
    | .classType c, _ =>
        obtain ⟨hKnown, rfl⟩ := hAlike.classType_cases hNominal
        obtain ⟨hVoid, rfl⟩ := Composition.arrayOf_classType_eq_ok_iff.1 hArray
        have hOver : (Value.classType (.array c)).Over known :=
          .classType (hNominal.array hKnown hVoid)
        exact ⟨_, hArray, hOver, hOver, hOver.same_self⟩
  · have hLeft : a.isClass = false := by simpa using hClass
    have hRight : b.isClass = false := isClass_congr hAlike.same ▸ hLeft
    rw [Composition.arrayOver_of_not_class hLeft] at hArray
    cases hArray
    exact ⟨_, Composition.arrayOver_of_not_class hRight, hAlike.array⟩

theorem exists_arrayOf (hNominal : Nominal known) (hAlike : Alike known a b)
    (hArray : Composition.arrayOf a = .ok v) :
    ∃ w, Composition.arrayOf b = .ok w ∧ v.same w = true := by
  obtain ⟨w, hOther, hResult⟩ := (hAlike.akin hNominal).exists_arrayOf hArray
  exact ⟨w, hOther, hResult.same⟩

theorem exists_supertypeOf (hNominal : Nominal known) (hAlike : Alike known a b)
    (hSupertype : Composition.supertypeOf a = .ok v) :
    ∃ w, Composition.supertypeOf b = .ok w ∧ v.same w = true := by
  obtain ⟨w, hOther, hResult⟩ :=
    (hAlike.akin hNominal).exists_supertypeOf hSupertype
  exact ⟨w, hOther, hResult.same⟩

theorem exists_subtypeOf {as bs : List Value} (hNominal : Nominal known)
    (hBounds : List.Forall₂ (Alike known) as bs)
    (hSubtype : Composition.subtypeOf as = .ok v) :
    ∃ w, Composition.subtypeOf bs = .ok w ∧ v.same w = true := by
  obtain ⟨w, hOther, hResult⟩ :=
    Akin.exists_subtypeOf (all_akin hNominal hBounds) hSubtype
  exact ⟨w, hOther, hResult.same⟩

theorem exists_parameterizedOf {raw raw' : Value} {as bs : List Value}
    (hNominal : Nominal known) (hRaw : Alike known raw raw')
    (hArguments : List.Forall₂ (Alike known) as bs)
    (hParameterized : Composition.parameterizedOf raw as = .ok v) :
    ∃ w, Composition.parameterizedOf raw' bs = .ok w ∧ v.same w = true := by
  obtain ⟨d, rfl, -⟩ := Composition.parameterizedOf_eq_ok_iff.1 hParameterized
  obtain ⟨-, rfl⟩ := hRaw.classType_cases hNominal
  obtain ⟨w, hOther, hResult⟩ :=
    Akin.exists_parameterizedOf (all_akin hNominal hArguments) hParameterized
  exact ⟨w, hOther, hResult.same⟩

end Alike

end Value

end JvmTypes
