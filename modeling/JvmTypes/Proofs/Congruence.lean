import JvmTypes.Proofs.Alike
import JvmTypes.Proofs.InStep

/-!
# Sameness is a congruence

What a substitution makes of a value is settled by one induction over the value,
`Substitution.Alike.exists_apply`. It needs no order of the bindings: a variable
has a single binding (`Substitution.Over`), so it does not matter which is found
first. With the compositions this completes the laws of sameness. Every law
about an operation comes from its one-sided form, used in both directions.

## Main results

* `Substitution.Over.insert`, `.ofList`, `.bind`: the ways to make a
  substitution give each variable one binding.
* `Substitution.Alike.exists_resolve`: substituting in values that are alike.
* `sameness_laws`: sameness is an equivalence that every composition and every
  substitution respects.
-/

namespace JvmTypes

variable {known : ClassType → Prop}

/-! ## Substitutions -/

namespace Substitution

/-- Substitutions of values over the `known` classes, with one binding for each
variable. -/
structure Over (known : ClassType → Prop) (s : Substitution) : Prop where
  keys : ∀ binding ∈ s.bindings, binding.1.Over known
  actuals : ∀ binding ∈ s.bindings, binding.2.Over known
  distinct : (s.bindings.map Prod.fst).Pairwise fun x y => x.same y = false

private theorem keys_insertBinding (key actual : Value)
    (bindings : List (Value × Value)) :
    (insertBinding key actual bindings).map Prod.fst =
      if bindings.any fun binding => binding.1.same key then
        bindings.map Prod.fst
      else bindings.map Prod.fst ++ [key] := by
  induction bindings with
  | nil => rfl
  | cons binding rest ih =>
      cases hSame : binding.1.same key with
      | true => simp [insertBinding, hSame]
      | false =>
          rw [insertBinding, if_neg (by simp [hSame]), List.map_cons, ih,
            List.any_cons, hSame, Bool.false_or]
          cases rest.any fun binding => binding.1.same key <;> rfl

private theorem mem_insertBinding {key actual : Value}
    {bindings : List (Value × Value)} {binding : Value × Value}
    (hMem : binding ∈ insertBinding key actual bindings) :
    binding.2 = actual ∨ binding ∈ bindings := by
  induction bindings with
  | nil =>
      rw [List.mem_singleton.1 hMem]
      exact .inl rfl
  | cons first rest ih =>
      rw [insertBinding] at hMem
      split at hMem
      · rcases List.mem_cons.1 hMem with rfl | hRest
        · exact .inl rfl
        · exact .inr (List.mem_cons_of_mem first hRest)
      · rcases List.mem_cons.1 hMem with rfl | hRest
        · exact .inr List.mem_cons_self
        · exact (ih hRest).imp_right (List.mem_cons_of_mem first)

namespace Over

variable {s : Substitution} {key actual : Value}

theorem insert (hOver : s.Over known) (hKey : key.Over known)
    (hActual : actual.Over known) : (s.insert key actual).Over known := by
  refine ⟨fun binding hMem => ?_, fun binding hMem => ?_, ?_⟩
  · have hFirst := List.mem_map_of_mem (f := Prod.fst) hMem
    rw [Substitution.insert, keys_insertBinding] at hFirst
    split at hFirst
    · obtain ⟨old, hOld, hEq⟩ := List.mem_map.1 hFirst
      exact hEq ▸ hOver.keys old hOld
    · rcases List.mem_append.1 hFirst with hOld | hNew
      · obtain ⟨old, hOld, hEq⟩ := List.mem_map.1 hOld
        exact hEq ▸ hOver.keys old hOld
      · exact List.mem_singleton.1 hNew ▸ hKey
  · rcases mem_insertBinding hMem with hNew | hOld
    · exact hNew ▸ hActual
    · exact hOver.actuals binding hOld
  · rw [Substitution.insert, keys_insertBinding]
    split
    · exact hOver.distinct
    · next hNew =>
        refine List.pairwise_append.2
          ⟨hOver.distinct, List.pairwise_singleton _ _, ?_⟩
        intro x hX y hY
        obtain ⟨binding, hMem, rfl⟩ := List.mem_map.1 hX
        obtain rfl := List.mem_singleton.1 hY
        simp only [List.any_eq_true, not_exists, not_and] at hNew
        simpa using hNew binding hMem

theorem ofList {bindings : List (Value × Value)}
    (hKeys : ∀ x ∈ bindings, x.1.Over known)
    (hActuals : ∀ x ∈ bindings, x.2.Over known) :
    (Substitution.ofList bindings).Over known := by
  have hFold : ∀ s : Substitution, s.Over known →
      (bindings.foldl (fun s x => s.insert x.1 x.2) s).Over known := by
    induction bindings with
    | nil => exact fun s hOver => hOver
    | cons x rest ih =>
        intro s hOver
        obtain ⟨hKey, hKeys⟩ := List.forall_mem_cons.1 hKeys
        obtain ⟨hActual, hActuals⟩ := List.forall_mem_cons.1 hActuals
        exact ih hKeys hActuals _ (hOver.insert hKey hActual)
  exact hFold .empty ⟨by simp [empty], by simp [empty], List.Pairwise.nil⟩

/-- Binding one more variable with `bind` keeps a substitution over the `known`
classes. -/
theorem bind {t : Substitution} (hOver : s.Over known) (hKey : key.Over known)
    (hActual : actual.Over known) (hBind : s.bind key actual = .ok t) :
    t.Over known := by
  have hInsert : t = s.insert key actual := by
    unfold Substitution.bind at hBind
    grind
  exact hInsert ▸ hOver.insert hKey hActual

/-- Two bindings of a variable are one binding, since `Value.same` tells keys
apart. -/
theorem eq_of_same (hOver : s.Over known) :
    ∀ x ∈ s.bindings, ∀ y ∈ s.bindings, x.1.same y.1 = true → x = y := by
  have hKeys := hOver.keys
  have hDistinct := List.pairwise_map.1 hOver.distinct
  generalize s.bindings = bindings at hKeys hDistinct
  induction hDistinct with
  | nil => simp
  | @cons z rest hFirst _ ih =>
      obtain ⟨_, hRest⟩ := List.forall_mem_cons.1 hKeys
      intro x hX y hY hSame
      rcases List.mem_cons.1 hX with rfl | hX'
      · rcases List.mem_cons.1 hY with rfl | hY'
        · rfl
        · exact absurd hSame (by simp [hFirst y hY'])
      · rcases List.mem_cons.1 hY with rfl | hY'
        · exact absurd ((hRest x hX').same_symm hSame) (by simp [hFirst x hX'])
        · exact ih hRest x hX' y hY' hSame

/-- What `find?` finds for a variable is what its one binding says. -/
theorem find?_eq_some_iff (hOver : s.Over known) :
    s.find? key = some actual ↔ ∃ x ∈ s.bindings, x.1.same key = true ∧
    x.2 = actual := by
  unfold Substitution.find?
  constructor
  · intro hFind
    split at hFind
    · cases hFind
    · next binding actual' hBinding =>
        cases hFind
        have hSame := List.find?_some hBinding
        exact ⟨_, List.mem_of_find?_eq_some hBinding, hSame, rfl⟩
    · cases hFind
  · rintro ⟨x, hMem, hSame, rfl⟩
    cases hFind : s.bindings.find? fun binding => binding.1.same key with
    | none =>
        exact absurd hSame (by simpa using List.find?_eq_none.1 hFind x hMem)
    | some y =>
        have hY := List.mem_of_find?_eq_some hFind
        have hSameKey : y.1.same key = true := by
          simpa using List.find?_some hFind
        have hKeys : x.1.same y.1 = true :=
          (hOver.keys x hMem).same_trans hSame
            ((hOver.keys y hY).same_symm hSameKey)
        obtain rfl := hOver.eq_of_same x hMem y hY hKeys
        have hActual := hOver.actuals x hMem
        obtain ⟨k, actual⟩ := x
        cases hActual <;> rfl

end Over

/-- Substitutions that bind the same variables to the same values by
`Value.same`, in any order. -/
structure Alike (known : ClassType → Prop) (s t : Substitution) : Prop where
  left : s.Over known
  right : t.Over known
  forward : ∀ x ∈ s.bindings, ∃ y ∈ t.bindings, x.1.same y.1 = true ∧
  x.2.same y.2 = true
  backward : ∀ y ∈ t.bindings, ∃ x ∈ s.bindings, x.1.same y.1 = true ∧
  x.2.same y.2 = true

private theorem Over.alike_self {s : Substitution} (hOver : s.Over known) :
    s.Alike known s := by
  have hSelf : ∀ x ∈ s.bindings, ∃ y ∈ s.bindings, x.1.same y.1 = true ∧
      x.2.same y.2 = true :=
    fun x hX =>
      ⟨x, hX, (hOver.keys x hX).same_self, (hOver.actuals x hX).same_self⟩
  refine ⟨hOver, hOver, hSelf, fun y hY => ?_⟩
  exact ⟨y, hY, (hOver.keys y hY).same_self, (hOver.actuals y hY).same_self⟩

theorem Alike.symm {s t : Substitution} (hAlike : s.Alike known t) :
    t.Alike known s := by
  refine ⟨hAlike.right, hAlike.left, fun y hY => ?_, fun x hX => ?_⟩
  · obtain ⟨x, hX, hKey, hActual⟩ := hAlike.backward y hY
    exact ⟨x, hX, (hAlike.left.keys x hX).same_symm hKey,
      (hAlike.left.actuals x hX).same_symm hActual⟩
  · obtain ⟨y, hY, hKey, hActual⟩ := hAlike.forward x hX
    exact ⟨y, hY, (hAlike.left.keys x hX).same_symm hKey,
      (hAlike.left.actuals x hX).same_symm hActual⟩

/-- Variables that are `Value.Alike` are bound to values that are. -/
theorem Alike.exists_find? {s t : Substitution} {key key' a : Value}
    (hAlike : s.Alike known t) (hKey : Value.Alike known key key')
    (hFind : s.find? key = some a) :
    ∃ b, t.find? key' = some b ∧ Value.Alike known a b := by
  obtain ⟨x, hX, hSame, rfl⟩ := hAlike.left.find?_eq_some_iff.1 hFind
  obtain ⟨y, hY, hKeys, hActuals⟩ := hAlike.forward x hX
  have hFound : y.1.same key' = true := by
    refine (hAlike.right.keys y hY).same_trans ?_ ?_ (b := key)
    · exact (hAlike.right.keys y hY).same_trans
        ((hAlike.left.keys x hX).same_symm hKeys) hSame
    · exact hKey.same
  exact ⟨y.2, hAlike.right.find?_eq_some_iff.2 ⟨y, hY, hFound, rfl⟩,
    hAlike.left.actuals x hX, hAlike.right.actuals y hY, hActuals⟩

theorem Alike.find?_eq_none {s t : Substitution} {key key' : Value}
    (hAlike : s.Alike known t) (hKey : Value.Alike known key key')
    (hFind : s.find? key = none) : t.find? key' = none := by
  cases hOther : t.find? key' with
  | none => rfl
  | some b =>
      obtain ⟨a, hFound, -⟩ := hAlike.symm.exists_find? hKey.symm hOther
      rw [hFind] at hFound
      cases hFound

/-! ## Substituting in values that are alike -/

variable {s t : Substitution}

theorem applyAll_eq_ok_iff {vs as : List Value} :
    s.applyAll vs = .ok as ↔
    List.Forall₂ (fun v a => s.apply v = .ok a) vs as := by
  induction vs generalizing as with
  | nil =>
      rw [applyAll, List.forall₂_nil_left_iff]
      exact ⟨fun hOk => (Except.ok.inj hOk).symm, fun hNil => hNil ▸ rfl⟩
  | cons v vs ih =>
      rw [applyAll, List.forall₂_cons_left_iff]
      cases hHead : s.apply v with
      | error e => simp [Bind.bind, Except.bind]
      | ok a =>
          cases hTail : s.applyAll vs with
          | error e => simp [hTail, Bind.bind, Except.bind, ← ih]
          | ok rest =>
              simp only [hTail, Bind.bind, Except.bind, ← ih, Except.ok.injEq]
              grind

/-- What the substitutions `s` and `t` make by `apply` of values that are alike
is alike. -/
def Respects (known : ClassType → Prop) (s t : Substitution) (v : Value) :
    Prop :=
  ∀ w a, Value.Alike known v w → s.apply v = .ok a →
    ∃ b, t.apply w = .ok b ∧ Value.Alike known a b

private theorem exists_applyAll_of_lists {vs ws as : List Value}
    (hRespects : ∀ v ∈ vs, Respects known s t v)
    (hLists : List.Forall₂ (Value.Alike known) vs ws)
    (hApply : s.applyAll vs = .ok as) :
    ∃ bs, t.applyAll ws = .ok bs ∧ List.Forall₂ (Value.Alike known) as bs := by
  have hAll := applyAll_eq_ok_iff.1 hApply
  clear hApply
  induction hLists generalizing as with
  | nil =>
      cases hAll
      exact ⟨[], rfl, .nil⟩
  | cons hHead _ ih =>
      obtain ⟨hFirst, hRest⟩ := List.forall_mem_cons.1 hRespects
      cases hAll with
      | cons hOk hOks =>
          obtain ⟨b, hB, hAlike⟩ := hFirst _ _ hHead hOk
          obtain ⟨bs, hBs, hAlikes⟩ := ih hRest hOks
          exact ⟨b :: bs, applyAll_eq_ok_iff.2
            (.cons hB (applyAll_eq_ok_iff.1 hBs)),
            .cons hAlike hAlikes⟩

private theorem exists_applyAll {vs : List Value}
    (hOk : ∀ v ∈ vs, ∃ a, s.apply v = .ok a) :
    ∃ as, s.applyAll vs = .ok as := by
  induction vs with
  | nil => exact ⟨[], rfl⟩
  | cons v vs ih =>
      obtain ⟨⟨a, hA⟩, hRest⟩ := List.forall_mem_cons.1 hOk
      obtain ⟨as, hAs⟩ := ih hRest
      exact ⟨a :: as, applyAll_eq_ok_iff.2
        (.cons hA (applyAll_eq_ok_iff.1 hAs))⟩

private theorem exists_applyAll_of_matching {vs ws as : List Value}
    (hRespects : ∀ v ∈ vs, Respects known s t v)
    (hMatching : Value.Matching (Value.Alike known) vs ws)
    (hApply : s.applyAll vs = .ok as) :
    ∃ bs, t.applyAll ws = .ok bs ∧
      Value.Matching (Value.Alike known) as bs := by
  obtain ⟨hForward, hBackward⟩ :=
    Value.Matching.of_forall₂ (applyAll_eq_ok_iff.1 hApply)
  have hStep : ∀ w ∈ ws, ∃ a ∈ as, ∃ b, t.apply w = .ok b ∧
      Value.Alike known a b := by
    intro w hW
    obtain ⟨v, hV, hAlike⟩ := hMatching.2 w hW
    obtain ⟨a, hA, hOk⟩ := hForward v hV
    exact ⟨a, hA, hRespects v hV w a hAlike hOk⟩
  obtain ⟨bs, hBs⟩ := exists_applyAll fun w hW => by
    obtain ⟨a, -, b, hOk, -⟩ := hStep w hW
    exact ⟨b, hOk⟩
  obtain ⟨hForward', hBackward'⟩ :=
    Value.Matching.of_forall₂ (applyAll_eq_ok_iff.1 hBs)
  refine ⟨bs, hBs, fun a hA => ?_, fun b hB => ?_⟩
  · obtain ⟨v, hV, hOk⟩ := hBackward a hA
    obtain ⟨w, hW, hAlike⟩ := hMatching.1 v hV
    obtain ⟨b, hOk', hResult⟩ := hRespects v hV w a hAlike hOk
    obtain ⟨b', hB', hOk''⟩ := hForward' w hW
    obtain rfl : b = b' := Except.ok.inj (hOk'.symm.trans hOk'')
    exact ⟨b, hB', hResult⟩
  · obtain ⟨w, hW, hOk⟩ := hBackward' b hB
    obtain ⟨a, hA, b', hOk', hResult⟩ := hStep w hW
    obtain rfl : b = b' := Except.ok.inj (hOk.symm.trans hOk')
    exact ⟨a, hA, hResult⟩

private theorem Alike.respects_var (hAlike : s.Alike known t)
    (v : TypeVariable) : Respects known s t (.var v) := by
  intro w a hV hApply
  obtain rfl := Value.same_var_iff.1 hV.same
  rw [apply] at hApply ⊢
  cases hFind : s.find? (.var v) with
  | none =>
      rw [hFind] at hApply
      cases hApply
      rw [hAlike.find?_eq_none hV hFind]
      exact ⟨_, rfl, hV⟩
  | some actual =>
      rw [hFind] at hApply
      cases hApply
      obtain ⟨b, hFound, hActual⟩ := hAlike.exists_find? hV hFind
      rw [hFound]
      exact ⟨b, rfl, hActual⟩

private theorem Alike.respects_placeholder (hAlike : s.Alike known t)
    (p : Placeholder) : Respects known s t (.placeholder p) := by
  intro w a hV hApply
  obtain ⟨q, rfl, -⟩ := Value.same_placeholder_iff.1 hV.same
  rw [apply] at hApply ⊢
  cases hFind : s.find? (.placeholder p) with
  | none => simp [hFind] at hApply
  | some actual =>
      rw [hFind] at hApply
      cases hApply
      obtain ⟨b, hFound, hActual⟩ := hAlike.exists_find? hV hFind
      rw [hFound]
      exact ⟨b, rfl, hActual⟩

private theorem respects_parameterized {raw : Value} {arguments : List Value}
    (hRespects : ∀ v ∈ arguments, Respects known s t v) :
    Respects known s t (.parameterized raw arguments) := by
  intro w a hV hApply
  obtain ⟨raw', arguments', rfl, hRaw, hArguments⟩ := hV.parameterized_cases
  rw [apply] at hApply
  obtain ⟨as, hAs, hResult⟩ := exists_of_bind_eq_ok hApply
  cases hResult
  obtain ⟨bs, hBs, hAlikes⟩ := exists_applyAll_of_lists hRespects hArguments hAs
  exact ⟨.parameterized raw' bs, by simp [apply, hBs, Bind.bind, Except.bind],
    hRaw.parameterized hAlikes⟩

private theorem respects_array (hNominal : Nominal known) {component : Value}
    (hRespects : Respects known s t component) :
    Respects known s t (.array component) := by
  intro w a hV hApply
  obtain ⟨component', rfl, hComponent⟩ := hV.array_cases
  rw [apply] at hApply
  obtain ⟨inner, hInner, hArray⟩ := exists_of_bind_eq_ok hApply
  obtain ⟨inner', hInner', hAlikeInner⟩ :=
    hRespects component' inner hComponent hInner
  obtain ⟨b, hB, hResult⟩ := hAlikeInner.exists_arrayOver hNominal hArray
  exact ⟨b, by simpa [apply, hInner', Bind.bind, Except.bind] using hB, hResult⟩

private theorem respects_wildcard {upper lower : List Value}
    (hUppers : ∀ v ∈ upper, Respects known s t v)
    (hLowers : ∀ v ∈ lower, Respects known s t v) :
    Respects known s t (.wildcard upper lower) := by
  intro w a hV hApply
  obtain ⟨upper', lower', rfl, hUpper, hLower⟩ := hV.wildcard_cases
  rw [apply] at hApply
  obtain ⟨as, hAs, hApply⟩ := exists_of_bind_eq_ok hApply
  obtain ⟨bs, hBs, hResult⟩ := exists_of_bind_eq_ok hApply
  cases hResult
  obtain ⟨as', hAs', hAlikeUpper⟩ :=
    exists_applyAll_of_matching hUppers hUpper hAs
  obtain ⟨bs', hBs', hAlikeLower⟩ :=
    exists_applyAll_of_matching hLowers hLower hBs
  exact ⟨.wildcard as' bs', by simp [apply, hAs', hBs', Bind.bind, Except.bind],
    .wildcard hAlikeUpper hAlikeLower⟩

/-- Substitutions that are `Alike` make values that are alike of values that are
alike. -/
theorem Alike.exists_apply (hNominal : Nominal known) (hAlike : s.Alike known t)
    {v : Value} (hOver : v.Over known) : Respects known s t v := by
  induction hOver with
  | classType hKnown =>
      intro w a hV hApply
      obtain ⟨-, rfl⟩ := hV.classType_cases hNominal
      cases hApply
      exact ⟨_, rfl, hV⟩
  | var v => exact hAlike.respects_var v
  | placeholder p => exact hAlike.respects_placeholder p
  | parameterized _ _ _ ihArguments => exact respects_parameterized ihArguments
  | array _ ih => exact respects_array hNominal ih
  | wildcard _ _ ihUpper ihLower => exact respects_wildcard ihUpper ihLower

theorem Alike.exists_resolve (hNominal : Nominal known)
    (hAlike : s.Alike known t) {v w a : Value} (hV : Value.Alike known v w)
    (hResolve : s.resolve v = .ok a) :
    ∃ b, t.resolve w = .ok b ∧ a.same b = true := by
  unfold resolve at hResolve ⊢
  obtain ⟨resolved, hApply, hCheck⟩ := exists_of_bind_eq_ok hResolve
  obtain ⟨b, hB, hResult⟩ :=
    hAlike.exists_apply hNominal hV.left w resolved hV hApply
  split at hCheck
  · cases hCheck
  · next hPlaceholder =>
      cases hCheck
      rw [hResult.hasPlaceholder] at hPlaceholder
      exact
        ⟨b, by simp [hB, hPlaceholder, Bind.bind, Except.bind], hResult.same⟩

end Substitution

/-! ## The laws of sameness -/

/-- Both runs yield, and values that are the same by `Value.same`, or both
fail. -/
abbrev SameOutcome (x y : Except CompositionError Value) : Prop :=
  InStep (fun _ _ => True) (fun v w => v.same w = true) x y

/-- Over the `known` classes, sameness is an equivalence, composing and
substituting respect it, and `bind` does not lead out of them. -/
structure SamenessLaws (known : ClassType → Prop) : Prop where
  refl {a : Value} (hOver : a.Over known) : a.same a = true
  symm {a b : Value} (hFirst : a.Over known) (hSecond : b.Over known)
    (hSame : a.same b = true) : b.same a = true
  trans {a b c : Value} (hFirst : a.Over known) (hSecond : b.Over known)
    (hThird : c.Over known)
    (hSame : a.same b = true) (hNext : b.same c = true) : a.same c = true
  hasPlaceholder {a b : Value} (hAlike : a.Alike known b) :
  a.hasPlaceholder = b.hasPlaceholder
  arrayOf {a b : Value} (hAlike : a.Alike known b) :
    SameOutcome (Composition.arrayOf a) (Composition.arrayOf b)
  supertypeOf {a b : Value} (hAlike : a.Alike known b) :
    SameOutcome (Composition.supertypeOf a) (Composition.supertypeOf b)
  subtypeOf {as bs : List Value}
    (hBounds : List.Forall₂ (Value.Alike known) as bs) :
    SameOutcome (Composition.subtypeOf as) (Composition.subtypeOf bs)
  parameterizedOf {raw raw' : Value} {as bs : List Value}
    (hRaw : raw.Alike known raw')
    (hArguments : List.Forall₂ (Value.Alike known) as bs) :
    SameOutcome (Composition.parameterizedOf raw as)
      (Composition.parameterizedOf raw' bs)
  resolve {s t : Substitution} {v w : Value} (hBindings : s.Alike known t)
    (hValue : v.Alike known w) : SameOutcome (s.resolve v) (t.resolve w)
  bind {s t : Substitution} {key actual : Value} (hOver : s.Over known)
    (hKey : key.Over known)
    (hActual : actual.Over known) (hBind : s.bind key actual = .ok t) :
    t.Over known

theorem Value.all_alike_symm {as bs : List Value}
    (hAll : List.Forall₂ (Alike known) as bs) :
    List.Forall₂ (Alike known) bs as :=
  List.Forall₂.flip (hAll.imp fun _ _ hAlike => hAlike.symm)

private theorem samenessLaws_of_nominal (hNominal : Nominal known) :
    SamenessLaws known where
  refl hOver := hOver.same_self
  symm hFirst _ hSame := hFirst.same_symm hSame
  trans hFirst _ _ hSame hNext := hFirst.same_trans hSame hNext
  hasPlaceholder hAlike := hAlike.hasPlaceholder
  arrayOf hAlike :=
    .of_ok (fun _ => hAlike.exists_arrayOf hNominal) fun _ =>
      hAlike.symm.exists_arrayOf hNominal
  supertypeOf hAlike :=
    .of_ok (fun _ => hAlike.exists_supertypeOf hNominal)
      fun _ => hAlike.symm.exists_supertypeOf hNominal
  subtypeOf hBounds :=
    .of_ok (fun _ => Value.Alike.exists_subtypeOf hNominal hBounds)
      fun _ =>
        Value.Alike.exists_subtypeOf hNominal (Value.all_alike_symm hBounds)
  parameterizedOf hRaw hArguments :=
    .of_ok (fun _ =>
      Value.Alike.exists_parameterizedOf hNominal hRaw hArguments)
      fun _ => Value.Alike.exists_parameterizedOf hNominal hRaw.symm
        (Value.all_alike_symm hArguments)
  resolve hBindings hValue :=
    .of_ok (fun _ => hBindings.exists_resolve hNominal hValue)
      fun _ => hBindings.symm.exists_resolve hNominal hValue.symm
  bind hOver hKey hActual hBind := hOver.bind hKey hActual hBind

/-- Over classes that their names tell apart, sameness is an equivalence that
all operations respect. The classes over a registered catalog without the name
of a primitive type are such, and so they are together with `Object` unless that
takes parameters there. -/
theorem sameness_laws :
    (∀ known, Nominal known → SamenessLaws known) ∧
    ∀ entries catalog, Catalog.empty.registerAll entries = .ok catalog →
      (∀ p : Primitive, p.name ∉ catalog.names) →
        Nominal (IsClass catalog) ∧
        ((∀ d, catalog.find? ClassType.object.name = some d →
          d.parameters = []) →
          Nominal (IsClass catalog.withObject) ∧
          IsClass catalog.withObject .object ∧
            ∀ c, IsClass catalog c → IsClass catalog.withObject c) := by
  exact ⟨fun known => samenessLaws_of_nominal,
    fun entries catalog hRegister hPrimitive =>
    nominal_registered hRegister hPrimitive⟩

/-- The type parameter of `List`, bound to the array class of `int`. -/
def boundToInts : Substitution :=
  .ofList [(.var ⟨"E", "List"⟩, .classType (.array (.primitive .int)))]

/-- Bounds may be moved and repeated before `resolve` substitutes into them. -/
theorem sameness_laws_moved :
    Catalog.empty.registerAll [(.str "List", .list [.str "E"])] =
      .ok listScope.catalog ∧
    (∀ p : Primitive, p.name ∉ listScope.catalog.names) ∧
    SameOutcome
      (boundToInts.resolve
        (.wildcard [.var ⟨"E", "List"⟩, .array (.var ⟨"E", "List"⟩)] []))
      (boundToInts.resolve (.wildcard
        [.array (.var ⟨"E", "List"⟩), .var ⟨"E", "List"⟩, .var ⟨"E", "List"⟩]
        [])) := by
  have hRegister : Catalog.empty.registerAll [(.str "List", .list [.str "E"])] =
      .ok listScope.catalog := toOption_eq_some_iff.1 (by decide +kernel)
  have hPrimitive : ∀ p : Primitive, p.name ∉ listScope.catalog.names := by
    intro p
    cases p <;> decide
  obtain ⟨hLaws, hCatalogs⟩ := sameness_laws
  have hNominal := (hCatalogs _ _ hRegister hPrimitive).1
  have hInts : (Value.classType (.array (.primitive .int))).Over
      (IsClass listScope.catalog) :=
    .classType (.array (.primitive .int) (by decide))
  have hElement : (Value.var ⟨"E", "List"⟩).Over (IsClass listScope.catalog) :=
    .var _
  have hBound : boundToInts.Over (IsClass listScope.catalog) :=
    .ofList (by simpa using hElement) (by simpa using hInts)
  refine ⟨hRegister, hPrimitive,
    (hLaws _ hNominal).resolve hBound.alike_self ?_⟩
  exact ⟨.wildcard (by simp [hElement, hElement.array]) (by simp),
    .wildcard (by simp [hElement, hElement.array]) (by simp), by decide⟩

end JvmTypes
