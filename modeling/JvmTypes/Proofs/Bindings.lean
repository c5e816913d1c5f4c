import JvmTypes.Proofs.Congruence
import Mathlib.Data.List.Induction

/-!
# Binding variables one after another

A substitution is made by binding variables one by one. A variable can be bound
again, but only to a value that is the same, and then the later value replaces
the earlier. So the order of the bindings shows in the substitution, in the
values it stores as well as in the order of its bindings. It does not show in
what the substitution does.

Binding is followed from left to right (`bindAll_append_singleton`). As long as
all bindings agree, what has been made is the substitution of their list, in
which the last binding of a variable counts (`find?_ofList`). The first binding
that does not agree with an earlier one is a conflict.

## Main results

* `Substitution.Over.find?_insert`, `Substitution.find?_ofList`: what a variable
  is bound to afterwards.
* `Substitution.bindAll_cases`: binding succeeds exactly when the bindings
  agree.
* `Substitution.Alike.resolve_inStep`: substitutions that are alike give values
  that are the same, or fail alike.
* `Substitution.bindAll_perm`: the order of bindings does not matter.
-/

namespace JvmTypes

variable {known : ClassType → Prop}

namespace Value

/-- Values that are the same by `Value.same` are the same as the same values, if
their classes come from one `known` set. -/
theorem Over.same_congr {a b : Value} (hLeft : a.Over known)
    (hRight : b.Over known) (hSame : a.same b = true) (c : Value) :
    a.same c = b.same c := by
  rw [Bool.eq_iff_iff]
  constructor
  · intro hFirst
    exact hRight.same_trans (hLeft.same_symm hSame) hFirst
  · intro hSecond
    exact hLeft.same_trans hSame hSecond

/-- The values that can be bound: type variables and placeholders. -/
def isVariable : Value → Bool
  | var _ | placeholder _ => true
  | _ => false

private theorem over_of_isVariable {key : Value}
    (hVariable : key.isVariable = true) :
    key.Over known := by
  cases key with
  | var v => exact .var v
  | placeholder p => exact .placeholder p
  | _ => cases hVariable

end Value

namespace Substitution

/-! ## What a variable is bound to -/

section Lookup

variable {s : Substitution} {key actual : Value}

theorem find?_eq_map (hActuals : ∀ x ∈ s.bindings, x.2.Over known)
    (key : Value) :
    s.find? key = (s.bindings.find? fun x => x.1.same key).map Prod.snd := by
  unfold Substitution.find?
  cases hFind : s.bindings.find? fun x => x.1.same key with
  | none => rfl
  | some x =>
      have hActual := hActuals x (List.mem_of_find?_eq_some hFind)
      obtain ⟨first, actual⟩ := x
      cases hActual <;> rfl

private theorem find?_insertBinding {bindings : List (Value × Value)}
    (hKeys : ∀ x ∈ bindings, x.1.Over known) (hKey : key.Over known)
    (other : Value) :
    ((insertBinding key actual bindings).find?
        fun x => x.1.same other).map Prod.snd =
      if key.same other then some actual
      else (bindings.find? fun x => x.1.same other).map Prod.snd := by
  induction bindings with
  | nil =>
      rw [insertBinding, List.find?_singleton]
      split <;> rfl
  | cons x rest ih =>
      obtain ⟨hFirst, hRest⟩ := List.forall_mem_cons.1 hKeys
      rw [insertBinding]
      by_cases hSame : x.1.same key = true
      · have hOther : x.1.same other = key.same other :=
          hFirst.same_congr hKey hSame other
        rw [if_pos hSame, List.find?_cons, List.find?_cons, hOther]
        cases key.same other <;> rfl
      · rw [if_neg hSame, List.find?_cons, List.find?_cons]
        cases hOther : x.1.same other with
        | false => exact ih hRest
        | true =>
            have hApart : ¬ key.same other = true := by
              intro hKeyOther
              exact hSame (hFirst.same_trans hOther (hKey.same_symm hKeyOther))
            rw [if_neg hApart]

/-- After `insert` a lookup finds the new value for the bound variable, and for
any other what it found before. -/
theorem Over.find?_insert (hOver : s.Over known) (hKey : key.Over known)
    (hActual : actual.Over known) (other : Value) :
    (s.insert key actual).find? other =
      if key.same other then some actual else s.find? other := by
  rw [find?_eq_map (hOver.insert hKey hActual).actuals,
    find?_eq_map hOver.actuals]
  exact find?_insertBinding hOver.keys hKey other

end Lookup

variable {pairs : List (Value × Value)}

private theorem ofList_append_singleton (pairs : List (Value × Value))
    (x : Value × Value) :
    ofList (pairs ++ [x]) = (ofList pairs).insert x.1 x.2 := by
  rw [ofList, List.foldl_append]
  rfl

/-- Of several bindings of a variable in `ofList` the last one counts. -/
theorem find?_ofList (hKeys : ∀ x ∈ pairs, x.1.Over known)
    (hActuals : ∀ x ∈ pairs, x.2.Over known) (key : Value) :
    (ofList pairs).find? key =
      (pairs.reverse.find? fun x => x.1.same key).map Prod.snd := by
  induction pairs using List.reverseRecOn with
  | nil => rfl
  | append_singleton pairs x ih =>
      obtain ⟨hKeys, hKey⟩ := List.forall_mem_append.1 hKeys
      obtain ⟨hActuals, hActual⟩ := List.forall_mem_append.1 hActuals
      have hLast := List.mem_singleton_self x
      rw [ofList_append_singleton,
        (Over.ofList hKeys hActuals).find?_insert (hKey x hLast)
        (hActual x hLast),
        ih hKeys hActuals, List.reverse_append, List.reverse_singleton,
        List.singleton_append, List.find?_cons]
      cases x.1.same key <;> rfl

/-- What `find?` finds in `ofList` is what one of the bindings says. -/
theorem exists_mem_of_find?_ofList {key actual : Value}
    (hKeys : ∀ x ∈ pairs, x.1.Over known)
    (hActuals : ∀ x ∈ pairs, x.2.Over known)
    (hFind : (ofList pairs).find? key = some actual) :
    ∃ x ∈ pairs, x.1.same key = true ∧ x.2 = actual := by
  rw [find?_ofList hKeys hActuals, Option.map_eq_some_iff] at hFind
  obtain ⟨x, hLast, rfl⟩ := hFind
  have hMem := List.mem_reverse.1 (List.mem_of_find?_eq_some hLast)
  have hSame := List.find?_some hLast
  exact ⟨x, hMem, hSame, rfl⟩

private theorem exists_find?_ofList {key : Value}
    (hKeys : ∀ x ∈ pairs, x.1.Over known)
    (hActuals : ∀ x ∈ pairs, x.2.Over known) {x : Value × Value}
    (hMem : x ∈ pairs) (hSame : x.1.same key = true) :
    ∃ actual, (ofList pairs).find? key = some actual := by
  rw [find?_ofList hKeys hActuals]
  cases hLast : pairs.reverse.find? fun x => x.1.same key with
  | some y => exact ⟨y.2, rfl⟩
  | none =>
      have hNone := List.find?_eq_none.1 hLast x (List.mem_reverse.2 hMem)
      exact absurd hSame hNone

/-! ## Binding a list of variables -/

/-- The substitution made by `bind` for each pair, from the first to the
last. -/
def bindAll (pairs : List (Value × Value)) :
    Except CompositionError Substitution :=
  pairs.foldlM (fun s x => s.bind x.1 x.2) empty

/-- Bindings that bind a variable to one value, up to `Value.same`, each
time. -/
def Agree (pairs : List (Value × Value)) : Prop :=
  ∀ x ∈ pairs, ∀ y ∈ pairs, x.1.same y.1 = true → x.2.same y.2 = true

theorem Agree.perm {pairs' : List (Value × Value)} (hAgree : Agree pairs)
    (hPerm : pairs.Perm pairs') : Agree pairs' := by
  intro x hX y hY hSame
  exact hAgree x (hPerm.mem_iff.2 hX) y (hPerm.mem_iff.2 hY) hSame

/-- Bindings with one more `Agree` if they do and the new one agrees with each
of them. -/
theorem agree_append_singleton_iff {x : Value × Value} (hKey : x.1.Over known)
    (hActual : x.2.Over known) (hActuals : ∀ y ∈ pairs, y.2.Over known) :
    Agree (pairs ++ [x]) ↔
      Agree pairs ∧ ∀ y ∈ pairs, y.1.same x.1 = true → y.2.same x.2 = true := by
  constructor
  · intro hAgree
    have hLast : x ∈ pairs ++ [x] :=
      List.mem_append_right pairs (List.mem_singleton_self x)
    refine ⟨fun y hY z hZ => ?_, fun y hY => ?_⟩
    · exact hAgree y (List.mem_append_left [x] hY) z
        (List.mem_append_left [x] hZ)
    · exact hAgree y (List.mem_append_left [x] hY) x hLast
  · rintro ⟨hAgree, hNew⟩ y hY z hZ hSame
    rcases List.mem_append.1 hY with hOldY | hLastY
    · rcases List.mem_append.1 hZ with hOldZ | hLastZ
      · exact hAgree y hOldY z hOldZ hSame
      · obtain rfl := List.mem_singleton.1 hLastZ
        exact hNew y hOldY hSame
    · obtain rfl := List.mem_singleton.1 hLastY
      rcases List.mem_append.1 hZ with hOldZ | hLastZ
      · have hBack : z.1.same y.1 = true := hKey.same_symm hSame
        exact (hActuals z hOldZ).same_symm (hNew z hOldZ hBack)
      · obtain rfl := List.mem_singleton.1 hLastZ
        exact hActual.same_self

private theorem bind_of_isVariable {s : Substitution} {key actual : Value}
    (hVariable : key.isVariable = true) :
    s.bind key actual =
      match s.find? key with
      | some existing =>
          if existing.same actual then .ok (s.insert key actual)
          else .error (.conflict key existing actual)
      | none => .ok (s.insert key actual) := by
  cases key with
  | var v => rfl
  | placeholder p => rfl
  | _ => cases hVariable

theorem bindAll_append_singleton (pairs : List (Value × Value))
    (x : Value × Value) :
    bindAll (pairs ++ [x]) = bindAll pairs >>= fun s => s.bind x.1 x.2 := by
  rw [bindAll, List.foldlM_append]
  refine congrArg (bindAll pairs >>= ·) (funext fun s => ?_)
  rw [List.foldlM_cons]
  cases s.bind x.1 x.2 <;> rfl

/-- One more `bind` after bindings that `Agree`: it succeeds if they agree with
it, and is a `conflict` otherwise. -/
theorem bind_ofList_cases {x : Value × Value}
    (hVariable : x.1.isVariable = true) (hActual : x.2.Over known)
    (hKeys : ∀ y ∈ pairs, y.1.Over known)
    (hActuals : ∀ y ∈ pairs, y.2.Over known) (hAgree : Agree pairs) :
    (Agree (pairs ++ [x]) ∧
      (ofList pairs).bind x.1 x.2 = .ok (ofList (pairs ++ [x]))) ∨
      (¬ Agree (pairs ++ [x]) ∧ ∃ existing,
        (ofList pairs).bind x.1 x.2 = .error (.conflict x.1 existing x.2)) := by
  have hKey : x.1.Over known := Value.over_of_isVariable hVariable
  rw [agree_append_singleton_iff hKey hActual hActuals,
    bind_of_isVariable hVariable, ofList_append_singleton]
  cases hFind : (ofList pairs).find? x.1 with
  | none =>
      refine .inl ⟨⟨hAgree, fun y hY hSame => ?_⟩, rfl⟩
      obtain ⟨actual, hFound⟩ := exists_find?_ofList hKeys hActuals hY hSame
      rw [hFind] at hFound
      cases hFound
  | some existing =>
      obtain ⟨y, hY, hSame, rfl⟩ :=
        exists_mem_of_find?_ofList hKeys hActuals hFind
      by_cases hValue : y.2.same x.2 = true
      · refine .inl ⟨⟨hAgree, fun z hZ hZSame => ?_⟩, if_pos hValue⟩
        have hKeysSame : z.1.same y.1 = true :=
          (hKeys z hZ).same_trans hZSame ((hKeys y hY).same_symm hSame)
        exact (hActuals z hZ).same_trans (hAgree z hZ y hY hKeysSame) hValue
      · refine .inr ⟨fun hAll => ?_, y.2, if_neg hValue⟩
        exact hValue (hAll.2 y hY hSame)

/-- `bindAll` succeeds exactly when the bindings `Agree`, with `ofList` for its
result, and otherwise there is a `conflict`. -/
theorem bindAll_cases (hVariables : ∀ x ∈ pairs, x.1.isVariable = true)
    (hActuals : ∀ x ∈ pairs, x.2.Over known) :
    (Agree pairs ∧ bindAll pairs = .ok (ofList pairs)) ∨
      (¬ Agree pairs ∧ ∃ key existing actual,
        bindAll pairs = .error (.conflict key existing actual)) := by
  induction pairs using List.reverseRecOn with
  | nil => exact .inl ⟨fun x hMem => absurd hMem List.not_mem_nil, rfl⟩
  | append_singleton pairs x ih =>
      obtain ⟨hVariables, hVariable⟩ := List.forall_mem_append.1 hVariables
      obtain ⟨hActuals, hActual⟩ := List.forall_mem_append.1 hActuals
      have hLast := List.mem_singleton_self x
      have hKeys : ∀ y ∈ pairs, y.1.Over known := fun y hY =>
        Value.over_of_isVariable (hVariables y hY)
      rw [bindAll_append_singleton]
      rcases ih hVariables hActuals
        with ⟨hAgree, hBound⟩ | ⟨hApart, key, existing, actual, hBound⟩
      · rw [hBound]
        rcases bind_ofList_cases (hVariable x hLast)
          (hActual x hLast) hKeys hActuals hAgree with
          ⟨hAll, hBind⟩ | ⟨hApart, existing, hBind⟩
        · exact .inl ⟨hAll, hBind⟩
        · exact .inr ⟨hApart, x.1, existing, x.2, hBind⟩
      · -- The conflict among the bindings before ends the run.
        rw [hBound]
        refine .inr ⟨fun hAll => hApart ?_, key, existing, actual, rfl⟩
        have hKey : x.1.Over known :=
          Value.over_of_isVariable (hVariable x hLast)
        exact ((agree_append_singleton_iff hKey
          (hActual x hLast) hActuals).1 hAll).1

theorem bindAll_eq_ok_iff {s : Substitution}
    (hVariables : ∀ x ∈ pairs, x.1.isVariable = true)
    (hActuals : ∀ x ∈ pairs, x.2.Over known) :
    bindAll pairs = .ok s ↔ Agree pairs ∧ ofList pairs = s := by
  rcases bindAll_cases hVariables hActuals
    with ⟨hAgree, hBound⟩ | ⟨hApart, _, _, _, hBound⟩
  · rw [hBound, Except.ok.injEq]
    exact (and_iff_right hAgree).symm
  · rw [hBound]
    exact iff_of_false (fun hOk => by cases hOk) fun hAll => hApart hAll.1

/-- The only kind of error of `bindAll` is `canonicalization`. -/
theorem kind_of_bindAll {e : CompositionError}
    (hVariables : ∀ x ∈ pairs, x.1.isVariable = true)
    (hActuals : ∀ x ∈ pairs, x.2.Over known)
    (hError : bindAll pairs = .error e) :
    e.report.kind = .canonicalization := by
  rcases bindAll_cases hVariables hActuals
    with ⟨-, hBound⟩ | ⟨-, key, existing, actual, hBound⟩
  · rw [hBound] at hError
    cases hError
  · rw [hBound] at hError
    cases hError
    rfl

/-! ## Substitutions that find the same values -/

/-- Substitutions are `Alike` if `find?` finds the same for each variable in
both. -/
theorem Alike.of_find? {s t : Substitution} (hLeft : s.Over known)
    (hRight : t.Over known)
    (hForward : ∀ key a, s.find? key = some a → ∃ b, t.find? key = some b ∧
      a.same b = true)
    (hBackward : ∀ key b, t.find? key = some b → ∃ a, s.find? key = some a ∧
      a.same b = true) :
    s.Alike known t := by
  refine ⟨hLeft, hRight, fun x hX => ?_, fun y hY => ?_⟩
  · have hFind : s.find? x.1 = some x.2 :=
      hLeft.find?_eq_some_iff.2 ⟨x, hX, (hLeft.keys x hX).same_self, rfl⟩
    obtain ⟨b, hFound, hSame⟩ := hForward x.1 x.2 hFind
    obtain ⟨y, hY, hKeys, rfl⟩ := hRight.find?_eq_some_iff.1 hFound
    exact ⟨y, hY, (hRight.keys y hY).same_symm hKeys, hSame⟩
  · have hFind : t.find? y.1 = some y.2 :=
      hRight.find?_eq_some_iff.2 ⟨y, hY, (hRight.keys y hY).same_self, rfl⟩
    obtain ⟨a, hFound, hSame⟩ := hBackward y.1 y.2 hFind
    obtain ⟨x, hX, hKeys, rfl⟩ := hLeft.find?_eq_some_iff.1 hFound
    exact ⟨x, hX, hKeys, hSame⟩

/-- Bindings that `Agree` make substitutions that are `Alike`, in whatever
order. -/
theorem alike_ofList_of_perm {pairs' : List (Value × Value)}
    (hKeys : ∀ x ∈ pairs, x.1.Over known)
    (hActuals : ∀ x ∈ pairs, x.2.Over known) (hAgree : Agree pairs)
    (hPerm : pairs.Perm pairs') :
    (ofList pairs).Alike known (ofList pairs') := by
  have hKeys' : ∀ x ∈ pairs', x.1.Over known :=
    fun x hX => hKeys x (hPerm.mem_iff.2 hX)
  have hActuals' : ∀ x ∈ pairs', x.2.Over known :=
    fun x hX => hActuals x (hPerm.mem_iff.2 hX)
  have hSame : ∀ x ∈ pairs, ∀ y ∈ pairs, ∀ key, x.1.same key = true →
      y.1.same key = true →
      x.2.same y.2 = true := by
    intro x hX y hY key hFirst hSecond
    refine hAgree x hX y hY ?_
    exact (hKeys x hX).same_trans hFirst ((hKeys y hY).same_symm hSecond)
  refine .of_find? (.ofList hKeys hActuals) (.ofList hKeys' hActuals') ?_ ?_
  · intro key a hFind
    obtain ⟨x, hX, hKey, rfl⟩ := exists_mem_of_find?_ofList hKeys hActuals hFind
    obtain ⟨b, hFound⟩ :=
      exists_find?_ofList hKeys' hActuals' (hPerm.mem_iff.1 hX) hKey
    obtain ⟨y, hY, hKey', rfl⟩ :=
      exists_mem_of_find?_ofList hKeys' hActuals' hFound
    exact ⟨y.2, hFound, hSame x hX y (hPerm.mem_iff.2 hY) key hKey hKey'⟩
  · intro key b hFind
    obtain ⟨y, hY, hKey, rfl⟩ :=
      exists_mem_of_find?_ofList hKeys' hActuals' hFind
    obtain ⟨a, hFound⟩ :=
      exists_find?_ofList hKeys hActuals (hPerm.mem_iff.2 hY) hKey
    obtain ⟨x, hX, hKey', rfl⟩ :=
      exists_mem_of_find?_ofList hKeys hActuals hFound
    exact ⟨x.2, hFound, hSame x hX y (hPerm.mem_iff.2 hY) key hKey' hKey⟩

/-- What `bindAll` can bind it can bind in any order. -/
theorem exists_bindAll_of_perm {s : Substitution}
    {pairs' : List (Value × Value)}
    (hVariables : ∀ x ∈ pairs, x.1.isVariable = true)
    (hActuals : ∀ x ∈ pairs, x.2.Over known) (hBound : bindAll pairs = .ok s)
    (hPerm : pairs.Perm pairs') :
    ∃ s', bindAll pairs' = .ok s' ∧ s.Alike known s' := by
  obtain ⟨hAgree, rfl⟩ := (bindAll_eq_ok_iff hVariables hActuals).1 hBound
  have hVariables' : ∀ x ∈ pairs', x.1.isVariable = true := fun x hX =>
    hVariables x (hPerm.mem_iff.2 hX)
  have hActuals' : ∀ x ∈ pairs', x.2.Over known :=
    fun x hX => hActuals x (hPerm.mem_iff.2 hX)
  have hKeys : ∀ x ∈ pairs, x.1.Over known := fun x hX =>
    Value.over_of_isVariable (hVariables x hX)
  have hBound' : bindAll pairs' = .ok (ofList pairs') :=
    (bindAll_eq_ok_iff hVariables' hActuals').2 ⟨hAgree.perm hPerm, rfl⟩
  exact ⟨ofList pairs', hBound',
    alike_ofList_of_perm hKeys hActuals hAgree hPerm⟩

/-! ## The same value under substitutions that are alike -/

/-- Two runs give values that are alike, or fail with errors of one kind. -/
abbrev AlikeOrKind (known : ClassType → Prop)
    (x y : Except CompositionError Value) : Prop :=
  InStep (fun e e' => e.report.kind = e'.report.kind) (Value.Alike known) x y

section Resolve

variable {s t : Substitution}

private theorem applyAll_inStep {vs : List Value}
    (hValues : ∀ v ∈ vs, AlikeOrKind known (s.apply v) (t.apply v)) :
    InStep (fun e e' => e.report.kind = e'.report.kind)
      (List.Forall₂ (Value.Alike known))
      (s.applyAll vs) (t.applyAll vs) := by
  induction vs with
  | nil => exact .ok .nil
  | cons v vs ih =>
      obtain ⟨hFirst, hRest⟩ := List.forall_mem_cons.1 hValues
      rw [applyAll, applyAll]
      refine hFirst.bind fun a b hHead => ?_
      refine (ih hRest).bind fun as bs hTail => ?_
      exact .ok (.cons hHead hTail)

private theorem arrayOver_inStep (hNominal : Nominal known) {a b : Value}
    (hAlike : a.Alike known b) :
    AlikeOrKind known (arrayOver a) (arrayOver b) := by
  cases hArray : arrayOver a with
  | ok v =>
      obtain ⟨w, hOther, hResult⟩ := hAlike.exists_arrayOver hNominal hArray
      rw [hOther]
      exact .ok hResult
  | error e =>
      -- Only the array over a class can fail, and that class is the same on
      -- both sides.
      have hClass : a.isClass = true := by
        by_contra hComposite
        rw [Composition.arrayOver_of_not_class
          (by simpa using hComposite)] at hArray
        cases hArray
      match a, hClass with
      | .classType c, _ =>
          obtain ⟨-, rfl⟩ := hAlike.classType_cases hNominal
          rw [hArray]
          exact .error rfl

/-- Substitutions that are `Alike` make values that are alike of a value by
`apply`, or fail on it with errors of one kind. -/
theorem Alike.apply_inStep (hNominal : Nominal known) (hAlike : s.Alike known t)
    {v : Value} (hOver : v.Over known) :
    AlikeOrKind known (s.apply v) (t.apply v) := by
  induction hOver with
  | @classType c hKnown =>
      have hClass : (Value.classType c).Over known := .classType hKnown
      exact .ok ⟨hClass, hClass, hClass.same_self⟩
  | var v =>
      have hVar : (Value.var v).Over known := .var v
      have hSelf : Value.Alike known (.var v) (.var v) :=
        ⟨hVar, hVar, hVar.same_self⟩
      rw [apply, apply]
      cases hFind : s.find? (.var v) with
      | none =>
          rw [hAlike.find?_eq_none hSelf hFind]
          exact .ok hSelf
      | some a =>
          obtain ⟨b, hFound, hActual⟩ := hAlike.exists_find? hSelf hFind
          rw [hFound]
          exact .ok hActual
  | placeholder p =>
      have hPlaceholder : (Value.placeholder p).Over known := .placeholder p
      have hSelf : Value.Alike known (.placeholder p) (.placeholder p) :=
        ⟨hPlaceholder, hPlaceholder, hPlaceholder.same_self⟩
      rw [apply, apply]
      cases hFind : s.find? (.placeholder p) with
      | none =>
          rw [hAlike.find?_eq_none hSelf hFind]
          exact .error rfl
      | some a =>
          obtain ⟨b, hFound, hActual⟩ := hAlike.exists_find? hSelf hFind
          rw [hFound]
          exact .ok hActual
  | @parameterized raw _ hRaw _ _ ihArguments =>
      have hSelf : Value.Alike known raw raw := ⟨hRaw, hRaw, hRaw.same_self⟩
      rw [apply, apply]
      refine (applyAll_inStep ihArguments).bind fun as bs hArguments => ?_
      exact .ok (hSelf.parameterized hArguments)
  | array _ ih =>
      rw [apply, apply]
      exact ih.bind fun a b hComponent => arrayOver_inStep hNominal hComponent
  | wildcard _ _ ihUpper ihLower =>
      rw [apply, apply]
      refine (applyAll_inStep ihUpper).bind fun as bs hUpper => ?_
      refine (applyAll_inStep ihLower).bind fun as' bs' hLower => ?_
      exact .ok (.wildcard (.of_forall₂ hUpper) (.of_forall₂ hLower))

/-- The same holds of `resolve`, where no placeholder may be left. -/
theorem Alike.resolve_inStep (hNominal : Nominal known)
    (hAlike : s.Alike known t) {v : Value} (hOver : v.Over known) :
    AlikeOrKind known (s.resolve v) (t.resolve v) := by
  unfold resolve
  refine (hAlike.apply_inStep hNominal hOver).bind fun a b hResult => ?_
  rw [hResult.hasPlaceholder]
  cases b.hasPlaceholder with
  | true => exact .error rfl
  | false => exact .ok hResult

end Resolve

/-! ## The order of bindings -/

/-- Over classes that their names tell apart, variables can be bound one after
another exactly when their bindings agree. Then they can be bound in any order,
and the substitutions so made give values that are the same, or fail with errors
of one kind. The classes over a registered catalog without the name of a
primitive type are such, and so they are together with `Object` unless that
takes parameters there. -/
theorem bindAll_perm :
    (∀ known, Nominal known → ∀ pairs : List (Value × Value),
      (∀ x ∈ pairs, x.1.isVariable = true) → (∀ x ∈ pairs, x.2.Over known) →
        ((∃ s, bindAll pairs = .ok s) ↔ Agree pairs) ∧
        (∀ e, bindAll pairs = .error e → e.report.kind = .canonicalization) ∧
        ∀ s, bindAll pairs = .ok s → ∀ pairs', pairs.Perm pairs' →
          ∃ s', bindAll pairs' = .ok s' ∧ ∀ v : Value, v.Over known →
            InStep (fun e e' => e.report.kind = e'.report.kind)
              (fun a b => a.same b = true)
              (s.resolve v) (s'.resolve v)) ∧
    ∀ entries catalog, Catalog.empty.registerAll entries = .ok catalog →
      (∀ p : Primitive, p.name ∉ catalog.names) →
        Nominal (IsClass catalog) ∧
        ((∀ d, catalog.find? ClassType.object.name = some d →
          d.parameters = []) →
          Nominal (IsClass catalog.withObject) ∧
          IsClass catalog.withObject .object ∧
            ∀ c, IsClass catalog c → IsClass catalog.withObject c) := by
  refine ⟨?_, fun entries catalog hRegister hPrimitive =>
    nominal_registered hRegister hPrimitive⟩
  intro known hNominal pairs hVariables hActuals
  refine ⟨?_, fun e hError => kind_of_bindAll hVariables hActuals hError, ?_⟩
  · constructor
    · rintro ⟨s, hBound⟩
      exact ((bindAll_eq_ok_iff hVariables hActuals).1 hBound).1
    · intro hAgree
      exact ⟨ofList pairs,
        (bindAll_eq_ok_iff hVariables hActuals).2 ⟨hAgree, rfl⟩⟩
  · intro s hBound pairs' hPerm
    obtain ⟨s', hBound', hAlike⟩ :=
      exists_bindAll_of_perm hVariables hActuals hBound hPerm
    refine ⟨s', hBound', fun v hOver => ?_⟩
    have hResults := hAlike.resolve_inStep hNominal hOver
    exact hResults.mono (fun _ _ hKind => hKind) fun _ _ hResult => hResult.same

/-- The bounds of a wildcard may be moved and repeated when a variable is bound
to it again, and the binding of a placeholder may come before or between. -/
theorem bindAll_perm_moved :
    let element := Value.var ⟨"E", "List"⟩
    let hole := Value.placeholder ⟨"T", 0⟩
    let wildcard := Value.wildcard [element, .array element] []
    let moved := Value.wildcard [.array element, element, element] []
    Catalog.empty.registerAll [(.str "List", .list [.str "E"])] =
      .ok listScope.catalog ∧
    (∀ p : Primitive, p.name ∉ listScope.catalog.names) ∧
    ∃ s s', bindAll [(element, wildcard), (hole, element), (element, moved)] =
      .ok s ∧
      bindAll [(hole, element), (element, moved), (element, wildcard)] =
        .ok s' ∧
      InStep (fun e e' => e.report.kind = e'.report.kind)
        (fun a b => a.same b = true)
        (s.resolve (.parameterized (.classType (.declared ⟨"List", ["E"]⟩))
          [element]))
        (s'.resolve (.parameterized (.classType (.declared ⟨"List", ["E"]⟩))
          [element])) := by
  intro element hole wildcard moved
  have hRegister : Catalog.empty.registerAll [(.str "List", .list [.str "E"])] =
      .ok listScope.catalog := toOption_eq_some_iff.1 (by decide +kernel)
  have hPrimitive : ∀ p : Primitive, p.name ∉ listScope.catalog.names := by
    intro p
    cases p <;> decide
  obtain ⟨hBindings, hCatalogs⟩ := bindAll_perm
  have hNominal := (hCatalogs _ _ hRegister hPrimitive).1
  have hElement : element.Over (IsClass listScope.catalog) := .var _
  have hActuals : ∀ x ∈
      [(element, wildcard), (hole, element), (element, moved)],
      x.2.Over (IsClass listScope.catalog) := by
    have hWildcard : wildcard.Over (IsClass listScope.catalog) :=
      .wildcard (by simp [hElement, hElement.array]) (by simp)
    have hMoved : moved.Over (IsClass listScope.catalog) :=
      .wildcard (by simp [hElement, hElement.array]) (by simp)
    simp [hWildcard, hElement, hMoved]
  obtain ⟨hBound, -, hPerm⟩ := hBindings _ hNominal
    [(element, wildcard), (hole, element), (element, moved)]
    (by decide) hActuals
  have hAgree : Agree [(element, wildcard), (hole, element),
    (element, moved)] := by
    unfold Agree
    decide
  obtain ⟨s, hFirst⟩ := hBound.2 hAgree
  have hMoves : [(element, wildcard), (hole, element), (element, moved)].Perm
      [(hole, element), (element, moved), (element, wildcard)] :=
    (List.perm_append_singleton _ _).symm
  obtain ⟨s', hSecond, hAlike⟩ := hPerm s hFirst _ hMoves
  have hList : (Value.parameterized (.classType (.declared ⟨"List", ["E"]⟩))
    [element]).Over
      (IsClass listScope.catalog) :=
    .parameterized (.classType (.declared (by decide)))
      (by simpa using hElement)
  exact ⟨hRegister, hPrimitive, s, s', hFirst, hSecond, hAlike _ hList⟩

end Substitution

end JvmTypes
