import JvmTypes.Proofs.Denotation
import JvmTypes.Proofs.Evaluation

/-!
# What the grammar admits composes

Composition refuses parts by looking at values, and its errors know no place in
the text. The grammar refuses the same parts earlier, by looking at trees. So on
a tree that derives as a type, evaluation fails only in looking up a class or in
counting its arguments: whatever values the parts of such a tree have, they
compose. The recursion is over derivations, with a lemma for each kind of tree;
what it needs to know of the values of parts is that they are formed and of the
kind of their trees.

## Main results

* `Formed.exists_arrayOf`, `exists_supertypeOf`, `exists_subtypeOf`,
  `exists_parameterizedOf`: formed parts of the right kinds compose.
* `Scope.composes_of_isType`: evaluation of what derives as a type never fails
  in composing.
-/

namespace JvmTypes

open Grammar

/-! ## Formed parts compose -/

section Compose

variable {catalog : Catalog}

theorem Formed.exists_arrayOf {v : Value} (hFormed : Formed catalog v)
    (hWildcard : v.isWildcard = false)
    (hVoid : v ≠ .classType (.primitive .void)) :
    ∃ w, Composition.arrayOf v = .ok w := by
  by_cases hClass : v.isClass = true
  · match v, hClass with
    | .classType c, _ =>
        have hElement : c ≠ .primitive .void := by
          rintro rfl
          exact hVoid rfl
        exact ⟨_, Composition.arrayOf_classType_eq_ok_iff.2 ⟨hElement, rfl⟩⟩
  · have hComposite : v.isClass = false := by simpa using hClass
    have hPlaceholder : (Value.array v).hasPlaceholder = false :=
      hFormed.hasPlaceholder
    exact ⟨_, (Composition.arrayOf_eq_ok_iff hComposite).2
      ⟨(hFormed.isComponent_iff_check hComposite).2 hWildcard,
        hPlaceholder, rfl⟩⟩

theorem Formed.exists_supertypeOf {bound : Value}
    (hFormed : Formed catalog bound) (hBound : bound.IsBound) :
    ∃ w, Composition.supertypeOf bound = .ok w :=
  ⟨_, Composition.supertypeOf_eq_ok_iff.2
    ⟨hFormed.isBound_iff_check.2 hBound,
      (Formed.lower hFormed hBound).hasPlaceholder, rfl⟩⟩

theorem exists_subtypeOf {bounds : List Value}
    (hFormed : ∀ b ∈ bounds, Formed catalog b)
    (hBound : ∀ b ∈ bounds, b.IsBound) :
    ∃ w, Composition.subtypeOf bounds = .ok w := by
  -- `Object` alone, or those of the bounds that are not `Object`.
  have hEffective : ∀ b ∈ Composition.effectiveBounds bounds,
      Role.wildcardBound.check b = .ok () ∧ b.hasPlaceholder = false := by
    intro b hMem
    rcases Composition.effectiveBounds_cases bounds with ⟨-, hEq⟩ | ⟨-, hEq⟩
    · rw [hEq, List.mem_singleton] at hMem
      subst hMem
      exact ⟨rfl, rfl⟩
    · rw [hEq] at hMem
      have hGiven := (List.mem_filter.1 hMem).1
      have hB := hFormed b hGiven
      exact ⟨hB.isBound_iff_check.2 (hBound b hGiven), hB.hasPlaceholder⟩
  refine ⟨_, Composition.subtypeOf_eq_ok_iff.2
    ⟨fun b hMem => (hEffective b hMem).1, ?_, rfl⟩⟩
  rw [Value.hasPlaceholder,
    Value.anyPlaceholder_eq_false_iff.2 fun b hMem => (hEffective b hMem).2]
  rfl

theorem exists_parameterizedOf {d : Declaration} {arguments : List Value}
    (hLength : arguments.length = d.parameters.length)
    (hFormed : ∀ a ∈ arguments, Formed catalog a)
    (hPrimitive : ∀ a ∈ arguments, a.isPrimitive = false) :
    ∃ w, Composition.parameterizedOf (.classType (.declared d)) arguments =
      .ok w := by
  refine ⟨_, Composition.parameterizedOf_eq_ok_iff.2
    ⟨d, rfl, hLength, fun a hMem =>
    (hFormed a hMem).isPrimitive_iff_check.2 (hPrimitive a hMem), ?_, rfl⟩⟩
  rw [Value.hasPlaceholder]
  exact Value.anyPlaceholder_eq_false_iff.2 fun a hMem =>
    (hFormed a hMem).hasPlaceholder

end Compose

/-- A traced computation fails in its first part or in its second. -/
theorem Traced.error_of_bind {event error α β : Type} {x : Traced event error α}
    {f : α → Traced event error β} {e : error}
    (hBind : (x >>= f).result = .error e) :
    x.result = .error e ∨ ∃ a, x.result = .ok a ∧ (f a).result = .error e := by
  obtain ⟨events, result⟩ := x
  cases result with
  | error e' =>
      rw [error_bind] at hBind
      obtain rfl := Except.error.inj hBind
      exact .inl rfl
  | ok a => exact .inr ⟨a, rfl, hBind⟩

namespace Scope

variable {scope : Scope}

/-! ## Evaluations that do not fail in composing -/

/-- An evaluation that does not fail with a `CompositionError`. -/
def Composes {α : Type} (x : Traced Event Error α) : Prop :=
  ∀ c, x.result ≠ .error (.composition c)

theorem Composes.bind {α β : Type} {x : Traced Event Error α}
    {f : α → Traced Event Error β} (hFirst : Composes x)
    (hNext : ∀ a, x.result = .ok a → Composes (f a)) : Composes (x >>= f) := by
  intro c hError
  rcases Traced.error_of_bind hError with hError | ⟨a, hOk, hError⟩
  · exact hFirst c hError
  · exact hNext a hOk c hError

private theorem composes_pure {α : Type} (a : α) :
    Composes (pure a : Traced Event Error α) := by
  intro c hError
  cases hError

private theorem composes_composed {result : Except CompositionError Value}
    {v : Value} (hOk : result = .ok v) : Composes (composed result) := by
  subst hOk
  intro c hError
  cases hError

private theorem composes_resolveClass (name : String) (position : Option Int) :
    Composes (scope.resolveClass name position) := by
  intro c hError
  unfold resolveClass at hError
  split at hError
  · cases hError
  · split at hError
    · cases hError
    · rcases Traced.error_of_bind hError with hError | ⟨-, -, hError⟩
      · cases hError
      · split at hError <;> cases hError

private theorem composes_evaluateClassArray (depth : Nat)
    (descriptor : List Char) (position : Option Int) :
    Composes (scope.evaluateClassArray depth descriptor position) :=
  (composes_resolveClass _ position).bind fun d _ =>
    composes_composed (arrayTimes_classType depth (by simp))

private theorem composes_evaluateInternal (encoded : String)
    (position : Option Int) :
    Composes (scope.evaluateInternal encoded position) := by
  simp only [evaluateInternal]
  split
  · split
    · next p hCode =>
        have hVoid := (Primitive.code_of_ofCode? hCode).2
        exact composes_composed (arrayTimes_classType _ (by simpa using hVoid))
    · exact composes_evaluateClassArray _ _ position
  · exact composes_evaluateClassArray _ _ position

/-! ## Values of derived trees -/

theorem meaning_of_evaluate {tree : Expression} {v : Value}
    (hOk : (scope.evaluate tree).result = .ok v) :
    scope.meaning tree = some v :=
  Traced.value?_eq_some_iff.2 hOk

private theorem meanings_of_evaluateAll {trees : List Expression}
    {vs : List Value} (hOk : (scope.evaluateAll trees).result = .ok vs) :
    scope.meanings trees = some vs :=
  Traced.value?_eq_some_iff.2 hOk

private theorem meanings_singleton {tree : Expression} {vs : List Value}
    (hMeanings : scope.meanings [tree] = some vs) :
    ∃ v, scope.meaning tree = some v ∧ vs = [v] := by
  obtain ⟨v, hMeaning, rest, hRest, rfl⟩ :=
    scope.meanings_cons_eq_some_iff.1 hMeanings
  rw [meanings_nil] at hRest
  cases hRest
  exact ⟨v, hMeaning, rfl⟩

private theorem formed_of_isBare {ls : List Lexeme} {tree : Expression}
    {v : Value} (hBare : IsBare ls tree)
    (hMeaning : scope.meaning tree = some v) :
    Formed scope.catalog v ∧ v.isWildcard = false ∧
    v.isPrimitive = tree.isPrimitive := by
  have hAgrees := agrees_of_isType (.bare hBare) hMeaning
  exact ⟨(scope.meansBuilt_of_isBare hBare v hMeaning).formed,
    hAgrees.wildcard.trans hBare.isWildcard, hAgrees.primitive⟩

private theorem formed_of_isType {ls : List Lexeme} {tree : Expression}
    {v : Value} (hType : IsType ls tree)
    (hMeaning : scope.meaning tree = some v) :
    Formed scope.catalog v ∧ v.isPrimitive = tree.isPrimitive :=
  ⟨(scope.meansBuilt_of_isType hType v hMeaning).formed,
    (agrees_of_isType hType hMeaning).primitive⟩

/-- The values of type arguments are `Formed`, and none is primitive. -/
theorem formed_of_isArguments {ls : List Lexeme} {trees : List Expression}
    {vs : List Value} (hArguments : IsArguments ls trees)
    (hMeanings : scope.meanings trees = some vs) :
    ∀ v ∈ vs, Formed scope.catalog v ∧ v.isPrimitive = false :=
  match hArguments with
  | .one hType hPrimitive => by
      obtain ⟨v, hMeaning, rfl⟩ := meanings_singleton hMeanings
      obtain ⟨hFormed, hKind⟩ := formed_of_isType hType hMeaning
      exact List.forall_mem_singleton.2 ⟨hFormed, hKind.trans hPrimitive⟩
  | .more _ hType hPrimitive hMore => by
      obtain ⟨v, hMeaning, rest, hRest, rfl⟩ :=
        scope.meanings_cons_eq_some_iff.1 hMeanings
      obtain ⟨hFormed, hKind⟩ := formed_of_isType hType hMeaning
      exact List.forall_mem_cons.2
        ⟨⟨hFormed, hKind.trans hPrimitive⟩, formed_of_isArguments hMore hRest⟩

/-- The values of bounds are `Formed`, and each can bound a wildcard. -/
theorem formed_of_isBounds {ls : List Lexeme} {trees : List Expression}
    {vs : List Value} (hBounds : IsBounds ls trees)
    (hMeanings : scope.meanings trees = some vs) :
    ∀ v ∈ vs, Formed scope.catalog v ∧ v.IsBound :=
  match hBounds with
  | .one hBare hPrimitive => by
      obtain ⟨v, hMeaning, rfl⟩ := meanings_singleton hMeanings
      obtain ⟨hFormed, hWildcard, hKind⟩ := formed_of_isBare hBare hMeaning
      exact List.forall_mem_singleton.2
        ⟨hFormed, hWildcard, hKind.trans hPrimitive⟩
  | .more _ hBare hPrimitive hMore => by
      obtain ⟨v, hMeaning, rest, hRest, rfl⟩ :=
        scope.meanings_cons_eq_some_iff.1 hMeanings
      obtain ⟨hFormed, hWildcard, hKind⟩ := formed_of_isBare hBare hMeaning
      exact List.forall_mem_cons.2
        ⟨⟨hFormed, hWildcard, hKind.trans hPrimitive⟩,
          formed_of_isBounds hMore hRest⟩

/-! ## Evaluation of derived trees -/

theorem composes_cons {tree : Expression} {trees : List Expression}
    (hTree : Composes (scope.evaluate tree))
    (hTrees : Composes (scope.evaluateAll trees)) :
    Composes (scope.evaluateAll (tree :: trees)) := by
  rw [evaluateAll]
  exact hTree.bind fun _ _ => hTrees.bind fun _ _ => composes_pure _

private theorem composes_nil : Composes (scope.evaluateAll []) := by
  rw [evaluateAll]
  exact composes_pure _

private theorem composes_array {ls : List Lexeme} {tree : Expression}
    {span : Option Span} (hBare : IsBare ls tree) (hVoid : tree.isVoid = false)
    (hTree : Composes (scope.evaluate tree)) :
    Composes (scope.evaluate (.array tree span)) := by
  rw [evaluate]
  refine hTree.bind fun v hOk => ?_
  have hMeaning := meaning_of_evaluate hOk
  obtain ⟨hFormed, hWildcard, -⟩ := formed_of_isBare hBare hMeaning
  have hElement : v ≠ .classType (.primitive .void) := fun hEq => by
    rw [(agrees_of_isType (.bare hBare) hMeaning).void.2 hEq] at hVoid
    cases hVoid
  obtain ⟨w, hArray⟩ := hFormed.exists_arrayOf hWildcard hElement
  exact composes_composed hArray

private theorem composes_parameterized {ls : List Lexeme}
    {trees : List Expression} {raw : RawName} {span : Option Span}
    (hArguments : IsArguments ls trees)
    (hTrees : Composes (scope.evaluateAll trees)) :
    Composes (scope.evaluate (.parameterized raw trees span)) := by
  rw [evaluate]
  refine (composes_resolveClass _ _).bind fun d _ => ?_
  split
  · next hLength =>
      refine hTrees.bind fun vs hOk => ?_
      have hMeanings := meanings_of_evaluateAll hOk
      have hFormed := formed_of_isArguments hArguments hMeanings
      obtain ⟨w, hParameterized⟩ := exists_parameterizedOf
        ((scope.length_meanings hMeanings).trans hLength)
        (fun v hMem => (hFormed v hMem).1) fun v hMem => (hFormed v hMem).2
      exact composes_composed hParameterized
  · intro c hError
    cases hError

private theorem composes_upper {kind : BoundKind} (hKind : kind ≠ .lower)
    {trees : List Expression} {span : Option Span}
    (hTrees : Composes (scope.evaluateAll trees))
    (hFormed : ∀ vs, scope.meanings trees = some vs →
      ∀ v ∈ vs, Formed scope.catalog v ∧ v.IsBound) :
    Composes (scope.evaluate (.wildcard kind trees span)) := by
  rw [evaluate]
  refine hTrees.bind fun vs hOk => ?_
  have hBounds := hFormed vs (meanings_of_evaluateAll hOk)
  obtain ⟨w, hSubtype⟩ := exists_subtypeOf (fun v hMem => (hBounds v hMem).1)
    fun v hMem => (hBounds v hMem).2
  cases kind with
  | lower => exact absurd rfl hKind
  | upper => exact composes_composed hSubtype
  | unbounded => exact composes_composed hSubtype

private theorem composes_lower {ls : List Lexeme} {tree : Expression}
    {span : Option Span} (hBare : IsBare ls tree)
    (hPrimitive : tree.isPrimitive = false)
    (hTree : Composes (scope.evaluate tree)) :
    Composes (scope.evaluate (.wildcard .lower [tree] span)) := by
  rw [evaluate]
  refine (composes_cons hTree composes_nil).bind fun vs hOk => ?_
  obtain ⟨v, hMeaning, rfl⟩ := meanings_singleton (meanings_of_evaluateAll hOk)
  obtain ⟨hFormed, hWildcard, hKind⟩ := formed_of_isBare hBare hMeaning
  obtain ⟨w, hSupertype⟩ :=
    hFormed.exists_supertypeOf ⟨hWildcard, hKind.trans hPrimitive⟩
  exact composes_composed hSupertype

-- The recursion is on the derivation; each kind of tree is one lemma above.
mutual

/-- The evaluation of what `IsType` derives does not fail in composing. -/
theorem composes_of_isType {ls : List Lexeme} {tree : Expression} :
    IsType ls tree → Composes (scope.evaluate tree)
  | .wildcard hWildcard => composes_of_isWildcard hWildcard
  | .bare hBare => composes_of_isBare hBare

private theorem composes_of_isWildcard {ls : List Lexeme} {tree : Expression} :
    IsWildcard ls tree → Composes (scope.evaluate tree)
  | .unbounded _ => composes_upper (by simp) composes_nil fun vs hMeanings => by
      rw [meanings_nil] at hMeanings
      cases hMeanings
      simp
  | .upper _ _ hBounds =>
      composes_upper (by simp) (composes_of_isBounds hBounds) fun _ =>
        formed_of_isBounds hBounds
  | .lower _ _ hBare hPrimitive =>
      composes_lower hBare hPrimitive (composes_of_isBare hBare)

private theorem composes_of_isBare {ls : List Lexeme} {tree : Expression} :
    IsBare ls tree → Composes (scope.evaluate tree)
  | .base hBase => composes_of_isBase hBase
  | .array _ _ hBare hVoid =>
      composes_array hBare hVoid (composes_of_isBare hBare)

private theorem composes_of_isBase {ls : List Lexeme} {tree : Expression} :
    IsBase ls tree → Composes (scope.evaluate tree)
  | .primitive p => by
      rw [evaluate, Primitive.ofName?_name]
      exact composes_pure _
  | .name _ => by
      rw [evaluate]
      exact (composes_resolveClass _ _).bind fun _ _ => composes_pure _
  | .internal _ => by
      rw [evaluate]
      exact composes_evaluateInternal _ _
  | .parameterized _ _ _ hArguments =>
      composes_parameterized hArguments (composes_of_isArguments hArguments)

private theorem composes_of_isArguments {ls : List Lexeme}
    {trees : List Expression} :
    IsArguments ls trees → Composes (scope.evaluateAll trees)
  | .one hType _ => composes_cons (composes_of_isType hType) composes_nil
  | .more _ hType _ hRest =>
      composes_cons (composes_of_isType hType) (composes_of_isArguments hRest)

private theorem composes_of_isBounds {ls : List Lexeme}
    {trees : List Expression} :
    IsBounds ls trees → Composes (scope.evaluateAll trees)
  | .one hBare _ => composes_cons (composes_of_isBare hBare) composes_nil
  | .more _ hBare _ hRest =>
      composes_cons (composes_of_isBare hBare) (composes_of_isBounds hRest)

end

end Scope

end JvmTypes
