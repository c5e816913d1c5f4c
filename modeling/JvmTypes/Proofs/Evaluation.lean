import JvmTypes.Proofs.Reader.Relocation
import JvmTypes.Scope

/-!
# Evaluation and places

The value of an expression does not depend on its spans, nor does the cause of
an error: spans only say where an error is reported. So expressions that are
alike have the same value, or fail alike. The induction is over the two trees at
once; what a class name means and whether values compose is the same for both.

## Main results

* `Scope.like_of_evaluate`: evaluating expressions that are alike.
-/

namespace JvmTypes

variable {spans : Option Span → Option Span → Prop}
    {located : Option Int → Option Int → Prop}

/-- Errors of one kind that are reported at places which `located` relates, if
at any. -/
inductive Error.Like (located : Option Int → Option Int → Prop) :
    Error → Error → Prop
  | composition (error : CompositionError) :
      Like located (.composition error) (.composition error)
  | arityMismatch (raw : String) (expected actual : Nat) {p q : Option Int}
      (hPosition : located p q) :
      Like located (.arityMismatch raw expected actual p)
        (.arityMismatch raw expected actual q)
  | classNotFound (name : String) {p q : Option Int} (hPosition : located p q) :
      Like located (.classNotFound name p) (.classNotFound name q)

theorem Expression.LikeAll.length_eq {es es' : List Expression}
    (hAll : LikeAll spans es es') : es.length = es'.length := by
  induction es generalizing es' with
  | nil =>
      cases hAll
      rfl
  | cons e es ih =>
      cases hAll with
      | cons _ hTail => rw [List.length_cons, List.length_cons, ih hTail]

namespace Scope

/-- Evaluations with the same outcome, up to the places of errors, which
`located` relates. -/
abbrev LikeOutcomes {α : Type} (located : Option Int → Option Int → Prop)
    (x y : Traced Event Error α) : Prop :=
  InStep (Error.Like located) (· = ·) x.result y.result

variable (scope : Scope)

private theorem like_composed (result : Except CompositionError Value) :
    LikeOutcomes located (composed result) (composed result) := by
  cases result with
  | ok v => exact .ok rfl
  | error e => exact .error (.composition e)

private theorem like_resolveClass (name : String) {p q : Option Int}
    (hPosition : located p q) :
    LikeOutcomes located (scope.resolveClass name p)
      (scope.resolveClass name q) := by
  unfold resolveClass
  split
  · exact .ok rfl
  · split
    · exact .error (.classNotFound name hPosition)
    · refine InStep.bind_traced (.ok rfl) fun _ _ _ => ?_
      split
      · exact .ok rfl
      · exact .error (.classNotFound name hPosition)

private theorem like_evaluateClassArray (depth : Nat) (descriptor : List Char)
    {p q : Option Int} (hPosition : located p q) :
    LikeOutcomes located (scope.evaluateClassArray depth descriptor p)
      (scope.evaluateClassArray depth descriptor q) := by
  refine InStep.bind_traced (scope.like_resolveClass _ hPosition) ?_
  rintro d _ rfl
  exact like_composed _

private theorem like_evaluateInternal (encoded : String) {p q : Option Int}
    (hPosition : located p q) :
    LikeOutcomes located (scope.evaluateInternal encoded p)
      (scope.evaluateInternal encoded q) := by
  simp only [evaluateInternal]
  split
  · split
    · exact like_composed _
    · exact scope.like_evaluateClassArray _ _ hPosition
  · exact scope.like_evaluateClassArray _ _ hPosition

mutual

/-- Expressions that are `Expression.Like` have the same value by `evaluate`, or
fail alike. -/
theorem like_of_evaluate
    (hSpans : ∀ s t, spans s t → located (s.map Span.start) (t.map Span.start))
    {e e' : Expression} (hLike : e.Like spans e') :
    LikeOutcomes located (scope.evaluate e) (scope.evaluate e') := by
  cases hLike with
  | @primitive name s t hSpan =>
      rw [evaluate, evaluate]
      split
      · exact .ok rfl
      · exact .error (.classNotFound name (hSpans s t hSpan))
  | @raw r r' hName =>
      rw [evaluate, evaluate, hName.name]
      refine InStep.bind_traced
        (scope.like_resolveClass _ (hSpans _ _ hName.span)) ?_
      rintro d _ rfl
      exact .ok rfl
  | internal hSpan =>
      rw [evaluate, evaluate]
      exact scope.like_evaluateInternal _ (hSpans _ _ hSpan)
  | array hComponent =>
      rw [evaluate, evaluate]
      refine InStep.bind_traced (like_of_evaluate hSpans hComponent) ?_
      rintro v _ rfl
      exact like_composed _
  | parameterized hName hArguments hSpan =>
      rw [evaluate, evaluate, hName.name, hArguments.length_eq]
      refine InStep.bind_traced
        (scope.like_resolveClass _ (hSpans _ _ hName.span)) ?_
      rintro d _ rfl
      split
      · refine InStep.bind_traced (like_of_evaluateAll hSpans hArguments) ?_
        rintro vs _ rfl
        exact like_composed _
      · exact .error (.arityMismatch _ _ _ (hSpans _ _ hSpan))
  | wildcard hBounds =>
      rw [evaluate, evaluate]
      refine InStep.bind_traced (like_of_evaluateAll hSpans hBounds) ?_
      rintro vs _ rfl
      split
      · exact like_composed _
      · exact .error (.composition _)
      · exact like_composed _

private theorem like_of_evaluateAll
    (hSpans : ∀ s t, spans s t → located (s.map Span.start) (t.map Span.start))
    {es es' : List Expression} (hLike : Expression.LikeAll spans es es') :
    LikeOutcomes located (scope.evaluateAll es) (scope.evaluateAll es') := by
  cases hLike with
  | nil => exact .ok rfl
  | cons hHead hTail =>
      rw [evaluateAll, evaluateAll]
      refine InStep.bind_traced (like_of_evaluate hSpans hHead) ?_
      rintro v _ rfl
      refine InStep.bind_traced (like_of_evaluateAll hSpans hTail) ?_
      rintro vs _ rfl
      exact .ok rfl

end

end Scope

end JvmTypes
