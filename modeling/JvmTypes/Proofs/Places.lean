import JvmTypes.Proofs.Composable
import JvmTypes.Proofs.Scanning

/-!
# Texts with tokens that are alike

Two texts whose tokens differ in their offsets alone denote the same value, or
fail with the same report but for its place, and the places correspond as the
starts of the tokens do. Reading keeps trees alike, evaluation does not look at
spans, and composing the values of a tree never fails, so no error is without a
place.

## Main results

* `Expression.like_of_ofText`: the trees of such texts are alike.
* `Scope.moved_of_parse`: such texts denote one value, or fail alike.
-/

namespace JvmTypes

variable {places : Int → Int → Prop} {spans : Option Span → Option Span → Prop}

/-! ## Trees that are alike -/

namespace Expression

mutual

/-- An expression is `Like` itself without spans, if spans do not count. -/
theorem like_erase (e : Expression) : e.Like (fun _ _ => True) e.erase := by
  cases e with
  | primitive name span => exact .primitive trivial
  | raw r => exact .raw ⟨rfl, trivial⟩
  | internal encoded span => exact .internal trivial
  | array component span =>
      rw [erase]
      exact .array (like_erase component) trivial
  | parameterized r arguments span =>
      rw [erase]
      exact .parameterized ⟨rfl, trivial⟩ (likeAll_eraseAll arguments) trivial
  | wildcard kind bounds span =>
      rw [erase]
      exact .wildcard (likeAll_eraseAll bounds) trivial

private theorem likeAll_eraseAll (es : List Expression) :
    LikeAll (fun _ _ => True) es (eraseAll es) := by
  cases es with
  | nil => exact .nil
  | cons e es =>
      rw [eraseAll]
      exact .cons (like_erase e) (likeAll_eraseAll es)

end

mutual

/-- Expressions that are `Like` each other are equal without their spans. -/
theorem Like.erase {e e' : Expression} : e.Like spans e' → e.erase = e'.erase
  | .primitive _ => rfl
  | .raw hName => by rw [Expression.erase, Expression.erase, hName.name]
  | .internal _ => rfl
  | .array hComponent _ =>
      by rw [Expression.erase, Expression.erase, hComponent.erase]
  | .parameterized hName hArguments _ => by
      rw [Expression.erase, Expression.erase, hName.name, hArguments.eraseAll]
  | .wildcard hBounds _ =>
      by rw [Expression.erase, Expression.erase, hBounds.eraseAll]

theorem LikeAll.eraseAll {es es' : List Expression} :
    LikeAll spans es es' → Expression.eraseAll es = Expression.eraseAll es'
  | .nil => rfl
  | .cons hHead hTail => by
      rw [Expression.eraseAll, Expression.eraseAll, hHead.erase, hTail.eraseAll]

end

/-- Texts whose tokens are `Token.Like` each other make trees that are alike by
`ofText`, or fail alike. -/
theorem like_of_ofText {text text' : String} {tokens tokens' : List Token}
    (hText : text ≠ "") (hText' : text' ≠ "")
    (hTokens : tokenize text = .ok tokens)
    (hTokens' : tokenize text' = .ok tokens')
    (hLike : List.Forall₂ (Token.Like places) tokens tokens') :
    InStep (GrammarError.Like places) (Expression.Like (StartsLike places))
      (ofText text) (ofText text') := by
  obtain ⟨words, rfl, -⟩ := (Token.scan_eq_ok_iff.1 hTokens).exists_eof
  rw [ofText, ofText, if_neg hText, if_neg hText', hTokens, hTokens']
  exact like_of_read rfl hLike

end Expression

/-! ## Errors that are alike -/

/-- Errors with one `report` but for its position, and with corresponding
positions. -/
structure Error.Moved (places : Int → Int → Prop) (e e' : Error) : Prop where
  report : ∃ p p', e.report.position = some p ∧
    e'.report = { e.report with position := some p' } ∧ places p p'
  kind : e.report.kind ≠ .lex ∧
    (e.report.kind.isParse = true ∨ e.report.kind = .classNotFound)
  located : ∀ c, e ≠ .composition c

theorem GrammarError.Like.moved {e e' : GrammarError}
    (hLike : e.Like places e') :
    Error.Moved places (.grammar e) (.grammar e') := by
  obtain ⟨p, p', hFirst, hSecond, hPlaces⟩ := hLike.position
  refine ⟨⟨p, p', hFirst, ?_, hPlaces⟩,
    ⟨hLike.read, .inl e.isParse_report⟩, by simp⟩
  simp [Error.report, GrammarError.report, hLike.cause, hSecond]

namespace Scope

variable {scope : Scope}

/-- On a tree that a text makes `evaluate` never fails in composing. -/
theorem composes_of_ofText {text : String} {e : Expression}
    (hText : Expression.ofText text = .ok e) : Composes (scope.evaluate e) := by
  obtain ⟨ls, -, hType⟩ := Expression.ofText_iff_textOf.1 ⟨e, hText, rfl⟩
  have hErased : Composes (scope.evaluate e.erase) := composes_of_isType hType
  have hLike : LikeOutcomes (fun _ _ => True) (scope.evaluate e)
      (scope.evaluate e.erase) :=
    scope.like_of_evaluate (fun _ _ _ => trivial) e.like_erase
  intro c hError
  rw [LikeOutcomes, hError] at hLike
  generalize hOther : (scope.evaluate e.erase).result = outcome at hLike
  cases hLike with
  | error hFail =>
      cases hFail
      exact hErased c hOther

/-- Positions that are known and correspond by `places`. -/
def PositionsLike (places : Int → Int → Prop) (p q : Option Int) : Prop :=
  ∃ a b, p = some a ∧ q = some b ∧ places a b

private theorem positionsLike_of_startsLike (s t : Option Span)
    (hLike : StartsLike places s t) :
    PositionsLike places (s.map Span.start) (t.map Span.start) := by
  obtain ⟨a, b, rfl, rfl, hStart⟩ := hLike
  exact ⟨a.start, b.start, rfl, rfl, hStart⟩

private theorem moved_of_like {e e' : Error}
    (hLike : e.Like (PositionsLike places) e')
    (hLocated : ∀ c, e ≠ .composition c) : e.Moved places e' := by
  cases hLike with
  | composition c => exact absurd rfl (hLocated c)
  | arityMismatch raw expected actual hPosition =>
      obtain ⟨p, p', rfl, rfl, hPlaces⟩ := hPosition
      exact ⟨⟨p, p', rfl, rfl, hPlaces⟩,
        ⟨by simp [Error.report, Report.arityMismatch], .inl rfl⟩,
        hLocated⟩
  | classNotFound name hPosition =>
      obtain ⟨p, p', rfl, rfl, hPlaces⟩ := hPosition
      exact ⟨⟨p, p', rfl, rfl, hPlaces⟩,
        ⟨by simp [Error.report, Report.classNotFound], .inr rfl⟩,
        hLocated⟩

private theorem moved_of_evaluate {e e' : Expression}
    (hTree : e.Like (StartsLike places) e')
    (hComposes : Composes (scope.evaluate e)) :
    InStep (Error.Moved places) (· = ·) (scope.evaluate e).result
      (scope.evaluate e').result := by
  have hLike : LikeOutcomes (PositionsLike places) (scope.evaluate e)
      (scope.evaluate e') :=
    scope.like_of_evaluate positionsLike_of_startsLike hTree
  have hLocated : ∀ error, (scope.evaluate e).result = .error error →
      ∀ c, error ≠ .composition c := by
    rintro error hError c rfl
    exact hComposes c hError
  rw [LikeOutcomes] at hLike
  generalize (scope.evaluate e).result = outcome at hLike hLocated ⊢
  generalize (scope.evaluate e').result = outcome' at hLike ⊢
  cases hLike with
  | ok hEq => exact .ok hEq
  | error hFail => exact .error (moved_of_like hFail (hLocated _ rfl))

/-- Texts whose tokens are `Token.Like` each other denote one value, or fail
with reports that differ in their places alone. -/
theorem moved_of_parse {text text' : String} {tokens tokens' : List Token}
    (hText : text ≠ "") (hText' : text' ≠ "")
    (hTokens : tokenize text = .ok tokens)
    (hTokens' : tokenize text' = .ok tokens')
    (hLike : List.Forall₂ (Token.Like places) tokens tokens') :
    InStep (Error.Moved places) (· = ·) (scope.parse text).result
      (scope.parse text').result := by
  have hTrees := Expression.like_of_ofText hText hText' hTokens hTokens' hLike
  have hComposes : ∀ e, Expression.ofText text = .ok e →
      Composes (scope.evaluate e) :=
    fun e => composes_of_ofText
  rw [parse, parse]
  generalize Expression.ofText text = outcome at hTrees hComposes ⊢
  generalize Expression.ofText text' = outcome' at hTrees ⊢
  cases hTrees with
  | error hFail => exact .error hFail.moved
  | @ok e e' hTree =>
      have hEvaluate := moved_of_evaluate hTree (hComposes e rfl)
      refine hEvaluate.bind_traced ?_
      rintro v _ rfl
      exact .ok rfl

end Scope

end JvmTypes
