import JvmTypes.Proofs.Places

/-!
# Where errors are reported

Three kinds of failure stand behind an error of a text: the scan meets a
character that can start no token, the reader refuses the tokens, or the tree
has a class that is not found or takes another number of arguments. The scan
reports the character. The other two report the start of a token, which is the
diagonal case of comparing two texts: the tokens of a text correspond to
themselves, each at the place where it starts.

## Main results

* `Scope.position_of_parse`: every error of a text is of a kind that knows its
  place, and that place lies in the text.
-/

namespace JvmTypes

open Text

/-- The places where tokens start, as a relation for `Token.Like` that leaves
the second place open. -/
def StartsAt (tokens : List Token) (place _ : Int) : Prop :=
  ∃ t ∈ tokens, t.start = place

private theorem startsAt_self (tokens : List Token) :
    List.Forall₂ (Token.Like (StartsAt tokens)) tokens tokens :=
  List.forall₂_same.2 fun t hMem => ⟨rfl, rfl, t, hMem, rfl⟩

private theorem tokenize_bounds {text : String} {tokens : List Token}
    (hTokens : tokenize text = .ok tokens) {t : Token} (hMem : t ∈ tokens) :
    ∃ n : Nat, t.start = n ∧ n ≤ text.length := by
  obtain ⟨hStart, hOrder, hStop, -⟩ :=
    (Token.scan_eq_ok_iff.1 hTokens).bounds t hMem
  rw [Nat.zero_add, String.length_toList] at hStop
  exact ⟨t.start.toNat, by omega, by omega⟩

namespace Scope

variable {scope : Scope} {text : String} {e : Error}

private theorem error_of_empty (hText : text = "")
    (hParse : (scope.parse text).result = .error e) :
    e = .grammar ⟨.emptyText, some 0⟩ := by
  subst hText
  rw [parse, Expression.ofText, if_pos rfl] at hParse
  exact (Except.error.inj hParse).symm

private theorem error_of_tokenize {error : GrammarError} (hText : text ≠ "")
    (hTokens : tokenize text = .error error)
    (hParse : (scope.parse text).result = .error e) :
    e = .grammar error := by
  rw [parse, Expression.ofText, if_neg hText, hTokens] at hParse
  exact (Except.error.inj hParse).symm

private theorem moved_of_error {tokens : List Token} (hText : text ≠ "")
    (hTokens : tokenize text = .ok tokens)
    (hParse : (scope.parse text).result = .error e) :
    e.Moved (StartsAt tokens) e := by
  have hSelf :=
    scope.moved_of_parse hText hText hTokens hTokens (startsAt_self tokens)
  rw [hParse] at hSelf
  cases hSelf with
  | error hMoved => exact hMoved

/-- A text that denotes no value fails with an error of the grammar or about a
class that is not found. Its place lies in the text: it is that of a character
that is neither blank nor the start of a token, if the scan failed, and that of
a token otherwise, unless the text is empty. Composing values plays no part. -/
theorem position_of_parse (scope : Scope) (text : String) (e : Error)
    (hParse : (scope.parse text).result = .error e) :
    (e.report.kind.isParse = true ∨ e.report.kind = .classNotFound) ∧
    (∃ n : Nat, e.report.position = some (n : Int) ∧ n ≤ text.length ∧
      (e.report.kind = .lex → ∃ c, text.toList[n]? = some c ∧
        isBlank c = false ∧
        isNameStart c = false ∧ Token.Kind.ofOperator? c = none) ∧
      (e.report.kind ≠ .lex → text ≠ "" →
        ∃ tokens, tokenize text = .ok tokens ∧
          ∃ t ∈ tokens, t.start = (n : Int))) ∧
    ∀ c, e ≠ .composition c := by
  by_cases hText : text = ""
  · obtain rfl := error_of_empty hText hParse
    exact ⟨.inl rfl, ⟨0, rfl, Nat.zero_le _,
      by simp [Error.report, GrammarError.report,
      GrammarCause.kind], fun _ hNonempty => absurd hText hNonempty⟩, by simp⟩
  · cases hTokens : tokenize text with
    | error error =>
        obtain rfl := error_of_tokenize hText hTokens hParse
        obtain ⟨front, c, back, hSplit, rfl, hNone⟩ :=
          Token.unexpected_of_scan hTokens
        refine ⟨.inl rfl, ⟨front.length,
          by simp [Error.report, GrammarError.report], ?_,
          fun _ => ⟨c, by simp [hSplit], hNone⟩,
          fun hRead => absurd rfl hRead⟩, by simp⟩
        rw [← String.length_toList, hSplit]
        simp
    | ok tokens =>
        obtain ⟨⟨p, _, hPosition, -, t, hMem, rfl⟩, ⟨hRead, hKind⟩, hLocated⟩ :=
          moved_of_error hText hTokens hParse
        obtain ⟨n, hStart, hLength⟩ := tokenize_bounds hTokens hMem
        exact ⟨hKind, ⟨n, hStart ▸ hPosition, hLength,
          fun hLex => absurd hLex hRead, fun _ _ =>
            ⟨tokens, rfl, t, hMem, hStart⟩⟩, hLocated⟩

/-- A class that is not found is reported at the `position` where its name
starts. -/
theorem position_of_parse_missing :
    (listScope.parse " List<Foo>").result =
      .error (.classNotFound "Foo" (some 6)) ∧
    ∃ n : Nat, (Error.classNotFound "Foo" (some 6)).report.position =
      some (n : Int) ∧
      n ≤ " List<Foo>".length ∧
      ∃ tokens, tokenize " List<Foo>" = .ok tokens ∧
        ∃ t ∈ tokens, t.start = (n : Int) := by
  have hParse : (listScope.parse " List<Foo>").result =
      .error (.classNotFound "Foo" (some 6)) := by cbv
  obtain ⟨-, ⟨n, hPosition, hLength, -, hToken⟩, -⟩ :=
    position_of_parse _ _ _ hParse
  exact ⟨hParse, n, hPosition, hLength, hToken (by decide) (by decide)⟩

end Scope

end JvmTypes
