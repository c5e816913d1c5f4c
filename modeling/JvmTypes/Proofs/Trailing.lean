import JvmTypes.Error
import JvmTypes.Proofs.InStep
import JvmTypes.Proofs.Spans

/-!
# Input behind a complete type

The reader says that a token trails only when all that waits for the type in
hand takes it and nothing is left to wait. It would have come to the same point
at `eof`, so the tokens in front of the trailing one make a type
(`ends_of_step`). And it says so at the trailing token, without a look at what
stands behind it, so no other end of the input helps.

A text is cut off at the start of a token. Its tokens up to there do not change
by that, and so the part in front of the trailing token is a type by itself.

## Main results

* `Reader.ends_of_step`: where a token trails, an `eof` completes a type.
* `Expression.read_of_trailing`: the same of lists of tokens, for any other end.
* `Expression.ofText_of_trailing`: a text that something trails in goes up to
  there, and whatever follows the trailing token is refused with the same error.
-/

namespace JvmTypes

/-! ## Errors about trailing input -/

namespace GrammarError

/-- The error that something follows a complete type. -/
def IsTrailing (error : GrammarError) : Prop :=
  error.report.kind = .trailingInput

theorem isTrailing_iff {error : GrammarError} :
    error.IsTrailing ↔ ∃ found, error.cause = .trailing found := by
  obtain ⟨cause, position⟩ := error
  cases cause <;> simp [IsTrailing, report, GrammarCause.kind]

end GrammarError

/-- An `unexpected` token, in place of what was wanted, is no trailing one. -/
theorem Token.not_isTrailing_unexpected (token : Token) (wanted : Wanted) :
    ¬ (token.unexpected wanted).IsTrailing := by
  simp [GrammarError.isTrailing_iff, Token.unexpected]

namespace Expression

variable {e : Expression} {error : GrammarError}

private theorem not_isTrailing_of_checkArgument
    (hCheck : e.checkArgument = .error error) : ¬ error.IsTrailing := by
  cases e <;> cases hCheck
  simp [GrammarError.isTrailing_iff]

private theorem not_isTrailing_of_checkBound
    (hCheck : e.checkBound = .error error) : ¬ error.IsTrailing := by
  cases e <;> cases hCheck <;> simp [GrammarError.isTrailing_iff]

private theorem parameterizedCause_ne_trailing (e : Expression)
    (found : Found) : e.parameterizedCause ≠ .trailing found := by
  cases e <;> simp [parameterizedCause]

end Expression

namespace Reader

/-! ## A step at a trailing token -/

/-- At `eof` a way to go on, given the next token, completes a type. -/
def Ends (next : Token → Except GrammarError Progress) : Prop :=
  ∀ stop : Token, stop.kind = .eof → ∃ e, next stop = .ok (.complete e)

variable {token : Token} {error : GrammarError}

/-- A type that is handed over at a trailing token is complete. The bounds that
wait for it are left at the trailing token as they are at `eof`, while arguments
that wait for it want something else at either. -/
theorem ends_of_finish {frames : List Frame} {e : Expression}
    (hTrailing : error.IsTrailing)
    (hFinish : finish e token frames = .error error) :
    error.position = some token.start ∧ Ends (finish e · frames) := by
  induction frames generalizing e with
  | nil =>
      rw [finish] at hFinish
      split at hFinish
      · cases hFinish
      · cases hFinish
        exact ⟨rfl, fun stop hStop => ⟨e, by simp [finish, hStop]⟩⟩
  | cons frame frames ih =>
      cases frame with
      | arguments raw done =>
          rw [finish] at hFinish
          rcases cases_of_bind_eq_error hFinish with hCheck | ⟨_, -, hNext⟩
          · exact absurd hTrailing
              (Expression.not_isTrailing_of_checkArgument hCheck)
          · split at hNext
            · cases hNext
            · cases hNext
            · cases hNext
              exact absurd hTrailing (token.not_isTrailing_unexpected _)
      | upper question done =>
          rw [finish] at hFinish
          rcases cases_of_bind_eq_error hFinish with hCheck | ⟨_, hCheck, hNext⟩
          · exact absurd hTrailing
              (Expression.not_isTrailing_of_checkBound hCheck)
          · split at hNext
            · cases hNext
            · obtain ⟨hPosition, hEnds⟩ := ih hNext
              refine ⟨hPosition, fun stop hStop => ?_⟩
              simpa [finish, hCheck, hStop, bind, Except.bind]
                using hEnds stop hStop
      | lower question =>
          rw [finish] at hFinish
          rcases cases_of_bind_eq_error hFinish with hCheck | ⟨_, hCheck, hNext⟩
          · exact absurd hTrailing
              (Expression.not_isTrailing_of_checkBound hCheck)
          · split at hNext
            · cases hNext
              simp [GrammarError.isTrailing_iff] at hTrailing
            · obtain ⟨hPosition, hEnds⟩ := ih hNext
              refine ⟨hPosition, fun stop hStop => ?_⟩
              simpa [finish, hCheck, hStop, bind, Except.bind]
                using hEnds stop hStop

private theorem ends_of_extend {frames : List Frame} {e : Expression}
    (hTrailing : error.IsTrailing)
    (hExtend : extend e token frames = .error error) :
    error.position = some token.start ∧ Ends (extend e · frames) := by
  rw [extend] at hExtend
  split at hExtend
  · split at hExtend
    · cases hExtend
      simp [GrammarError.isTrailing_iff] at hTrailing
    · cases hExtend
  · cases hExtend
    obtain ⟨found, hCause⟩ := GrammarError.isTrailing_iff.1 hTrailing
    exact absurd hCause (e.parameterizedCause_ne_trailing found)
  · obtain ⟨hPosition, hEnds⟩ := ends_of_finish hTrailing hExtend
    refine ⟨hPosition, fun stop hStop => ?_⟩
    simpa [extend, hStop] using hEnds stop hStop

/-- Where a type has to start, the error of `start` is not that a token
trails. -/
theorem not_isTrailing_of_start {frames : List Frame}
    (hStart : start token frames = .error error) : ¬ error.IsTrailing := by
  unfold start at hStart
  split at hStart
  · cases hStart
  · cases hStart
  · cases hStart
  · split at hStart
    · cases hStart
    · cases hStart
      simp [GrammarError.isTrailing_iff]
  · split at hStart
    · cases hStart
      simp [GrammarError.isTrailing_iff]
    · cases hStart
      exact token.not_isTrailing_unexpected _
  · cases hStart
    exact token.not_isTrailing_unexpected _

/-- A state in which a token trails is one in which an `eof` completes a
type. -/
theorem ends_of_step {state : State} (hTrailing : error.IsTrailing)
    (hStep : step state token = .error error) :
    error.position = some token.start ∧ Ends (step state) := by
  obtain ⟨focus, frames⟩ := state
  cases focus with
  | start => exact absurd hTrailing (not_isTrailing_of_start hStep)
  | name raw =>
      simp only [step] at hStep
      split at hStep
      · cases hStep
      · cases hStep
      · obtain ⟨hPosition, hEnds⟩ := ends_of_extend hTrailing hStep
        refine ⟨hPosition, fun stop hStop => ?_⟩
        simpa [step, hStop] using hEnds stop hStop
  | dotted raw =>
      simp only [step] at hStep
      split at hStep
      · cases hStep
      · cases hStep
        exact absurd hTrailing (token.not_isTrailing_unexpected _)
  | base e => exact ends_of_extend hTrailing hStep
  | bracket e =>
      simp only [step] at hStep
      split at hStep
      · cases hStep
      · cases hStep
        exact absurd hTrailing (token.not_isTrailing_unexpected _)
  | question mark =>
      simp only [step] at hStep
      split at hStep
      · cases hStep
      · cases hStep
      · obtain ⟨hPosition, hEnds⟩ := ends_of_finish hTrailing hStep
        refine ⟨hPosition, fun stop hStop => ?_⟩
        simpa [step, hStop] using hEnds stop hStop

/-! ## Runs that fail -/

/-- A `run` that fails does so at one of its tokens, up to which it reads. -/
theorem exists_step_of_run_error {state : State} {tokens : List Token}
    (hRun : run state tokens = .error error) :
    ∃ front token back last, tokens = front ++ token :: back ∧
      run state front = .ok (.reading last) ∧
      step last token = .error error := by
  induction tokens generalizing state with
  | nil => cases hRun
  | cons token tokens ih =>
      cases hStep : step state token with
      | error other =>
          have hError : other = error := by
            simpa [run, hStep, bind, Except.bind] using hRun
          exact ⟨[], token, tokens, state, rfl, rfl, hError ▸ hStep⟩
      | ok progress =>
          cases progress with
          | complete e => simp [run, hStep, bind, Except.bind] at hRun
          | reading next =>
              rw [run_cons_of_step _ hStep] at hRun
              obtain ⟨front, failing, back, last, rfl, hFront, hFails⟩ :=
                ih hRun
              refine ⟨token :: front, failing, back, last, rfl, ?_, hFails⟩
              rw [run_cons_of_step _ hStep, hFront]

/-- A `run` fails at a token whatever stands behind it. -/
theorem run_of_step_error {state last : State} {front : List Token}
    (hFront : run state front = .ok (.reading last))
    (hStep : step last token = .error error) (other : List Token) :
    run state (front ++ token :: other) = .error error := by
  rw [run_append_of_run _ hFront, run, hStep]
  rfl

end Reader

namespace Expression

open Reader Token

/-! ## Tokens and texts -/

/-- Where `read` fails at a trailing token, what stands in front of that token
can be read by itself, and with any other end behind the token reading fails
alike. -/
theorem read_of_trailing {tokens : List Token} {error : GrammarError}
    (hTrailing : error.IsTrailing) (hRead : read tokens = .error error) :
    ∃ front token back, tokens = front ++ token :: back ∧ front ≠ [] ∧
      error.position = some token.start ∧
      (∀ stop : Token, stop.kind = .eof → ∃ e, read (front ++ [stop]) = .ok e) ∧
      ∀ other, read (front ++ token :: other) = .error error := by
  rw [read] at hRead
  rcases cases_of_bind_eq_error hRead with hRun | ⟨progress, -, hNext⟩
  · obtain ⟨front, token, back, last, rfl, hFront, hStep⟩ :=
      exists_step_of_run_error hRun
    obtain ⟨hPosition, hEnds⟩ := ends_of_step hTrailing hStep
    refine ⟨front, token, back, rfl, ?_, hPosition, fun stop hStop => ?_,
      fun other => ?_⟩
    · -- Nothing trails where no type has started.
      rintro rfl
      cases hFront
      exact not_isTrailing_of_start hStep hTrailing
    · obtain ⟨e, hEnd⟩ := hEnds stop hStop
      refine ⟨e, read_eq_ok_iff.2 ?_⟩
      rw [run_append_of_run _ hFront, run, hEnd]
      rfl
    · rw [read, run_of_step_error hFront hStep other]
      rfl
  · cases progress with
    | complete e => cases hNext
    | reading last =>
        cases hNext
        simp [GrammarError.isTrailing_iff] at hTrailing

/-- A text that `ofText` refuses for trailing input is cut into tokens, which
`read` refuses so. -/
theorem exists_tokens_of_trailing {text : String} {error : GrammarError}
    (hTrailing : error.IsTrailing) (hText : ofText text = .error error) :
    ∃ tokens, tokenize text = .ok tokens ∧ read tokens = .error error := by
  rw [ofText] at hText
  split at hText
  · cases hText
    simp [GrammarError.isTrailing_iff] at hTrailing
  · rcases cases_of_bind_eq_error hText with hTokens | hRead
    · obtain ⟨_, _, _, -, rfl, -⟩ := unexpected_of_scan hTokens
      simp [GrammarError.isTrailing_iff] at hTrailing
    · exact hRead

/-- When `ofText` fails because something trails behind a type, the error tells
where a token starts, and no other token does there. Up to that place the text
is a type by itself. Every list of tokens that agrees with those of the text up
to that token fails with the same error in `ofTokens`. -/
theorem ofText_of_trailing (text : String) (error : GrammarError)
    (hText : ofText text = .error error)
    (hTrailing : error.report.kind = .trailingInput) :
    ∃ p : Nat, error.position = some (p : Int) ∧
      (∃ e, ofText (String.ofList (text.toList.take p)) = .ok e) ∧
      ∃ tokens k t, tokenize text = .ok tokens ∧ tokens[k]? = some t ∧
        t.start = (p : Int) ∧
        (∀ j u, tokens[j]? = some u → u.start = (p : Int) → j = k) ∧
        ∀ other, Token.terminated other = true →
          other.take (k + 1) = tokens.take (k + 1) →
          ofTokens other = .error (.malformed error) := by
  obtain ⟨tokens, hTokens, hRead⟩ := exists_tokens_of_trailing hTrailing hText
  obtain ⟨front, t, back, rfl, hFront, hPosition, hEnds, hFails⟩ :=
    read_of_trailing hTrailing hRead
  have hScans := scan_eq_ok_iff.1 hTokens
  obtain ⟨part, rest, hSplit, hPart, -, hStart⟩ := hScans.exists_drop
  rw [Nat.zero_add] at hPart hStart
  have hIndex : (front ++ t :: back)[front.length]? = some t := by simp
  refine ⟨part.length, hStart ▸ hPosition, ?_, _, front.length, t, hTokens,
    hIndex, hStart,
    fun j u hOther hSame =>
      hScans.index_unique hOther hIndex (hSame.trans hStart.symm),
    fun other hTerminated hAgree => ?_⟩
  · obtain ⟨e, hEnd⟩ := hEnds (ofChars .eof part.length []) rfl
    refine ⟨e, ?_⟩
    have hNonempty : part ≠ [] := by
      rintro rfl
      have hNone : front ++ [ofChars .eof 0 []] = [ofChars .eof 0 []] :=
        hPart.unique (.eof 0)
      exact hFront (List.append_left_eq_self.1 hNone)
    rw [hSplit, List.take_left, ofText_eq_read hNonempty hPart, hEnd]
  · -- The other list starts with the tokens up to the trailing one.
    obtain ⟨others, rfl⟩ : ∃ others, other = front ++ t :: others := by
      refine ⟨other.drop (front.length + 1), ?_⟩
      have hParts := List.take_append_drop (front.length + 1) other
      rw [hAgree, List.append_cons, List.take_left' (by simp)] at hParts
      rw [List.append_cons, hParts]
    rw [ofTokens, if_pos hTerminated, hFails others]
    rfl

/-- In `List<? extends A> B` the `B` trails, and a comma and a bracket behind it
would not help. -/
theorem ofText_trailing_name :
    ofText "List<? extends A> B" = .error ⟨.trailing (.lexeme "B"), some 18⟩ ∧
    ∃ p : Nat, some (18 : Int) = some (p : Int) ∧
      (∃ e,
        ofText (String.ofList ("List<? extends A> B".toList.take p)) = .ok e) ∧
      ∃ tokens k t, tokenize "List<? extends A> B" = .ok tokens ∧
        tokens[k]? = some t ∧
        t.start = (p : Int) ∧
        (∀ j u, tokens[j]? = some u → u.start = (p : Int) → j = k) ∧
        ∀ other, Token.terminated other = true →
          other.take (k + 1) = tokens.take (k + 1) →
          ofTokens other = .error
            (.malformed ⟨.trailing (.lexeme "B"), some 18⟩) := by
  have hText : ofText "List<? extends A> B" =
      .error ⟨.trailing (.lexeme "B"), some 18⟩ := by cbv
  exact ⟨hText, ofText_of_trailing _ _ hText rfl⟩

end Expression

end JvmTypes
