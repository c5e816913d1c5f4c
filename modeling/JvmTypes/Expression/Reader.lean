import JvmTypes.Expression
import JvmTypes.Token.Lexer

/-!
# Reading type expressions

The grammar:

* a type is a wildcard, or a base followed by pairs of brackets;
* a base is a primitive keyword, an internal array name, or a dotted class name
  with or without type arguments;
* a wildcard is `?`, `? extends` with bounds joined by `&`, or `? super` with
  one bound.

A bare primitive is neither a type argument nor a bound, a wildcard is no bound,
and `void` takes no brackets.

One token decides every step, so the reader is a machine that is fed the tokens
one by one: `Reader.step` takes its state from one token to the next. The state
is what is being read now and, innermost first, the constructs that wait for it.
-/

namespace JvmTypes

namespace Expression

/-- Why type arguments cannot follow an expression. -/
def parameterizedCause : Expression → GrammarCause
  | parameterized r _ _ => .alreadyParameterized r.name
  | array .. | internal .. => .parameterizedArray
  | primitive name _ => .parameterizedPrimitive name
  | raw _ | wildcard .. => .notParameterizable

/-- Refuses an expression that is no type argument. -/
def checkArgument (e : Expression) : Except GrammarError Unit :=
  match e with
  | primitive name _ => .error ⟨.primitiveArgument name, e.position⟩
  | _ => .ok ()

/-- Refuses an expression that is no bound of a wildcard. -/
def checkBound (e : Expression) : Except GrammarError Unit :=
  match e with
  | wildcard .. => .error ⟨.wildcardBound, e.position⟩
  | primitive name _ => .error ⟨.primitiveBound name, e.position⟩
  | _ => .ok ()

end Expression

/-- The span of a token. -/
def Token.span (token : Token) : Span := ⟨token.start, token.stop⟩

/-- The span that goes on to a later stop. -/
def Span.upTo (span : Span) (stop : Int) : Span := { span with stop }

namespace Reader

/-- A construct that is open and waits for the type being read. -/
inductive Frame where
  /-- The type arguments of a class, with those that are complete. -/
  | arguments (raw : RawName) (done : List Expression)
  /-- The upper bounds of the wildcard at a `?`, with those that are
  complete. -/
  | upper (question : Token) (done : List Expression)
  /-- The lower bound of the wildcard at a `?`. -/
  | lower (question : Token)

/-- Where the reader stands inside the innermost construct. -/
inductive Focus where
  /-- A type has to start. -/
  | start
  /-- A class name that can go on. -/
  | name (raw : RawName)
  /-- A class name behind one of its dots. -/
  | dotted (raw : RawName)
  /-- A type that brackets can follow. -/
  | base (e : Expression)
  /-- A type behind an opening bracket. -/
  | bracket (e : Expression)
  /-- A wildcard behind its `?`. -/
  | question (token : Token)

/-- What is being read and, innermost first, what waits for it. -/
structure State where
  focus : Focus
  frames : List Frame

/-- How far a token takes the reader: to another state, or to the end. -/
inductive Progress where
  | reading (state : State)
  | complete (e : Expression)

/-- The wildcard with the given bounds, from its `?` to the end of the last. -/
def wildcardOf (kind : BoundKind) (question : Token)
    (bounds : List Expression) : Expression :=
  .wildcard kind bounds
    (question.span.upTo ((bounds.getLast?.bind Expression.span).elim
      question.stop Span.stop))

/-- Hands the complete type `e` to the constructs that wait for it, at the token
that follows it. A wildcard that ends there is itself a complete type and is
handed on. -/
def finish (e : Expression) (token : Token) :
    List Frame → Except GrammarError Progress
  | [] =>
      if token.kind = .eof then .ok (.complete e)
      else .error ⟨.trailing token.found, some token.start⟩
  | .arguments raw done :: frames => do
      e.checkArgument
      match token.kind with
      | .comma =>
          .ok (.reading ⟨.start, .arguments raw (done ++ [e]) :: frames⟩)
      | .gt =>
          .ok (.reading
            ⟨.base (.parameterized raw (done ++ [e])
              (raw.span.map (·.upTo token.stop))), frames⟩)
      | _ => .error (token.unexpected .argumentSeparator)
  | .upper question done :: frames => do
      e.checkBound
      match token.kind with
      | .amp => .ok (.reading ⟨.start, .upper question (done ++ [e]) :: frames⟩)
      | _ => finish (wildcardOf .upper question (done ++ [e])) token frames
  | .lower question :: frames => do
      e.checkBound
      match token.kind with
      | .amp => .error ⟨.secondLowerBound, some token.start⟩
      | _ => finish (wildcardOf .lower question [e]) token frames

/-- Starts a type at `token`. -/
def start (token : Token) (frames : List Frame) :
    Except GrammarError Progress :=
  match token.kind with
  | .question => .ok (.reading ⟨.question token, frames⟩)
  | .primitive _ =>
      .ok (.reading ⟨.base (.primitive token.value token.span), frames⟩)
  | .ident => .ok (.reading ⟨.name ⟨token.value, token.span⟩, frames⟩)
  | .internalName =>
      if InternalName.isValid token.value.toList then
        .ok (.reading ⟨.base (.internal token.value token.span), frames⟩)
      else
        .error ⟨.malformedInternalName (.of token.value.toList) token.value,
          some token.start⟩
  | .gt =>
      match frames with
      | .arguments raw [] :: _ =>
          .error ⟨.emptyArguments raw.name, some token.start⟩
      | _ => .error (token.unexpected .type)
  | _ => .error (token.unexpected .type)

/-- Goes on behind the type `e`, which brackets can follow: a bracket extends
it, and at any other token it is complete by `finish`. -/
def extend (e : Expression) (token : Token) (frames : List Frame) :
    Except GrammarError Progress :=
  match token.kind with
  | .lbracket =>
      if e.isVoid then .error ⟨.voidComponent, some token.start⟩
      else .ok (.reading ⟨.bracket e, frames⟩)
  | .lt => .error ⟨e.parameterizedCause, some token.start⟩
  | _ => finish e token frames

/-- Takes one token, as the `focus` of the state says. -/
def step (state : State) (token : Token) : Except GrammarError Progress :=
  let frames := state.frames
  match state.focus with
  | .start => start token frames
  | .name raw =>
      match token.kind with
      | .dot => .ok (.reading ⟨.dotted raw, frames⟩)
      | .lt => .ok (.reading ⟨.start, .arguments raw [] :: frames⟩)
      | _ => extend (.raw raw) token frames
  | .dotted raw =>
      match token.kind with
      | .ident =>
          .ok (.reading ⟨.name ⟨raw.name ++ "." ++ token.value,
            raw.span.map (·.upTo token.stop)⟩, frames⟩)
      | _ => .error (token.unexpected .identifierAfterDot)
  | .base e => extend e token frames
  | .bracket e =>
      match token.kind with
      | .rbracket =>
          .ok (.reading ⟨.base (.array e (e.span.map (·.upTo token.stop))),
            frames⟩)
      | _ => .error (token.unexpected .closingBracket)
  | .question mark =>
      match token.kind with
      | .extendsWord => .ok (.reading ⟨.start, .upper mark [] :: frames⟩)
      | .superWord => .ok (.reading ⟨.start, .lower mark :: frames⟩)
      | _ => finish (wildcardOf .unbounded mark []) token frames

/-- Takes tokens by `step` until an expression is complete or there are no
more. -/
def run (state : State) : List Token → Except GrammarError Progress
  | [] => .ok (.reading state)
  | token :: tokens => do
      match ← step state token with
      | .complete e => .ok (.complete e)
      | .reading next => run next tokens

/-- A `run` over two lists of tokens goes on with the second list where the
first one leaves it, if it is still reading then. -/
theorem run_append (state : State) (front back : List Token) :
    run state (front ++ back) =
      match run state front with
      | .ok (.reading next) => run next back
      | outcome => outcome := by
  induction front generalizing state with
  | nil => rfl
  | cons token front ih =>
      simp only [List.cons_append, run]
      cases step state token with
      | error e => rfl
      | ok progress =>
          cases progress with
          | complete e => rfl
          | reading next => exact ih next

/-- What waits for a type is never left waiting at a token of kind `eof`. -/
theorem finish_of_eof (e : Expression) {token : Token}
    (hEof : token.kind = .eof) (frames : List Frame) (next : State) :
    finish e token frames ≠ .ok (.reading next) := by
  induction frames generalizing e with
  | nil => simp [finish, hEof]
  | cons frame frames ih =>
      cases frame with
      | arguments raw done =>
          simp only [finish, hEof]
          cases e.checkArgument <;> simp [bind, Except.bind]
      | upper question done =>
          simp only [finish, hEof]
          cases e.checkBound with
          | error e => simp [bind, Except.bind]
          | ok _ => exact ih _
      | lower question =>
          simp only [finish, hEof]
          cases e.checkBound with
          | error e => simp [bind, Except.bind]
          | ok _ => exact ih _

/-- The reader never goes on behind a token of kind `eof`. -/
theorem step_of_eof (state : State) {token : Token} (hEof : token.kind = .eof)
    (next : State) : step state token ≠ .ok (.reading next) := by
  obtain ⟨focus, frames⟩ := state
  cases focus <;> simp [step, start, extend, hEof, finish_of_eof]

end Reader

namespace Expression

/-- The type expression that tokens make, up to the first of kind `eof`. A list
that ends before the expression does ends unexpectedly. -/
def read (tokens : List Token) : Except GrammarError Expression := do
  match ← Reader.run ⟨.start, []⟩ tokens with
  | .complete e => .ok e
  | .reading _ => .error ⟨.unexpected .endOfInput .type, none⟩

/-- The type expression that a text makes: what `read` makes of the tokens that
`tokenize` finds. -/
def ofText (text : String) : Except GrammarError Expression := do
  if text = "" then .error ⟨.emptyText, some 0⟩
  else read (← tokenize text)

/-- Why `ofTokens` refuses a list of tokens that may come from elsewhere. -/
inductive TokensError where
  | unterminated
  | malformed (error : GrammarError)
  deriving DecidableEq, Repr

/-- The wording of the error about a list that ends without `eof`. -/
def TokensError.unterminatedText : String :=
  "token stream must end with an EOF token"

/-- The type expression that a list of tokens makes, which has to end with one
of kind `eof`. -/
def ofTokens (tokens : List Token) : Except TokensError Expression :=
  if Token.terminated tokens then (read tokens).mapError .malformed
  else .error .unterminated

end Expression

end JvmTypes
