import JvmTypes.Proofs.Grammar
import JvmTypes.Proofs.InStep

/-!
# The reader is sound

The reader takes one token at a time and keeps what is open on a stack. The
invariant of a run is that the lexemes read so far are what the stack stands for
followed by what the focus stands for (`State.Spells`). Each helper of a step
keeps it, so a step keeps it, so a run keeps it; and the step that completes an
expression turns it into a derivation.

A keyword is told by its kind alone, so the invariant asks for tokens whose text
is the keyword itself (`Token.IsKeyed`).

## Main results

* `follows_of_step`: one step keeps the invariant.
* `spells_of_run`: a run keeps it, and completes an expression only at an `eof`,
  with a derivation from the lexemes before it.
-/

namespace JvmTypes

open Grammar

/-- Whether a token that is the keyword of a primitive type has it as its
text. -/
def Token.IsKeyed (token : Token) : Prop :=
  ∀ p, token.kind = .primitive p → token.value = p.name

namespace Reader

/-! ## What a state has read -/

/-- The lexemes that a `Focus` stands for. -/
inductive Focus.Spells : Focus → List Lexeme → Prop
  | start : Spells .start []
  | name {raw : RawName} {ls : List Lexeme} (hName : IsName ls raw.name) :
      Spells (.name raw) ls
  | dotted {raw : RawName} {ls : List Lexeme} (dot : String)
      (hName : IsName ls raw.name) :
      Spells (.dotted raw) (ls ++ [⟨.dot, dot⟩])
  | base {e : Expression} {ls : List Lexeme} (hBare : IsBare ls e.erase) :
      Spells (.base e) ls
  | bracket {e : Expression} {ls : List Lexeme} (opening : String)
      (hBare : IsBare ls e.erase) (hVoid : e.isVoid = false) :
      Spells (.bracket e) (ls ++ [⟨.lbracket, opening⟩])
  | question {token : Token} (hKind : token.kind = .question) :
      Spells (.question token) [token.lexeme]

/-- Lexemes that lead up to another member of a list: with a list behind them,
they make the list that has the members `done` in front. -/
def LeadsUp (list : List Lexeme → List Expression → Prop) (ls : List Lexeme)
    (done : List Expression) : Prop :=
  ∀ ms es, list ms es → list (ls ++ ms) (done.map Expression.erase ++ es)

/-- The lexemes that a stack of `Frame`s stands for. -/
inductive FramesSpell : List Frame → List Lexeme → Prop
  | nil : FramesSpell [] []
  | arguments {frames : List Frame} {outer ls ms : List Lexeme} {raw : RawName}
      {done : List Expression} (opening : String)
      (hOuter : FramesSpell frames outer) (hName : IsName ls raw.name)
      (hDone : LeadsUp IsArguments ms done) :
      FramesSpell (.arguments raw done :: frames)
        (outer ++ (ls ++ ⟨.lt, opening⟩ :: ms))
  | upper {frames : List Frame} {outer ms : List Lexeme} {question : Token}
      {done : List Expression} (word : String)
      (hOuter : FramesSpell frames outer) (hKind : question.kind = .question)
      (hDone : LeadsUp IsBounds ms done) :
      FramesSpell (.upper question done :: frames)
        (outer ++ question.lexeme :: ⟨.extendsWord, word⟩ :: ms)
  | lower {frames : List Frame} {outer : List Lexeme} {question : Token}
      (word : String) (hOuter : FramesSpell frames outer)
      (hKind : question.kind = .question) :
      FramesSpell (.lower question :: frames)
        (outer ++ [question.lexeme, ⟨.superWord, word⟩])

/-- The lexemes that a state has read: those of its `frames` and then those of
its `focus`. -/
def State.Spells (state : State) (ls : List Lexeme) : Prop :=
  ∃ outer inner, FramesSpell state.frames outer ∧ state.focus.Spells inner ∧
    ls = outer ++ inner

/-- What a token leads to behind the lexemes `ls` read so far: this is the
invariant of the reader. -/
def Progress.Follows (ls : List Lexeme) (token : Token) : Progress → Prop
  | .reading state => state.Spells (ls ++ [token.lexeme])
  | .complete e => token.kind = .eof ∧ IsType ls e.erase

private theorem leadsUp_nil (list : List Lexeme → List Expression → Prop) :
    LeadsUp list [] [] := by
  intro ms es hList
  exact hList

theorem LeadsUp.arguments {ms ls : List Lexeme} {done : List Expression}
    {e : Expression} (hDone : LeadsUp IsArguments ms done) (comma : String)
    (hType : IsType ls e.erase) (hPrimitive : e.isPrimitive = false) :
    LeadsUp IsArguments (ms ++ (ls ++ [⟨.comma, comma⟩])) (done ++ [e]) := by
  intro ns es hRest
  have hMore := hDone _ _ (.more comma hType (by simpa using hPrimitive) hRest)
  simpa using hMore

theorem LeadsUp.bounds {ms ls : List Lexeme} {done : List Expression}
    {e : Expression} (hDone : LeadsUp IsBounds ms done) (amp : String)
    (hBare : IsBare ls e.erase) (hPrimitive : e.isPrimitive = false) :
    LeadsUp IsBounds (ms ++ (ls ++ [⟨.amp, amp⟩])) (done ++ [e]) := by
  intro ns es hRest
  have hMore := hDone _ _ (.more amp hBare (by simpa using hPrimitive) hRest)
  simpa using hMore

/-! ## Soundness -/

@[simp] theorem erase_wildcardOf (kind : BoundKind) (question : Token)
    (es : List Expression) :
    (wildcardOf kind question es).erase =
      .wildcard kind (es.map Expression.erase) none := by
  rw [wildcardOf, Expression.erase, Expression.eraseAll_eq_map]

/-- A check that is followed by a success has succeeded. -/
theorem ok_of_bind_eq_ok {ε α : Type} {check : Except ε Unit}
    {rest : Unit → Except ε α} {a : α} (hBind : (check >>= rest) = .ok a) :
    check = .ok () ∧ rest () = .ok a := by
  obtain ⟨_, hCheck, hRest⟩ := exists_of_bind_eq_ok hBind
  exact ⟨hCheck, hRest⟩

/-- `finish` keeps the invariant `Progress.Follows` when it hands over a
complete type. -/
theorem follows_of_finish {frames : List Frame} {outer inner : List Lexeme}
    {e : Expression} {token : Token} {progress : Progress}
    (hFrames : FramesSpell frames outer) (hType : IsType inner e.erase)
    (hFinish : finish e token frames = .ok progress) :
    progress.Follows (outer ++ inner) token := by
  induction hFrames generalizing inner e with
  | nil =>
      rw [finish] at hFinish
      split at hFinish
      · next hEof =>
          cases hFinish
          exact ⟨hEof, hType⟩
      · cases hFinish
  | @arguments frames outer ls ms raw done opening hOuter hName hDone ih =>
      obtain ⟨hCheck, hFinish⟩ := ok_of_bind_eq_ok hFinish
      have hPrimitive := Expression.checkArgument_eq_ok.1 hCheck
      split at hFinish
      · next hComma =>
          cases hFinish
          refine ⟨_, [], .arguments opening hOuter hName
            (hDone.arguments token.value hType hPrimitive), .start, ?_⟩
          simp [Token.lexeme, hComma]
      · next hGt =>
          cases hFinish
          have hLast := hDone _ _ (.one hType (by simpa using hPrimitive))
          have hBase := IsBase.parameterized opening token.value hName hLast
          refine ⟨outer, ls ++
            ⟨.lt, opening⟩ :: (ms ++ inner ++ [⟨.gt, token.value⟩]), hOuter,
            .base (.base ?_), ?_⟩
          · simpa [Expression.erase, Expression.eraseAll_eq_map] using hBase
          · simp [Token.lexeme, hGt]
      · cases hFinish
  | @upper frames outer ms question done word hOuter hKind hDone ih =>
      obtain ⟨hCheck, hFinish⟩ := ok_of_bind_eq_ok hFinish
      obtain ⟨hTree, hPrimitive⟩ := Expression.checkBound_eq_ok.1 hCheck
      have hBare := hType.toBare (by simpa using hTree)
      split at hFinish
      · next hAmp =>
          cases hFinish
          refine ⟨_, [], .upper word hOuter hKind
            (hDone.bounds token.value hBare hPrimitive), .start, ?_⟩
          simp [Token.lexeme, hAmp]
      · have hLast := hDone _ _ (.one hBare (by simpa using hPrimitive))
        have hWildcard := IsType.wildcard (.upper question.value word hLast)
        have hWhole : IsType
            (question.lexeme :: ⟨.extendsWord, word⟩ :: (ms ++ inner))
            (wildcardOf .upper question (done ++ [e])).erase := by
          simpa [Token.lexeme, hKind] using hWildcard
        simpa using ih hWhole hFinish
  | @lower frames outer question word hOuter hKind ih =>
      obtain ⟨hCheck, hFinish⟩ := ok_of_bind_eq_ok hFinish
      obtain ⟨hTree, hPrimitive⟩ := Expression.checkBound_eq_ok.1 hCheck
      have hBare := hType.toBare (by simpa using hTree)
      split at hFinish
      · cases hFinish
      · have hWildcard :=
          IsType.wildcard (.lower question.value word hBare
            (by simpa using hPrimitive))
        have hWhole : IsType (question.lexeme :: ⟨.superWord, word⟩ :: inner)
            (wildcardOf .lower question [e]).erase := by
          simpa [Token.lexeme, hKind] using hWildcard
        simpa using ih hWhole hFinish

/-- `extend` keeps the invariant behind a bare type. -/
theorem follows_of_extend {frames : List Frame} {outer inner : List Lexeme}
    {e : Expression} {token : Token} {progress : Progress}
    (hFrames : FramesSpell frames outer) (hBare : IsBare inner e.erase)
    (hExtend : extend e token frames = .ok progress) :
    progress.Follows (outer ++ inner) token := by
  rw [extend] at hExtend
  split at hExtend
  · next hBracket =>
      split at hExtend
      · cases hExtend
      · next hVoid =>
          cases hExtend
          refine ⟨outer, _, hFrames,
            .bracket token.value hBare (by simpa using hVoid), ?_⟩
          simp [Token.lexeme, hBracket]
  · cases hExtend
  · exact follows_of_finish hFrames (.bare hBare) hExtend

/-- `start` keeps the invariant. -/
theorem follows_of_start {frames : List Frame} {outer : List Lexeme}
    {token : Token} {progress : Progress} (hFrames : FramesSpell frames outer)
    (hKeyed : token.IsKeyed) (hStart : start token frames = .ok progress) :
    progress.Follows outer token := by
  unfold start at hStart
  split at hStart
  · next hKind =>
      cases hStart
      exact ⟨outer, _, hFrames, .question hKind, rfl⟩
  · next p hKind =>
      cases hStart
      refine ⟨outer, _, hFrames, .base (.base ?_), rfl⟩
      have hBase := IsBase.primitive p
      simpa [Token.lexeme, hKind, hKeyed p hKind, Expression.erase] using hBase
  · next hKind =>
      cases hStart
      refine ⟨outer, _, hFrames, .name ?_, rfl⟩
      simpa [Token.lexeme, hKind] using IsName.word token.value
  · next hKind =>
      split at hStart
      · next hValid =>
          cases hStart
          refine ⟨outer, _, hFrames, .base (.base ?_), rfl⟩
          have hBase := IsBase.internal ((InternalName.isValid_iff _).1 hValid)
          simpa [Token.lexeme, hKind, Expression.erase] using hBase
      · cases hStart
  · cases frames with
    | nil => cases hStart
    | cons frame frames =>
        rcases frame with ⟨raw, _ | ⟨e, done⟩⟩ | _ | _ <;> cases hStart
  · cases hStart

/-- One `step` keeps the invariant. -/
theorem follows_of_step {state : State} {ls : List Lexeme} {token : Token}
    {progress : Progress} (hSpells : state.Spells ls) (hKeyed : token.IsKeyed)
    (hStep : step state token = .ok progress) : progress.Follows ls token := by
  obtain ⟨focus, frames⟩ := state
  obtain ⟨outer, inner, hFrames, hFocus, rfl⟩ := hSpells
  cases hFocus with
  | start => simpa using follows_of_start hFrames hKeyed hStep
  | name hName =>
      simp only [step] at hStep
      split at hStep
      · next hDot =>
          cases hStep
          exact ⟨outer, _, hFrames, .dotted token.value hName,
            by simp [Token.lexeme, hDot]⟩
      · next hLt =>
          cases hStep
          refine ⟨_, [], .arguments token.value hFrames hName (leadsUp_nil _),
            .start, ?_⟩
          simp [Token.lexeme, hLt]
      · refine follows_of_extend hFrames (.base ?_) hStep
        simpa [Expression.erase] using IsBase.name hName
  | dotted dot hName =>
      simp only [step] at hStep
      split at hStep
      · next hIdent =>
          cases hStep
          refine ⟨outer, _, hFrames, .name (.dotted dot token.value hName), ?_⟩
          simp [Token.lexeme, hIdent]
      · cases hStep
  | base hBare => exact follows_of_extend hFrames hBare hStep
  | bracket opening hBare hVoid =>
      simp only [step] at hStep
      split at hStep
      · next hClosing =>
          cases hStep
          refine ⟨outer, _, hFrames,
            .base (.array opening token.value hBare (by simpa using hVoid)), ?_⟩
          simp [Token.lexeme, hClosing]
      · cases hStep
  | @question question hKind =>
      simp only [step] at hStep
      split at hStep
      · next hExtends =>
          cases hStep
          refine ⟨_, [], .upper token.value hFrames hKind (leadsUp_nil _),
            .start, ?_⟩
          simp [Token.lexeme, hExtends]
      · next hSuper =>
          cases hStep
          refine ⟨_, [], .lower token.value hFrames hKind, .start, ?_⟩
          simp [Token.lexeme, hSuper]
      · have hWildcard := IsType.wildcard (.unbounded question.value)
        refine follows_of_finish hFrames ?_ hStep
        simpa [Token.lexeme, hKind] using hWildcard

/-- A run keeps the invariant while it reads, and completes an expression only
at an `eof`, with a derivation from what came before. -/
theorem spells_of_run {state : State} {ls : List Lexeme} {tokens : List Token}
    {progress : Progress} (hSpells : state.Spells ls)
    (hKeyed : ∀ t ∈ tokens, t.IsKeyed)
    (hRun : run state tokens = .ok progress) :
    match progress with
    | .reading next => next.Spells (ls ++ tokens.map Token.lexeme)
    | .complete e =>
        ∃ front stop back, tokens = front ++ stop :: back ∧ stop.kind = .eof ∧
        IsType (ls ++ front.map Token.lexeme) e.erase := by
  induction tokens generalizing state ls with
  | nil =>
      cases hRun
      simpa using hSpells
  | cons token tokens ih =>
      simp only [run] at hRun
      cases hStep : step state token with
      | error error => simp [hStep, bind, Except.bind] at hRun
      | ok middle =>
          have hFollows :=
            follows_of_step hSpells (hKeyed token List.mem_cons_self) hStep
          rw [hStep] at hRun
          cases middle with
          | complete e =>
              cases hRun
              exact ⟨[], token, tokens, rfl, hFollows.1,
                by simpa using hFollows.2⟩
          | reading next =>
              have hRest := ih hFollows
                (fun t ht => hKeyed t (List.mem_cons_of_mem _ ht)) hRun
              cases progress with
              | reading last => simpa using hRest
              | complete e =>
                  obtain ⟨front, stop, back, rfl, hStop, hType⟩ := hRest
                  exact ⟨token :: front, stop, back, rfl, hStop,
                    by simpa using hType⟩

end Reader

end JvmTypes
