import JvmTypes.Error
import JvmTypes.Proofs.InStep
import JvmTypes.Proofs.Reader.Soundness
import Mathlib.Data.List.Forall2

/-!
# Tokens at other places

The reader looks at the kinds and the texts of tokens, and hands on their
offsets without looking at them. So on two lists of tokens that differ in their
offsets alone it does the same: it reads the same tree, with spans that start at
corresponding places, or fails for the same cause, reported at corresponding
places. Which places correspond is up to a relation `places`, and that makes the
one fact two: taken between the tokens of two texts it moves errors from one to
the other, and taken between the tokens of a text and themselves it says that an
error is reported at the start of a token.

## Main results

* `Reader.like_of_step`, `Reader.like_of_run`: a step and a run on tokens that
  are alike.
* `Expression.like_of_read`: reading tokens that are alike.
-/

namespace JvmTypes

variable {places : Int → Int → Prop} {spans : Option Span → Option Span → Prop}

/-! ## Alike up to places -/

/-- Tokens of one kind and one text at places that `places` relates. -/
structure Token.Like (places : Int → Int → Prop) (t u : Token) : Prop where
  kind : t.kind = u.kind
  value : t.value = u.value
  start : places t.start u.start

/-- Spans that are known and start at places that `places` relates. -/
def StartsLike (places : Int → Int → Prop) (s t : Option Span) : Prop :=
  ∃ a b, s = some a ∧ t = some b ∧ places a.start b.start

/-- One name with spans that `spans` relates. -/
structure RawName.Like (spans : Option Span → Option Span → Prop)
    (r s : RawName) : Prop where
  name : r.name = s.name
  span : spans r.span s.span

mutual

/-- Expressions that differ in their spans at most, and these are related by
`spans`. -/
inductive Expression.Like (spans : Option Span → Option Span → Prop) :
    Expression → Expression → Prop
  | primitive {name : String} {s t : Option Span} (hSpan : spans s t) :
      Like spans (.primitive name s) (.primitive name t)
  | raw {r r' : RawName} (hName : r.Like spans r') :
      Like spans (.raw r) (.raw r')
  | internal {text : String} {s t : Option Span} (hSpan : spans s t) :
      Like spans (.internal text s) (.internal text t)
  | array {e e' : Expression} {s t : Option Span} (hComponent : Like spans e e')
      (hSpan : spans s t) : Like spans (.array e s) (.array e' t)
  | parameterized {r r' : RawName} {es es' : List Expression}
      {s t : Option Span} (hName : r.Like spans r')
      (hArguments : LikeAll spans es es') (hSpan : spans s t) :
      Like spans (.parameterized r es s) (.parameterized r' es' t)
  | wildcard {kind : BoundKind} {es es' : List Expression} {s t : Option Span}
      (hBounds : LikeAll spans es es') (hSpan : spans s t) :
      Like spans (.wildcard kind es s) (.wildcard kind es' t)

/-- Expressions that are `Like` each other one by one. -/
inductive Expression.LikeAll (spans : Option Span → Option Span → Prop) :
    List Expression → List Expression → Prop
  | nil : LikeAll spans [] []
  | cons {e e' : Expression} {es es' : List Expression}
      (hHead : Like spans e e') (hTail : LikeAll spans es es') :
      LikeAll spans (e :: es) (e' :: es')

end

/-- Errors of the grammar with one cause, not that of a scan, at places that
`places` relates. -/
structure GrammarError.Like (places : Int → Int → Prop) (e e' : GrammarError) :
    Prop where
  cause : e.cause = e'.cause
  read : e.cause.kind ≠ .lex
  position : ∃ p p', e.position = some p ∧ e'.position = some p' ∧ places p p'

namespace Expression

theorem Like.span {e e' : Expression} (hLike : e.Like spans e') :
    spans e.span e'.span := by
  cases hLike with
  | raw hName => exact hName.span
  | _ => assumption

theorem LikeAll.concat {es es' : List Expression} {e e' : Expression}
    (hAll : LikeAll spans es es') (hLast : e.Like spans e') :
    LikeAll spans (es ++ [e]) (es' ++ [e']) := by
  induction es generalizing es' with
  | nil =>
      cases hAll
      exact .cons hLast .nil
  | cons first es ih =>
      cases hAll with
      | cons hHead hTail => exact .cons hHead (ih hTail)

theorem Like.isVoid {e e' : Expression} (hLike : e.Like spans e') :
    e.isVoid = e'.isVoid := by
  cases hLike <;> rfl

theorem Like.parameterizedCause {e e' : Expression} (hLike : e.Like spans e') :
    e.parameterizedCause = e'.parameterizedCause := by
  cases hLike with
  | parameterized hName => simp only [Expression.parameterizedCause, hName.name]
  | _ => rfl

end Expression

theorem StartsLike.upTo {s t : Option Span} (hLike : StartsLike places s t)
    (stop stop' : Int) :
    StartsLike places (s.map (·.upTo stop)) (t.map (·.upTo stop')) := by
  obtain ⟨a, b, rfl, rfl, hStart⟩ := hLike
  exact ⟨_, _, rfl, rfl, hStart⟩

namespace Token.Like

variable {t u : Token}

theorem span (hLike : t.Like places u) :
    StartsLike places (some t.span) (some u.span) :=
  ⟨_, _, rfl, rfl, hLike.start⟩

theorem found (hLike : t.Like places u) : t.found = u.found := by
  simp only [Token.found, hLike.kind, hLike.value]

/-- Errors with one cause at tokens that are `Like` each other are alike. -/
theorem error (hLike : t.Like places u) (cause : GrammarCause)
    (hRead : cause.kind ≠ .lex) :
    GrammarError.Like places ⟨cause, some t.start⟩ ⟨cause, some u.start⟩ :=
  ⟨rfl, hRead, _, _, rfl, rfl, hLike.start⟩

theorem unexpected (hLike : t.Like places u) (wanted : Wanted) :
    GrammarError.Like places (t.unexpected wanted) (u.unexpected wanted) := by
  rw [Token.unexpected, Token.unexpected, hLike.found]
  exact hLike.error _ (by simp [GrammarCause.kind])

end Token.Like

namespace Expression

/-- Errors with one cause at expressions that are `Like` each other are
alike. -/
theorem Like.error {e e' : Expression} (hLike : e.Like (StartsLike places) e')
    (cause : GrammarCause) (hRead : cause.kind ≠ .lex) :
    GrammarError.Like places ⟨cause, e.position⟩ ⟨cause, e'.position⟩ := by
  obtain ⟨a, b, hFirst, hSecond, hStart⟩ := hLike.span
  exact ⟨rfl, hRead, a.start, b.start, by simp [Expression.position, hFirst],
    by simp [Expression.position, hSecond], hStart⟩

theorem Like.checkArgument {e e' : Expression}
    (hLike : e.Like (StartsLike places) e') :
    InStep (GrammarError.Like places)
      (fun _ _ => True) e.checkArgument e'.checkArgument := by
  cases hLike with
  | @primitive name s t hSpan =>
      exact .error ((Like.primitive hSpan).error (.primitiveArgument name)
        (by simp [GrammarCause.kind]))
  | _ => exact .ok trivial

theorem Like.checkBound {e e' : Expression}
    (hLike : e.Like (StartsLike places) e') :
    InStep (GrammarError.Like places)
      (fun _ _ => True) e.checkBound e'.checkBound := by
  cases hLike with
  | @primitive name s t hSpan =>
      exact .error ((Like.primitive hSpan).error (.primitiveBound name)
        (by simp [GrammarCause.kind]))
  | wildcard hBounds hSpan =>
      exact .error ((Like.wildcard hBounds hSpan).error .wildcardBound
        (by simp [GrammarCause.kind]))
  | _ => exact .ok trivial

end Expression

namespace Reader

/-! ## States that are alike -/

/-- Open constructs of one kind, with parts that are alike. -/
inductive Frame.Like (places : Int → Int → Prop) : Frame → Frame → Prop
  | arguments {r r' : RawName} {es es' : List Expression}
      (hName : r.Like (StartsLike places) r')
      (hDone : Expression.LikeAll (StartsLike places) es es') :
      Like places (.arguments r es) (.arguments r' es')
  | upper {q q' : Token} {es es' : List Expression}
      (hQuestion : q.Like places q')
      (hDone : Expression.LikeAll (StartsLike places) es es') :
      Like places (.upper q es) (.upper q' es')
  | lower {q q' : Token} (hQuestion : q.Like places q') :
      Like places (.lower q) (.lower q')

/-- Places inside the innermost construct that are alike. -/
inductive Focus.Like (places : Int → Int → Prop) : Focus → Focus → Prop
  | start : Like places .start .start
  | name {r r' : RawName} (hName : r.Like (StartsLike places) r') :
      Like places (.name r) (.name r')
  | dotted {r r' : RawName} (hName : r.Like (StartsLike places) r') :
      Like places (.dotted r) (.dotted r')
  | base {e e' : Expression} (hTree : e.Like (StartsLike places) e') :
      Like places (.base e) (.base e')
  | bracket {e e' : Expression} (hTree : e.Like (StartsLike places) e') :
      Like places (.bracket e) (.bracket e')
  | question {q q' : Token} (hQuestion : q.Like places q') :
      Like places (.question q) (.question q')

/-- States whose `focus` and `frames` are alike. -/
structure State.Like (places : Int → Int → Prop) (state state' : State) :
    Prop where
  focus : state.focus.Like places state'.focus
  frames : List.Forall₂ (Frame.Like places) state.frames state'.frames

/-- Outcomes of a `step` that are alike. -/
inductive Progress.Like (places : Int → Int → Prop) : Progress → Progress → Prop
  | reading {state state' : State} (hState : state.Like places state') :
      Like places (.reading state) (.reading state')
  | complete {e e' : Expression} (hTree : e.Like (StartsLike places) e') :
      Like places (.complete e) (.complete e')

/-- Two outcomes of the reader that are alike. -/
abbrev LikeOutcomes (places : Int → Int → Prop) :
    Except GrammarError Progress → Except GrammarError Progress → Prop :=
  InStep (GrammarError.Like places) (Progress.Like places)

variable {t u : Token} {frames frames' : List Frame}

private theorem like_wildcardOf {q q' : Token} {es es' : List Expression}
    (kind : BoundKind) (hQuestion : q.Like places q')
    (hBounds : Expression.LikeAll (StartsLike places) es es') :
    (wildcardOf kind q es).Like (StartsLike places) (wildcardOf kind q' es') :=
  .wildcard hBounds ⟨_, _, rfl, rfl, hQuestion.start⟩

/-! ## Steps -/

theorem like_of_finish (hToken : t.Like places u)
    (hFrames : List.Forall₂ (Frame.Like places) frames frames')
    {e e' : Expression} (hTree : e.Like (StartsLike places) e') :
    LikeOutcomes places (finish e t frames) (finish e' u frames') := by
  induction hFrames generalizing e e' with
  | nil =>
      rw [finish, finish, hToken.kind, hToken.found]
      split
      · exact .ok (.complete hTree)
      · exact .error (hToken.error _ (by simp [GrammarCause.kind]))
  | cons hFrame hFrames ih =>
      cases hFrame with
      | arguments hName hDone =>
          rw [finish, finish, hToken.kind]
          refine hTree.checkArgument.bind fun _ _ _ => ?_
          split
          · exact .ok (.reading ⟨.start,
              .cons (.arguments hName (hDone.concat hTree)) hFrames⟩)
          · exact .ok (.reading
              ⟨.base (.parameterized hName (hDone.concat hTree)
                (hName.span.upTo _ _)), hFrames⟩)
          · exact .error (hToken.unexpected _)
      | upper hQuestion hDone =>
          rw [finish, finish, hToken.kind]
          refine hTree.checkBound.bind fun _ _ _ => ?_
          split
          · exact .ok (.reading ⟨.start,
              .cons (.upper hQuestion (hDone.concat hTree)) hFrames⟩)
          · exact ih (like_wildcardOf .upper hQuestion (hDone.concat hTree))
      | lower hQuestion =>
          rw [finish, finish, hToken.kind]
          refine hTree.checkBound.bind fun _ _ _ => ?_
          split
          · exact .error (hToken.error _ (by simp [GrammarCause.kind]))
          · exact ih (like_wildcardOf .lower hQuestion (.cons hTree .nil))

private theorem like_of_start (hToken : t.Like places u)
    (hFrames : List.Forall₂ (Frame.Like places) frames frames') :
    LikeOutcomes places (start t frames) (start u frames') := by
  have hName : RawName.Like (StartsLike places) ⟨t.value, t.span⟩
      ⟨u.value, u.span⟩ :=
    ⟨hToken.value, hToken.span⟩
  unfold start
  rw [hToken.kind, hToken.value]
  split
  · exact .ok (.reading ⟨.question hToken, hFrames⟩)
  · exact .ok (.reading ⟨.base (.primitive hToken.span), hFrames⟩)
  · rw [hToken.value] at hName
    exact .ok (.reading ⟨.name hName, hFrames⟩)
  · split
    · exact .ok (.reading ⟨.base (.internal hToken.span), hFrames⟩)
    · exact .error (hToken.error _ (by simp [GrammarCause.kind]))
  · -- Only a list without any argument so far is told apart.
    cases hFrames with
    | nil => exact .error (hToken.unexpected _)
    | cons hFrame _ =>
        cases hFrame with
        | upper => exact .error (hToken.unexpected _)
        | lower => exact .error (hToken.unexpected _)
        | arguments hRaw hDone =>
            cases hDone with
            | nil =>
                simp only [hRaw.name]
                exact .error (hToken.error _ (by simp [GrammarCause.kind]))
            | cons => exact .error (hToken.unexpected _)
  · exact .error (hToken.unexpected _)

private theorem like_of_extend (hToken : t.Like places u)
    (hFrames : List.Forall₂ (Frame.Like places) frames frames')
    {e e' : Expression} (hTree : e.Like (StartsLike places) e') :
    LikeOutcomes places (extend e t frames) (extend e' u frames') := by
  rw [extend, extend, hToken.kind, hTree.isVoid, hTree.parameterizedCause]
  split
  · split
    · exact .error (hToken.error _ (by simp [GrammarCause.kind]))
    · exact .ok (.reading ⟨.bracket hTree, hFrames⟩)
  · refine .error (hToken.error _ ?_)
    cases e' <;> simp [Expression.parameterizedCause, GrammarCause.kind]
  · exact like_of_finish hToken hFrames hTree

theorem like_of_step {state state' : State} (hToken : t.Like places u)
    (hState : state.Like places state') :
    LikeOutcomes places (step state t) (step state' u) := by
  obtain ⟨focus, frames⟩ := state
  obtain ⟨focus', frames'⟩ := state'
  obtain ⟨hFocus, hFrames⟩ := hState
  cases hFocus with
  | start => exact like_of_start hToken hFrames
  | name hName =>
      simp only [step, hToken.kind]
      split
      · exact .ok (.reading ⟨.dotted hName, hFrames⟩)
      · exact .ok (.reading ⟨.start, .cons (.arguments hName .nil) hFrames⟩)
      · exact like_of_extend hToken hFrames (.raw hName)
  | dotted hName =>
      simp only [step, hToken.kind, hToken.value, hName.name]
      split
      · exact .ok (.reading ⟨.name ⟨rfl, hName.span.upTo _ _⟩, hFrames⟩)
      · exact .error (hToken.unexpected _)
  | base hTree => exact like_of_extend hToken hFrames hTree
  | bracket hTree =>
      simp only [step, hToken.kind]
      split
      · exact .ok (.reading ⟨.base (.array hTree (hTree.span.upTo _ _)),
          hFrames⟩)
      · exact .error (hToken.unexpected _)
  | question hQuestion =>
      simp only [step, hToken.kind]
      split
      · exact .ok (.reading ⟨.start, .cons (.upper hQuestion .nil) hFrames⟩)
      · exact .ok (.reading ⟨.start, .cons (.lower hQuestion) hFrames⟩)
      · exact like_of_finish hToken hFrames
          (like_wildcardOf .unbounded hQuestion .nil)

/-! ## Runs -/

theorem like_of_run {tokens tokens' : List Token}
    (hTokens : List.Forall₂ (Token.Like places) tokens tokens')
    {state state' : State} (hState : state.Like places state') :
    LikeOutcomes places (run state tokens) (run state' tokens') := by
  induction hTokens generalizing state state' with
  | nil => exact .ok (.reading hState)
  | cons hToken _ ih =>
      rw [run, run]
      refine (like_of_step hToken hState).bind
        fun progress progress' hProgress => ?_
      cases hProgress with
      | reading hNext => exact ih hNext
      | complete hTree => exact .ok (.complete hTree)

/-- The reader goes on behind no list of tokens that ends with one of kind
`eof`. -/
theorem run_of_eof (state : State) (words : List Token) {stop : Token}
    (hStop : stop.kind = .eof) (next : State) :
    run state (words ++ [stop]) ≠ .ok (.reading next) := by
  intro hRun
  rw [run_append] at hRun
  split at hRun
  · next last _ =>
      rw [run] at hRun
      obtain ⟨progress, hStep, hNext⟩ := exists_of_bind_eq_ok hRun
      cases progress with
      | complete e => cases hNext
      | reading behind => exact step_of_eof last hStop behind hStep
  · next hOther => exact hOther _ hRun

end Reader

namespace Expression

/-- Tokens that are alike and end with `eof` are read alike. -/
theorem like_of_read {words tokens' : List Token} {stop : Token}
    (hStop : stop.kind = .eof)
    (hTokens : List.Forall₂ (Token.Like places) (words ++ [stop]) tokens') :
    InStep (GrammarError.Like places) (Expression.Like (StartsLike places))
      (read (words ++ [stop])) (read tokens') := by
  have hStart : Reader.State.Like places ⟨.start, []⟩ ⟨.start, []⟩ :=
    ⟨.start, .nil⟩
  have hRun := Reader.like_of_run hTokens hStart
  have hEnds := Reader.run_of_eof ⟨.start, []⟩ words hStop
  rw [read, read]
  generalize Reader.run ⟨.start, []⟩ (words ++ [stop]) = outcome at hRun hEnds ⊢
  generalize Reader.run ⟨.start, []⟩ tokens' = outcome' at hRun ⊢
  cases hRun with
  | error hFail => exact .error hFail
  | ok hProgress =>
      cases hProgress with
      | complete hTree => exact .ok hTree
      | reading => exact absurd rfl (hEnds _)

end Expression

end JvmTypes
