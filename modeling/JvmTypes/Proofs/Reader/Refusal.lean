import JvmTypes.Proofs.Reader.Completeness

/-!
# What the reader refuses

Completeness says how a run goes on behind a type. Here is what must hold of the
type for the run to go on at all. A primitive type is refused as soon as it is
handed over as an argument or a bound, and `void` at the bracket behind it. A
wildcard under a bound is not refused where it stands: its own bounds are read
on, so an `&` meant for the outer wildcard goes to the inner one. Only the
handover of the inner wildcard fails. Until then the run is lost
(`State.IsLost`): every step keeps it so, and no step completes an expression.

## Main results

* `isLost_of_step`, `run_ne_complete_of_isLost`: a lost run stays lost.
* `isPrimitive_of_run_arguments`, `isBound_of_run_upper`,
  `isBound_of_run_lower`, `isVoid_of_run_bracket`: what is read to its end was
  not to be refused.
* `IsType.isPrimitive_of_angles`, `IsType.isBound_of_extends`,
  `IsType.isBound_of_super`, `IsType.isVoid_of_bracket`: the same of
  derivations.
-/

namespace JvmTypes

open Grammar

namespace Reader

/-! ## Lost runs -/

/-- Whether a frame waits for a bound. -/
def Frame.isBound : Frame → Bool
  | .arguments .. => false
  | .upper .. => true
  | .lower .. => true

/-- Somewhere among the frames a wildcard waits to become a bound. -/
inductive Nested : List Frame → Prop
  | here {inner outer : Frame} (rest : List Frame)
      (hInner : inner.isBound = true) (hOuter : outer.isBound = true) :
      Nested (inner :: outer :: rest)
  | there {frames : List Frame} (frame : Frame) (hNested : Nested frames) :
      Nested (frame :: frames)

/-- A wildcard is being read where a bound has to stand. -/
inductive State.IsLost : State → Prop
  | nested {state : State} (hNested : Nested state.frames) : IsLost state
  | question (mark : Token) {frame : Frame} (frames : List Frame)
      (hBound : frame.isBound = true) : IsLost ⟨.question mark, frame :: frames⟩

/-- A wildcard is never handed over as a bound. -/
theorem finish_wildcard_ne_ok {frame : Frame} (hBound : frame.isBound = true)
    {e : Expression} (hWildcard : e.isWildcard = true) (token : Token)
    (frames : List Frame) (progress : Progress) :
    finish e token (frame :: frames) ≠ .ok progress := by
  intro hFinish
  have hCheck : e.checkBound = .ok () := by
    cases frame with
    | arguments => cases hBound
    | upper question done => exact (ok_of_bind_eq_ok hFinish).1
    | lower question => exact (ok_of_bind_eq_ok hFinish).1
  simp [(Expression.checkBound_eq_ok.1 hCheck).1] at hWildcard

/-- Where bounds are `Nested`, `finish` leaves them nested. -/
theorem nested_of_finish {frames : List Frame} {e : Expression} {token : Token}
    {progress : Progress} (hNested : Nested frames)
    (hFinish : finish e token frames = .ok progress) :
    ∃ state, progress = .reading state ∧ Nested state.frames := by
  induction frames generalizing e with
  | nil => cases hNested
  | cons frame frames ih =>
      -- Either the bound on top is handed over to the bound below it, which is
      -- refused, or the nesting lies further down.
      cases frame with
      | arguments raw done =>
          obtain ⟨-, hFinish⟩ := ok_of_bind_eq_ok hFinish
          have hRest : Nested frames := by
            cases hNested with
            | here _ hInner => cases hInner
            | there _ hNested => exact hNested
          split at hFinish
          · cases hFinish
            exact ⟨_, rfl, .there _ hRest⟩
          · cases hFinish
            exact ⟨_, rfl, hRest⟩
          · cases hFinish
      | upper question done =>
          obtain ⟨-, hFinish⟩ := ok_of_bind_eq_ok hFinish
          split at hFinish
          · cases hFinish
            refine ⟨_, rfl, ?_⟩
            cases hNested with
            | here rest _ hOuter => exact .here rest rfl hOuter
            | there _ hNested => exact .there _ hNested
          · cases hNested with
            | here rest _ hOuter =>
                exact absurd hFinish (finish_wildcard_ne_ok hOuter rfl _ _ _)
            | there _ hNested => exact ih hNested hFinish
      | lower question =>
          obtain ⟨-, hFinish⟩ := ok_of_bind_eq_ok hFinish
          split at hFinish
          · cases hFinish
          · cases hNested with
            | here rest _ hOuter =>
                exact absurd hFinish (finish_wildcard_ne_ok hOuter rfl _ _ _)
            | there _ hNested => exact ih hNested hFinish

private theorem nested_of_extend {frames : List Frame} {e : Expression}
    {token : Token} {progress : Progress} (hNested : Nested frames)
    (hExtend : extend e token frames = .ok progress) :
    ∃ state, progress = .reading state ∧ Nested state.frames := by
  unfold extend at hExtend
  split at hExtend
  · split at hExtend
    · cases hExtend
    · cases hExtend
      exact ⟨_, rfl, hNested⟩
  · cases hExtend
  · exact nested_of_finish hNested hExtend

private theorem nested_of_start {frames : List Frame} {token : Token}
    {progress : Progress} (hNested : Nested frames)
    (hStart : start token frames = .ok progress) :
    ∃ state, progress = .reading state ∧ Nested state.frames := by
  unfold start at hStart
  split at hStart
  · cases hStart
    exact ⟨_, rfl, hNested⟩
  · cases hStart
    exact ⟨_, rfl, hNested⟩
  · cases hStart
    exact ⟨_, rfl, hNested⟩
  · split at hStart
    · cases hStart
      exact ⟨_, rfl, hNested⟩
    · cases hStart
  · split at hStart <;> cases hStart
  · cases hStart

/-- Bounds that are `Nested` stay nested over one step. -/
theorem nested_of_step {state : State} {token : Token} {progress : Progress}
    (hNested : Nested state.frames) (hStep : step state token = .ok progress) :
    ∃ next, progress = .reading next ∧ Nested next.frames := by
  obtain ⟨focus, frames⟩ := state
  cases focus with
  | start => exact nested_of_start hNested hStep
  | name raw =>
      simp only [step] at hStep
      split at hStep
      · cases hStep
        exact ⟨_, rfl, hNested⟩
      · cases hStep
        exact ⟨_, rfl, .there _ hNested⟩
      · exact nested_of_extend hNested hStep
  | dotted raw =>
      simp only [step] at hStep
      split at hStep
      · cases hStep
        exact ⟨_, rfl, hNested⟩
      · cases hStep
  | base e => exact nested_of_extend hNested hStep
  | bracket e =>
      simp only [step] at hStep
      split at hStep
      · cases hStep
        exact ⟨_, rfl, hNested⟩
      · cases hStep
  | question mark =>
      simp only [step] at hStep
      split at hStep
      · cases hStep
        exact ⟨_, rfl, .there _ hNested⟩
      · cases hStep
        exact ⟨_, rfl, .there _ hNested⟩
      · exact nested_of_finish hNested hStep

/-- A state that `IsLost` stays lost over one `step`, which completes
nothing. -/
theorem isLost_of_step {state : State} {token : Token} {progress : Progress}
    (hLost : state.IsLost) (hStep : step state token = .ok progress) :
    ∃ next, progress = .reading next ∧ next.IsLost := by
  cases hLost with
  | nested hNested =>
      obtain ⟨next, hNext, hNested⟩ := nested_of_step hNested hStep
      exact ⟨next, hNext, .nested hNested⟩
  | question mark frames hBound =>
      simp only [step] at hStep
      split at hStep
      · cases hStep
        exact ⟨_, rfl, .nested (.here frames rfl hBound)⟩
      · cases hStep
        exact ⟨_, rfl, .nested (.here frames rfl hBound)⟩
      · exact absurd hStep (finish_wildcard_ne_ok hBound rfl _ _ _)

/-- A `run` from a state that `IsLost` completes nothing. -/
theorem run_ne_complete_of_isLost {state : State} (hLost : state.IsLost)
    (tokens : List Token) (e : Expression) :
    run state tokens ≠ .ok (.complete e) := by
  induction tokens generalizing state with
  | nil => simp [run]
  | cons token tokens ih =>
      intro hRun
      cases hStep : step state token with
      | error error => simp [run, hStep, bind, Except.bind] at hRun
      | ok progress =>
          obtain ⟨next, rfl, hNext⟩ := isLost_of_step hLost hStep
          rw [run_cons_of_step _ hStep] at hRun
          exact ih hNext hRun

/-! ## Types that are handed over -/

/-- The first `step` of a run that completes an expression succeeds. -/
theorem exists_step_of_run {state : State} {token : Token} {tokens : List Token}
    {e : Expression} (hRun : run state (token :: tokens) = .ok (.complete e)) :
    ∃ progress, step state token = .ok progress := by
  cases hStep : step state token with
  | error error => simp [run, hStep, bind, Except.bind] at hRun
  | ok progress => exact ⟨progress, rfl⟩

/-- A bracket is read behind no `void`. -/
theorem isVoid_of_run_bracket {ls : List Lexeme} {tree : Expression}
    (hBare : IsBare ls tree) {tokens rest : List Token} {bracket : Token}
    {frames : List Frame} {e : Expression}
    (hTokens : tokens.map Token.lexeme = ls)
    (hBracket : bracket.kind = .lbracket)
    (hRun : run ⟨.start, frames⟩ (tokens ++ bracket :: rest) =
      .ok (.complete e)) :
    tree.isVoid = false := by
  obtain ⟨state, found, hFound, hHas, rfl⟩ :=
    readAs_of_isBare hBare frames hTokens
  rw [run_append_of_run _ hFound] at hRun
  obtain ⟨progress, hStep⟩ := exists_step_of_run hRun
  rw [Expression.isVoid_erase]
  refine Bool.eq_false_iff.2 fun hVoid => ?_
  cases hHas <;> simp [step, extend, hBracket, hVoid] at hStep

/-- Types that tokens of the kind `mark` set off from each other, in a run that
completes an expression. The list that is complete so far waits for the next of
them, so what `hItem` says of one type in front of a token that closes it holds
of all. -/
theorem forall_of_run_items (waiting : List Expression → List Frame)
    (P : Expression → Prop) {ι : Type} {lexemes : ι → List Lexeme}
    {tree : ι → Expression} {items : List ι} {mark : Token.Kind} {text : String}
    {closes : Token.Kind → Bool} {e : Expression} (hMark : closes mark = true)
    (hItem : ∀ i ∈ items, ∀ {tokens rest : List Token} {token : Token}
      {done : List Expression}, tokens.map Token.lexeme = lexemes i →
      closes token.kind = true →
      run ⟨.start, waiting done⟩ (tokens ++ token :: rest) = .ok (.complete e) →
      P (tree i) ∧ ∃ state found,
      run ⟨.start, waiting done⟩ tokens = .ok (.reading state) ∧
      (token.kind = mark →
      step state token = .ok (.reading ⟨.start, waiting (done ++ [found])⟩)))
    {tokens rest : List Token} {last : Token} {done : List Expression}
    (hTokens : tokens.map Token.lexeme = [⟨mark, text⟩].intercalate
      (items.map lexemes))
    (hLast : closes last.kind = true)
    (hRun : run ⟨.start, waiting done⟩ (tokens ++ last :: rest) =
      .ok (.complete e)) :
    ∀ i ∈ items, P (tree i) := by
  induction items generalizing tokens done with
  | nil => simp
  | cons i items ih =>
      obtain ⟨hHead, hRest⟩ := List.forall_mem_cons.1 hItem
      cases items with
      | nil =>
          rw [List.map_cons, List.map_nil,
            List.intercalate_singleton] at hTokens
          exact List.forall_mem_singleton.2 (hHead hTokens hLast hRun).1
      | cons next items =>
          rw [List.map_cons, List.map_cons, List.intercalate_cons_cons,
            List.append_assoc] at hTokens
          obtain ⟨front, back, rfl, hFront, hBack⟩ :=
            List.map_eq_append_iff.1 hTokens
          obtain ⟨middle, back, rfl, hMiddle, hBack⟩ :=
            List.map_eq_cons_iff.1 hBack
          obtain ⟨hKind, -⟩ := Token.lexeme_eq_iff.1 hMiddle
          rw [List.append_assoc, List.cons_append] at hRun
          obtain ⟨hFirst, state, found, hFound, hStep⟩ :=
            hHead hFront (by rw [hKind, hMark]) hRun
          rw [run_append_of_run _ hFound,
            run_cons_of_step _ (hStep hKind)] at hRun
          exact List.forall_mem_cons.2 ⟨hFirst, ih hRest hBack hRun⟩

/-- An argument that is handed over to `finish` in a run that completes an
expression is not primitive. -/
theorem isPrimitive_of_run_argument {ls : List Lexeme} {tree : Expression}
    (hType : IsType ls tree) {tokens rest : List Token} {token : Token}
    {raw : RawName} {done : List Expression} {frames : List Frame}
    {e : Expression} (hTokens : tokens.map Token.lexeme = ls)
    (hCloses : closesType token.kind = true)
    (hRun : run ⟨.start, .arguments raw done :: frames⟩
      (tokens ++ token :: rest) =
      .ok (.complete e)) :
    tree.isPrimitive = false ∧ ∃ state found,
      run ⟨.start, .arguments raw done :: frames⟩ tokens =
        .ok (.reading state) ∧
      (token.kind = .comma → step state token =
        .ok (.reading ⟨.start,
          .arguments raw (done ++ [found]) :: frames⟩)) := by
  obtain ⟨state, found, hFound, hHas, rfl⟩ :=
    readAs_of_isType hType (.arguments raw done :: frames) hTokens
  rw [run_append_of_run _ hFound] at hRun
  obtain ⟨progress, hStep⟩ := exists_step_of_run hRun
  rw [step_of_hasType hHas hCloses] at hStep
  have hCheck := (ok_of_bind_eq_ok hStep).1
  rw [Expression.isPrimitive_erase]
  refine ⟨Expression.checkArgument_eq_ok.1 hCheck, state, found, hFound,
    fun hComma => ?_⟩
  rw [step_of_hasType hHas hCloses, finish, hCheck]
  simp [hComma, bind, Except.bind]

/-- Type arguments that are read to their end in a run that completes an
expression are not primitive: each passes `isPrimitive_of_run_argument`. -/
theorem isPrimitive_of_run_arguments {ι : Type} {lexemes : ι → List Lexeme}
    {tree : ι → Expression} {items : List ι} {comma : String}
    (hItems : ∀ i ∈ items, IsType (lexemes i) (tree i))
    {tokens rest : List Token} {last : Token} {raw : RawName}
    {done : List Expression} {frames : List Frame} {e : Expression}
    (hTokens : tokens.map Token.lexeme = [⟨.comma, comma⟩].intercalate
      (items.map lexemes))
    (hLast : closesType last.kind = true)
    (hRun : run ⟨.start, .arguments raw done :: frames⟩
      (tokens ++ last :: rest) =
      .ok (.complete e)) :
    ∀ i ∈ items, (tree i).isPrimitive = false :=
  forall_of_run_items (fun done => .arguments raw done :: frames)
    (·.isPrimitive = false) rfl
    (fun i hMem => isPrimitive_of_run_argument (hItems i hMem))
      hTokens hLast hRun

/-- A type under a frame that waits for a bound, in a run that completes an
expression, is no wildcard, and a primitive type is not handed over. -/
theorem isBound_of_run_bound {frame : Frame} (hBound : frame.isBound = true)
    {ls : List Lexeme} {tree : Expression} (hType : IsType ls tree)
    {tokens rest : List Token} {token : Token} {frames : List Frame}
    {e : Expression} (hTokens : tokens.map Token.lexeme = ls)
    (hCloses : closesBare token.kind = true)
    (hRun : run ⟨.start, frame :: frames⟩ (tokens ++ token :: rest) =
      .ok (.complete e)) :
    ∃ state found, run ⟨.start, frame :: frames⟩ tokens = .ok (.reading state) ∧
      HasBare state found (frame :: frames) ∧ found.checkBound = .ok () ∧
      found.erase = tree := by
  cases hType with
  | wildcard hWildcard =>
      -- The first token is the `?`, behind which the run is lost.
      have hQuestion : ∃ mark ms, ls = ⟨.question, mark⟩ :: ms := by
        cases hWildcard <;> exact ⟨_, _, rfl⟩
      obtain ⟨mark, ms, rfl⟩ := hQuestion
      obtain ⟨question, back, rfl, hFirst, -⟩ := List.map_eq_cons_iff.1 hTokens
      obtain ⟨hKind, -⟩ := Token.lexeme_eq_iff.1 hFirst
      rw [List.cons_append,
        run_cons_of_step _ (step_start_question _ hKind)] at hRun
      exact absurd hRun (run_ne_complete_of_isLost
        (.question question frames hBound) _ e)
  | bare hBare =>
      obtain ⟨state, found, hFound, hHas, hTree⟩ :=
        readAs_of_isBare hBare (frame :: frames) hTokens
      rw [run_append_of_run _ hFound] at hRun
      obtain ⟨progress, hStep⟩ := exists_step_of_run hRun
      rw [step_of_hasBare hHas hCloses] at hStep
      refine ⟨state, found, hFound, hHas, ?_, hTree⟩
      cases frame with
      | arguments => cases hBound
      | upper question done => exact (ok_of_bind_eq_ok hStep).1
      | lower question => exact (ok_of_bind_eq_ok hStep).1

/-- Whether a tree can be a bound: it is neither a wildcard nor primitive. -/
def IsBoundTree (tree : Expression) : Prop :=
  tree.isWildcard = false ∧ tree.isPrimitive = false

private theorem isBoundTree_of_checkBound {found : Expression}
    (hCheck : found.checkBound = .ok ()) : IsBoundTree found.erase := by
  rw [IsBoundTree, Expression.isWildcard_erase, Expression.isPrimitive_erase]
  exact Expression.checkBound_eq_ok.1 hCheck

/-- A lower bound that is read to its end, in a run that completes an
expression, can be one by `IsBoundTree`. -/
theorem isBound_of_run_lower {ls : List Lexeme} {tree : Expression}
    (hType : IsType ls tree) {tokens rest : List Token} {last mark : Token}
    {frames : List Frame} {e : Expression}
    (hTokens : tokens.map Token.lexeme = ls)
    (hLast : closesBare last.kind = true)
    (hRun : run ⟨.start, .lower mark :: frames⟩ (tokens ++ last :: rest) =
      .ok (.complete e)) :
    IsBoundTree tree := by
  obtain ⟨_, found, -, -, hCheck, rfl⟩ :=
    isBound_of_run_bound rfl hType hTokens hLast hRun
  exact isBoundTree_of_checkBound hCheck

/-- An upper bound that is handed over to `finish`, in a run that completes an
expression, can be one by `IsBoundTree`. -/
theorem isBound_of_run_upperBound {ls : List Lexeme} {tree : Expression}
    (hType : IsType ls tree) {tokens rest : List Token} {token mark : Token}
    {done : List Expression} {frames : List Frame} {e : Expression}
    (hTokens : tokens.map Token.lexeme = ls)
    (hCloses : closesBare token.kind = true)
    (hRun : run ⟨.start, .upper mark done :: frames⟩ (tokens ++ token :: rest) =
      .ok (.complete e)) :
    IsBoundTree tree ∧ ∃ state found,
      run ⟨.start, .upper mark done :: frames⟩ tokens = .ok (.reading state) ∧
      (token.kind = .amp → step state token =
        .ok (.reading ⟨.start, .upper mark (done ++ [found]) :: frames⟩)) := by
  obtain ⟨state, found, hFound, hHas, hCheck, rfl⟩ :=
    isBound_of_run_bound rfl hType hTokens hCloses hRun
  refine ⟨isBoundTree_of_checkBound hCheck, state, found, hFound,
    fun hAmp => ?_⟩
  rw [step_of_hasBare hHas hCloses, finish, hCheck]
  simp [hAmp, bind, Except.bind]

/-- Upper bounds that are read to their end, in a run that completes an
expression, can be bounds: each passes `isBound_of_run_upperBound`. -/
theorem isBound_of_run_upper {ι : Type} {lexemes : ι → List Lexeme}
    {tree : ι → Expression} {items : List ι} {amp : String}
    (hItems : ∀ i ∈ items, IsType (lexemes i) (tree i))
    {tokens rest : List Token} {last mark : Token} {done : List Expression}
    {frames : List Frame} {e : Expression}
    (hTokens : tokens.map Token.lexeme = [⟨.amp, amp⟩].intercalate
      (items.map lexemes))
    (hLast : closesBare last.kind = true)
    (hRun : run ⟨.start, .upper mark done :: frames⟩ (tokens ++ last :: rest) =
      .ok (.complete e)) :
    ∀ i ∈ items, IsBoundTree (tree i) :=
  forall_of_run_items (fun done => .upper mark done :: frames) IsBoundTree rfl
    (fun i hMem => isBound_of_run_upperBound (hItems i hMem)) hTokens hLast hRun

end Reader

/-! ## What must hold of the parts of a type -/

namespace Grammar

open Reader

/-- What `IsType` derives is read to its end. -/
theorem IsType.exists_run {ls : List Lexeme} {tree : Expression}
    (hType : IsType ls tree) :
    ∃ tokens stop e, tokens.map Token.lexeme = ls ∧ stop.kind = .eof ∧
      run ⟨.start, []⟩ (tokens ++ [stop]) = .ok (.complete e) := by
  obtain ⟨tokens, hTokens⟩ := exists_tokens ls
  have hStop : (Token.mk .eof "" 0 0).kind = .eof := rfl
  obtain ⟨e, hRead, -⟩ := Expression.read_complete (hTokens ▸ hType) hStop []
  exact ⟨tokens, _, e, hTokens, hStop, Expression.read_eq_ok_iff.1 hRead⟩

/-- Types between angle brackets, in what `IsType` derives, are not
primitive. -/
theorem IsType.isPrimitive_of_angles {ι : Type} {lexemes : ι → List Lexeme}
    {tree : ι → Expression} {items : List ι} {ls : List Lexeme}
    {name opening closing comma : String} {whole : Expression}
    (hName : IsName ls name) (hItems : ∀ i ∈ items, IsType (lexemes i) (tree i))
    (hType : IsType (ls ++ ⟨.lt, opening⟩ ::
      ([⟨.comma, comma⟩].intercalate (items.map lexemes) ++
        [⟨.gt, closing⟩])) whole) :
    ∀ i ∈ items, (tree i).isPrimitive = false := by
  obtain ⟨tokens, stop, e, hTokens, -, hRun⟩ := hType.exists_run
  obtain ⟨front, back, rfl, hFront, hBack⟩ := List.map_eq_append_iff.1 hTokens
  obtain ⟨first, back, rfl, hFirst, hBack⟩ := List.map_eq_cons_iff.1 hBack
  obtain ⟨middle, last, rfl, hMiddle, hLast⟩ := List.map_eq_append_iff.1 hBack
  obtain ⟨final, rfl, hFinal⟩ := List.map_eq_singleton_iff.1 hLast
  obtain ⟨hLt, -⟩ := Token.lexeme_eq_iff.1 hFirst
  obtain ⟨hGt, -⟩ := Token.lexeme_eq_iff.1 hFinal
  obtain ⟨span, hRunName⟩ := run_of_isName [] hName hFront
  rw [List.append_assoc, run_append_of_run _ hRunName, List.cons_append,
    run_cons_of_step _ (step_name_lt _ [] hLt), List.append_assoc] at hRun
  exact isPrimitive_of_run_arguments hItems hMiddle (by rw [hGt]; rfl) hRun

/-- Types behind `? extends` can be bounds. -/
theorem IsType.isBound_of_extends {ι : Type} {lexemes : ι → List Lexeme}
    {tree : ι → Expression} {items : List ι} {mark word amp : String}
    {whole : Expression} (hItems : ∀ i ∈ items, IsType (lexemes i) (tree i))
    (hType : IsType (⟨.question, mark⟩ :: ⟨.extendsWord, word⟩ ::
      [⟨.amp, amp⟩].intercalate (items.map lexemes)) whole) :
    ∀ i ∈ items, IsBoundTree (tree i) := by
  obtain ⟨tokens, stop, e, hTokens, hStop, hRun⟩ := hType.exists_run
  obtain ⟨question, rest, rfl, hQuestion, hRest⟩ :=
    List.map_eq_cons_iff.1 hTokens
  obtain ⟨second, rest, rfl, hSecond, hBack⟩ := List.map_eq_cons_iff.1 hRest
  obtain ⟨hKind, -⟩ := Token.lexeme_eq_iff.1 hQuestion
  obtain ⟨hExtends, -⟩ := Token.lexeme_eq_iff.1 hSecond
  rw [List.cons_append, run_cons_of_step _ (step_start_question [] hKind),
    List.cons_append, run_cons_of_step _
      (step_question_extends question [] hExtends)] at hRun
  exact isBound_of_run_upper hItems hBack (by rw [hStop]; rfl) hRun

/-- A type behind `? super` can be a bound. -/
theorem IsType.isBound_of_super {mark word : String} {ls : List Lexeme}
    {part tree : Expression} (hPart : IsType ls part)
    (hType : IsType (⟨.question, mark⟩ :: ⟨.superWord, word⟩ :: ls) tree) :
    IsBoundTree part := by
  obtain ⟨tokens, stop, e, hTokens, hStop, hRun⟩ := hType.exists_run
  obtain ⟨question, rest, rfl, hQuestion, hRest⟩ :=
    List.map_eq_cons_iff.1 hTokens
  obtain ⟨second, rest, rfl, hSecond, hBack⟩ := List.map_eq_cons_iff.1 hRest
  obtain ⟨hKind, -⟩ := Token.lexeme_eq_iff.1 hQuestion
  obtain ⟨hSuper, -⟩ := Token.lexeme_eq_iff.1 hSecond
  rw [List.cons_append, run_cons_of_step _ (step_start_question [] hKind),
    List.cons_append, run_cons_of_step _
      (step_question_super question [] hSuper)] at hRun
  exact isBound_of_run_lower hPart hBack (by rw [hStop]; rfl) hRun

/-- A bare type in front of a bracket is not `void`. -/
theorem IsType.isVoid_of_bracket {opening : String} {ls back : List Lexeme}
    {part tree : Expression} (hPart : IsBare ls part)
    (hType : IsType (ls ++ ⟨.lbracket, opening⟩ :: back) tree) :
    part.isVoid = false := by
  obtain ⟨tokens, stop, e, hTokens, -, hRun⟩ := hType.exists_run
  obtain ⟨front, rest, rfl, hFront, hRest⟩ := List.map_eq_append_iff.1 hTokens
  obtain ⟨first, rest, rfl, hFirst, -⟩ := List.map_eq_cons_iff.1 hRest
  obtain ⟨hBracket, -⟩ := Token.lexeme_eq_iff.1 hFirst
  rw [List.append_assoc, List.cons_append] at hRun
  exact isVoid_of_run_bracket hPart hFront hBracket hRun

end Grammar

end JvmTypes
