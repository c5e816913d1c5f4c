import JvmTypes.Error
import JvmTypes.Proofs.Making
import JvmTypes.Proofs.Reader.Soundness

/-!
# The reader is complete

From a place where a type can start, the lexemes of a type take the reader to a
state that has just that type in hand. Such a state hands the type over at any
token that does not go on with it (`step_of_hasType`), which is how the
derivations of the parts are put together: each rule of the grammar over tokens
is a lemma about runs (`readAs_array`, `readAs_parameterized`, ...), and the
recursion over derivations only applies these.

With soundness this gives the comparison of reader and grammar. That no list of
lexemes has two trees comes from it as well: the reader is a function.

## Main results

* `Reader.readAs_of_makesType`: what makes a type is read as it.
* `Expression.read_complete`, `Expression.read_sound`: reading up to the first
  `eof` agrees with the derivations from what stands before it.
* `Expression.read_of_makesType`, `Expression.makesType_of_read`: it agrees with
  the grammar over tokens too, to the spans.
* `Grammar.IsType.unique`: no lexemes derive two trees.
* `Expression.ofTokens_iff_isType`: lists of tokens with one `eof`, at the end.
-/

namespace JvmTypes

open Grammar

namespace Reader

/-! ## States with a type in hand -/

/-- States that have a bare type in hand, over the `frames` that wait for it. -/
inductive HasBare : State → Expression → List Frame → Prop
  | name (raw : RawName) (frames : List Frame) :
      HasBare ⟨.name raw, frames⟩ (.raw raw) frames
  | base (e : Expression) (frames : List Frame) :
      HasBare ⟨.base e, frames⟩ e frames

/-- States that have a type in hand, over the `frames` that wait for it. The
bounds of a wildcard are still open when its last one is read. -/
inductive HasType : State → Expression → List Frame → Prop
  | bare {state : State} {e : Expression} {frames : List Frame}
      (hBare : HasBare state e frames) :
      HasType state e frames
  | question (mark : Token) (frames : List Frame) :
      HasType ⟨.question mark, frames⟩ (wildcardOf .unbounded mark []) frames
  | upper {state : State} {mark : Token} {done : List Expression}
      {e : Expression} {frames : List Frame}
      (hBare : HasBare state e (.upper mark done :: frames))
      (hBound : e.checkBound = .ok ()) :
      HasType state (wildcardOf .upper mark (done ++ [e])) frames
  | lower {state : State} {mark : Token} {e : Expression} {frames : List Frame}
      (hBare : HasBare state e (.lower mark :: frames))
      (hBound : e.checkBound = .ok ()) :
      HasType state (wildcardOf .lower mark [e]) frames

/-- Whether a bare type ends before a token of this kind. -/
def closesBare : Token.Kind → Bool
  | .dot | .lt | .lbracket => false
  | _ => true

/-- Whether any type ends before a token of this kind. -/
def closesType : Token.Kind → Bool
  | .dot | .lt | .lbracket | .amp | .extendsWord | .superWord => false
  | _ => true

private theorem closesBare_of_closesType {kind : Token.Kind}
    (hCloses : closesType kind = true) : closesBare kind = true := by
  cases kind <;> first | rfl | cases hCloses

/-- A bare type in hand goes to `finish` at a token that does not go on with
it. -/
theorem step_of_hasBare {state : State} {e : Expression} {frames : List Frame}
    {token : Token} (hBare : HasBare state e frames)
    (hCloses : closesBare token.kind = true) :
    step state token = finish e token frames := by
  have hExtend : extend e token frames = finish e token frames := by
    unfold extend
    split
    · next hKind => simp [closesBare, hKind] at hCloses
    · next hKind => simp [closesBare, hKind] at hCloses
    · rfl
  cases hBare with
  | base => exact hExtend
  | name =>
      simp only [step]
      split
      · next hKind => simp [closesBare, hKind] at hCloses
      · next hKind => simp [closesBare, hKind] at hCloses
      · exact hExtend

/-- A type in hand goes to `finish` at a token that goes on with no type. -/
theorem step_of_hasType {state : State} {e : Expression} {frames : List Frame}
    {token : Token} (hType : HasType state e frames)
    (hCloses : closesType token.kind = true) :
    step state token = finish e token frames := by
  cases hType with
  | bare hBare => exact step_of_hasBare hBare (closesBare_of_closesType hCloses)
  | question =>
      simp only [step]
      split
      · next hKind => simp [closesType, hKind] at hCloses
      · next hKind => simp [closesType, hKind] at hCloses
      · rfl
  | upper hBare hBound =>
      rw [step_of_hasBare hBare (closesBare_of_closesType hCloses),
        finish, hBound]
      simp only [bind, Except.bind]
      split
      · next hKind => simp [closesType, hKind] at hCloses
      · rfl
  | lower hBare hBound =>
      rw [step_of_hasBare hBare (closesBare_of_closesType hCloses),
        finish, hBound]
      simp only [bind, Except.bind]
      split
      · next hKind => simp [closesType, hKind] at hCloses
      · rfl

theorem run_cons_of_step {state next : State} {token : Token}
    (tokens : List Token) (hStep : step state token = .ok (.reading next)) :
    run state (token :: tokens) = run next tokens := by
  simp [run, hStep, bind, Except.bind]

theorem run_append_of_run {state next : State} {front : List Token}
    (back : List Token) (hRun : run state front = .ok (.reading next)) :
    run state (front ++ back) = run next back := by
  rw [run_append, hRun]

theorem step_start_question (frames : List Frame) {token : Token}
    (hKind : token.kind = .question) :
    step ⟨.start, frames⟩ token = .ok (.reading ⟨.question token, frames⟩) := by
  simp [step, start, hKind]

theorem step_question_extends (mark : Token) (frames : List Frame)
    {token : Token} (hKind : token.kind = .extendsWord) :
    step ⟨.question mark, frames⟩ token =
      .ok (.reading ⟨.start, .upper mark [] :: frames⟩) := by
  simp [step, hKind]

theorem step_question_super (mark : Token) (frames : List Frame) {token : Token}
    (hKind : token.kind = .superWord) :
    step ⟨.question mark, frames⟩ token =
      .ok (.reading ⟨.start, .lower mark :: frames⟩) := by
  simp [step, hKind]

theorem step_name_lt (raw : RawName) (frames : List Frame) {token : Token}
    (hKind : token.kind = .lt) :
    step ⟨.name raw, frames⟩ token =
      .ok (.reading ⟨.start, .arguments raw [] :: frames⟩) := by
  simp [step, hKind]

/-! ## Rules as runs -/

/-- Tokens that are read as an expression: from any place where a type can
start, they lead `run` to a state that has it in hand. -/
def ReadAs (has : State → Expression → List Frame → Prop) (tokens : List Token)
    (e : Expression) : Prop :=
  ∀ frames : List Frame,
    ∃ state, run ⟨.start, frames⟩ tokens = .ok (.reading state) ∧
      has state e frames

/-- Tokens that `run` reads as type arguments, the last of which is still in
hand. -/
def ArgumentsReadAs (tokens : List Token) (es : List Expression) : Prop :=
  ∀ (raw : RawName) (done : List Expression) (frames : List Frame),
    ∃ state init e, run ⟨.start, .arguments raw done :: frames⟩ tokens =
      .ok (.reading state) ∧
      HasType state e (.arguments raw (done ++ init) :: frames) ∧
      e.isPrimitive = false ∧
      init ++ [e] = es

/-- Tokens that `run` reads as upper bounds, the last of which is still in
hand. -/
def BoundsReadAs (tokens : List Token) (es : List Expression) : Prop :=
  ∀ (mark : Token) (done : List Expression) (frames : List Frame),
    ∃ state init e, run ⟨.start, .upper mark done :: frames⟩ tokens =
      .ok (.reading state) ∧
      HasBare state e (.upper mark (done ++ init) :: frames) ∧
      e.checkBound = .ok () ∧
      init ++ [e] = es

private theorem run_of_makesName (frames : List Frame) {ts : List Token}
    {r : RawName} (hName : MakesName ts r) :
    run ⟨.start, frames⟩ ts = .ok (.reading ⟨.name r, frames⟩) := by
  induction hName with
  | word hWord =>
      simp [run, step, start, hWord, bind, Except.bind, Token.cover_singleton]
  | dotted hName hDot hWord ih =>
      rw [run_append_of_run _ ih,
        Token.cover_append hName.ne_nil rfl, ← hName.span]
      simp [run, step, hDot, hWord, bind, Except.bind]

private theorem readAs_name {ts : List Token} {r : RawName}
    (hName : MakesName ts r) : ReadAs HasBare ts (.raw r) :=
  fun frames => ⟨_, run_of_makesName frames hName, .name r frames⟩

private theorem readAs_primitive {t : Token} {p : Primitive}
    (hKind : t.kind = .primitive p) :
    ReadAs HasBare [t] (.primitive t.value (Token.cover [t])) := by
  refine fun frames => ⟨_, ?_, .base _ frames⟩
  simp [run, step, start, hKind, bind, Except.bind, Token.cover_singleton]

private theorem readAs_internal {t : Token} (hKind : t.kind = .internalName)
    (hInternal : InternalName.IsInternalName t.value.toList) :
    ReadAs HasBare [t] (.internal t.value (Token.cover [t])) := by
  have hValid := (InternalName.isValid_iff _).2 hInternal
  refine fun frames => ⟨_, ?_, .base _ frames⟩
  simp [run, step, start, hKind, hValid, bind, Except.bind,
    Token.cover_singleton]

theorem readAs_array {ts : List Token} {e : Expression}
    {opening closing : Token} (hBare : MakesBare ts e)
    (hComponent : ReadAs HasBare ts e) (hVoid : e.isVoid = false)
    (hOpening : opening.kind = .lbracket)
    (hClosing : closing.kind = .rbracket) :
    ReadAs HasBare (ts ++ [opening, closing])
      (.array e (Token.cover (ts ++ [opening, closing]))) := by
  intro frames
  obtain ⟨state, hRun, hHas⟩ := hComponent frames
  have hStep : step state opening = .ok (.reading ⟨.bracket e, frames⟩) := by
    cases hHas <;> simp [step, extend, hOpening, hVoid]
  refine ⟨_, ?_, .base _ frames⟩
  rw [run_append_of_run _ hRun, run_cons_of_step _ hStep,
    Token.cover_append hBare.ne_nil rfl, ← hBare.span]
  simp [run, step, hClosing, bind, Except.bind]

theorem readAs_parameterized {ts ms : List Token} {r : RawName}
    {es : List Expression} {opening closing : Token} (hName : MakesName ts r)
    (hOpening : opening.kind = .lt) (hArguments : ArgumentsReadAs ms es)
    (hClosing : closing.kind = .gt) :
    ReadAs HasBare (ts ++ opening :: (ms ++ [closing]))
      (.parameterized r es
        (Token.cover (ts ++ opening :: (ms ++ [closing])))) := by
  intro frames
  obtain ⟨state, init, e, hRun, hHas, hPrimitive, rfl⟩ := hArguments r [] frames
  have hLast : (opening :: (ms ++ [closing])).getLast? = some closing := by
    rw [← List.cons_append, List.getLast?_concat]
  rw [Token.cover_append hName.ne_nil hLast, ← hName.span]
  have hStep : step state closing = .ok (.reading
      ⟨.base (.parameterized r (init ++ [e])
        (r.span.map (·.upTo closing.stop))), frames⟩) := by
    rw [step_of_hasType hHas (by simp [closesType, hClosing]), finish,
      Expression.checkArgument_eq_ok.2 hPrimitive]
    simp [hClosing, bind, Except.bind]
  refine ⟨_, ?_, .base _ frames⟩
  rw [run_append_of_run _ (run_of_makesName frames hName),
    run_cons_of_step _ (step_name_lt _ frames hOpening),
    run_append_of_run _ hRun,
    run_cons_of_step _ hStep, run]

private theorem readAs_unbounded {mark : Token}
    (hMark : mark.kind = .question) :
    ReadAs HasType [mark] (.wildcard .unbounded [] (Token.cover [mark])) := by
  intro frames
  refine ⟨_, ?_, .question mark frames⟩
  rw [run_cons_of_step _ (step_start_question frames hMark), run]

/-- A wildcard with bounds, as `wildcardOf` makes it, goes to the stop of the
last one. -/
theorem wildcardOf_of_makesBounds (kind : BoundKind) (mark word : Token)
    {ts : List Token} {es : List Expression} (hBounds : MakesBounds ts es) :
    wildcardOf kind mark es =
      .wildcard kind es (Token.cover (mark :: word :: ts)) := by
  obtain ⟨last, hLast, start, hSpan⟩ := hBounds.stop
  have hCover := Token.cover_append (List.cons_ne_nil mark [word]) hLast
  rw [List.cons_append, List.singleton_append] at hCover
  rw [wildcardOf, hCover, hSpan]
  rfl

private theorem readAs_upper {mark word : Token} {ts : List Token}
    {es : List Expression} (hMark : mark.kind = .question)
    (hWord : word.kind = .extendsWord) (hMakes : MakesBounds ts es)
    (hBounds : BoundsReadAs ts es) :
    ReadAs HasType (mark :: word :: ts)
      (.wildcard .upper es (Token.cover (mark :: word :: ts))) := by
  intro frames
  obtain ⟨state, init, e, hRun, hHas, hBound, rfl⟩ := hBounds mark [] frames
  rw [← wildcardOf_of_makesBounds .upper mark word hMakes]
  refine ⟨state, ?_, .upper hHas hBound⟩
  rw [run_cons_of_step _ (step_start_question frames hMark),
    run_cons_of_step _ (step_question_extends mark frames hWord), hRun]

private theorem readAs_lower {mark word : Token} {ts : List Token}
    {e : Expression} (hMark : mark.kind = .question)
    (hWord : word.kind = .superWord) (hMakes : MakesBare ts e)
    (hBare : ReadAs HasBare ts e) (hPrimitive : e.isPrimitive = false) :
    ReadAs HasType (mark :: word :: ts)
      (.wildcard .lower [e] (Token.cover (mark :: word :: ts))) := by
  intro frames
  obtain ⟨state, hRun, hHas⟩ := hBare (.lower mark :: frames)
  have hBound := Expression.checkBound_eq_ok.2 ⟨hMakes.isWildcard, hPrimitive⟩
  rw [← wildcardOf_of_makesBounds .lower mark word (.one hMakes hPrimitive)]
  refine ⟨state, ?_, .lower hHas hBound⟩
  rw [run_cons_of_step _ (step_start_question frames hMark),
    run_cons_of_step _ (step_question_super mark frames hWord), hRun]

private theorem argumentsReadAs_one {ts : List Token} {e : Expression}
    (hType : ReadAs HasType ts e) (hPrimitive : e.isPrimitive = false) :
    ArgumentsReadAs ts [e] := by
  intro raw done frames
  obtain ⟨state, hRun, hHas⟩ := hType (.arguments raw done :: frames)
  exact ⟨state, [], e, hRun, by simpa using hHas, hPrimitive, rfl⟩

private theorem argumentsReadAs_more {ts ms : List Token} {e : Expression}
    {es : List Expression} {comma : Token} (hType : ReadAs HasType ts e)
    (hPrimitive : e.isPrimitive = false) (hComma : comma.kind = .comma)
    (hRest : ArgumentsReadAs ms es) :
    ArgumentsReadAs (ts ++ comma :: ms) (e :: es) := by
  intro raw done frames
  obtain ⟨state, hRun, hHas⟩ := hType (.arguments raw done :: frames)
  obtain ⟨next, init, last, hRunRest, hHasLast, hLast, rfl⟩ :=
    hRest raw (done ++ [e]) frames
  have hStep : step state comma =
      .ok (.reading ⟨.start, .arguments raw (done ++ [e]) :: frames⟩) := by
    rw [step_of_hasType hHas (by simp [closesType, hComma]), finish,
      Expression.checkArgument_eq_ok.2 hPrimitive]
    simp [hComma, bind, Except.bind]
  refine ⟨next, e :: init, last, ?_, by simpa using hHasLast, hLast, rfl⟩
  rw [run_append_of_run _ hRun, run_cons_of_step _ hStep, hRunRest]

private theorem boundsReadAs_one {ts : List Token} {e : Expression}
    (hMakes : MakesBare ts e) (hBare : ReadAs HasBare ts e)
    (hPrimitive : e.isPrimitive = false) : BoundsReadAs ts [e] := by
  intro mark done frames
  obtain ⟨state, hRun, hHas⟩ := hBare (.upper mark done :: frames)
  exact ⟨state, [], e, hRun, by simpa using hHas,
    Expression.checkBound_eq_ok.2 ⟨hMakes.isWildcard, hPrimitive⟩, rfl⟩

private theorem boundsReadAs_more {ts ms : List Token} {e : Expression}
    {es : List Expression} {amp : Token} (hMakes : MakesBare ts e)
    (hBare : ReadAs HasBare ts e) (hPrimitive : e.isPrimitive = false)
    (hAmp : amp.kind = .amp) (hRest : BoundsReadAs ms es) :
    BoundsReadAs (ts ++ amp :: ms) (e :: es) := by
  intro mark done frames
  obtain ⟨state, hRun, hHas⟩ := hBare (.upper mark done :: frames)
  obtain ⟨next, init, last, hRunRest, hHasLast, hLast, rfl⟩ :=
    hRest mark (done ++ [e]) frames
  have hStep : step state amp =
      .ok (.reading ⟨.start, .upper mark (done ++ [e]) :: frames⟩) := by
    rw [step_of_hasBare hHas (by simp [closesBare, hAmp]), finish,
      Expression.checkBound_eq_ok.2 ⟨hMakes.isWildcard, hPrimitive⟩]
    simp [hAmp, bind, Except.bind]
  refine ⟨next, e :: init, last, ?_, by simpa using hHasLast, hLast, rfl⟩
  rw [run_append_of_run _ hRun, run_cons_of_step _ hStep, hRunRest]

/-! ## Derivations as runs -/

-- The recursion is on the derivation; each rule of the grammar is one lemma
-- above.
mutual

/-- Tokens that make a type by `MakesType` are read as it. -/
theorem readAs_of_makesType {ts : List Token} {e : Expression} :
    MakesType ts e → ReadAs HasType ts e
  | .unbounded hMark => readAs_unbounded hMark
  | .upper hMark hWord hBounds =>
      readAs_upper hMark hWord hBounds (boundsReadAs_of_makesBounds hBounds)
  | .lower hMark hWord hBare hPrimitive =>
      readAs_lower hMark hWord hBare (readAs_of_makesBare hBare) hPrimitive
  | .bare hBare => fun frames =>
      let ⟨state, hRun, hHas⟩ := readAs_of_makesBare hBare frames
      ⟨state, hRun, .bare hHas⟩

private theorem readAs_of_makesBare {ts : List Token} {e : Expression} :
    MakesBare ts e → ReadAs HasBare ts e
  | .primitive hKind => readAs_primitive hKind
  | .name hName => readAs_name hName
  | .internal hKind hInternal => readAs_internal hKind hInternal
  | .parameterized hName hOpening hArguments hClosing =>
      readAs_parameterized hName hOpening
        (argumentsReadAs_of_makesArguments hArguments) hClosing
  | .array hBare hVoid hOpening hClosing =>
      readAs_array hBare (readAs_of_makesBare hBare) hVoid hOpening hClosing

private theorem argumentsReadAs_of_makesArguments {ts : List Token}
    {es : List Expression} :
    MakesArguments ts es → ArgumentsReadAs ts es
  | .one hType hPrimitive =>
      argumentsReadAs_one (readAs_of_makesType hType) hPrimitive
  | .more hType hPrimitive hComma hRest =>
      argumentsReadAs_more (readAs_of_makesType hType) hPrimitive hComma
        (argumentsReadAs_of_makesArguments hRest)

private theorem boundsReadAs_of_makesBounds {ts : List Token}
    {es : List Expression} :
    MakesBounds ts es → BoundsReadAs ts es
  | .one hBare hPrimitive =>
      boundsReadAs_one hBare (readAs_of_makesBare hBare) hPrimitive
  | .more hBare hPrimitive hAmp hRest =>
      boundsReadAs_more hBare (readAs_of_makesBare hBare) hPrimitive hAmp
        (boundsReadAs_of_makesBounds hRest)

end

section

variable {ls : List Lexeme} {tokens : List Token}

/-- Tokens whose lexemes derive a type by `IsType` are read as one with that
tree. -/
theorem readAs_of_isType {tree : Expression} (hType : IsType ls tree)
    (frames : List Frame) (hTokens : tokens.map Token.lexeme = ls) :
    ∃ state e, run ⟨.start, frames⟩ tokens = .ok (.reading state) ∧
      HasType state e frames ∧
      e.erase = tree := by
  obtain ⟨e, hMakes, hTree⟩ := hType.exists_makes hTokens
  obtain ⟨state, hRun, hHas⟩ := readAs_of_makesType hMakes frames
  exact ⟨state, e, hRun, hHas, hTree⟩

theorem readAs_of_isBare {tree : Expression} (hBare : IsBare ls tree)
    (frames : List Frame) (hTokens : tokens.map Token.lexeme = ls) :
    ∃ state e, run ⟨.start, frames⟩ tokens = .ok (.reading state) ∧
      HasBare state e frames ∧
      e.erase = tree := by
  obtain ⟨e, hMakes, hTree⟩ := hBare.exists_makes hTokens
  obtain ⟨state, hRun, hHas⟩ := readAs_of_makesBare hMakes frames
  exact ⟨state, e, hRun, hHas, hTree⟩

theorem run_of_isName (frames : List Frame) {name : String}
    (hName : IsName ls name) (hTokens : tokens.map Token.lexeme = ls) :
    ∃ span, run ⟨.start, frames⟩ tokens =
      .ok (.reading ⟨.name ⟨name, span⟩, frames⟩) := by
  obtain ⟨span, hMakes⟩ := hName.exists_makes hTokens
  exact ⟨span, run_of_makesName frames hMakes⟩

end

end Reader

/-! ## Reader and grammar -/

namespace Expression

open Reader

theorem read_eq_ok_iff {tokens : List Token} {e : Expression} :
    read tokens = .ok e ↔ run ⟨.start, []⟩ tokens = .ok (.complete e) := by
  rw [read]
  cases run ⟨.start, []⟩ tokens with
  | error error => simp [bind, Except.bind]
  | ok progress => cases progress <;> simp [bind, Except.bind]

/-- What is read derives from the tokens before some `eof`. -/
theorem read_sound {tokens : List Token} {e : Expression}
    (hKeyed : ∀ t ∈ tokens, t.IsKeyed) (hRead : read tokens = .ok e) :
    ∃ front stop back, tokens = front ++ stop :: back ∧ stop.kind = .eof ∧
      IsType (front.map Token.lexeme) e.erase :=
  spells_of_run ⟨[], [], .nil, .start, rfl⟩ hKeyed (read_eq_ok_iff.1 hRead)

/-- What is made from the tokens before an `eof` is read, with its spans. -/
theorem read_of_makesType {front : List Token} {e : Expression}
    (hMakes : MakesType front e) {stop : Token} (hStop : stop.kind = .eof)
    (back : List Token) : read (front ++ stop :: back) = .ok e := by
  obtain ⟨state, hRun, hHas⟩ := readAs_of_makesType hMakes []
  have hStep : step state stop = .ok (.complete e) := by
    rw [step_of_hasType hHas (by simp [closesType, hStop]),
      finish, if_pos hStop]
  rw [read_eq_ok_iff, run_append_of_run _ hRun]
  simp [run, hStep, bind, Except.bind]

/-- What derives from the tokens before an `eof` is read. -/
theorem read_complete {front : List Token} {tree : Expression}
    (hType : IsType (front.map Token.lexeme) tree) {stop : Token}
    (hStop : stop.kind = .eof) (back : List Token) :
    ∃ e, read (front ++ stop :: back) = .ok e ∧ e.erase = tree := by
  obtain ⟨e, hMakes, hTree⟩ := hType.exists_makes rfl
  exact ⟨e, read_of_makesType hMakes hStop back, hTree⟩

/-- What is read is made from the tokens before some `eof`. -/
theorem makesType_of_read {tokens : List Token} {e : Expression}
    (hKeyed : ∀ t ∈ tokens, t.IsKeyed) (hRead : read tokens = .ok e) :
    ∃ front stop back, tokens = front ++ stop :: back ∧ stop.kind = .eof ∧
      MakesType front e := by
  obtain ⟨front, stop, back, rfl, hStop, hType⟩ := read_sound hKeyed hRead
  -- The tokens make a tree, and the reader, which is a function, returns that
  -- one.
  obtain ⟨made, hMakes, -⟩ := hType.exists_makes rfl
  have hAgain := read_of_makesType hMakes hStop back
  rw [hRead] at hAgain
  cases hAgain
  exact ⟨front, stop, back, rfl, hStop, hMakes⟩

end Expression

namespace Grammar

/-- Any lexemes are those of some tokens. -/
theorem exists_tokens (ls : List Lexeme) :
    ∃ tokens : List Token, tokens.map Token.lexeme = ls :=
  ⟨ls.map fun l => ⟨l.kind, l.text, 0, 0⟩,
    by simp [Token.lexeme, Function.comp_def]⟩

/-- No lexemes derive two trees by `IsType`. -/
theorem IsType.unique {ls : List Lexeme} {a b : Expression}
    (hFirst : IsType ls a) (hSecond : IsType ls b) : a = b := by
  -- Any tokens with these lexemes will do: the reader answers with both trees.
  obtain ⟨tokens, rfl⟩ := exists_tokens ls
  have hStop : (Token.mk .eof "" 0 0).kind = .eof := rfl
  obtain ⟨e, hRead, rfl⟩ := Expression.read_complete hFirst hStop []
  obtain ⟨e', hRead', rfl⟩ := Expression.read_complete hSecond hStop []
  rw [hRead] at hRead'
  cases hRead'
  rfl

end Grammar

/-! ## Lists of tokens with one `eof`, at the end -/

/-- Whatever the grammar refuses is reported with a kind that `isParse`. -/
theorem GrammarError.isParse_report (error : GrammarError) :
    error.report.kind.isParse = true := by
  obtain ⟨cause, position⟩ := error
  cases cause <;> rfl

/-- A list with one `eof`, at the end, is cut at an `eof` only there. -/
theorem Token.eq_of_append_eof {front before back : List Token}
    {last stop : Token} (hFront : ∀ t ∈ front, t.kind ≠ .eof)
    (hStop : stop.kind = .eof)
    (hSplit : front ++ [last] = before ++ stop :: back) : before = front := by
  rcases List.append_eq_append_iff.1 hSplit
    with ⟨rest, rfl, hRest⟩ | ⟨rest, rfl, hRest⟩
  · cases rest with
    | nil => simp
    | cons token rest => simp at hRest
  · cases rest with
    | nil => simp
    | cons token rest =>
        simp only [List.cons_append, List.cons.injEq] at hRest
        obtain ⟨rfl, -⟩ := hRest
        exact absurd hStop (hFront stop (by simp))

namespace Expression

private theorem ofTokens_eq_read {front : List Token} {stop : Token}
    (hStop : stop.kind = .eof) :
    ofTokens (front ++ [stop]) =
      (read (front ++ [stop])).mapError .malformed := by
  rw [ofTokens, if_pos]
  simp [Token.terminated, hStop]

/-- On a list of tokens with one `eof`, at the end, in which each keyword of a
primitive type is its own text, the trees that are returned are exactly the
derived ones, no lexemes have more than one tree, and a list without a tree is
refused as malformed. -/
theorem ofTokens_iff_isType (front : List Token) (stop : Token)
    (hStop : stop.kind = .eof) (hFront : ∀ t ∈ front, t.kind ≠ .eof)
    (hKeyed : ∀ t ∈ front, ∀ p, t.kind = .primitive p → t.value = p.name) :
    (∀ tree, (∃ e, ofTokens (front ++ [stop]) = .ok e ∧ e.erase = tree) ↔
      IsType (front.map Token.lexeme) tree) ∧
    (∀ ls a b, IsType ls a → IsType ls b → a = b) ∧
    ((¬ ∃ tree, IsType (front.map Token.lexeme) tree) →
      ∃ error, ofTokens (front ++ [stop]) = .error (.malformed error) ∧
        error.report.kind.isParse = true) := by
  have hAll : ∀ t ∈ front ++ [stop], t.IsKeyed := by
    intro t ht p hKind
    rcases List.mem_append.1 ht with hMem | hMem
    · exact hKeyed t hMem p hKind
    · rw [List.mem_singleton.1 hMem, hStop] at hKind
      cases hKind
  have hSound : ∀ {e}, read (front ++ [stop]) = .ok e →
      IsType (front.map Token.lexeme) e.erase := by
    intro e hRead
    obtain ⟨before, last, back, hSplit, hLast, hType⟩ := read_sound hAll hRead
    rwa [Token.eq_of_append_eof hFront hLast hSplit] at hType
  rw [ofTokens_eq_read hStop]
  refine ⟨fun tree => ⟨?_, fun hType => ?_⟩, fun ls a b => IsType.unique,
    fun hNone => ?_⟩
  · rintro ⟨e, hRead, rfl⟩
    cases hResult : read (front ++ [stop]) with
    | error error =>
        rw [hResult] at hRead
        cases hRead
    | ok found =>
        rw [hResult] at hRead
        obtain rfl : found = e := Except.ok.inj hRead
        exact hSound hResult
  · obtain ⟨e, hRead, hTree⟩ := read_complete hType hStop []
    exact ⟨e, by rw [hRead]; rfl, hTree⟩
  · cases hResult : read (front ++ [stop]) with
    | error error => exact ⟨error, rfl, error.isParse_report⟩
    | ok e => exact absurd ⟨_, hSound hResult⟩ hNone

/-- The tokens of `Map<? super A,int[]>` before their `eof`. -/
def mapTokens : List Token := [
  ⟨.ident, "Map", 0, 3⟩, ⟨.lt, "<", 3, 4⟩, ⟨.question, "?", 4, 5⟩,
  ⟨.superWord, "super", 6, 11⟩,
  ⟨.ident, "A", 12, 13⟩, ⟨.comma, ",", 13, 14⟩,
  ⟨.primitive .int, "int", 14, 17⟩,
  ⟨.lbracket, "[", 17, 18⟩, ⟨.rbracket, "]", 18, 19⟩, ⟨.gt, ">", 19, 20⟩]

/-- The tokens of `Map<? super A,int[]>` are such a list, and their tree is
read. -/
theorem ofTokens_mapTokens :
    (∀ t ∈ mapTokens, t.kind ≠ .eof) ∧
    (∀ t ∈ mapTokens, ∀ p, t.kind = .primitive p → t.value = p.name) ∧
    ∃ e, ofTokens (mapTokens ++ [⟨.eof, "", 20, 20⟩]) = .ok e ∧
      e.erase = .parameterized ⟨"Map", none⟩
        [.wildcard .lower [.raw ⟨"A", none⟩] none,
          .array (.primitive "int" none) none] none := by
  have hFront : ∀ t ∈ mapTokens, t.kind ≠ .eof := by decide
  have hKeyed : ∀ t ∈ mapTokens, ∀ p, t.kind = .primitive p →
      t.value = p.name := by
    simp [mapTokens, Primitive.name]
  refine ⟨hFront, hKeyed,
    ((ofTokens_iff_isType _ _ rfl hFront hKeyed).1 _).2 ?_⟩
  have hLower :=
    IsType.wildcard (.lower "?" "super" (.base (.name (.word "A"))) rfl)
  have hArray := IsType.bare (.array "[" "]" (.base (.primitive .int)) rfl)
  exact .bare (.base (.parameterized "<" ">" (.word "Map")
    (.more "," hLower rfl (.one hArray rfl))))

end Expression

end JvmTypes
