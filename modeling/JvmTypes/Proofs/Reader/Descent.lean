import JvmTypes.Proofs.Reader.Mirroring

/-!
# The descent mirrors the reader

Each rule of the descent does what the reader does from a certain state on: the
rules for a class name, for brackets and for lists from the state the reader has
when it comes to them, the rules for types wherever a type has to start. What
waits for the type may be anything, for the rules do not see it; in the reader
it lies on the stack.

The rules for classes and wildcards have taken a token before they come to the
types inside. So types nest no deeper than there are tokens, and the rule for
types is one that mirrors the reader by induction from later places to earlier
ones.

## Main results

* `Descent.mirrors_nextPart`, `Descent.mirrors_nextArray`,
  `Descent.mirrors_nextItem`: one round of each loop.
* `Descent.mirrors_classType`, `Descent.mirrors_wildcard`: the rules with types
  inside.
* `Descent.mirrors_typeOver`, `Descent.mirrors_type`: the rule for types, by the
  one for the types inside and by induction.
* `Descent.mirrors_sentence`: the whole.
-/

namespace JvmTypes.Descent

open Reader

variable {o : Opening} {c : Cursor}

/-! ## Rules without types inside -/

/-- What `step` does behind a class name without any further part. -/
def behindName (frames : List Frame) (raw : RawName) : Choice := fun t =>
  match t.kind with
  | .lt => .ok (.reading ⟨.start, .arguments raw [] :: frames⟩)
  | _ => extend (.raw raw) t frames

private theorem step_name_of_ne_dot {t : Token} (raw : RawName)
    (frames : List Frame) (hKind : t.kind ≠ .dot) :
    step ⟨.name raw, frames⟩ t = behindName frames raw t := by
  simp only [step, behindName]
  split
  · contradiction
  · next hLt => simp only [hLt]
  · next hLt => simp only

private theorem nameOf_concat {parts : List String} (hParts : parts ≠ [])
    (part : String) (span : Span) (stop : Int) :
    nameOf (parts ++ [part]) (span.upTo stop) =
      ⟨(nameOf parts span).name ++ "." ++ part,
        (nameOf parts span).span.map (·.upTo stop)⟩ := by
  simp only [nameOf, Option.map_some,
    String.intercalate_append_of_ne_nil hParts (List.cons_ne_nil part []),
    String.intercalate_singleton]

theorem mirrors_nextPart (frames : List Frame) (hWithin : c.Within o)
    {parts : List String} (hParts : parts ≠ []) (start stop : Int) :
    Mirrors o (fun x => nextPart x.stream (parts, stop)) c
      (step ⟨.name (nameOf parts ⟨start, stop⟩), frames⟩) (Further c (·.1 ≠ []))
      (fun found =>
        found.elim (behindName frames (nameOf parts ⟨start, stop⟩)) fun named =>
        step ⟨.name (nameOf named.1 ⟨start, named.2⟩), frames⟩) := by
  refine .accept ⟨.dotted (nameOf parts ⟨start, stop⟩), frames⟩ hWithin
    (by simp)
    (fun hDot => ?_) (fun _ hNext => ?_) (fun hDot => ?_)
  · simp only [step, hDot]
  · refine .of_eq (fun _ => if_pos rfl) ?_
    let part := o.token c.next.index
    refine .expect ⟨.name (nameOf (parts ++ [part.value]) ⟨start, part.stop⟩),
      frames⟩
      .identifierAfterDot hNext (by simp) (fun hIdent => ?_) (fun hIdent => ?_)
      (fun _ hLast =>
        .pure hLast (.something c.index_lt_next_next (by simp)) rfl)
    · simp only [step, hIdent]
      rw [← nameOf_concat hParts]
      rfl
    · simp only [step]
  · exact .of_eq (fun _ => if_neg (by simp))
      (.pure hWithin .nothing (step_name_of_ne_dot _ _ hDot))

private theorem mirrors_rawName (frames : List Frame) (hWithin : c.Within o)
    (hKind : (o.token c.index).kind = .ident) :
    Mirrors o (fun x => rawName x.stream x.limit) c (step ⟨.start, frames⟩)
      (fun raw _ => ∃ span, raw.span = some span) (behindName frames) := by
  let first := o.token c.index
  refine .expect_of_kind
    ⟨.name (nameOf [first.value] ⟨first.start, first.stop⟩), frames⟩ hWithin
    (by simp) hKind ?_ fun hNext => ?_
  · simp only [step, start, hKind]
    rfl
  · let go (named : List String × Int) : Choice :=
      step ⟨.name (nameOf named.1 ⟨first.start, named.2⟩), frames⟩
    let leave (named : List String × Int) : Choice :=
      behindName frames (nameOf named.1 ⟨first.start, named.2⟩)
    have hParts : Mirrors o
        (fun x => loop (nextPart x.stream) x.limit
          ([first.value], first.stop)) c.next
        (go ([first.value], first.stop)) (fun _ _ => True) leave :=
      .loop (fun c' named _ hWithin' hNamed =>
        mirrors_nextPart frames hWithin' hNamed first.start named.2)
        (fun x => x.length_lt_add _) hNext (by simp)
    exact .bind hParts fun named c' _ _ hWithin' => .pure hWithin' ⟨_, rfl⟩ rfl

private theorem mirrors_internalName (frames : List Frame)
    (hWithin : c.Within o) (hKind : (o.token c.index).kind = .internalName) :
    Mirrors o (fun x => internalName x.stream) c (step ⟨.start, frames⟩)
      (fun e _ => ∃ span, e.span = some span)
      (fun e => (extend e · frames)) := by
  let token := o.token c.index
  have hEof : token.kind ≠ .eof := by simp [token, hKind]
  by_cases hValid : InternalName.isValid token.value.toList = true
  · refine .advance ⟨.base (.internal token.value token.span), frames⟩
      hWithin hEof ?_
      fun hNext => .of_eq (fun _ => if_pos hValid) (.pure hNext ⟨_, rfl⟩ rfl)
    simp only [step, start, hKind]
    exact if_pos hValid
  · refine .advance_raise hWithin hEof ?_ fun _ => if_neg hValid
    simp only [step, start, hKind]
    exact if_neg hValid

/-- What `extend` does behind a type that no bracket follows. -/
def behindBrackets (frames : List Frame) (e : Expression) : Choice := fun t =>
  match t.kind with
  | .lt => .error ⟨e.parameterizedCause, some t.start⟩
  | _ => finish e t frames

private theorem extend_of_ne_lbracket {t : Token} (e : Expression)
    (frames : List Frame) (hKind : t.kind ≠ .lbracket) :
    extend e t frames = behindBrackets frames e t := by
  simp only [extend, behindBrackets]
  split
  · contradiction
  · next hLt => simp only [hLt]
  · next hLt => simp only

theorem mirrors_nextArray (frames : List Frame) (hWithin : c.Within o)
    {e : Expression} (hSpan : ∃ span, e.span = some span) :
    Mirrors o (fun x => nextArray x.stream e) c (extend e · frames)
      (Further c fun e' => ∃ span, e'.span = some span)
      (fun found => found.elim (behindBrackets frames e) fun e' =>
        (extend e' · frames)) := by
  obtain ⟨span, hSpan⟩ := hSpan
  refine .check hWithin (fun hBracket => ?_) fun hBracket => ?_
  · have hEof : (o.token c.index).kind ≠ .eof := by simp [hBracket]
    refine .of_eq (fun _ => if_pos rfl) ?_
    by_cases hVoid : e.isVoid = true
    · -- The bracket is taken before what stands in front of it is looked at.
      refine .advance_raise hWithin hEof ?_ fun _ => if_pos hVoid
      simp only [extend, hBracket]
      exact if_pos hVoid
    · refine .advance ⟨.bracket e, frames⟩ hWithin hEof ?_ fun hNext =>
        .of_eq (fun _ => if_neg hVoid) ?_
      · simp only [extend, hBracket]
        exact if_neg hVoid
      · let array :=
          Expression.array e (some (span.upTo (o.token c.next.index).stop))
        refine .expect ⟨.base array, frames⟩ .closingBracket hNext (by simp)
          (fun hClose => ?_)
          (fun hClose => ?_) fun _ hLast => ?_
        · simp only [step, hClose, hSpan]
          rfl
        · simp only [step]
        · simp only [hSpan]
          exact .pure hLast (.something c.index_lt_next_next ⟨_, rfl⟩) rfl
  · exact .of_eq (fun _ => if_neg (by simp))
      (.pure hWithin .nothing (extend_of_ne_lbracket _ _ hBracket))

private theorem mirrors_arrays (frames : List Frame) (hWithin : c.Within o)
    {e : Expression} (hSpan : ∃ span, e.span = some span) :
    Mirrors o (fun x => loop (nextArray x.stream) x.limit e) c
      (extend e · frames)
      (fun _ _ => True) (behindBrackets frames) :=
  .loop (fun _ _ _ hWithin' hSpan' => mirrors_nextArray frames hWithin' hSpan')
    (fun x => x.length_lt_add _) hWithin hSpan

/-! ## Lists of types -/

/-- At a cursor, a rule for types does what the reader does where a type has to
start. The one token that the reader looks at otherwise there is the `>` behind
a class name and `<`. -/
def MirrorsType (o : Opening) (rule : Setting o → Rule Expression)
    (c : Cursor) : Prop :=
  ∀ frames, ((o.token c.index).kind = .gt →
    ∀ raw rest, frames ≠ .arguments raw [] :: rest) →
    Mirrors o rule c (step ⟨.start, frames⟩) (fun _ _ => True)
      (fun e => (finish e · frames))

/-- The rule `MirrorsType` at all cursors that are further on. -/
def MirrorsTypesBehind (o : Opening) (rule : Setting o → Rule Expression)
    (c : Cursor) : Prop :=
  ∀ c' : Cursor, c.index < c'.index → c'.Within o → MirrorsType o rule c'

variable {rule : Setting o → Rule Expression}

theorem MirrorsTypesBehind.mono {c' : Cursor}
    (hTypes : MirrorsTypesBehind o rule c) (hOn : c.index ≤ c'.index) :
    MirrorsTypesBehind o rule c' :=
  fun c'' hLater => hTypes c'' (Nat.lt_of_le_of_lt hOn hLater)

/-- A type that has to pass a check, if `finish` makes the same check first for
the construct that waits for it. -/
theorem mirrors_checked {checks : Expression → Except GrammarError Unit}
    {frames : List Frame} {next : Expression → Choice}
    (hType : MirrorsType o rule c)
    (hFrames : (o.token c.index).kind = .gt →
      ∀ raw rest, frames ≠ .arguments raw [] :: rest)
    (hFinish : ∀ e t, finish e t frames = checks e >>= fun _ => next e t) :
    Mirrors o (fun x => do checked checks (← rule x)) c (step ⟨.start, frames⟩)
      (fun _ _ => True) next := by
  refine .bind (hType frames hFrames) fun e c' _ _ hWithin => ?_
  cases hCheck : checks e with
  | ok _ =>
      refine .of_eq (fun _ => by rw [checked, hCheck])
        (.pure hWithin trivial ?_)
      rw [hFinish, hCheck]
      rfl
  | error error =>
      refine .of_eq (fun _ => by rw [checked, hCheck]) (.throw hWithin ?_ rfl)
      rw [hFinish, hCheck]
      rfl

section Items

variable {item : Setting o → Rule Expression} {mark : Token.Kind}
  {waiting : List Expression → List Frame} {go leave : List Expression → Choice}

/-- The list that is complete so far waits for a further item, and at a token
other than the mark for nothing. -/
theorem mirrors_nextItem (hEof : mark ≠ .eof)
    (hGo : ∀ done (t : Token), t.kind = mark →
      go done t = .ok (.reading ⟨.start, waiting done⟩))
    (hLeave : ∀ done (t : Token), t.kind ≠ mark → go done t = leave done t)
    (hWithin : c.Within o) {done : List Expression}
    (hItem : c.next.Within o →
      Mirrors o item c.next (step ⟨.start, waiting done⟩)
      (fun _ _ => True) (fun e => go (done ++ [e]))) :
    Mirrors o (fun x => nextItem x.stream mark (item x) done) c (go done)
      (Further c (· ≠ []))
      (fun found => found.elim (leave done) go) := by
  refine .accept ⟨.start, waiting done⟩ hWithin hEof (hGo done _)
    (fun _ hNext => ?_)
    fun hMark => ?_
  · exact .of_eq (fun _ => if_pos rfl)
      (.bind (hItem hNext) fun e c' _ hOn hWithin' =>
      .pure hWithin' (.something hOn (by simp)) rfl)
  · exact .of_eq (fun _ => if_neg (by simp))
      (.pure hWithin .nothing (hLeave done _ hMark))

private theorem mirrors_items (hEof : mark ≠ .eof)
    (hGo : ∀ done (t : Token), t.kind = mark →
      go done t = .ok (.reading ⟨.start, waiting done⟩))
    (hLeave : ∀ done (t : Token), t.kind ≠ mark → go done t = leave done t)
    (hWithin : c.Within o)
    (hItem : ∀ c' : Cursor, c.index < c'.index → c'.Within o →
      ∀ done, done ≠ [] →
      Mirrors o item c' (step ⟨.start, waiting done⟩) (fun _ _ => True)
      (fun e => go (done ++ [e]))) {done : List Expression}
        (hDone : done ≠ []) :
    Mirrors o (fun x => loop (nextItem x.stream mark (item x)) x.limit done) c
      (go done)
      (fun _ _ => True) leave :=
  .loop (fun c' done hOn hWithin' hDone =>
    mirrors_nextItem hEof hGo hLeave hWithin' fun hNext =>
    hItem c'.next (Nat.lt_succ_of_le hOn) hNext done hDone)
    (fun x => x.length_lt_add _) hWithin hDone

end Items

/-! ## Classes -/

/-- What `finish` does behind type arguments once the last has passed
`checkArgument`. -/
def behindArguments (raw : RawName) (frames : List Frame)
    (done : List Expression) : Choice :=
  fun t =>
    match t.kind with
    | .comma => .ok (.reading ⟨.start, .arguments raw done :: frames⟩)
    | .gt =>
        .ok (.reading ⟨.base
          (.parameterized raw done (raw.span.map (·.upTo t.stop))), frames⟩)
    | _ => .error (t.unexpected .argumentSeparator)

/-- What the reader does behind type arguments that no `comma` follows. -/
def behindLastArgument (raw : RawName) (frames : List Frame)
    (done : List Expression) : Choice :=
  fun t =>
    if t.kind = .gt then
      .ok (.reading ⟨.base
        (.parameterized raw done (raw.span.map (·.upTo t.stop))), frames⟩)
    else .error (t.unexpected .argumentSeparator)

private theorem behindArguments_of_ne_comma (raw : RawName)
    (frames : List Frame) (done : List Expression) {t : Token}
    (hKind : t.kind ≠ .comma) :
    behindArguments raw frames done t =
      behindLastArgument raw frames done t := by
  unfold behindArguments behindLastArgument
  split
  · contradiction
  · next hGt => exact (if_pos hGt).symm
  · next hGt => exact (if_neg hGt).symm

private theorem finish_arguments (e : Expression) (t : Token) (raw : RawName)
    (frames : List Frame) (done : List Expression) :
    finish e t (.arguments raw done :: frames) =
      e.checkArgument >>= fun _ =>
        behindArguments raw frames (done ++ [e]) t := by
  rw [finish]
  rfl

private theorem mirrors_argument (raw : RawName) (frames : List Frame)
    (done : List Expression) (hType : MirrorsType o rule c)
    (hFirst : done = [] → (o.token c.index).kind ≠ .gt) :
    Mirrors o (fun x => argument (rule x)) c
      (step ⟨.start, .arguments raw done :: frames⟩)
      (fun _ _ => True) (fun e => behindArguments raw frames
        (done ++ [e])) := by
  refine mirrors_checked hType (fun hGt raw' rest hFrames => ?_)
    fun e t => finish_arguments e t raw frames done
  obtain ⟨⟨-, rfl⟩, -⟩ : (raw = raw' ∧ done = []) ∧ frames = rest := by
    simpa using hFrames
  exact hFirst rfl hGt

private theorem mirrors_arguments (raw : RawName) (frames : List Frame)
    (hWithin : c.Within o) (hTypes : MirrorsTypesBehind o rule c)
    {done : List Expression} (hDone : done ≠ []) :
    Mirrors o (fun x =>
      loop (nextItem x.stream .comma (argument (rule x))) x.limit done) c
      (behindArguments raw frames done) (fun _ _ => True)
      (behindLastArgument raw frames) := by
  refine mirrors_items (by simp) (fun done t hComma => ?_)
    (fun done t => behindArguments_of_ne_comma raw frames done) hWithin
    (fun c' hLater hWithin' done hDone => mirrors_argument raw frames done
      (hTypes c' hLater hWithin') fun hNil => absurd hNil hDone) hDone
  simp only [behindArguments, hComma]

theorem mirrors_classType (frames : List Frame) (hWithin : c.Within o)
    (hKind : (o.token c.index).kind = .ident)
    (hTypes : MirrorsTypesBehind o rule c) :
    Mirrors o (fun x => classType x.stream x.limit (rule x)) c
      (step ⟨.start, frames⟩)
      (fun e _ => ∃ span, e.span = some span)
      (fun e => (extend e · frames)) := by
  refine .bind (mirrors_rawName frames hWithin hKind)
    fun raw c₁ hRaw hOn₁ h₁ => ?_
  obtain ⟨span, hSpan⟩ := hRaw
  refine .accept ⟨.start, .arguments raw [] :: frames⟩ h₁ (by simp)
    (fun hLt => ?_)
    (fun _ h₂ => ?_) fun _ => ?_
  · simp only [behindName, hLt]
  · have hOn₂ : c.index < c₁.next.index := Nat.lt_succ_of_le hOn₁
    refine .check h₂ (fun hGt => ?_) fun hGt => ?_
    · refine .of_eq (fun _ => if_pos rfl) (.peek h₂ (.raise h₂ ?_))
      simp only [step, start, hGt]
    · refine .of_eq (fun _ => if_neg (by simp)) ?_
      refine .bind (mirrors_argument raw frames []
        (hTypes _ hOn₂ h₂) fun _ => hGt)
        fun first c₃ _ hOn₃ h₃ => ?_
      refine .bind (mirrors_arguments raw frames h₃
        (hTypes.mono (Nat.le_trans (Nat.le_of_lt hOn₂) hOn₃))
        (List.cons_ne_nil first []))
        fun arguments c₄ _ _ h₄ => ?_
      let e := Expression.parameterized raw arguments
        (some (span.upTo (o.token c₄.index).stop))
      refine .expect ⟨.base e, frames⟩ .argumentSeparator h₄ (by simp)
        (fun hClose => ?_)
        (fun hClose => if_neg hClose) fun _ h₅ => ?_
      · simp only [behindLastArgument, hClose, hSpan]
        rfl
      · simp only [hSpan]
        exact .pure h₅ ⟨_, rfl⟩ rfl
  · exact .pure h₁ ⟨span, hSpan⟩ (by simp only [behindName])

/-! ## Wildcards -/

/-- What `finish` does behind upper bounds once the last has passed
`checkBound`. -/
def behindUpper (question : Token) (frames : List Frame)
    (done : List Expression) : Choice :=
  fun t =>
    match t.kind with
    | .amp => .ok (.reading ⟨.start, .upper question done :: frames⟩)
    | _ => finish (wildcardOf .upper question done) t frames

/-- What the reader does behind upper bounds that no `&` follows. -/
def behindLastUpper (question : Token) (frames : List Frame)
    (done : List Expression) : Choice :=
  (finish (wildcardOf .upper question done) · frames)

/-- What `finish` does behind a lower bound once it has passed `checkBound`. -/
def behindLower (question : Token) (frames : List Frame) (e : Expression) :
    Choice := fun t =>
  match t.kind with
  | .amp => .error ⟨.secondLowerBound, some t.start⟩
  | _ => finish (wildcardOf .lower question [e]) t frames

private theorem mirrors_bound {frame : Frame} {frames : List Frame}
    {next : Expression → Choice} (hType : MirrorsType o rule c)
    (hFrame : ∀ raw done, frame ≠ .arguments raw done)
    (hFinish : ∀ e t, finish e t (frame :: frames) = e.checkBound >>=
      fun _ => next e t) :
    Mirrors o (fun x => bound (rule x)) c (step ⟨.start, frame :: frames⟩)
      (fun _ _ => True)
      next := by
  refine mirrors_checked hType (fun _ raw rest hFrames => ?_) hFinish
  exact hFrame raw [] (List.cons.inj hFrames).1

private theorem mirrors_upperBound (question : Token) (frames : List Frame)
    (done : List Expression) (hType : MirrorsType o rule c) :
    Mirrors o (fun x => bound (rule x)) c
      (step ⟨.start, .upper question done :: frames⟩)
      (fun _ _ => True) (fun e => behindUpper question frames (done ++ [e])) :=
  mirrors_bound hType (by simp) fun e t => by rw [finish]; rfl

private theorem mirrors_lowerBound (question : Token) (frames : List Frame)
    (hType : MirrorsType o rule c) :
    Mirrors o (fun x => bound (rule x)) c
      (step ⟨.start, .lower question :: frames⟩)
      (fun _ _ => True) (behindLower question frames) :=
  mirrors_bound hType (by simp) fun e t => by rw [finish]; rfl

private theorem mirrors_upperBounds (question : Token) (frames : List Frame)
    (hWithin : c.Within o) (hTypes : MirrorsTypesBehind o rule c)
    {done : List Expression} (hDone : done ≠ []) :
    Mirrors o (fun x =>
      loop (nextItem x.stream .amp (bound (rule x))) x.limit done) c
      (behindUpper question frames done) (fun _ _ => True)
      (behindLastUpper question frames) := by
  refine mirrors_items (by simp) (fun done t hAmp => ?_)
    (fun done t hAmp => ?_) hWithin
    (fun c' hLater hWithin' done _ => mirrors_upperBound question frames done
      (hTypes c' hLater hWithin')) hDone
  · simp only [behindUpper, hAmp]
  · simp only [behindUpper, behindLastUpper]

theorem mirrors_wildcard (frames : List Frame) (hWithin : c.Within o)
    (hKind : (o.token c.index).kind = .question)
    (hTypes : MirrorsTypesBehind o rule c) :
    Mirrors o (fun x => wildcard x.stream x.limit (rule x)) c
      (step ⟨.start, frames⟩)
      (fun _ _ => True) (fun e => (finish e · frames)) := by
  let question := o.token c.index
  refine .expect_of_kind ⟨.question question, frames⟩ hWithin
    (by simp) hKind ?_ fun h₁ => ?_
  · simp only [step, start, hKind]
    rfl
  have hOn₂ := c.index_lt_next_next
  refine .accept ⟨.start, .upper question [] :: frames⟩ h₁ (by simp)
    (fun hUpper => ?_)
    (fun _ h₂ => ?_) fun _ => ?_
  · simp only [step, hUpper]
  · refine .of_eq (fun _ => if_pos rfl) ?_
    refine .bind (mirrors_upperBound question frames [] (hTypes _ hOn₂ h₂))
      fun first c₃ _ hOn₃ h₃ => ?_
    have hTypes' := hTypes.mono (Nat.le_trans (Nat.le_of_lt hOn₂) hOn₃)
    exact .bind (mirrors_upperBounds question frames h₃ hTypes'
      (List.cons_ne_nil first []))
      fun bounds c₄ _ _ h₄ => .pure h₄ trivial rfl
  · refine .of_eq (fun _ => if_neg (by simp)) ?_
    refine .accept ⟨.start, .lower question :: frames⟩ h₁ (by simp)
      (fun hLower => ?_)
      (fun _ h₂ => ?_) fun _ => ?_
    · simp only [step, hLower]
    · refine .of_eq (fun _ => if_pos rfl) ?_
      refine .bind (mirrors_lowerBound question frames (hTypes _ hOn₂ h₂))
        fun e c₃ _ _ h₃ => ?_
      refine .check h₃ (fun hAmp => ?_) fun _ => ?_
      · refine .of_eq (fun _ => if_pos rfl) (.peek h₃ (.raise h₃ ?_))
        simp only [behindLower, hAmp]
      · refine .of_eq (fun _ => if_neg (by simp)) (.pure h₃ trivial ?_)
        simp only [behindLower]
        rfl
    · refine .of_eq (fun _ => if_neg (by simp)) (.pure h₁ trivial ?_)
      simp only [step]
      rfl

/-! ## Types -/

theorem mirrors_base (frames : List Frame) (hWithin : c.Within o)
    {token : Token} (hToken : o.token c.index = token)
    (hQuestion : token.kind ≠ .question)
    (hFrames : token.kind = .gt →
      ∀ raw rest, frames ≠ .arguments raw [] :: rest)
    (hTypes : MirrorsTypesBehind o rule c) :
    Mirrors o (fun x => base x.stream x.limit (rule x) token) c
      (step ⟨.start, frames⟩)
      (fun e _ => ∃ span, e.span = some span)
      (fun e => (extend e · frames)) := by
  simp only [base]
  cases hKind : token.kind with
  | internalName => exact mirrors_internalName frames hWithin (hToken ▸ hKind)
  | ident => exact mirrors_classType frames hWithin (hToken ▸ hKind) hTypes
  | primitive p =>
      refine .advance ⟨.base (.primitive token.value token.span),
        frames⟩ hWithin
        (by simp [hToken, hKind]) ?_ fun hNext => .pure hNext ⟨_, rfl⟩ rfl
      simp only [step, start, hToken, hKind]
  | question => exact absurd hKind hQuestion
  | gt =>
      -- An empty list of arguments has been refused before this.
      refine .raise hWithin ?_
      simp only [step, start, hToken, hKind]
      split
      · next raw rest => exact absurd rfl (hFrames hKind raw rest)
      · rfl
  | _ =>
      refine .raise hWithin ?_
      simp only [step, start, hToken, hKind]
      rfl

theorem mirrors_typeOver (hWithin : c.Within o)
    (hTypes : MirrorsTypesBehind o rule c) :
    MirrorsType o (fun x => typeOver x.stream x.limit (rule x)) c := by
  intro frames hFrames
  refine .peek hWithin ?_
  by_cases hQuestion : (o.token c.index).kind = .question
  · exact .of_eq (fun _ => if_pos hQuestion)
      (mirrors_wildcard frames hWithin hQuestion hTypes)
  · refine .of_eq (fun _ => if_neg hQuestion) ?_
    refine .bind (mirrors_base frames hWithin rfl hQuestion hFrames hTypes)
      fun e c₁ hSpan _ h₁ =>
        .bind (mirrors_arrays frames h₁ hSpan) fun e c₂ _ _ h₂ => ?_
    refine .check h₂ (fun hLt => ?_) fun _ => ?_
    · refine .of_eq (fun _ => if_pos rfl) (.peek h₂ (.raise h₂ ?_))
      simp only [behindBrackets, hLt]
    · refine .of_eq (fun _ => if_neg (by simp)) (.pure h₂ trivial ?_)
      simp only [behindBrackets]

/-- The rule `type` mirrors the reader if the depths left to it exceed the
tokens left. -/
theorem mirrors_type {depth : Setting o → Nat} (hWithin : c.Within o)
    (hDepth : ∀ x, o.words.length < c.index + depth x) :
    MirrorsType o (fun x => type x.stream x.limit (depth x)) c := by
  induction c, hWithin using Cursor.Within.induction generalizing depth with
  | step c hWithin ih =>
      have hPos : ∀ x, 0 < depth x := fun x => by
        have := hDepth x
        have := hWithin.index
        omega
      have hTypes : MirrorsTypesBehind o
          (fun x => type x.stream x.limit (depth x - 1)) c :=
        fun c' hLater hWithin' =>
          ih c' hWithin' hLater fun x => by have := hDepth x; omega
      exact fun frames hFrames =>
        .of_eq (fun x => type_of_pos x.stream (hPos x))
        (mirrors_typeOver hWithin hTypes frames hFrames)

/-- The rule `sentence` does what the reader does from its first state on. -/
theorem mirrors_sentence (hWithin : c.Within o) :
    Mirrors o (fun x => sentence x.stream x.limit) c (step ⟨.start, []⟩)
      (fun _ _ => True)
      (fun e _ => .ok (.complete e)) := by
  have hType :=
    mirrors_type hWithin fun x : Setting o => x.length_lt_add c.index
  refine .bind (hType [] (by simp)) fun e c₁ _ _ h₁ => .peek h₁ ?_
  by_cases hEof : (o.token c₁.index).kind = .eof
  · exact .of_eq (fun _ => if_pos hEof)
      (.pure h₁ trivial (by rw [finish, if_pos hEof]))
  · exact .of_eq (fun _ => if_neg hEof)
      (.raise h₁ (by rw [finish, if_neg hEof]))

end JvmTypes.Descent
