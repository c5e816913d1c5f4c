import JvmTypes.Expression.Descent
import JvmTypes.Proofs.Reader.Relocation

/-!
# Rules that mirror the reader

`Reader` takes one token after the other and keeps what is open on a stack; the
rules of `Descent` keep it in their calls. A rule mirrors the reader at a cursor
if it comes to an end there, with the cursor at no place behind an `eof`, and
does what the reader does with the tokens it has passed: it fails where the
reader fails, with the same error, or it yields what decides how the reader goes
on at the token that is then under the cursor.

What is behind the `eof` has no part in this, and neither has a limit that is
never reached. So the fact is one about all streams that open with the same
tokens and all limits above their number, and about one run in all these
settings.

## Main definitions

* `Setting`: a stream with a given opening, and a limit.
* `Descent.ahead`: what the reader comes to from a place on.
* `Descent.Mirrors`: a rule mirrors the reader.

## Main results

* `Descent.Mirrors.bind`: one rule after the other.
* `Descent.Mirrors.check`, `accept`, `expect`, `advance`: one token and then a
  rule.
* `Descent.Cursor.Within.induction`: induction from later places to earlier
  ones.
* `Descent.Mirrors.loop`: a rule again and again.
-/

namespace JvmTypes

/-- Tokens with one of kind `eof` behind them. -/
structure Opening where
  words : List Token
  stop : Token
  stop_kind : stop.kind = .eof

namespace Opening

/-- The tokens of an opening, `eof` included. -/
def tokens (o : Opening) : List Token := o.words ++ [o.stop]

/-- The token at place `i` of an opening; behind its words it is the stop. -/
def token (o : Opening) (i : Nat) : Token := o.words.getD i o.stop

/-- A stream that starts with the `tokens` of an opening. -/
def Opens (o : Opening) (s : TokenStream) : Prop := o.tokens <+: s.tokens

variable {o : Opening} {s : TokenStream} {i : Nat}

private theorem getElem?_tokens (hInside : i ≤ o.words.length) :
    o.tokens[i]? = some (o.token i) := by
  rcases Nat.lt_or_eq_of_le hInside with hLt | rfl
  · simp [tokens, token, List.getElem?_append_left hLt, List.getD, hLt]
  · simp [tokens, token]

theorem drop_tokens (hInside : i ≤ o.words.length) :
    o.tokens.drop i = o.token i :: o.tokens.drop (i + 1) := by
  obtain ⟨hLt, hToken⟩ := List.getElem?_eq_some_iff.1 (getElem?_tokens hInside)
  rw [List.drop_eq_getElem_cons hLt, hToken]

/-- At a place of an opening, a stream that it `Opens` has the token of the
opening. -/
theorem Opens.token_eq (hOpens : o.Opens s) (hInside : i ≤ o.words.length) :
    s.token i = o.token i := by
  obtain ⟨hPlace, hToken⟩ :=
    List.getElem?_eq_some_iff.1 (getElem?_tokens hInside)
  have hSame := List.prefix_iff_getElem?.1 hOpens i hPlace
  rw [hToken] at hSame
  obtain ⟨hLt, hGet⟩ := List.getElem?_eq_some_iff.1 hSame
  have hMin : min i (s.tokens.length - 1) = i := by omega
  simp only [TokenStream.token, hMin]
  exact hGet

/-- Behind a token of another kind than `eof` the opening goes on. -/
theorem lt_of_kind (hInside : i ≤ o.words.length)
    (hKind : (o.token i).kind ≠ .eof) : i < o.words.length := by
  refine Nat.lt_of_le_of_ne hInside ?_
  rintro rfl
  simp [token, o.stop_kind] at hKind

end Opening

/-- A stream that starts with an `Opening`, and a limit above all places in the
opening. -/
structure Setting (o : Opening) where
  stream : TokenStream
  opens : o.Opens stream
  limit : Nat
  length_lt : o.words.length < limit

theorem Setting.length_lt_add {o : Opening} (x : Setting o) (i : Nat) :
    o.words.length < i + x.limit :=
  Nat.lt_add_left i x.length_lt

namespace Reader

/-- How `run` goes on with tokens from what the reader has come to. -/
def resume (tokens : List Token) : Progress → Except GrammarError Progress
  | .complete e => .ok (.complete e)
  | .reading state => run state tokens

theorem run_cons (state : State) (token : Token) (tokens : List Token) :
    run state (token :: tokens) = step state token >>= resume tokens := by
  rw [run]
  congr 1

end Reader

namespace Descent

open Reader

/-- What the reader does at the next token, in some state. -/
abbrev Choice := Token → Except GrammarError Progress

/-- What the reader comes to if it makes `choice` at place `i` of an opening. -/
def ahead (o : Opening) (i : Nat) (choice : Choice) : Except Report Progress :=
  (choice (o.token i) >>= resume (o.tokens.drop (i + 1))).mapError
    GrammarError.report

/-- The cursor has not been behind the opening: none of its `places` is. -/
def Cursor.Within (o : Opening) (c : Cursor) : Prop :=
  ∀ i ∈ c.places, i ≤ o.words.length

/-- A rule comes to an end, inside an opening and alike in all settings. It
fails with the error that the reader fails with, or it yields something that
`fits`, for the cursor that it comes to, to tell from what the reader does
`next`. -/
inductive Mirrors {α : Type} (o : Opening) (rule : Setting o → Rule α)
    (c : Cursor) (choice : Choice) (fits : α → Cursor → Prop)
    (next : α → Choice) : Prop
  | yields {a : α} {c' : Cursor}
      (hRun : ∀ x, (rule x).run.run c = some (.ok a, c'))
      (hOn : c.index ≤ c'.index) (hWithin : c'.Within o) (hFits : fits a c')
      (hAhead : ahead o c.index choice = ahead o c'.index (next a))
  | fails {report : Report} {c' : Cursor}
      (hRun : ∀ x, (rule x).run.run c = some (.error report, c'))
      (hWithin : c'.Within o) (hAhead : ahead o c.index choice = .error report)

variable {α β : Type} {o : Opening} {c c' : Cursor} {choice choice' : Choice}

/-- What is found from one cursor to another is fit, and the other cursor is
further on for it. -/
def Further (c : Cursor) (fit : α → Prop) (found : Option α) (c' : Cursor) :
    Prop :=
  ∀ a, found = some a → c.index < c'.index ∧ fit a

namespace Further

variable {fit : α → Prop} {a : α}

theorem nothing : Further c fit none c' := by
  rintro a ⟨⟩

theorem something (hLater : c.index < c'.index) (hFit : fit a) :
    Further c fit (some a) c' := by
  rintro a ⟨⟩
  exact ⟨hLater, hFit⟩

end Further

/-! ## The reader at a place -/

section Ahead

variable {i : Nat}

private theorem ahead_congr
    (hChoice : choice (o.token i) = choice' (o.token i)) :
    ahead o i choice = ahead o i choice' := by
  rw [ahead, ahead, hChoice]

/-- If the reader goes on reading, what is `ahead` is its next choice one place
further. -/
theorem ahead_of_reading {state : State} (hInside : i < o.words.length)
    (hChoice : choice (o.token i) = .ok (.reading state)) :
    ahead o i choice = ahead o (i + 1) (step state) := by
  have hDrop := Opening.drop_tokens (o := o) (i := i + 1) hInside
  rw [ahead, ahead, hChoice, hDrop, ← run_cons, ← hDrop]
  rfl

private theorem ahead_of_error {error : GrammarError}
    (hChoice : choice (o.token i) = .error error) :
    ahead o i choice = .error error.report := by
  rw [ahead, hChoice]
  rfl

end Ahead

/-! ## The cursor inside an opening -/

namespace Cursor.Within

theorem index (hWithin : c.Within o) : c.index ≤ o.words.length :=
  hWithin c.index List.mem_cons_self

theorem next (hWithin : c.Within o) (hInside : c.index < o.words.length) :
    c.next.Within o := by
  intro i hMem
  rw [places_next, List.mem_cons] at hMem
  rcases hMem with rfl | hPast
  · exact hInside
  · exact hWithin i hPast

/-- Behind a token of another kind than `eof` the cursor can move on. -/
theorem next_of_kind (hWithin : c.Within o)
    (hKind : (o.token c.index).kind ≠ .eof) : c.next.Within o :=
  hWithin.next (Opening.lt_of_kind hWithin.index hKind)

/-- What holds at a place inside an opening if it holds at all later ones, holds
at every place inside. -/
theorem induction {motive : ∀ c : Cursor, c.Within o → Prop}
    (step : ∀ (c : Cursor) (hWithin : c.Within o),
      (∀ (c' : Cursor) (hWithin' : c'.Within o), c.index < c'.index →
        motive c' hWithin') →
      motive c hWithin) (c : Cursor) (hWithin : c.Within o) :
    motive c hWithin := by
  induction hLeft : o.words.length -
    c.index using Nat.strongRecOn generalizing c with
  | ind left ih =>
      refine step c hWithin fun c' hWithin' hLater => ih _ ?_ c' hWithin' rfl
      have := hWithin'.index
      omega

end Cursor.Within

/-! ## Runs of rules -/

theorem run_bind_ok {x : Rule α} {f : α → Rule β} {a : α}
    (hRun : x.run.run c = some (.ok a, c')) :
    (x >>= f).run.run c = (f a).run.run c' := by
  simp only [ExceptT.run_bind, StateT.run_bind, hRun]
  rfl

private theorem run_bind_error {x : Rule α} {f : α → Rule β} {report : Report}
    (hRun : x.run.run c = some (.error report, c')) :
    (x >>= f).run.run c = some (.error report, c') := by
  simp only [ExceptT.run_bind, StateT.run_bind, hRun]
  rfl

namespace Mirrors

variable {rule : Setting o → Rule α} {fits : α → Cursor → Prop}
  {next : α → Choice} {fits' : β → Cursor → Prop} {next' : β → Choice}

theorem of_eq {rule' : Setting o → Rule α} (hEq : ∀ x, rule x = rule' x)
    (hMirrors : Mirrors o rule' c choice fits next) :
    Mirrors o rule c choice fits next := by
  rwa [funext hEq]

/-- A run that yields, and then another rule that `Mirrors` where it stops. -/
theorem after {f : Setting o → α → Rule β} {a : α}
    (hRun : ∀ x, (rule x).run.run c = some (.ok a, c'))
    (hOn : c.index ≤ c'.index)
    (hAhead : ahead o c.index choice = ahead o c'.index choice')
    (hRest : Mirrors o (f · a) c' choice' fits' next') :
    Mirrors o (fun x => rule x >>= f x) c choice fits' next' := by
  cases hRest with
  | yields hRun' hOn' hWithin hFits hAhead' =>
      refine .yields (fun x => ?_) (Nat.le_trans hOn hOn') hWithin hFits
        (hAhead.trans hAhead')
      rw [run_bind_ok (hRun x), hRun' x]
  | fails hRun' hWithin hAhead' =>
      refine .fails (fun x => ?_) hWithin (hAhead.trans hAhead')
      rw [run_bind_ok (hRun x), hRun' x]

/-- A run that fails, whatever was to follow. -/
theorem bind_fails {f : Setting o → α → Rule β} {report : Report}
    (hRun : ∀ x, (rule x).run.run c = some (.error report, c'))
    (hWithin : c'.Within o) (hAhead : ahead o c.index choice = .error report) :
    Mirrors o (fun x => rule x >>= f x) c choice fits' next' :=
  .fails (fun x => run_bind_error (hRun x)) hWithin hAhead

/-- One rule after the other, both of which `Mirrors` describes. -/
theorem bind {f : Setting o → α → Rule β}
    (hFirst : Mirrors o rule c choice fits next)
    (hRest : ∀ a c', fits a c' → c.index ≤ c'.index → c'.Within o →
      Mirrors o (f · a) c' (next a) fits' next') :
    Mirrors o (fun x => rule x >>= f x) c choice fits' next' := by
  cases hFirst with
  | yields hRun hOn hWithin hFits hAhead =>
      exact after hRun hOn hAhead (hRest _ _ hFits hOn hWithin)
  | fails hRun hWithin hAhead => exact bind_fails hRun hWithin hAhead

theorem pure {a : α} (hWithin : c.Within o) (hFits : fits a c)
    (hNext : choice (o.token c.index) = next a (o.token c.index)) :
    Mirrors o (fun _ => Pure.pure a) c choice fits next :=
  .yields (fun _ => rfl) (Nat.le_refl _) hWithin hFits (ahead_congr hNext)

theorem throw {report : Report} {error : GrammarError} (hWithin : c.Within o)
    (hChoice : choice (o.token c.index) = .error error)
    (hReport : error.report = report) :
    Mirrors o (fun _ => MonadExcept.throw report) c choice fits next :=
  .fails (fun _ => rfl) hWithin (hReport ▸ ahead_of_error hChoice)

theorem raise {cause : GrammarCause} {position : Option Int}
    (hWithin : c.Within o)
    (hChoice : choice (o.token c.index) = .error ⟨cause, position⟩) :
    Mirrors o (fun _ => Descent.raise cause position) c choice fits next :=
  throw hWithin hChoice rfl

/-- The rule `loop`, as long as it finds something to go on with: each round
mirrors the reader. -/
theorem loop {next? : Setting o → α → Rule (Option α)} {fit : α → Prop}
    {go leave : α → Choice} {count : Setting o → Nat} {a : α}
    (hNext : ∀ (c' : Cursor) (a : α), c.index ≤ c'.index → c'.Within o → fit a →
      Mirrors o (next? · a) c' (go a) (Further c' fit)
        (fun found => found.elim (leave a) go))
    (hCount : ∀ x, o.words.length < c.index + count x) (hWithin : c.Within o)
    (hFit : fit a) :
    Mirrors o (fun x => Descent.loop (next? x) (count x) a) c (go a)
      (fun _ _ => True) leave := by
  induction c, hWithin using Cursor.Within.induction generalizing a count with
  | step c hWithin ih =>
      -- Each round leaves fewer places ahead, so nowhere is the count used up.
      have hPos : ∀ x, 0 < count x := fun x => by
        have := hCount x
        have := hWithin.index
        omega
      refine .of_eq (fun x => loop_of_pos (hPos x) a) (.bind
        (hNext c a (Nat.le_refl _) hWithin hFit)
          fun found c' hFound _ hWithin' => ?_)
      cases found with
      | none => exact .pure hWithin' trivial rfl
      | some b =>
          obtain ⟨hLater, hFit'⟩ := hFound b rfl
          exact ih c' hWithin' hLater (fun c'' a hOn => hNext c'' a (by omega))
            (fun x => by have := hCount x; omega) hFit'

/-! ## Single tokens -/

section Tokens

variable {k : Token.Kind}

private theorem run_peek (hWithin : c.Within o) (x : Setting o) :
    (Descent.peek x.stream).run.run c = some (.ok (o.token c.index), c) := by
  rw [← x.opens.token_eq hWithin.index]
  rfl

theorem peek {f : Setting o → Token → Rule β} (hWithin : c.Within o)
    (hRest : Mirrors o (f · (o.token c.index)) c choice fits' next') :
    Mirrors o (fun x => Descent.peek x.stream >>= f x) c choice fits' next' :=
  after (run_peek hWithin) (Nat.le_refl _) rfl hRest

theorem check {f : Setting o → Bool → Rule β} (hWithin : c.Within o)
    (hYes : (o.token c.index).kind = k →
      Mirrors o (f · true) c choice fits' next')
    (hNo : (o.token c.index).kind ≠ k →
      Mirrors o (f · false) c choice fits' next') :
    Mirrors o (fun x => Descent.check x.stream k >>= f x) c choice
      fits' next' := by
  have hRun : ∀ x : Setting o, (Descent.check x.stream k).run.run c =
      some (.ok (decide ((o.token c.index).kind = k)), c) := by
    intro x
    rw [Descent.check, run_bind_ok (run_peek hWithin x)]
    rfl
  refine after hRun (Nat.le_refl _) rfl ?_
  by_cases hKind : (o.token c.index).kind = k
  · simpa only [hKind, decide_true] using hYes hKind
  · simpa only [hKind, decide_false] using hNo hKind

/-- A rule takes the token under the cursor, and so does `choice`. -/
theorem taking {rule : Setting o → Rule α} {f : Setting o → α → Rule β} {a : α}
    {state : State} (hWithin : c.Within o)
    (hKind : (o.token c.index).kind ≠ .eof)
    (hRun : ∀ x, (rule x).run.run c = some (.ok a, c.next))
    (hChoice : choice (o.token c.index) = .ok (.reading state))
    (hRest : c.next.Within o →
      Mirrors o (f · a) c.next (step state) fits' next') :
    Mirrors o (fun x => rule x >>= f x) c choice fits' next' :=
  after hRun (Nat.le_succ _)
    (ahead_of_reading (Opening.lt_of_kind hWithin.index hKind) hChoice)
    (hRest (hWithin.next_of_kind hKind))

private theorem run_advance (hWithin : c.Within o)
    (hKind : (o.token c.index).kind ≠ .eof) (x : Setting o) :
    (Descent.advance x.stream).run.run c =
      some (.ok (o.token c.index), c.next) := by
  rw [Descent.advance, run_bind_ok (run_peek hWithin x), if_neg hKind]
  rfl

theorem advance {f : Setting o → Token → Rule β} (state : State)
    (hWithin : c.Within o) (hKind : (o.token c.index).kind ≠ .eof)
    (hChoice : choice (o.token c.index) = .ok (.reading state))
    (hRest : c.next.Within o →
      Mirrors o (f · (o.token c.index)) c.next (step state) fits' next') :
    Mirrors o (fun x => Descent.advance x.stream >>= f x) c choice
      fits' next' :=
  taking hWithin hKind (run_advance hWithin hKind) hChoice hRest

/-- A token is taken that the reader refuses, and is refused then. -/
theorem advance_raise {f : Setting o → Token → Rule β} {cause : GrammarCause}
    {position : Option Int} (hWithin : c.Within o)
    (hKind : (o.token c.index).kind ≠ .eof)
    (hChoice : choice (o.token c.index) = .error ⟨cause, position⟩)
    (hRaise : ∀ x, f x (o.token c.index) = Descent.raise cause position) :
    Mirrors o (fun x => Descent.advance x.stream >>= f x) c choice
      fits' next' := by
  let refusal : Choice := fun _ => .error ⟨cause, position⟩
  have hAhead : ahead o c.index choice = ahead o c.next.index refusal :=
    (ahead_of_error hChoice).trans (ahead_of_error rfl).symm
  exact after (run_advance hWithin hKind) (Nat.le_succ _) hAhead
    (.of_eq hRaise (.raise (hWithin.next_of_kind hKind) rfl))

/-- A token of some kind other than `eof` is taken, or not. -/
theorem accept {f : Setting o → Option Token → Rule β} (state : State)
    (hWithin : c.Within o) (hEof : k ≠ .eof)
    (hChoice : (o.token c.index).kind = k →
      choice (o.token c.index) = .ok (.reading state))
    (hYes : (o.token c.index).kind = k → c.next.Within o →
      Mirrors o (f · (some (o.token c.index))) c.next (step state) fits' next')
    (hNo : (o.token c.index).kind ≠ k →
      Mirrors o (f · none) c choice fits' next') :
    Mirrors o (fun x => Descent.accept x.stream k >>= f x) c choice
      fits' next' := by
  by_cases hKind : (o.token c.index).kind = k
  · refine taking hWithin (hKind ▸ hEof) (fun x => ?_)
      (hChoice hKind) (hYes hKind)
    rw [Descent.accept, run_bind_ok (run_peek hWithin x), if_pos hKind]
    rfl
  · refine after (fun x => ?_) (Nat.le_refl _) rfl (hNo hKind)
    rw [Descent.accept, run_bind_ok (run_peek hWithin x), if_neg hKind]
    rfl

theorem expect_of_kind {f : Setting o → Token → Rule β} {text : String}
    (state : State) (hWithin : c.Within o) (hEof : k ≠ .eof)
    (hKind : (o.token c.index).kind = k)
    (hChoice : choice (o.token c.index) = .ok (.reading state))
    (hRest : c.next.Within o →
      Mirrors o (f · (o.token c.index)) c.next (step state) fits' next') :
    Mirrors o (fun x => Descent.expect x.stream k text >>= f x) c choice
      fits' next' := by
  refine taking hWithin (hKind ▸ hEof) (fun x => ?_) hChoice hRest
  rw [Descent.expect, run_bind_ok (run_peek hWithin x), if_pos hKind]
  rfl

/-- A token of some kind other than `eof` is taken, or the reader wants it as
well. -/
theorem expect {f : Setting o → Token → Rule β} (state : State)
    (wanted : Wanted) (hWithin : c.Within o) (hEof : k ≠ .eof)
    (hChoice : (o.token c.index).kind = k →
      choice (o.token c.index) = .ok (.reading state))
    (hNo : (o.token c.index).kind ≠ k →
      choice (o.token c.index) = .error ((o.token c.index).unexpected wanted))
    (hYes : (o.token c.index).kind = k → c.next.Within o →
      Mirrors o (f · (o.token c.index)) c.next (step state) fits' next') :
    Mirrors o (fun x => Descent.expect x.stream k wanted.text >>= f x) c choice
      fits' next' := by
  by_cases hKind : (o.token c.index).kind = k
  · exact expect_of_kind state hWithin hEof hKind (hChoice hKind) (hYes hKind)
  · refine bind_fails (fun x => ?_) hWithin (ahead_of_error (hNo hKind))
    rw [Descent.expect, run_bind_ok (run_peek hWithin x), if_neg hKind]
    rfl

end Tokens

end Mirrors

end Descent

end JvmTypes
