import JvmTypes.Proofs.Reader.Descent

/-!
# Reading stops at the first `eof`

A list of tokens that ends with one of kind `eof` can have others before. The
descent comes to an end on every such list: a round of a loop takes a token, and
so does a rule before it comes to the types inside, so no limit above the place
of the first `eof` is ever reached. Nor does the cursor go behind that place,
for a token of kind `eof` is none that a rule takes. So there is always a token
under the cursor, and what stands behind the first `eof` makes no difference to
the outcome.

The reader comes to the same outcome. It knows no places; that it does not go on
at an `eof` is seen from its steps (`Reader.step_of_eof`).

## Main results

* `TokenStream.exists_opening`: the first `eof` cuts off an opening.
* `Expression.read_of_opens`, `Descent.exists_read`: the reader and the descent
  on all streams with one opening.
* `Descent.read_stops`: reading comes to an end at the first `eof` or before,
  with the outcome that it has when the list ends there.
-/

namespace JvmTypes

/-! ## The first `eof` -/

namespace TokenStream

/-- The place of the first token of kind `eof`. -/
def firstEof (s : TokenStream) : Nat := s.tokens.findIdx fun t => t.kind = .eof

private theorem firstEof_lt (s : TokenStream) :
    s.firstEof < s.tokens.length := by
  obtain ⟨stop, hLast, hKind⟩ :=
    Option.map_eq_some_iff.1 (of_decide_eq_true s.terminated)
  exact List.findIdx_lt_length_of_exists
    ⟨stop, List.mem_of_getLast? hLast, decide_eq_true hKind⟩

private theorem kind_firstEof (s : TokenStream) :
    (s.tokens.get ⟨s.firstEof, s.firstEof_lt⟩).kind = .eof := by
  have hFound := List.findIdx_getElem (w := s.firstEof_lt)
  exact of_decide_eq_true hFound

private theorem take_firstEof (s : TokenStream) :
    s.tokens.take (s.firstEof + 1) =
      s.tokens.take s.firstEof ++ [s.tokens.get ⟨s.firstEof, s.firstEof_lt⟩] :=
  List.take_succ_eq_append_getElem s.firstEof_lt

/-- The tokens up to the first of kind `eof`. -/
def cut (s : TokenStream) : TokenStream where
  tokens := s.tokens.take (s.firstEof + 1)
  terminated := by
    rw [take_firstEof, Token.terminated, List.getLast?_concat, Option.map_some,
      kind_firstEof]
    rfl

/-- The first `eof` cuts off an opening, which is all of the list that is cut
there. -/
theorem exists_opening (s : TokenStream) :
    ∃ o : Opening, o.words.length = s.firstEof ∧ o.Opens s ∧ o.Opens s.cut := by
  refine ⟨⟨s.tokens.take s.firstEof, _, s.kind_firstEof⟩, ?_, ?_, ?_⟩
  · exact List.length_take_of_le (Nat.le_of_lt s.firstEof_lt)
  · rw [Opening.Opens, Opening.tokens, ← take_firstEof]
    exact List.take_prefix _ _
  · rw [Opening.Opens, Opening.tokens, ← take_firstEof]
    exact List.prefix_rfl

end TokenStream

variable {o : Opening} {s : TokenStream}

/-! ## The reader -/

namespace Reader

/-- The reader does not go on behind an opening: its `run` over the stream is
that over the opening. -/
theorem run_of_opens (state : State) (hOpens : o.Opens s) :
    run state s.tokens = run state o.tokens := by
  obtain ⟨rest, hRest⟩ := hOpens
  have hEnds := run_of_eof state o.words o.stop_kind
  rw [← hRest, run_append]
  split
  · next next hRun => exact absurd hRun (hEnds next)
  · rfl

end Reader

theorem Expression.read_of_opens (hOpens : o.Opens s) :
    read s.tokens = read o.tokens := by
  rw [read, read, Reader.run_of_opens _ hOpens]

private theorem TokenStream.ofTokens_eq (s : TokenStream) :
    Expression.ofTokens s.tokens =
      (Expression.read s.tokens).mapError .malformed :=
  if_pos s.terminated

/-! ## The descent -/

namespace Descent

open Reader

private theorem Cursor.within_start (o : Opening) : Cursor.start.Within o := by
  intro i hMem
  rw [List.mem_singleton.1 hMem]
  exact Nat.zero_le _

private theorem ahead_start (o : Opening) (state : State) :
    ahead o 0 (step state) =
      (run state o.tokens).mapError GrammarError.report := by
  rw [ahead, ← run_cons, ← Opening.drop_tokens (Nat.zero_le _), List.drop_zero]

/-- In all settings with one opening `Descent.read` does one and the same, and
comes to what `Expression.read` comes to. -/
theorem exists_read (o : Opening) :
    ∃ c : Cursor, c.Within o ∧ ∀ x : Setting o,
      read x.stream x.limit =
        some ((Expression.read o.tokens).mapError GrammarError.report, c) := by
  have hStart := ahead_start o ⟨.start, []⟩
  rw [Expression.read]
  cases mirrors_sentence (Cursor.within_start o) with
  | @yields e c hRun _ hWithin _ hAhead =>
      refine ⟨c, hWithin, fun x => ?_⟩
      have hComplete := hStart.symm.trans hAhead
      cases hReader : run ⟨.start, []⟩ o.tokens with
      | error error =>
          rw [hReader] at hComplete
          cases hComplete
      | ok progress =>
          rw [hReader] at hComplete
          cases hComplete
          exact hRun x
  | @fails report c hRun hWithin hAhead =>
      refine ⟨c, hWithin, fun x => ?_⟩
      have hFails := hStart.symm.trans hAhead
      cases hReader : run ⟨.start, []⟩ o.tokens with
      | error error =>
          rw [hReader] at hFails
          cases hFails
          exact hRun x
      | ok progress =>
          rw [hReader] at hFails
          cases hFails

/-- Reading a list that ends with `eof` comes to an end: above the place of the
first `eof` no limit makes a difference. The cursor has been at no place behind
the first `eof`, so that the token under it was always the one at its place and
never the last one in its stead. The outcome, an expression with its spans or an
error with its text and its offset, is the one of the reader, and both do the
same with the list that is cut off behind its first `eof`. -/
theorem read_stops (s : TokenStream) :
    ∃ (result : Except GrammarError Expression) (c : Cursor),
      (∀ n, s.firstEof < n →
        read s n = some (result.mapError GrammarError.report, c)) ∧
      (∀ i ∈ c.places, i ≤ s.firstEof ∧ min i (s.tokens.length - 1) = i) ∧
      (∀ n, s.firstEof < n →
        read s.cut n = some (result.mapError GrammarError.report, c)) ∧
      Expression.ofTokens s.tokens = result.mapError .malformed ∧
      Expression.ofTokens s.cut.tokens = result.mapError .malformed := by
  obtain ⟨o, hLength, hOpens, hCut⟩ := s.exists_opening
  obtain ⟨c, hWithin, hRead⟩ := exists_read o
  refine ⟨Expression.read o.tokens, c, fun n hLimit => ?_, fun i hMem => ?_,
    fun n hLimit => ?_,
    ?_, ?_⟩
  · exact hRead ⟨s, hOpens, n, hLength ▸ hLimit⟩
  · have hInside : i ≤ s.firstEof := hLength ▸ hWithin i hMem
    have hLt := s.firstEof_lt
    exact ⟨hInside, by omega⟩
  · exact hRead ⟨s.cut, hCut, n, hLength ▸ hLimit⟩
  · rw [s.ofTokens_eq, Expression.read_of_opens hOpens]
  · rw [s.cut.ofTokens_eq, Expression.read_of_opens hCut]

/-- A `>` behind the first `eof` closes nothing. -/
example :
    read ⟨[⟨.ident, "A", 0, 1⟩, ⟨.lt, "<", 1, 2⟩, ⟨.question, "?", 2, 3⟩,
      ⟨.eof, "", 3, 3⟩,
      ⟨.gt, ">", 3, 4⟩, ⟨.eof, "", 4, 4⟩], rfl⟩ 4 =
      some (.error ⟨.parse, "Unexpected end of input", some 3,
        some "',' or '>'", .plain⟩,
        ⟨3, [2, 1, 0]⟩) := rfl

end Descent

end JvmTypes
