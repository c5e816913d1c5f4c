import JvmTypes.Proofs.Yaml.Items

/-!
# Tokens of block style

The scanner finds the tokens of a text in block style (`scan_text`). The
argument runs from the end of the text to its start: `Yields s ts` says that the
scanner goes on from `s` to the tokens `ts`, and each lemma says what it takes
for a state in front of a piece of text to do so.
-/

namespace JvmTypes.Yaml.Token

namespace Scanner

/-! ## Going on -/

/-- The scanner at the start of the next token, as `run` sets it up: stale
candidates are given up and blocks closed. -/
def ready (s : Scanner) : Option Scanner :=
  (s.toNext (s.cursor.rest.length + 1)).dropStale.map fun s =>
    s.closeBlocks s.column

/-- The tokens at the end of a text, as `run` leaves them there. -/
def finish (s : Scanner) : Option (List Token) :=
  (s.closeBlocks (-1)).dropCandidate.map fun s => s.tokens ++ [.streamEnd]

private theorem run_succ (fuel : Nat) (s : Scanner) :
    s.run (fuel + 1) = s.ready.bind fun s =>
      s.cursor.here.elim s.finish fun x => (s.token x).bind (run fuel) := by
  rw [run, ready]
  cases (s.toNext (s.cursor.rest.length + 1)).dropStale with
  | none => rfl
  | some t =>
      simp only [Option.bind_eq_bind, Option.bind_some, Option.map_some]
      cases (t.closeBlocks t.column).cursor.here with
      | none =>
          rw [Option.elim_none, finish, Option.map_eq_bind]
          rfl
      | some x => rfl

/-- The scanner goes on by `run` to the tokens `out` of the whole text. -/
def Yields (s : Scanner) (out : List Token) : Prop :=
  s.run (s.cursor.rest.length + 1) = some out

private theorem run_of_le {fuel fuel' : Nat} {s : Scanner} {out : List Token}
    (hRun : s.run fuel = some out) (hLe : fuel ≤ fuel') :
    s.run fuel' = some out := by
  induction fuel generalizing s fuel' with
  | zero => cases hRun
  | succ fuel ih =>
      obtain ⟨fuel', rfl⟩ : ∃ n, fuel' = n + 1 := ⟨fuel' - 1, by omega⟩
      rw [run_succ] at hRun ⊢
      obtain ⟨t, hReady, hRun⟩ := Option.bind_eq_some_iff.1 hRun
      rw [hReady, Option.bind_some]
      cases hHere : t.cursor.here with
      | none => simpa [hHere] using hRun
      | some x =>
          simp only [hHere] at hRun ⊢
          obtain ⟨u, hToken, hRun⟩ := Option.bind_eq_some_iff.1 hRun
          simpa [hToken] using ih hRun (by omega)

/-- States that `ready` makes one of go on alike. -/
theorem Yields.of_ready {s t : Scanner} {out : List Token}
    (hYields : t.Yields out) (hReady : s.ready = t.ready)
    (hLe : t.cursor.rest.length ≤ s.cursor.rest.length) : s.Yields out := by
  have hRun := run_of_le hYields (Nat.succ_le_succ hLe)
  rwa [run_succ, ← hReady, ← run_succ] at hRun

/-- The scanner passes one `token` and goes on from behind it. -/
theorem Yields.of_token {s t u : Scanner} {x : Char} {out : List Token}
    (hYields : u.Yields out) (hReady : s.ready = some t)
    (hHere : t.cursor.here = some x) (hToken : t.token x = some u)
    (hLess : u.cursor.rest.length < s.cursor.rest.length) : s.Yields out := by
  rw [Yields, run_succ, hReady, Option.bind_some, hHere]
  simpa only [Option.elim_some, hToken, Option.bind_some]
    using run_of_le hYields hLess

/-! ## Finding the next token -/

theorem toNext_word {x : Char} (hBlank : endsWord (some x) = false)
    (hHash : x ≠ '#') (fuel m : Nat) (rest : List Char) (i l k : Nat)
    (ts : List Token) (js : List Nat) (c : Option Candidate)
    (fl : List (Option Candidate)) (b : Bool) :
    toNext (fuel + 1) ⟨⟨List.replicate m ' ' ++ x :: rest, i, l, k⟩, ts,
      js, c, fl, b⟩ =
      ⟨⟨x :: rest, i + m, l, k + m⟩, ts, js, c, fl, b⟩ := by
  simp only [endsWord, Bool.or_eq_false_iff, decide_eq_false_iff_not] at hBlank
  simp only [toNext, Cursor.skipWhile_spaces m hBlank.1.1]
  simp [Cursor.here, Cursor.lineBreak?, hHash, hBlank.2, moveTo]

/-- `closeBlocks` closes nothing in front of a place that is as deep as the
innermost block. -/
theorem closeBlocks_of_le {s : Scanner}
    (hDepth : ∀ j ∈ s.indents.head?, j ≤ s.column) :
    s.closeBlocks s.column = s := by
  obtain ⟨cursor, ts, js, c, fl, b⟩ := s
  cases js with
  | nil => simp [closeBlocks]
  | cons j js =>
      have hLe : j ≤ cursor.column := hDepth j rfl
      simp [closeBlocks, column, hLe]

section

variable {x : Char} (hBlank : endsWord (some x) = false) (hHash : x ≠ '#')

include hBlank hHash

/-- Outside of flow collections `ready` finds the next token, whatever spaces
there are, if the candidate is on the same line and not too far away. -/
theorem ready_block (m : Nat) (rest : List Char) (i l k : Nat) (ts : List Token)
    {js : List Nat} (hDepth : ∀ j ∈ js.head?, j ≤ k + m) {c : Option Candidate}
    (hFresh : ∀ d ∈ c, d.line = l ∧ i + m - d.index ≤ 1024) (b : Bool) :
    ready ⟨⟨List.replicate m ' ' ++ x :: rest, i, l, k⟩, ts, js, c, [], b⟩ =
      some ⟨⟨x :: rest, i + m, l, k + m⟩, ts, js, c, [], b⟩ := by
  have hKept : dropStale ⟨⟨x :: rest, i + m, l, k + m⟩, ts, js, c, [], b⟩ =
      some ⟨⟨x :: rest, i + m, l, k + m⟩, ts, js, c, [], b⟩ := by
    cases c with
    | none => rfl
    | some d =>
        obtain ⟨hLine, hNear⟩ := hFresh d rfl
        simp [dropStale, isStale, hLine, Nat.not_lt.2 hNear]
  rw [ready, toNext_word hBlank hHash, hKept, Option.map_some,
    closeBlocks_of_le hDepth]

/-- In a flow collection `ready` gives up a candidate that is stale, unless it
is required. -/
theorem ready_flow (m : Nat) (rest : List Char) (i l k : Nat) (ts : List Token)
    (js : List Nat) {c : Option Candidate}
    (hLoose : ∀ d ∈ c, d.required = false) (b : Bool) :
    ∃ c' : Option Candidate, (∀ d ∈ c', d.required = false) ∧
      ready ⟨⟨List.replicate m ' ' ++ x :: rest, i, l, k⟩, ts, js,
        none, [c], b⟩ =
        some ⟨⟨x :: rest, i + m, l, k + m⟩, ts, js, none, [c'], b⟩ := by
  rw [ready, toNext_word hBlank hHash]
  cases c with
  | none => exact ⟨none, by simp, rfl⟩
  | some d =>
      have hRequired := hLoose d rfl
      refine ⟨_, ?_, by simp [dropStale, hRequired, closeBlocks, inFlow]; rfl⟩
      simp +contextual [Option.filter, hRequired]

end

/-! ## Keys -/

theorem token_plain {s : Scanner} {x : Char} (hStart : startsPlain true x none)
    (hMark : ¬(s.column = 0 ∧ s.cursor.atDocumentMark)) :
    s.token x = s.plain := by
  simp [startsPlain, endsWord] at hStart
  simp [token, startsPlain, endsWord, hMark, hStart]

private theorem saveCandidate_block (c : Cursor) (ts : List Token)
    (js : List Nat) :
    ∃ r, saveCandidate ⟨c, ts, js, none, [], true⟩ =
      some ⟨c, ts, js, some ⟨ts.length, r, c.index, c.line, c.column⟩, [],
        true⟩ :=
  ⟨_, rfl⟩

private theorem plain_eq {s t : Scanner} {text : List Char} {ended : Bool}
    {c : Cursor} (hSaved : s.saveCandidate = some t)
    (hParts : plainParts t.inFlow (t.indent + 1).toNat
      (t.cursor.rest.length + 1) t.cursor =
      (text, ended, c)) :
    s.plain = some { t with
      cursor := c, tokens := t.tokens ++ [.scalar text true],
        keyAllowed := ended } := by
  simp [plain, hSaved, hParts, emit]

/-- The columns of the open blocks once a block at a column is open. -/
def opened (column : Nat) (js : List Nat) : List Nat :=
  if js.head? = some column then js else column :: js

private theorem head?_opened (column : Nat) (js : List Nat) :
    (opened column js).head? = some column := by
  by_cases hHere : js.head? = some column <;> simp [opened, hHere]

private theorem exists_opened (column : Nat) (js : List Nat) :
    ∃ outer, opened column js = column :: outer := by
  by_cases hHere : js.head? = some column
  · obtain ⟨outer, rfl⟩ := List.head?_eq_some_iff.1 hHere
    exact ⟨outer, by simp [opened]⟩
  · exact ⟨js, by simp [opened, hHere]⟩

@[simp] theorem opened_opened (column : Nat) (js : List Nat) :
    opened column (opened column js) = opened column js := by
  rw [opened, head?_opened, if_pos rfl]

/-- The token that opens a block at a column, unless it is open. -/
def opening (column : Nat) (js : List Nat) : List Token :=
  if js.head? = some column then [] else [.blockMappingStart]

@[simp] theorem opening_opened (column : Nat) (js : List Nat) :
    opening column (opened column js) = [] := by
  rw [opening, head?_opened, if_pos rfl]

private theorem openBlock_eq {s : Scanner} {column : Nat}
    (hDepth : ∀ j ∈ s.indents.head?, j ≤ column) :
    s.openBlock column =
      ({ s with indents := opened column s.indents },
        decide (s.indents.head? ≠ some column)) := by
  obtain ⟨cursor, ts, js, c, fl, b⟩ := s
  cases js with
  | nil =>
      have hOutside : (-1 : Int) < column := by omega
      simp [openBlock, opened, indent, hOutside]
  | cons j js =>
      have hLe : j ≤ column := hDepth j rfl
      by_cases hHere : j = column
      · simp [openBlock, opened, indent, hHere]
      · have hLess : j < column := by omega
        simp [openBlock, opened, indent, hHere, hLess]

section

variable {key : List Char} (hKey : isPlain key) {rest : List Char}
  (hAfter : endsWord rest.head?) (i l k : Nat) (ts : List Token) (js : List Nat)

include hKey hAfter

/-- A key is read by `plain` as a word, and a candidate is remembered in front
of it. -/
theorem plain_key :
    ∃ r, plain ⟨⟨key ++ ':' :: rest, i, l, k⟩, ts, js, none, [], true⟩ =
      some ⟨⟨':' :: rest, i + key.length, l, k + key.length⟩,
        ts ++ [.scalar key true], js,
        some ⟨ts.length, r, i, l, k⟩, [], false⟩ := by
  have hEnd : endsPlain false ':' rest.head? := by simp [endsPlain, hAfter]
  obtain ⟨r, hSaved⟩ := saveCandidate_block ⟨key ++ ':' :: rest, i, l, k⟩ ts js
  exact ⟨r, plain_eq hSaved
    (plainParts_mark hKey false _ _ hEnd (by decide) i l k)⟩

end

/-- The colon behind a key puts in the tokens of the key, and of its block if
that is not open. -/
theorem token_colon {rest : List Char} (hAfter : endsWord rest.head?)
    {column : Nat} {js : List Nat} (hDepth : ∀ j ∈ js.head?, j ≤ column)
    (text : List Char) (i l k : Nat) (ts : List Token) (r : Bool)
    (i' l' : Nat) :
    token ':' ⟨⟨':' :: rest, i, l, k⟩, ts ++ [.scalar text true], js,
        some ⟨ts.length, r, i', l', column⟩, [], false⟩ =
      some ⟨⟨rest, i + 1, l, k + 1⟩,
        ts ++ (opening column js ++ [.key, .scalar text true, .value]),
        opened column js,
        none, [], false⟩ := by
  have hMark : (⟨':' :: rest, i, l, k⟩ : Cursor).atDocumentMark = false := by
    simp [Cursor.atDocumentMark]
  have hNext : (⟨':' :: rest, i, l, k⟩ : Cursor).ahead 1 = rest.head? := by
    cases rest <;> rfl
  have hOpen :=
    openBlock_eq (s := ⟨⟨':' :: rest, i, l, k⟩, ts ++ [.scalar text true], js,
        some ⟨ts.length, r, i', l', column⟩, [], false⟩) hDepth
  simp only [token, hMark, hNext, hAfter, value, candidate, inFlow,
    hOpen, setCandidate]
  by_cases hHere : js.head? = some column <;>
    simp [opening, hHere, Cursor.next, isBreak]

private theorem hash_of_isPlain {c : Char} {cs : List Char}
    (hPlain : isPlain (c :: cs)) : c ≠ '#' := by
  simpa using head?_of_isPlain hPlain

/-- From the start of a line on the scanner goes on to some tokens, wherever the
line is. -/
def LineYields (rest : List Char) (ts : List Token) (js : List Nat)
    (out : List Token) : Prop :=
  ∀ i l, Yields ⟨.atLine rest i l, ts, js, none, [], true⟩ out

/-- From behind the colon of a key on the scanner goes on to some tokens,
wherever the colon is, as long as it is inside the innermost block. -/
def ValueYields (rest : List Char) (ts : List Token) (js : List Nat)
    (out : List Token) : Prop :=
  ∀ i l k, (∀ j ∈ js.head?, j < k) →
    Yields ⟨⟨rest, i, l, k⟩, ts, js, none, [], false⟩ out

section

variable {key : List Char} (hKey : isPlain key) (hLong : key.length ≤ 1024)
    {rest : List Char} (hAfter : endsWord rest.head?) {column : Nat}
    {js : List Nat} (hDepth : ∀ j ∈ js.head?, j ≤ column) {ts out : List Token}
    (hYields : ValueYields rest
      (ts ++ (opening column js ++ [.key, .scalar key true, .value]))
      (opened column js) out)

include hLong hAfter hDepth hYields

/-- Behind a key that is not too long the scanner passes the colon. -/
theorem yields_colon (r : Bool) (i l : Nat) :
    Yields ⟨⟨':' :: rest, i + key.length, l, column + key.length⟩,
      ts ++ [.scalar key true], js,
      some ⟨ts.length, r, i, l, column⟩, [], false⟩ out := by
  have hFresh : ∀ d ∈ some (⟨ts.length, r, i, l, column⟩ : Candidate),
      d.line = l ∧ i + key.length + 0 - d.index ≤ 1024 := by
    rintro _ ⟨⟩
    exact ⟨rfl, by simp only; omega⟩
  have hDeep : ∀ j ∈ js.head?, j ≤ column + key.length + 0 := fun j hMem =>
    Nat.le_trans (hDepth j hMem) (Nat.le_add_right column key.length)
  have hReady :=
    ready_block (x := ':') (by decide) (by decide) 0 rest (i + key.length) l
      (column + key.length) (ts ++ [.scalar key true]) hDeep hFresh false
  refine .of_token (hYields _ _ _ ?_) hReady rfl
    (token_colon hAfter hDepth key _ l _ ts r i l)
    (Nat.lt_succ_self _)
  rw [head?_opened]
  rintro _ ⟨⟩
  exact Nat.lt_succ_of_le (Nat.le_add_right column key.length)

include hKey

/-- A key and its colon are passed. -/
theorem lineYields_key :
    LineYields (List.replicate column ' ' ++ (key ++ ':' :: rest))
      ts js out := by
  intro i l
  rw [atLine_key hKey]
  have hMark := atDocumentMark_key hKey rest (i + column) l column
  obtain ⟨r, hPlain⟩ := plain_key hKey hAfter (i + column) l column ts js
  have hColon := yields_colon hLong hAfter hDepth hYields r (i + column) l
  obtain ⟨c, key, rfl, hStart⟩ := startsPlain_of_isPlain hKey
  have hReady :=
    ready_block (endsWord_of_isPlain hKey c (by simp)) (hash_of_isPlain hKey) 0
      (key ++ ':' :: rest) (i + column) l column ts hDepth (c := none)
      (by simp) true
  refine .of_token hColon hReady rfl
    ((token_plain hStart fun h => ?_).trans hPlain) ?_
  · exact Bool.false_ne_true (hMark.symm.trans h.2)
  simp only [List.length_cons, List.length_append]
  omega

end

/-! ## Values -/

section

variable {n : Nat} {rest : List Char} (hFollows : Follows n rest)

include hFollows

/-- At the first word of a line `toNext` passes nothing. -/
theorem toNext_atLine (fuel i l : Nat) (ts : List Token) (js : List Nat)
    (b : Bool) :
    toNext (fuel + 1) ⟨.atLine rest i l, ts, js, none, [], b⟩ =
      ⟨.atLine rest i l, ts, js, none, [], b⟩ := by
  cases hFollows with
  | nothing => rfl
  | @line m _ key hKey rest =>
      rw [atLine_key hKey]
      obtain ⟨c, key, rfl, -⟩ := startsPlain_of_isPlain hKey
      exact toNext_word (endsWord_of_isPlain hKey c (by simp))
        (hash_of_isPlain hKey) fuel 0
        (key ++ ':' :: rest) (i + m) l m ts js none [] b

/-- From the start of a line `toNext` passes the spaces. -/
theorem toNext_line (fuel i l : Nat) (ts : List Token) (js : List Nat)
    (b : Bool) :
    toNext (fuel + 1) ⟨⟨rest, i, l, 0⟩, ts, js, none, [], b⟩ =
      ⟨.atLine rest i l, ts, js, none, [], b⟩ := by
  have hLine : (⟨rest, i, l, 0⟩ : Cursor).skipWhile (· = ' ') =
      .atLine rest i l := rfl
  simp only [toNext, hLine, here_atLine hFollows, if_false,
    lineBreak?_atLine hFollows, moveTo]

private theorem toNext_lineEnd (fuel i l k : Nat) (ts : List Token)
    (js : List Nat) (b : Bool) :
    toNext (fuel + 2) ⟨⟨'\n' :: rest, i, l, k⟩, ts, js, none, [], b⟩ =
      ⟨.atLine rest (i + 1) (l + 1), ts, js, none, [], true⟩ := by
  have hBreak : toNext (fuel + 2)
      ⟨⟨'\n' :: rest, i, l, k⟩, ts, js, none, [], b⟩ =
      toNext (fuel + 1) ⟨⟨rest, i + 1, l + 1, 0⟩, ts, js, none, [],
        b || true⟩ := rfl
  rw [hBreak, Bool.or_true, toNext_line hFollows]

/-- Behind a value the rest of its line is passed. -/
theorem yields_lineEnd {ts : List Token} {js : List Nat} {out : List Token}
    (hYields : LineYields rest ts js out) (i l k : Nat) (b : Bool) :
    Yields ⟨⟨'\n' :: rest, i, l, k⟩, ts, js, none, [], b⟩ out := by
  have hNext := toNext_lineEnd hFollows rest.length i l k ts js b
  refine .of_ready (hYields (i + 1) (l + 1)) ?_ ?_
  · simp only [ready, List.length_cons, hNext, toNext_atLine hFollows]
  · exact Nat.le_succ_of_le (length_atLine hFollows (i + 1) (l + 1))

end

/-- A value stands behind its colon and a space. -/
theorem ready_value {x : Char} (hBlank : endsWord (some x) = false)
    (hHash : x ≠ '#') (rest : List Char) (i l : Nat) {k : Nat} (ts : List Token)
    {js : List Nat} (hDeep : ∀ j ∈ js.head?, j < k) :
    ready ⟨⟨' ' :: x :: rest, i, l, k⟩, ts, js, none, [], false⟩ =
      some ⟨⟨x :: rest, i + 1, l, k + 1⟩, ts, js, none, [], false⟩ :=
  ready_block hBlank hHash 1 rest i l k ts
    (fun j hMem => Nat.le_succ_of_le (Nat.le_of_lt (hDeep j hMem)))
    (by simp) false

section

variable {n : Nat} {rest : List Char} (hFollows : Follows n rest)
    {ts out : List Token} {js : List Nat}

include hFollows

/-- A word is passed up to the end of its line. -/
theorem valueYields_word {cs : List Char} (hPlain : isPlain cs)
    (hYields : LineYields rest (ts ++ [.scalar cs true]) (n :: js) out) :
    ValueYields (' ' :: (cs ++ '\n' :: rest)) ts (n :: js) out := by
  intro i l k hDeep
  have hParts := plainParts_line hPlain hFollows
  obtain ⟨c, cs, rfl, hStart⟩ := startsPlain_of_isPlain hPlain
  have hReady := ready_value (endsWord_of_isPlain hPlain c (by simp))
    (hash_of_isPlain hPlain)
    (cs ++ '\n' :: rest) i l ts hDeep
  have hSaved : saveCandidate
      ⟨⟨c :: cs ++ '\n' :: rest, i + 1, l, k + 1⟩, ts, n :: js,
      none, [], false⟩ = some
        ⟨⟨c :: cs ++ '\n' :: rest, i + 1, l, k + 1⟩, ts, n :: js,
        none, [], false⟩ := rfl
  have hWord := plain_eq hSaved (hParts _ (i + 1) l (k + 1))
  refine .of_token (hYields _ _) hReady rfl
    ((token_plain hStart ?_).trans hWord) ?_
  · simp [column]
  · have hLess := length_atLine hFollows (i + 1 + (c :: cs).length + 1) (l + 1)
    simp only [List.length_cons, List.length_append] at hLess ⊢
    omega

/-- What is in quotes is passed, and then the end of its line. -/
theorem valueYields_quoted {cs : List Char} (hQuotable : ∀ c ∈ cs, isQuotable c)
    (hYields : LineYields rest (ts ++ [.scalar cs false]) (n :: js) out) :
    ValueYields (' ' :: '"' :: (cs ++ '"' :: '\n' :: rest)) ts
      (n :: js) out := by
  intro i l k hDeep
  have hReady := ready_value (x := '"') (by decide) (by decide)
    (cs ++ '"' :: '\n' :: rest) i l ts
    hDeep
  have hQuote := quotedScalar_append hQuotable ('\n' :: rest) (i + 1) l (k + 1)
  have hToken : token '"'
      ⟨⟨'"' :: (cs ++ '"' :: '\n' :: rest), i + 1, l, k + 1⟩, ts, n :: js,
        none, [], false⟩ =
      some ⟨⟨'\n' :: rest, i + 1 + cs.length + 2, l, k + 1 + cs.length + 2⟩,
        ts ++ [.scalar cs false], n :: js, none, [], false⟩ := by
    simp [token, column, quoted, saveCandidate, hQuote, emit]
  refine .of_token (yields_lineEnd hFollows hYields _ _ _ _)
    hReady rfl hToken ?_
  simp only [List.length_cons, List.length_append]
  omega

end

/-! ## Lists of words -/

/-- Inside of brackets the scanner goes on to some tokens, wherever on its line
it is and whatever candidate there is that is not `required`. -/
def FlowYields (rest : List Char) (ts : List Token) (js : List Nat) (b : Bool)
    (out : List Token) : Prop :=
  ∀ i l k (c : Option Candidate), 0 < k → (∀ d ∈ c, d.required = false) →
    Yields ⟨⟨rest, i, l, k⟩, ts, js, none, [c], b⟩ out

private theorem dropCandidate_flow {c : Option Candidate}
    (hLoose : ∀ d ∈ c, d.required = false) (place : Cursor) (ts : List Token)
    (js : List Nat) (b : Bool) :
    dropCandidate ⟨place, ts, js, none, [c], b⟩ =
      some ⟨place, ts, js, none, [none], b⟩ := by
  cases c with
  | none => rfl
  | some d => simp [dropCandidate, candidate, setCandidate, hLoose d rfl]

private theorem saveCandidate_flow {c : Option Candidate}
    (hLoose : ∀ d ∈ c, d.required = false) (place : Cursor) (ts : List Token)
    (js : List Nat) :
    saveCandidate ⟨place, ts, js, none, [c], true⟩ =
      some ⟨place, ts, js, none,
        [some ⟨ts.length, false, place.index, place.line, place.column⟩],
        true⟩ := by
  rw [saveCandidate, dropCandidate_flow hLoose]
  rfl

section

variable {ts out : List Token} {js : List Nat} {rest : List Char}

/-- A word in brackets is passed up to the comma or the bracket behind it. -/
theorem flowYields_word {cs : List Char} (hPlain : isPlain cs) (m : Nat)
    {x : Char} (hMark : x = ',' ∨ x = ']')
    (hYields : FlowYields (x :: rest) (ts ++ [.scalar cs true]) js false out) :
    FlowYields (List.replicate m ' ' ++ (cs ++ x :: rest)) ts js true out := by
  intro i l k c hInside hLoose
  have hEnd : endsPlain true x rest.head? := by
    rcases hMark with rfl | rfl <;> simp [endsPlain]
  have hBlank : endsWord (some x) = false := by
    rcases hMark with rfl | rfl <;> decide
  have hParts := fun indent fuel =>
    plainParts_mark hPlain true indent fuel hEnd hBlank (i + m) l (k + m)
  obtain ⟨a, cs, rfl, hStart⟩ := startsPlain_of_isPlain hPlain
  obtain ⟨c', hLoose', hReady⟩ :=
    ready_flow (endsWord_of_isPlain hPlain a (by simp))
      (hash_of_isPlain hPlain) m (cs ++ x :: rest) i l k ts js hLoose true
  have hSaved :=
    saveCandidate_flow hLoose' ⟨a :: cs ++ x :: rest, i + m, l, k + m⟩ ts js
  have hWord := plain_eq hSaved (hParts _ _)
  refine .of_token (hYields _ _ _ _ ?_ ?_) hReady rfl
    ((token_plain hStart ?_).trans hWord) ?_
  · omega
  · rintro _ ⟨⟩
    rfl
  · simp only [column]
    omega
  · simp only [List.length_cons, List.length_append]
    omega

/-- A comma in brackets is passed. -/
theorem flowYields_comma
    (hYields : FlowYields rest (ts ++ [.flowEntry]) js true out) :
    FlowYields (',' :: rest) ts js false out := by
  intro i l k c hInside hLoose
  obtain ⟨c', hLoose', hReady⟩ :=
    ready_flow (x := ',') (by decide) (by decide) 0
      rest i l k ts js hLoose false
  have hDrop := dropCandidate_flow hLoose' ⟨',' :: rest, i, l, k⟩ ts js false
  have hToken : token ',' ⟨⟨',' :: rest, i, l, k⟩, ts, js, none, [c'], false⟩ =
      some ⟨⟨rest, i + 1, l, k + 1⟩, ts ++ [.flowEntry], js, none,
        [none], true⟩ := by
    simp [token, column, Nat.ne_of_gt hInside, flowEntry, hDrop, emit,
      Cursor.next, isBreak]
  exact .of_token (hYields _ _ _ _ (Nat.succ_pos k) (by simp)) hReady rfl hToken
    (Nat.lt_succ_self _)

/-- The closing bracket is passed, and then the end of its line. -/
theorem flowYields_close {n : Nat} (hFollows : Follows n rest)
    (hYields : LineYields rest (ts ++ [.flowSequenceEnd]) js out) (b : Bool) :
    FlowYields (']' :: '\n' :: rest) ts js b out := by
  intro i l k c hInside hLoose
  obtain ⟨c', hLoose', hReady⟩ :=
    ready_flow (x := ']') (by decide) (by decide) 0
      ('\n' :: rest) i l k ts js hLoose b
  have hDrop :=
    dropCandidate_flow hLoose' ⟨']' :: '\n' :: rest, i, l, k⟩ ts js b
  have hToken : token ']'
      ⟨⟨']' :: '\n' :: rest, i, l, k⟩, ts, js, none, [c'], b⟩ =
      some ⟨⟨'\n' :: rest, i + 1, l, k + 1⟩, ts ++ [.flowSequenceEnd], js, none,
        [], false⟩ := by
    simp [token, column, Nat.ne_of_gt hInside, closeFlow, hDrop, emit,
      Cursor.next, isBreak]
  exact .of_token (yields_lineEnd hFollows hYields _ _ _ _) hReady rfl hToken
    (Nat.lt_succ_self _)

/-- Words in brackets are passed, and what ends them. -/
theorem flowYields_words {texts : List (List Char)}
    (hPlain : ∀ cs ∈ texts, isPlain cs) (hNe : texts ≠ []) (m : Nat)
    (hYields : FlowYields (']' :: rest)
      (ts ++ (texts.map fun cs => .scalar cs true).intersperse .flowEntry)
        js false out) :
    FlowYields (List.replicate m ' ' ++
      ([',', ' '].intercalate texts ++ ']' :: rest))
      ts js true out := by
  induction texts generalizing ts m with
  | nil => exact absurd rfl hNe
  | cons cs texts ih =>
      have hHere : isPlain cs := hPlain cs (by simp)
      have hRest : ∀ cs ∈ texts, isPlain cs :=
        fun cs hMem => hPlain cs (by simp [hMem])
      cases texts with
      | nil =>
          simp only [List.map_cons, List.map_nil,
            List.intersperse_singleton] at hYields
          simpa using flowYields_word hHere m (.inr rfl) hYields
      | cons next texts =>
          simp only [List.map_cons, List.intersperse_cons_cons] at hYields
          have hNext : FlowYields (List.replicate 1 ' ' ++
              ([',', ' '].intercalate (next :: texts) ++ ']' :: rest))
              (ts ++ [.scalar cs true] ++ [.flowEntry]) js true out :=
            ih hRest (by simp) 1 (by simpa using hYields)
          simpa using flowYields_word hHere m (.inl rfl)
            (flowYields_comma hNext)

/-- Words in brackets are passed, and then the end of their line. -/
theorem valueYields_words {texts : List (List Char)}
    (hPlain : ∀ cs ∈ texts, isPlain cs) {n : Nat} (hFollows : Follows n rest)
    (hYields : LineYields rest (ts ++ (Item.words texts).tokens) js out) :
    ValueYields (' ' :: '[' ::
      ([',', ' '].intercalate texts ++ ']' :: '\n' :: rest)) ts js out := by
  have hFlow : FlowYields ([',', ' '].intercalate texts ++ ']' :: '\n' :: rest)
      (ts ++ [.flowSequenceStart]) js true out := by
    by_cases hNe : texts = []
    · subst hNe
      exact flowYields_close hFollows
        (by simpa [Item.tokens] using hYields) true
    · exact flowYields_words hPlain hNe 0
        (flowYields_close hFollows (by simpa [Item.tokens] using hYields) false)
  intro i l k hDeep
  have hReady := ready_value (x := '[') (by decide) (by decide)
    ([',', ' '].intercalate texts ++ ']' :: '\n' :: rest) i l ts hDeep
  refine .of_token (hFlow (i + 2) l (k + 2) none (Nat.succ_pos _) (by simp))
    hReady rfl ?_
    (by simp only [List.length_cons]; omega)
  simp [token, column, openFlow, saveCandidate, emit, Cursor.next, isBreak]

end

/-! ## Blocks -/

/-- In front of a less deep place `closeBlocks` closes the innermost block
first. -/
theorem closeBlocks_cons {k column : Nat} (hLess : k < column) (place : Cursor)
    (ts : List Token) (js : List Nat) :
    closeBlocks k ⟨place, ts, column :: js, none, [], true⟩ =
      closeBlocks k ⟨place, ts ++ [.blockEnd], js, none, [], true⟩ := by
  have hTaken : (column :: js).takeWhile
      (fun (j : Nat) => (k : Int) < (j : Int)) =
      column :: js.takeWhile fun (j : Nat) => (k : Int) < (j : Int) :=
    List.takeWhile_cons_of_pos (by simpa using hLess)
  simp only [closeBlocks, inFlow, hTaken, List.isEmpty_nil, Bool.not_true,
    Bool.false_eq_true, if_false, List.map_cons, List.length_cons,
    List.drop_succ_cons, List.append_assoc, List.singleton_append]

/-- A block is closed where a line is less deep. -/
theorem lineYields_close {n column : Nat} {rest : List Char}
    (hFollows : Follows n rest) (hLess : n < column) {ts out : List Token}
    {js : List Nat} (hYields : LineYields rest (ts ++ [.blockEnd]) js out) :
    LineYields rest ts (column :: js) out := by
  intro i l
  refine .of_ready (hYields i l) ?_ (Nat.le_refl _)
  have hClosed := Nat.lt_of_le_of_lt (column_atLine hFollows i l) hLess
  simp only [ready, toNext_atLine hFollows]
  exact congrArg some (closeBlocks_cons hClosed (.atLine rest i l) ts js)

/-- At the end of the text the outermost block is closed. -/
theorem lineYields_end (ts : List Token) :
    LineYields [] ts [0] (ts ++ [.blockEnd, .streamEnd]) := by
  intro i l
  rw [Yields, run_succ, ready, toNext_atLine (.nothing : Follows 0 [])]
  simp [dropStale, closeBlocks, inFlow, column, dropCandidate, Cursor.here,
    finish, candidate, setCandidate]

private theorem follows_entriesText {entries : List (List Char × Item)}
    (hLegible : Item.AreLegible entries) {n : Nat} {rest : List Char}
    (hRest : Follows n rest) :
    Follows n (Item.entriesText n entries ++ rest) := by
  cases entries with
  | nil => exact hRest
  | cons entry entries =>
      obtain ⟨⟨hKey, -⟩, -⟩ := hLegible
      simpa [Item.entriesText] using Follows.line (Nat.le_refl n) hKey _

/-- A key with what is behind its colon, if the value is passed. -/
theorem lineYields_entry {key : List Char} {item : Item}
    {entries : List (List Char × Item)}
    (hLegible : Item.AreLegible ((key, item) :: entries)) {column : Nat}
    {js : List Nat} (hDepth : ∀ j ∈ js.head?, j ≤ column) {rest : List Char}
    {ts out : List Token}
    (hYields : ValueYields
      (item.text column ++ (Item.entriesText column entries ++ rest))
      (ts ++ (opening column js ++ [.key, .scalar key true, .value]))
      (opened column js) out) :
    LineYields (Item.entriesText column ((key, item) :: entries) ++ rest)
      ts js out := by
  obtain ⟨⟨hKey, hLong, -⟩, -⟩ := hLegible
  have hAfter : endsWord (item.text column ++
    (Item.entriesText column entries ++ rest)).head? := by
    cases item <;> simp [Item.text, endsWord, isBreak]
  simpa [Item.entriesText] using lineYields_key hKey hLong hAfter hDepth hYields

mutual

/-- The value of an entry whose item `IsLegible` is passed, and then the end of
its last line. -/
theorem valueYields_item (item : Item) (hLegible : item.IsLegible) {n : Nat}
    {rest : List Char} (hFollows : Follows n rest) {ts out : List Token}
    {js : List Nat}
    (hYields : LineYields rest (ts ++ item.tokens) (n :: js) out) :
    ValueYields (item.text n ++ rest) ts (n :: js) out :=
  match item with
  | .word cs => by
      simpa [Item.text] using valueYields_word hFollows hLegible hYields
  | .quoted cs => by
      simpa [Item.text] using valueYields_quoted hFollows hLegible hYields
  | .words texts => by
      simpa [Item.text] using valueYields_words hLegible hFollows hYields
  | .block [] => by
      intro i l k _
      exact yields_lineEnd hFollows
        (by simpa [Item.tokens] using hYields) i l k false
  | .block (entry :: entries) => by
      have hDeeper : Follows (n + 2) rest :=
        hFollows.mono (Nat.le_add_right n 2)
      have hClose : LineYields rest
          (ts ++ (opening (n + 2)
            (n :: js) ++ Item.entriesTokens (entry :: entries)))
          (opened (n + 2) (n :: js)) out := by
        simp only [opening, opened, List.head?_cons, Option.some.injEq,
          Nat.left_eq_add]
        refine lineYields_close hFollows
          (Nat.lt_add_of_pos_right (Nat.succ_pos 1)) ?_
        simpa [Item.tokens] using hYields
      have hLines :=
        lineYields_entries (entry :: entries) hLegible (List.cons_ne_nil _ _)
          (by simp) hDeeper hClose
      intro i l k _
      exact yields_lineEnd
        (follows_entriesText hLegible hDeeper) hLines i l k false

/-- The lines of a block whose entries `AreLegible` are passed. -/
theorem lineYields_entries (entries : List (List Char × Item))
    (hLegible : Item.AreLegible entries) (hNe : entries ≠ []) {column : Nat}
    {js : List Nat} (hDepth : ∀ j ∈ js.head?, j ≤ column) {rest : List Char}
    (hFollows : Follows column rest) {ts out : List Token}
    (hYields : LineYields rest
      (ts ++ (opening column js ++ Item.entriesTokens entries))
      (opened column js) out) :
    LineYields (Item.entriesText column entries ++ rest) ts js out :=
  match entries with
  | [] => absurd rfl hNe
  | (name, item) :: entries => by
      obtain ⟨hKey, hItem, hEntries⟩ := hLegible
      have hRest : LineYields (Item.entriesText column entries ++ rest)
          (ts ++ (opening column js ++ [.key, .scalar name true, .value]) ++
            item.tokens)
          (opened column js) out := by
        by_cases hNil : entries = []
        · subst hNil
          simpa [Item.entriesText, Item.entriesTokens] using hYields
        · refine lineYields_entries entries hEntries hNil
            (by simp [head?_opened]) hFollows ?_
          simpa [Item.entriesTokens] using hYields
      refine lineYields_entry ⟨hKey, hItem, hEntries⟩ hDepth ?_
      obtain ⟨outer, hOpened⟩ := exists_opened column js
      rw [hOpened] at hRest ⊢
      exact valueYields_item item hItem
        (follows_entriesText hEntries hFollows) hRest

end

/-! ## Whole texts -/

theorem toNext_comment {cs : List Char} (hRemark : isRemark cs) (fuel : Nat)
    (rest : List Char) (i l : Nat) (ts : List Token)
    (js : List Nat) (b : Bool) :
    ∃ j, toNext (fuel + 1)
      ⟨⟨'#' :: (cs ++ '\n' :: rest), i, l, 0⟩, ts, js, none, [], b⟩ =
      toNext fuel ⟨⟨rest, j, l + 1, 0⟩, ts, js, none, [], true⟩ := by
  simp only [isRemark, List.all_eq_true, Bool.and_eq_true] at hRemark
  have hInline : ∀ c ∈ '#' :: cs, Cursor.isInline c :=
    List.forall_mem_cons.2 ⟨by decide, fun c hMem => (hRemark c hMem).2⟩
  have hLine : ∀ c ∈ '#' :: cs, !isBreak c := fun c hMem => by
    have hHere := hInline c hMem
    simp only [Cursor.isInline, Bool.and_eq_true] at hHere
    exact hHere.1
  have hSpan := Cursor.span_append (p := fun x => !isBreak x) hInline hLine
    (by simp [isBreak] : ∀ c, ('\n' :: rest).head? = some c → _) i l 0
  have hComment : (⟨'#' :: (cs ++ '\n' :: rest), i, l, 0⟩ : Cursor).skipWhile
      (fun x => !isBreak x) =
      ⟨'\n' :: rest, i + (cs.length + 1), l, 0 + (cs.length + 1)⟩ :=
    congrArg Prod.snd hSpan
  have hSame :
      (⟨'#' :: (cs ++ '\n' :: rest), i, l, 0⟩ : Cursor).skipWhile (· = ' ') =
        ⟨'#' :: (cs ++ '\n' :: rest), i, l, 0⟩ := rfl
  have hHere : (⟨'#' :: (cs ++ '\n' :: rest), i, l, 0⟩ : Cursor).here =
      some '#' := rfl
  have hBreak : (⟨'\n' :: rest, i + (cs.length + 1), l, 0 + (cs.length + 1)⟩ :
    Cursor).lineBreak? =
      some ('\n', ⟨rest, i + (cs.length + 1) + 1, l + 1, 0⟩) := rfl
  refine ⟨i + (cs.length + 1) + 1, ?_⟩
  rw [toNext]
  simp only [hSame, hHere, if_true, hComment, hBreak, inFlow, List.isEmpty_nil,
    Bool.not_true, Bool.not_false, Bool.or_true]

/-- `toNext` passes comments, up to the first word behind them. -/
theorem toNext_comments {remarks : List (List Char)}
    (hRemarks : ∀ cs ∈ remarks, isRemark cs) {n : Nat} {rest : List Char}
    (hFollows : Follows n rest) {fuel : Nat} (hFuel : remarks.length < fuel)
    (i l : Nat) (ts : List Token) (js : List Nat) :
    ∃ i' l', toNext fuel ⟨⟨remarksText remarks ++ rest, i, l, 0⟩, ts, js, none,
      [], true⟩ = ⟨.atLine rest i' l', ts, js, none, [], true⟩ := by
  induction remarks generalizing fuel i l with
  | nil =>
      obtain ⟨fuel, rfl⟩ : ∃ m, fuel = m + 1 := ⟨fuel - 1, by omega⟩
      exact ⟨i, l, toNext_line hFollows fuel i l ts js true⟩
  | cons cs remarks ih =>
      simp only [List.length_cons] at hFuel
      obtain ⟨fuel, rfl⟩ : ∃ m, fuel = m + 1 := ⟨fuel - 1, by omega⟩
      obtain ⟨j, hNext⟩ := toNext_comment (hRemarks cs (by simp)) fuel
        (remarksText remarks ++ rest) i l ts js true
      have hEnough : remarks.length < fuel := by omega
      obtain ⟨i', l', hRest⟩ :=
        ih (fun cs hMem => hRemarks cs (by simp [hMem])) hEnough j (l + 1)
      exact ⟨i', l', by simpa [remarksText] using hNext.trans hRest⟩

section

variable {remarks : List (List Char)} (hRemarks : ∀ cs ∈ remarks, isRemark cs)
    {entries : List (List Char × Item)} (hLegible : Item.AreLegible entries)
    (hNe : entries ≠ [])

include hLegible hNe

/-- The lines of a block are passed up to the end of the text. -/
theorem lineYields_text :
    LineYields (Item.entriesText 0 entries) [] []
      ((Item.block entries).tokens ++ [.streamEnd]) := by
  obtain ⟨entry, entries, rfl⟩ := List.exists_cons_of_ne_nil hNe
  have hEnd : LineYields []
      ([] ++ (opening 0 [] ++ Item.entriesTokens (entry :: entries)))
      (opened 0 []) ((Item.block (entry :: entries)).tokens ++
        [.streamEnd]) := by
    simpa [Item.tokens, opening, opened] using
      lineYields_end (.blockMappingStart :: Item.entriesTokens
        (entry :: entries))
  simpa using lineYields_entries _ hLegible hNe (by simp) .nothing hEnd

include hRemarks

private theorem yields_start :
    (start (remarksText remarks ++ Item.entriesText 0 entries)).Yields
      ((Item.block entries).tokens ++ [.streamEnd]) := by
  have hFollows : Follows 0 (Item.entriesText 0 entries) := by
    simpa using follows_entriesText hLegible (.nothing : Follows 0 [])
  have hFuel : remarks.length <
      (remarksText remarks ++ Item.entriesText 0 entries).length + 1 := by
    have hLe := length_le_remarksText remarks
    rw [List.length_append]
    omega
  obtain ⟨i, l, hNext⟩ := toNext_comments hRemarks hFollows hFuel 0 0 [] []
  refine .of_ready (lineYields_text hLegible hNe i l) ?_ ?_
  · simp only [ready, toNext_atLine hFollows]
    rw [start, Cursor.start, hNext]
  · have hLess := length_atLine hFollows i l
    simp only [start, Cursor.start, List.length_append]
    omega

end

end Scanner

private theorem unifyBreaks_eq_self {cs : List Char} (hKept : cs.all isKept) :
    unifyBreaks cs = cs := by
  induction cs with
  | nil => rfl
  | cons c cs ih =>
      simp only [List.all_cons, Bool.and_eq_true, isKept] at hKept
      rw [unifyBreaks, ih hKept.2]
      · rintro rest rfl
        simp at hKept
      · rintro rfl
        simp at hKept

/-- What `Token.scan` makes of a text of comments and the lines of a block are
the tokens of the block. -/
theorem scan_text {remarks : List (List Char)}
    (hRemarks : ∀ cs ∈ remarks, isRemark cs) {entries : List (List Char × Item)}
    (hLegible : Item.AreLegible entries) (hNe : entries ≠ []) :
    scan (remarksText remarks ++ Item.entriesText 0 entries) =
      some ((Item.block entries).tokens ++ [.streamEnd]) := by
  have hKept : (remarksText remarks ++
    Item.entriesText 0 entries).all isKept := by
    simp [all_isKept_remarksText hRemarks,
      all_isKept_entriesText entries hLegible]
  have hAllowed : (remarksText remarks ++
    Item.entriesText 0 entries).all isAllowed :=
    List.all_eq_true.2 fun c hMem =>
      (Bool.and_eq_true_iff.1 (List.all_eq_true.1 hKept c hMem)).1
  have hMark : (remarksText remarks ++ Item.entriesText 0 entries).head? ≠
      some '\uFEFF' := by
    rcases remarks with _ | ⟨cs, remarks⟩
    · obtain ⟨⟨name, item⟩, entries, rfl⟩ := List.exists_cons_of_ne_nil hNe
      obtain ⟨⟨hKey, -⟩, -⟩ := hLegible
      have hName := isAllowed_of_isPlain hKey
      obtain ⟨c, name, rfl, -⟩ := startsPlain_of_isPlain hKey
      simpa [remarksText, Item.entriesText] using (hName c (by simp)).2
    · simp [remarksText]
  rw [scan, unifyBreaks_eq_self hKept]
  simp only [hMark, hAllowed, if_true, if_false]
  exact Scanner.yields_start hRemarks hLegible hNe

end JvmTypes.Yaml.Token
