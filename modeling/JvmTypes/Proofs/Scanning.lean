import JvmTypes.Proofs.Lexing

/-!
# Tokens and their offsets

`Scans offset text tokens` says that a text which starts at an offset is cut
into the given tokens, `eof` included. It is `Token.scan` with each longest
match put as a condition on what follows it: `Munch kind word rest` says that a
token of this kind and these characters stands in front of `rest`. Only the
first character of `rest` matters for that, and not even that if it is blank
(`Munch.of_head`), so a text may be cut short or spaced out behind a token
without a change to the token.

## Main results

* `scan_eq_ok_iff`: the relation is the scan.
* `halts_of_scan`: where a scan fails, and at what character.
* `Scans.bounds`, `Scans.ordered`, `Scans.increasing`, `Scans.exists_eof`: how
  the offsets of the tokens lie.
* `Scans.slice`: some consecutive tokens of a text are the tokens of the piece
  of the text that they span.
-/

namespace JvmTypes.Token

open Text

/-! ## Longest matches -/

/-- A token of kind `kind` and some characters stands in front of a text that
does not continue it. -/
inductive Munch : Kind → List Char → List Char → Prop
  | word {c : Char} {cs rest : List Char} (hStart : isNameStart c = true)
      (hParts : ∀ x ∈ cs, isNamePart x = true)
      (hStop : ∀ x, rest.head? = some x → isNamePart x = false) :
      Munch (.ofWord (String.ofList (c :: cs))) (c :: cs) rest
  | internal {brackets parts rest : List Char}
      (hBrackets : ∀ x ∈ brackets, x = '[')
      (hParts : ∀ x ∈ parts, isInternalPart x = true)
      (hOpens : opensInternalName (brackets ++ parts) = true)
      (hStop : ∀ x, rest.head? = some x → isInternalPart x = false ∧
        (parts = [] → x ≠ '[')) :
      Munch .internalName ('[' :: (brackets ++ parts)) rest
  | operator {c : Char} {rest : List Char} {kind : Kind}
      (hKind : Kind.ofOperator? c = some kind)
      (hOpens : (c = '[' && opensInternalName rest) = false) :
      Munch kind [c] rest

theorem isInternalPart_of_isBlank {c : Char} (hBlank : isBlank c = true) :
    isInternalPart c = false ∧ c ≠ '[' := by
  have hName : isNamePart c = false := Bool.eq_false_iff.2 fun hPart => by
    simp [isBlank_of_isNamePart hPart] at hBlank
  refine ⟨?_, by rintro rfl; exact absurd hBlank (by decide)⟩
  simp only [isInternalPart, hName, Bool.false_or, Bool.or_eq_false_iff,
    decide_eq_false_iff_not]
  constructor <;> rintro rfl <;> exact absurd hBlank (by decide)

/-- Whether a bracket opens an internal array name, by `opensInternalName`, is
up to the next character. -/
theorem opensInternalName_iff (text : List Char) :
    opensInternalName text = true ↔
      ∃ c, text.head? = some c ∧ (c = '[' ∨ isNameStart c = true) := by
  cases text <;> simp [opensInternalName]

private theorem isNamePart_of_isBlank {c : Char} (hBlank : isBlank c = true) :
    isNamePart c = false :=
  isNamePart_of_not_isInternalPart (isInternalPart_of_isBlank hBlank).1

/-- A token is not continued by a text that starts like one that does not
continue it, starts with a blank, or does not start at all. -/
theorem Munch.of_head {kind : Kind} {word rest other : List Char}
    (hMunch : Munch kind word rest)
    (hHead : ∀ c, other.head? = some c → isBlank c = true ∨
      rest.head? = some c) :
    Munch kind word other := by
  cases hMunch with
  | word hStart hParts hStop =>
      refine .word hStart hParts fun c hC => ?_
      rcases hHead c hC with hBlank | hSame
      · exact isNamePart_of_isBlank hBlank
      · exact hStop c hSame
  | internal hBrackets hParts hOpens hStop =>
      refine .internal hBrackets hParts hOpens fun c hC => ?_
      rcases hHead c hC with hBlank | hSame
      · exact ⟨(isInternalPart_of_isBlank hBlank).1,
          fun _ => (isInternalPart_of_isBlank hBlank).2⟩
      · exact hStop c hSame
  | @operator c _ _ hKind hOpens =>
      refine .operator hKind (Bool.eq_false_iff.2 fun hBoth => ?_)
      obtain ⟨hBracket, hOther⟩ := Bool.and_eq_true_iff.1 hBoth
      obtain ⟨next, hNext, hOpener⟩ := (opensInternalName_iff other).1 hOther
      rcases hHead next hNext with hBlank | hSame
      · rcases hOpener with hEq | hStart
        · exact (isInternalPart_of_isBlank hBlank).2 hEq
        · simp [isBlank_of_isNamePart
            (isNamePart_of_isNameStart hStart)] at hBlank
      · have hRest := (opensInternalName_iff rest).2 ⟨next, hSame, hOpener⟩
        simp [hBracket, hRest] at hOpens

theorem Munch.length_pos {kind : Kind} {word rest : List Char}
    (hMunch : Munch kind word rest) : 0 < word.length := by
  cases hMunch <;> simp

private theorem Munch.kind_ne_eof {kind : Kind} {word rest : List Char}
    (hMunch : Munch kind word rest) : kind ≠ .eof := by
  cases hMunch with
  | word => exact (kind_ofWord _).1
  | internal => simp
  | operator hKind =>
      unfold Kind.ofOperator? at hKind
      split at hKind <;> cases hKind <;> simp

/-- The `scan` of a text that a token stands in front of. -/
theorem Munch.scan {kind : Kind} {word rest : List Char}
    (hMunch : Munch kind word rest) (offset : Nat) :
    scan offset (word ++ rest) =
      (ofChars kind offset word :: ·) <$>
        Token.scan (offset + word.length) rest := by
  cases hMunch with
  | @word c cs _ hStart hParts hStop =>
      have hTake := takeWhile_append_of_all hParts rest hStop
      have hDrop := dropWhile_append_of_all hParts rest hStop
      rw [List.cons_append, scan_word offset hStart, hTake, hDrop]
  | @internal brackets parts _ hBrackets hParts hOpens hStop =>
      have hBracketStop : ∀ x, (parts ++ rest).head? = some x →
          decide (x = '[') = false := by
        intro x hX
        cases parts with
        | nil => simpa using (hStop x hX).2 rfl
        | cons a as =>
            obtain rfl : a = x := by simpa using hX
            have hPart := hParts a List.mem_cons_self
            exact decide_eq_false
              (by rintro rfl; exact absurd hPart (by decide))
      have hBracketAll : ∀ x ∈ brackets, decide (x = '[') = true := by
        simpa using hBrackets
      have hPartStop : ∀ x, rest.head? = some x → isInternalPart x = false :=
        fun x hX => (hStop x hX).1
      have hOpensAll :
          opensInternalName (brackets ++ (parts ++ rest)) = true := by
        rw [← List.append_assoc, opensInternalName_append _ rest]
        · exact hOpens
        · intro hNil
          simp [hNil, opensInternalName] at hOpens
      rw [List.cons_append, List.append_assoc,
        scan_internal offset hOpensAll, internalTail, afterInternal,
        takeWhile_append_of_all hBracketAll _ hBracketStop,
        dropWhile_append_of_all hBracketAll _ hBracketStop,
        takeWhile_append_of_all hParts _ hPartStop,
        dropWhile_append_of_all hParts _ hPartStop]
  | operator hKind hOpens => exact scan_operator offset hKind hOpens

/-! ## The relation -/

/-- A text that starts at an offset is cut into the given tokens. -/
inductive Scans : Nat → List Char → List Token → Prop
  | eof (offset : Nat) : Scans offset [] [ofChars .eof offset []]
  | blank {offset : Nat} {c : Char} {cs : List Char} {tokens : List Token}
      (hBlank : isBlank c = true) (hRest : Scans (offset + 1) cs tokens) :
      Scans offset (c :: cs) tokens
  | token {offset : Nat} {kind : Kind} {word rest : List Char}
      {tokens : List Token} (hMunch : Munch kind word rest)
      (hRest : Scans (offset + word.length) rest tokens) :
      Scans offset (word ++ rest) (ofChars kind offset word :: tokens)

theorem head?_dropWhile {α : Type} {p : α → Bool} (xs : List α) {x : α}
    (hHead : (xs.dropWhile p).head? = some x) : p x = false := by
  have hNot := List.head?_dropWhile_not p xs
  simpa [hHead] using hNot

private theorem munch_word {c : Char} {cs : List Char}
    (hStart : isNameStart c = true) :
    Munch (.ofWord (String.ofList (c :: cs.takeWhile isNamePart)))
      (c :: cs.takeWhile isNamePart) (cs.dropWhile isNamePart) :=
  .word hStart (fun x => by simpa using List.all_eq_true.1 List.all_takeWhile x)
    fun x => head?_dropWhile cs

private theorem munch_internal {cs : List Char}
    (hOpens : opensInternalName cs = true) :
    Munch .internalName ('[' :: internalTail cs) (afterInternal cs) := by
  refine .internal (fun x hX => ?_) (fun x => ?_) ?_ fun x hX =>
    ⟨head?_dropWhile _ hX, ?_⟩
  · simpa using List.all_eq_true.1 List.all_takeWhile x hX
  · simpa using List.all_eq_true.1 List.all_takeWhile x
  · match cs, hOpens with
    | c :: cs, hOpens =>
        by_cases hBracket : c = '['
        · simp [hBracket, opensInternalName]
        · have hStart : isNameStart c = true := by
            simpa [opensInternalName, hBracket] using hOpens
          have hPart : isInternalPart c = true := by
            simp [isInternalPart, isNamePart_of_isNameStart hStart]
          simp [hBracket, hPart, hStart, opensInternalName]
  · -- Without such characters the name ends with its brackets, and no
    -- further one follows.
    intro hNone
    have hRest := List.takeWhile_append_dropWhile (p := isInternalPart)
      (l := cs.dropWhile (· = '['))
    rw [hNone, List.nil_append] at hRest
    rw [afterInternal, hRest] at hX
    simpa using head?_dropWhile _ hX

/-- The function `scan` yields exactly the tokens that the relation `Scans` cuts
a text into. -/
theorem scan_eq_ok_iff {offset : Nat} {text : List Char} {tokens : List Token} :
    scan offset text = .ok tokens ↔ Scans offset text tokens := by
  constructor
  · intro hScan
    fun_induction scan offset text generalizing tokens with
    | case1 offset =>
        cases hScan
        exact .eof offset
    | case2 offset c cs hBlank ih => exact .blank hBlank (ih hScan)
    | case3 =>
        rename_i hStart _ ih
        obtain ⟨rest, hRest, rfl⟩ := exists_of_cons_map hScan
        have hToken := Scans.token (munch_word hStart) (ih hRest)
        rwa [List.cons_append, List.takeWhile_append_dropWhile] at hToken
    | case4 =>
        rename_i hBoth _ ih
        obtain ⟨hBracket, hOpens⟩ := Bool.and_eq_true_iff.1 hBoth
        obtain rfl := of_decide_eq_true hBracket
        obtain ⟨rest, hRest, rfl⟩ := exists_of_cons_map hScan
        have hToken := Scans.token (munch_internal hOpens) (ih hRest)
        rwa [List.cons_append, internalTail_append_afterInternal] at hToken
    | case5 => cases hScan
    | case6 offset c cs _ _ hBoth kind hKind ih =>
        obtain ⟨rest, hRest, rfl⟩ := exists_of_cons_map hScan
        exact .token (.operator hKind (by simpa using hBoth)) (ih hRest)
  · intro hScans
    induction hScans with
    | eof => rw [Token.scan]
    | blank hBlank _ ih => rwa [scan_blank _ hBlank]
    | token hMunch _ ih => rw [hMunch.scan, ih]; rfl

/-- A text is cut into tokens by `Scans` in one way. -/
theorem Scans.unique {offset : Nat} {text : List Char}
    {tokens others : List Token} (hScans : Scans offset text tokens)
    (hOthers : Scans offset text others) : tokens = others :=
  Except.ok.inj ((scan_eq_ok_iff.2 hScans).symm.trans
    (scan_eq_ok_iff.2 hOthers))

/-- A text that is cut into tokens falls apart into their lexemes by `Lexes`. -/
theorem Scans.lexes {offset : Nat} {text : List Char} {words : List Token}
    {stop : Token} (hScans : Scans offset text (words ++ [stop])) :
    Lexes text (words.map lexeme) := by
  obtain ⟨words', stop', hSplit, -, hLexes⟩ :=
    lexes_of_scan (scan_eq_ok_iff.2 hScans)
  obtain ⟨rfl, -⟩ := List.append_inj' hSplit rfl
  exact hLexes

/-! ## Failures -/

/-- A text that starts at an offset is read up to the character `c`, which is
neither blank nor the start of a token. It ends well in front of that character
and fails at it, whatever comes behind. -/
structure Halts (offset : Nat) (front : List Char) (c : Char) : Prop where
  reads : ∃ tokens, Scans offset front tokens
  not_blank : isBlank c = false
  not_start : isNameStart c = false
  not_operator : Kind.ofOperator? c = none
  fails : ∀ back, scan offset (front ++ c :: back) =
    .error ⟨.unexpectedCharacter c, some (offset + front.length : Nat)⟩

private theorem halts_here (offset : Nat) {c : Char}
    (hBlank : isBlank c = false) (hStart : isNameStart c = false)
    (hOperator : Kind.ofOperator? c = none) : Halts offset [] c := by
  refine ⟨⟨_, .eof offset⟩, hBlank, hStart, hOperator, fun back => ?_⟩
  have hBracket : c ≠ '[' := by
    rintro rfl
    cases hOperator
  rw [List.nil_append, scan, if_neg (by simp [hBlank]),
    if_neg (by simp [hStart]), if_neg (by simp [hBracket]), hOperator]
  rfl

theorem Halts.blank {offset : Nat} {b c : Char} {front : List Char}
    (hBlank : isBlank b = true) (hRest : Halts (offset + 1) front c) :
    Halts offset (b :: front) c where
  reads := hRest.reads.imp fun _ hScans => .blank hBlank hScans
  not_blank := hRest.not_blank
  not_start := hRest.not_start
  not_operator := hRest.not_operator
  fails := fun back => by
    rw [List.cons_append, scan_blank offset hBlank, hRest.fails back,
      List.length_cons, Nat.add_assoc, Nat.add_comm 1]

/-- A token in front of the rest is the same whether the rest ends at the
character or goes on behind it in any way: it sees no more than the first
character of it. -/
theorem Halts.token {offset : Nat} {kind : Kind} {word front back : List Char}
    {c : Char} (hMunch : Munch kind word (front ++ c :: back))
    (hRest : Halts (offset + word.length) front c) :
    Halts offset (word ++ front) c where
  reads := by
    obtain ⟨tokens, hScans⟩ := hRest.reads
    refine ⟨_, .token (hMunch.of_head fun d hHead => .inr ?_) hScans⟩
    rw [List.head?_append, hHead, Option.some_or]
  not_blank := hRest.not_blank
  not_start := hRest.not_start
  not_operator := hRest.not_operator
  fails := fun other => by
    have hOther : Munch kind word (front ++ c :: other) := by
      refine hMunch.of_head fun d hHead => .inr ?_
      rw [← hHead]
      cases front <;> rfl
    rw [List.append_assoc, hOther.scan, hRest.fails other, List.length_append,
      Nat.add_assoc]
    rfl

private theorem error_of_cons_map {token : Token}
    {result : Except GrammarError (List Token)} {e : GrammarError}
    (hMap : (token :: ·) <$> result = .error e) : result = .error e := by
  cases result with
  | error e' => exact hMap
  | ok tokens => cases hMap

/-- A `scan` that fails halts at some character. -/
theorem halts_of_scan {offset : Nat} {text : List Char} {e : GrammarError}
    (hScan : scan offset text = .error e) :
    ∃ front c back, text = front ++ c :: back ∧ Halts offset front c := by
  fun_induction scan offset text with
  | case1 => cases hScan
  | case2 offset b cs hBlank ih =>
      obtain ⟨front, c, back, rfl, hHalts⟩ := ih hScan
      exact ⟨b :: front, c, back, rfl, hHalts.blank hBlank⟩
  | case3 offset a cs =>
      rename_i hStart _ ih
      obtain ⟨front, c, back, hText, hHalts⟩ := ih (error_of_cons_map hScan)
      have hMunch : Munch _ _ (cs.dropWhile isNamePart) := munch_word hStart
      rw [hText] at hMunch
      refine ⟨_, c, back, ?_, hHalts.token hMunch⟩
      rw [List.append_assoc, ← hText, List.cons_append,
        List.takeWhile_append_dropWhile]
  | case4 offset a cs =>
      rename_i hBoth _ ih
      obtain ⟨hBracket, hOpens⟩ := Bool.and_eq_true_iff.1 hBoth
      obtain rfl := of_decide_eq_true hBracket
      obtain ⟨front, c, back, hText, hHalts⟩ := ih (error_of_cons_map hScan)
      have hMunch := munch_internal hOpens
      rw [hText] at hMunch
      refine ⟨_, c, back, ?_, hHalts.token hMunch⟩
      rw [List.append_assoc, ← hText, List.cons_append,
        internalTail_append_afterInternal]
  | case5 offset c cs hBlank hStart _ hKind =>
      exact ⟨[], c, cs, rfl,
        halts_here offset (by simpa using hBlank) (by simpa using hStart) hKind⟩
  | case6 offset a cs _ _ hBoth kind hKind ih =>
      obtain ⟨front, c, back, rfl, hHalts⟩ := ih (error_of_cons_map hScan)
      exact ⟨[a] ++ front, c, back, rfl,
        hHalts.token (.operator hKind (by simpa using hBoth))⟩

/-- A `scan` fails only at a character that no token can start with, and with
the error that says so. -/
theorem unexpected_of_scan {offset : Nat} {text : List Char} {e : GrammarError}
    (hScan : scan offset text = .error e) :
    ∃ front c back, text = front ++ c :: back ∧
      e = ⟨.unexpectedCharacter c, some (offset + front.length : Nat)⟩ ∧
      isBlank c = false ∧ isNameStart c = false ∧
      Kind.ofOperator? c = none := by
  obtain ⟨front, c, back, rfl, hHalts⟩ := halts_of_scan hScan
  have hError := hScan.symm.trans (hHalts.fails back)
  exact ⟨front, c, back, rfl, Except.error.inj hError, hHalts.not_blank,
    hHalts.not_start,
    hHalts.not_operator⟩

/-! ## Offsets -/

theorem Scans.bounds {offset : Nat} {text : List Char} {tokens : List Token}
    (hScans : Scans offset text tokens) :
    ∀ t ∈ tokens, (offset : Int) ≤ t.start ∧ t.start ≤ t.stop ∧
      t.stop ≤ (offset + text.length : Nat) ∧
      (t.kind ≠ .eof → t.start < t.stop) := by
  induction hScans with
  | eof offset => simp [ofChars]
  | blank _ _ ih =>
      intro t hMem
      obtain ⟨hStart, hOrder, hStop, hWord⟩ := ih t hMem
      refine ⟨by omega, hOrder, ?_, hWord⟩
      simp only [List.length_cons]
      omega
  | @token offset kind word rest tokens hMunch _ ih =>
      have hLength := hMunch.length_pos
      refine List.forall_mem_cons.2 ⟨?_, fun t hMem => ?_⟩
      · simp only [ofChars, List.length_append]
        omega
      · obtain ⟨hStart, hOrder, hStop, hWord⟩ := ih t hMem
        simp only [List.length_append]
        exact ⟨by omega, hOrder, by omega, hWord⟩

/-- The tokens that `Scans` cuts off stand one behind the other. -/
theorem Scans.ordered {offset : Nat} {text : List Char} {tokens : List Token}
    (hScans : Scans offset text tokens) :
    tokens.Pairwise fun t u => t.stop ≤ u.start := by
  induction hScans with
  | eof offset => exact List.pairwise_singleton _ _
  | blank _ _ ih => exact ih
  | token _ hRest ih =>
      exact List.pairwise_cons.2 ⟨fun u hMem => (hRest.bounds u hMem).1, ih⟩

/-- Each token but the last takes some room, so no two tokens that `Scans` cuts
off start together. -/
theorem Scans.increasing {offset : Nat} {text : List Char} {tokens : List Token}
    (hScans : Scans offset text tokens) :
    tokens.Pairwise fun t u => t.start < u.start := by
  induction hScans with
  | eof offset => exact List.pairwise_singleton _ _
  | blank _ _ ih => exact ih
  | token hMunch hRest ih =>
      refine List.pairwise_cons.2 ⟨fun u hMem => ?_, ih⟩
      have hStart := (hRest.bounds u hMem).1
      have hLength := hMunch.length_pos
      simp only [ofChars]
      omega

/-- A token is where it starts. -/
theorem Scans.index_unique {offset : Nat} {text : List Char}
    {tokens : List Token} (hScans : Scans offset text tokens) {j k : Nat}
    {t u : Token} (hFirst : tokens[j]? = some t) (hSecond : tokens[k]? = some u)
    (hSame : t.start = u.start) : j = k := by
  obtain ⟨hJ, rfl⟩ := List.getElem?_eq_some_iff.1 hFirst
  obtain ⟨hK, rfl⟩ := List.getElem?_eq_some_iff.1 hSecond
  have hIncreasing := List.pairwise_iff_getElem.1 hScans.increasing
  rcases Nat.lt_trichotomy j k with hLess | hEq | hMore
  · have hStart := hIncreasing j k hJ hK hLess
    omega
  · exact hEq
  · have hStart := hIncreasing k j hK hJ hMore
    omega

/-- The last token is `eof`, at the end of the text, and no other is. -/
theorem Scans.exists_eof {offset : Nat} {text : List Char} {tokens : List Token}
    (hScans : Scans offset text tokens) :
    ∃ words, tokens = words ++ [ofChars .eof (offset + text.length) []] ∧
      ∀ t ∈ words, t.kind ≠ .eof := by
  induction hScans with
  | eof offset => exact ⟨[], rfl, by simp⟩
  | @blank offset c cs _ _ _ ih =>
      obtain ⟨words, rfl, hWords⟩ := ih
      exact ⟨words, by simp [Nat.add_assoc, Nat.add_comm 1], hWords⟩
  | @token offset kind word rest _ hMunch _ ih =>
      obtain ⟨words, rfl, hWords⟩ := ih
      exact ⟨ofChars kind offset word :: words, by simp [Nat.add_assoc],
        List.forall_mem_cons.2 ⟨hMunch.kind_ne_eof, hWords⟩⟩

/-! ## Pieces of a text -/

/-- The token a number of characters further on. -/
def shift (distance : Int) (token : Token) : Token :=
  { token with start := token.start + distance, stop := token.stop + distance }

@[simp] theorem shift_ofChars (kind : Kind) (offset distance : Nat)
    (word : List Char) :
    (ofChars kind (offset + distance) word).shift (-distance) =
      ofChars kind offset word := by
  simp only [shift, ofChars, Token.mk.injEq, true_and]
  omega

/-- A text has the same tokens wherever it starts, with their offsets moved by
`Token.shift`. -/
theorem Scans.shift {distance start : Nat} {text : List Char}
    {tokens : List Token} (hScans : Scans (start + distance) text tokens) :
    Scans start text (tokens.map (Token.shift (-distance))) := by
  generalize hOffset : start + distance = offset at hScans
  induction hScans generalizing start with
  | eof offset =>
      subst hOffset
      rw [List.map_singleton, shift_ofChars]
      exact .eof start
  | blank hBlank _ ih => exact .blank hBlank (ih (by omega))
  | token hMunch _ ih =>
      subst hOffset
      rw [List.map_cons, shift_ofChars]
      exact .token hMunch (ih (by omega))

/-- In front of a token a text has the tokens up to there, and behind that it
goes on with the token. -/
theorem Scans.exists_drop {offset : Nat} {text : List Char}
    {before after : List Token} {t : Token}
    (hScans : Scans offset text (before ++ t :: after)) :
    ∃ front back, text = front ++ back ∧
      Scans offset front (before ++ [ofChars .eof (offset + front.length) []]) ∧
      Scans (offset + front.length) back (t :: after) ∧
      t.start = (offset + front.length : Nat) := by
  generalize hTokens : before ++ t :: after = tokens at hScans
  induction hScans generalizing before with
  | eof offset =>
      obtain ⟨rfl, hLast⟩ :=
        List.append_eq_singleton_iff.1 hTokens |>.resolve_right (by simp)
      cases hLast
      exact ⟨[], [], rfl, .eof _, .eof _, rfl⟩
  | @blank offset c cs _ hBlank _ ih =>
      obtain ⟨front, back, rfl, hFront, hBack, hStart⟩ := ih hTokens
      have hLength : offset + 1 + front.length = offset +
          (c :: front).length := by
        rw [List.length_cons]
        omega
      rw [hLength] at hFront hBack hStart
      exact ⟨c :: front, back, rfl, .blank hBlank hFront, hBack, hStart⟩
  | @token offset kind word rest tokens hMunch hRest ih =>
      cases before with
      | nil =>
          cases hTokens
          exact ⟨[], word ++ rest, rfl, .eof _, .token hMunch hRest, rfl⟩
      | cons first before =>
          obtain ⟨rfl, hBehind⟩ := List.cons.inj hTokens
          obtain ⟨front, back, rfl, hFront, hBack, hStart⟩ := ih hBehind
          have hLength : offset + word.length + front.length = offset +
              (word ++ front).length := by
            rw [List.length_append]
            omega
          rw [hLength] at hFront hBack hStart
          refine ⟨word ++ front, back, by simp,
            .token (hMunch.of_head fun c hC => .inr ?_) hFront,
            hBack, hStart⟩
          rw [List.head?_append, hC, Option.some_or]

/-- Cut off where a token stops, a text has the tokens up to there, and behind
that the others. -/
theorem Scans.exists_take {offset : Nat} {text : List Char}
    {part after : List Token} (hScans : Scans offset text (part ++ after))
    (hPart : part ≠ []) (hAfter : after ≠ []) :
    ∃ mid back, text = mid ++ back ∧
      Scans offset mid (part ++ [ofChars .eof (offset + mid.length) []]) ∧
      Scans (offset + mid.length) back after ∧
      part.getLast?.map stop = some (offset + mid.length : Nat) := by
  generalize hTokens : part ++ after = tokens at hScans
  induction hScans generalizing part with
  | eof offset =>
      rcases List.append_eq_singleton_iff.1 hTokens with ⟨hNil, -⟩ | ⟨-, hNil⟩
      · exact absurd hNil hPart
      · exact absurd hNil hAfter
  | @blank offset c cs _ hBlank _ ih =>
      obtain ⟨mid, back, rfl, hMid, hBack, hStop⟩ := ih hPart hTokens
      have hLength : offset + 1 + mid.length = offset + (c :: mid).length := by
        simp only [List.length_cons]
        omega
      rw [hLength] at hMid hBack hStop
      exact ⟨c :: mid, back, rfl, .blank hBlank hMid, hBack, hStop⟩
  | @token offset kind word rest tokens hMunch hRest ih =>
      match part, hPart with
      | first :: part, _ =>
          obtain ⟨rfl, hBehind⟩ := List.cons.inj hTokens
          by_cases hLast : part = []
          · subst hLast
            obtain rfl : after = tokens := hBehind
            refine ⟨word, rest, rfl, ?_, hRest, rfl⟩
            have hWord :=
              Scans.token (hMunch.of_head fun _ hNone => absurd hNone (by simp))
                (.eof (offset + word.length))
            rwa [List.append_nil] at hWord
          · obtain ⟨mid, back, rfl, hMid, hBack, hStop⟩ := ih hLast hBehind
            have hLength : offset + word.length + mid.length = offset +
                (word ++ mid).length := by
              simp only [List.length_append]
              omega
            rw [hLength] at hMid hBack hStop
            refine ⟨word ++ mid, back, by simp, ?_, hBack, ?_⟩
            · refine .token (hMunch.of_head fun c hC => .inr ?_) hMid
              rw [List.head?_append, hC, Option.some_or]
            · rw [← hStop, List.getLast?_cons,
                List.getLast?_eq_some_getLast hLast]
              rfl

/-- The piece of a text that some of its tokens span has these tokens, moved to
its start. In front of it and behind it the text has the others. -/
theorem Scans.slice {text : List Char} {before part after : List Token}
    (hScans : Scans 0 text (before ++ (part ++ after))) (hPart : part ≠ [])
    (hAfter : after ≠ []) :
    ∃ front mid back, text = front ++ (mid ++ back) ∧
      Scans 0 front (before ++ [ofChars .eof front.length []]) ∧
      Scans 0 mid (part.map (Token.shift (-front.length)) ++
        [ofChars .eof mid.length []]) ∧
      Scans (front.length + mid.length) back after ∧
      part.head?.map start = some (front.length : Int) ∧
      part.getLast?.map stop = some (front.length + mid.length : Int) := by
  match part, hPart with
  | first :: part, _ =>
      obtain ⟨front, rest, rfl, hFront, hRest, hStart⟩ := hScans.exists_drop
      rw [Nat.zero_add] at hFront hRest hStart
      obtain ⟨mid, back, rfl, hMid, hBack, hStop⟩ :=
        hRest.exists_take (List.cons_ne_nil first part) hAfter
      refine ⟨front, mid, back, rfl, hFront, ?_, hBack, by simp [hStart],
        by simpa using hStop⟩
      rw [← Nat.zero_add front.length] at hMid
      have hMoved := hMid.shift
      rwa [List.map_append, List.map_singleton, Nat.add_right_comm,
        shift_ofChars,
        Nat.zero_add] at hMoved

end JvmTypes.Token
