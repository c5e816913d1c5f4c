import JvmTypes.Proofs.Spans

/-!
# How tokens lie in a text

The tokens of a text tile it: they stand one behind the other, each is the piece
of the text between its offsets, and what lies outside of them is blank. Words
and internal array names are read as far as they go, so the character behind one
of them could not have continued it.

A token is known by the text in front of it, its own characters and the text
behind it (`Scans.exists_munch`), and all that is said here about a single token
is read off these three. Whether a text has tokens is decided at its first
character at which no token can start, and what comes behind that plays no part
(`Token.halts_of_scan`).

## Main results

* `Token.Munch.isWord_iff`: the shape of a token tells whether it is a word.
* `Token.Tiles`: how the tokens of a text lie in it.
* `tokenize_tiles`: they lie so, or the text fails at its first offence.
-/

namespace JvmTypes

open Text

namespace Token

/-! ## Words -/

/-- The words that are no identifiers. -/
def keywords : List String :=
  ["extends", "super", "void", "boolean", "byte", "short", "int", "long",
    "float", "double"]

/-- The kinds of identifiers and keywords. -/
def Kind.isWord : Kind → Bool
  | ident | extendsWord | superWord | primitive _ => true
  | _ => false

private theorem mem_keywords_of_ofKeyword? {text : String} {kind : Kind}
    (hFind : Kind.ofKeyword? text = some kind) : text ∈ keywords := by
  rw [← Kind.name_of_ofKeyword? hFind]
  unfold Kind.ofKeyword? at hFind
  split at hFind
  · cases hFind
    decide
  · split at hFind
    · cases hFind
      decide
    · obtain ⟨p, -, rfl⟩ := Option.map_eq_some_iff.1 hFind
      cases p <;> decide

/-- The kind that `ofWord` gives a keyword has its text as name. -/
theorem ofWord_of_mem {text : String} (hMem : text ∈ keywords) :
    Kind.ofWord text ≠ .ident ∧ (Kind.ofWord text).name = text ∧
      (Kind.ofWord text).isWord = true := by
  have hAll : ∀ word ∈ keywords, Kind.ofWord word ≠ .ident ∧
      (Kind.ofWord word).name = word ∧
      (Kind.ofWord word).isWord = true := by decide
  exact hAll text hMem

/-- Every word that is no keyword is an identifier for `ofWord`. -/
theorem ofWord_of_notMem {text : String} (hMem : text ∉ keywords) :
    Kind.ofWord text = .ident := by
  rw [Kind.ofWord]
  cases hFind : Kind.ofKeyword? text with
  | none => rfl
  | some kind => exact absurd (mem_keywords_of_ofKeyword? hFind) hMem

theorem isWord_ofWord (text : String) : (Kind.ofWord text).isWord = true := by
  by_cases hMem : text ∈ keywords
  · exact (ofWord_of_mem hMem).2.2
  · rw [ofWord_of_notMem hMem]
    rfl

/-- No operator of `ofOperator?` has the kind of a word or of an internal array
name. -/
theorem kind_of_ofOperator? {c : Char} {kind : Kind}
    (hKind : Kind.ofOperator? c = some kind) :
    kind.isWord = false ∧ kind ≠ .internalName := by
  unfold Kind.ofOperator? at hKind
  split at hKind <;> cases hKind <;> simp [Kind.isWord]

/-! ## Single tokens -/

section Munch

variable {kind : Kind} {word rest : List Char}

/-- A token has a kind that `isWord` holds of exactly if it is shaped as a
word. -/
theorem Munch.isWord_iff (hMunch : Munch kind word rest) :
    kind.isWord = true ↔ IsSpelled word := by
  cases hMunch with
  | @word c cs _ hStart hParts hStop =>
      exact ⟨fun _ => ⟨c, cs, rfl, hStart, hParts⟩, fun _ => isWord_ofWord _⟩
  | internal =>
      refine ⟨fun hWord => (by cases hWord), ?_⟩
      rintro ⟨c, cs, hText, hStart, -⟩
      cases hText
      exact absurd hStart (by decide)
  | @operator c _ _ hKind =>
      refine ⟨fun hWord => ?_, ?_⟩
      · rw [(kind_of_ofOperator? hKind).1] at hWord
        cases hWord
      · rintro ⟨d, ds, hText, hStart, -⟩
        cases hText
        rw [(not_blank_of_ofOperator? hKind).2] at hStart
        cases hStart

/-- The kind of a word is decided by its text with `ofWord`, and the word ends
where no character continues it. -/
theorem Munch.word_of_isWord (hMunch : Munch kind word rest)
    (hWord : kind.isWord = true) :
    kind = .ofWord (String.ofList word) ∧ ∀ c, rest.head? = some c →
    isNamePart c = false := by
  cases hMunch with
  | word hStart hParts hStop => exact ⟨rfl, hStop⟩
  | internal => cases hWord
  | operator hKind =>
      rw [(kind_of_ofOperator? hKind).1] at hWord
      cases hWord

/-- An internal array name ends where no `isInternalPart` continues it. -/
theorem Munch.stop_of_internalName (hMunch : Munch .internalName word rest) :
    ∀ c, rest.head? = some c → isInternalPart c = false := by
  -- The kinds of words and operators are computed, so they are compared by
  -- hand.
  generalize hKind : Kind.internalName = kind at hMunch
  cases hMunch with
  | word =>
      have hWord := hKind ▸ isWord_ofWord _
      cases hWord
  | internal _ _ _ hStop => exact fun c hHead => (hStop c hHead).1
  | operator hOperator =>
      exact absurd hKind.symm (kind_of_ofOperator? hOperator).2

end Munch

/-! ## Tokens in their text -/

section Scans

variable {offset : Nat} {text : List Char} {tokens : List Token}

/-- A token that `Scans` cuts off stands between what is in front of it and what
is behind it. -/
theorem Scans.exists_munch (hScans : Scans offset text tokens) {t : Token}
    (hMem : t ∈ tokens) (hWord : t.kind ≠ .eof) :
    ∃ front word rest, text = front ++ (word ++ rest) ∧ Munch t.kind word rest ∧
      t = ofChars t.kind (offset + front.length) word := by
  induction hScans with
  | eof offset =>
      rw [List.mem_singleton.1 hMem] at hWord
      exact absurd rfl hWord
  | @blank offset c cs _ _ _ ih =>
      obtain ⟨front, word, rest, rfl, hMunch, hToken⟩ := ih hMem
      refine ⟨c :: front, word, rest, rfl, hMunch, ?_⟩
      rwa [List.length_cons, Nat.add_comm front.length, ← Nat.add_assoc]
  | @token offset kind first behind _ hMunch _ ih =>
      rcases List.mem_cons.1 hMem with rfl | hRest
      · exact ⟨[], first, behind, rfl, hMunch, rfl⟩
      · obtain ⟨front, word, rest, rfl, hMunch, hToken⟩ := ih hRest
        refine ⟨first ++ front, word, rest, by simp, hMunch, ?_⟩
        rwa [List.length_append, ← Nat.add_assoc]

/-- A character that is not blank belongs to a token that `Scans` cuts off. -/
theorem Scans.exists_token (hScans : Scans offset text tokens) {i : Nat}
    {c : Char} (hChar : text[i]? = some c) (hBlank : isBlank c = false) :
    ∃ t ∈ tokens, t.start ≤ (offset + i : Nat) ∧
      ((offset + i : Nat) : Int) < t.stop := by
  induction hScans generalizing i with
  | eof offset => cases hChar
  | blank hFirst _ ih =>
      cases i with
      | zero =>
          cases hChar
          rw [hFirst] at hBlank
          cases hBlank
      | succ i =>
          obtain ⟨t, hMem, hStart, hStop⟩ := ih hChar
          exact ⟨t, hMem, by omega, by omega⟩
  | @token offset kind word rest _ hMunch _ ih =>
      by_cases hInside : i < word.length
      · refine ⟨_, List.mem_cons_self, ?_, ?_⟩
        · simp only [ofChars]
          omega
        · simp only [ofChars]
          omega
      · rw [List.getElem?_append_right (Nat.le_of_not_lt hInside)] at hChar
        obtain ⟨t, hMem, hStart, hStop⟩ := ih hChar
        exact ⟨t, List.mem_cons_of_mem _ hMem, by omega, by omega⟩

/-- The text of `eof` is empty. -/
theorem Scans.value_of_eof (hScans : Scans offset text tokens) {t : Token}
    (hMem : t ∈ tokens) (hEof : t.kind = .eof) : t.value = "" := by
  obtain ⟨words, rfl, hWords⟩ := hScans.exists_eof
  rcases List.mem_append.1 hMem with hFront | hLast
  · exact absurd hEof (hWords t hFront)
  · rw [List.mem_singleton.1 hLast]
    rfl

/-- What stands at an offset behind two pieces of a text is the start of the
third. -/
theorem getElem?_behind (front word rest : List Char) :
    (front ++ (word ++ rest))[front.length + word.length]? = rest.head? := by
  rw [← List.append_assoc, ← List.length_append,
    List.getElem?_append_right (Nat.le_refl _), Nat.sub_self,
    List.head?_eq_getElem?]

/-- A token that is no `eof`, with what is in front of it and behind it in a
whole text. -/
theorem exists_place {text : String} (hTokens : tokenize text = .ok tokens)
    {t : Token} (hMem : t ∈ tokens) (hWord : t.kind ≠ .eof) :
    ∃ front word rest, text.toList = front ++ (word ++ rest) ∧
      Munch t.kind word rest ∧
      t.value = String.ofList word ∧ t.start = front.length ∧
      t.stop = front.length + word.length := by
  obtain ⟨front, word, rest, hText, hMunch, hToken⟩ :=
    (scan_eq_ok_iff.1 hTokens).exists_munch hMem hWord
  refine ⟨front, word, rest, hText, hMunch, ?_, ?_, ?_⟩
  · rw [hToken]
    rfl
  · rw [hToken]
    simp [ofChars]
  · rw [hToken]
    simp [ofChars]

end Scans

/-- How tokens lie in a text. They stand one behind the other, and the only
`eof` comes last, at the end of the text; every other one is not empty and is
the piece of the text between its offsets, and outside of them the text is
blank. What is shaped as an identifier has a kind of its own, named by its text,
exactly if it is a keyword, and else is an identifier; the word `IDENT` is one
too, although that is how the kind is written. Behind an identifier or a keyword
stands no character that continues it, and so behind an internal array name. -/
structure Tiles (text : String) (tokens : List Token) : Prop where
  ordered : tokens.Pairwise fun t u => t.stop ≤ u.start
  ends : ∃ words, tokens = words ++ [⟨.eof, "", text.length, text.length⟩] ∧
    ∀ t ∈ words, t.kind ≠ .eof
  inside : ∀ t ∈ tokens, t.kind ≠ .eof → 0 ≤ t.start ∧ t.start < t.stop ∧
  t.stop ≤ text.length
  value : ∀ t ∈ tokens, t.kind ≠ .eof →
  t.value = Span.slice ⟨t.start, t.stop⟩ text
  blank : ∀ (i : Nat) (c : Char), text.toList[i]? = some c →
    (∀ t ∈ tokens, ¬ (t.start ≤ i ∧ (i : Int) < t.stop)) → isBlank c = true
  shape : ∀ t ∈ tokens, t.kind.isWord = true ↔ IsSpelled t.value.toList
  keyword : ∀ t ∈ tokens, IsSpelled t.value.toList →
    ((t.kind ≠ .ident ∧ t.kind.name = t.value) ↔ t.value ∈ keywords) ∧
      (t.value ∉ keywords → t.kind = .ident)
  behind_word : ∀ t ∈ tokens, t.kind.isWord = true → ∀ c,
    text.toList[t.stop.toNat]? = some c → isNamePart c = false
  behind_internal : ∀ t ∈ tokens, t.kind = .internalName → ∀ c,
    text.toList[t.stop.toNat]? = some c → isNamePart c = false ∧
    c ≠ '.' ∧ c ≠ ';'

variable {text : String} {tokens : List Token}

/-- The shape of a token tells whether it is a word, also for `eof`, which has
none. -/
theorem isWord_iff_isSpelled (hTokens : tokenize text = .ok tokens) {t : Token}
    (hMem : t ∈ tokens) : t.kind.isWord = true ↔ IsSpelled t.value.toList := by
  by_cases hEof : t.kind = .eof
  · have hValue := (scan_eq_ok_iff.1 hTokens).value_of_eof hMem hEof
    rw [hEof, hValue]
    refine ⟨fun hWord => (by cases hWord), ?_⟩
    rintro ⟨c, cs, hText, -⟩
    cases hText
  · obtain ⟨front, word, rest, -, hMunch, hValue, -⟩ :=
      exists_place hTokens hMem hEof
    rw [hValue, String.toList_ofList]
    exact hMunch.isWord_iff

/-- The kind of a word of a text, by `ofWord`, and what stands behind it. -/
theorem word_of_isWord (hTokens : tokenize text = .ok tokens) {t : Token}
    (hMem : t ∈ tokens) (hWord : t.kind.isWord = true) :
    t.kind = .ofWord t.value ∧
      ∀ c, text.toList[t.stop.toNat]? = some c → isNamePart c = false := by
  have hKind : t.kind ≠ .eof := by
    intro hEof
    rw [hEof] at hWord
    cases hWord
  obtain ⟨front, word, rest, hText, hMunch, hValue, -, hStop⟩ :=
    exists_place hTokens hMem hKind
  obtain ⟨hOfWord, hBehind⟩ := hMunch.word_of_isWord hWord
  refine ⟨hValue ▸ hOfWord, fun c hChar => hBehind c ?_⟩
  rwa [hStop, hText, ← Int.natCast_add, Int.toNat_natCast,
    getElem?_behind] at hChar

/-- Behind an internal array name stands no `isNamePart`, dot or semicolon. -/
theorem stop_of_internalName (hTokens : tokenize text = .ok tokens) {t : Token}
    (hMem : t ∈ tokens) (hKind : t.kind = .internalName) {c : Char}
    (hChar : text.toList[t.stop.toNat]? = some c) :
    isNamePart c = false ∧ c ≠ '.' ∧ c ≠ ';' := by
  obtain ⟨front, word, rest, hText, hMunch, -, -, hStop⟩ :=
    exists_place hTokens hMem (by simp [hKind])
  rw [hKind] at hMunch
  rw [hStop, hText, ← Int.natCast_add, Int.toNat_natCast,
    getElem?_behind] at hChar
  simpa [isInternalPart, and_assoc] using hMunch.stop_of_internalName c hChar

/-- The tokens that `tokenize` yields tile the text. -/
theorem tiles_of_tokenize (hTokens : tokenize text = .ok tokens) :
    Tiles text tokens := by
  have hScans := scan_eq_ok_iff.1 hTokens
  refine ⟨hScans.ordered, ?_, ?_, ?_, ?_,
    fun t hMem => isWord_iff_isSpelled hTokens hMem,
    fun t hMem hSpelled => ?_, fun t hMem hWord =>
      (word_of_isWord hTokens hMem hWord).2,
    fun t hMem hKind c => stop_of_internalName hTokens hMem hKind⟩
  · obtain ⟨words, hAll, hWords⟩ := hScans.exists_eof
    refine ⟨words, ?_, hWords⟩
    rw [hAll, Nat.zero_add, String.length_toList]
    rfl
  · intro t hMem hKind
    obtain ⟨hStart, -, hStop, hSize⟩ := hScans.bounds t hMem
    rw [Nat.zero_add, String.length_toList] at hStop
    exact ⟨hStart, hSize hKind, hStop⟩
  · intro t hMem hKind
    obtain ⟨front, word, rest, hText, -, hValue, hStart, hStop⟩ :=
      exists_place hTokens hMem hKind
    rw [hValue, hStart, hStop, Span.slice_of_append hText]
  · intro i c hChar hOutside
    cases hBlank : isBlank c with
    | true => rfl
    | false =>
        obtain ⟨t, hMem, hStart, hStop⟩ := hScans.exists_token hChar hBlank
        rw [Nat.zero_add] at hStart hStop
        exact absurd ⟨hStart, hStop⟩ (hOutside t hMem)
  · have hWord := (isWord_iff_isSpelled hTokens hMem).2 hSpelled
    have hKind := (word_of_isWord hTokens hMem hWord).1
    rw [hKind]
    refine ⟨⟨fun hOwn => ?_, fun hKeyword => ?_⟩, ofWord_of_notMem⟩
    · by_cases hKeyword : t.value ∈ keywords
      · exact hKeyword
      · exact absurd (ofWord_of_notMem hKeyword) hOwn.1
    · obtain ⟨hIdent, hName, -⟩ := ofWord_of_mem hKeyword
      exact ⟨hIdent, hName⟩

end Token

/-- A text has tokens that tile it (`Token.Tiles`), or there is a character in
it that is neither blank nor the start of a token. The first such character is
reported: the text in front of it has tokens, and every text with the same
beginning, up to and with that character, fails alike. -/
theorem tokenize_tiles (text : String) :
    (∀ tokens, tokenize text = .ok tokens → Token.Tiles text tokens) ∧
    ∀ e, tokenize text = .error e → ∃ (p : Nat) (c : Char),
      e = ⟨.unexpectedCharacter c, some p⟩ ∧ text.toList[p]? = some c ∧
      isBlank c = false ∧ isNameStart c = false ∧
      Token.Kind.ofOperator? c = none ∧
      (∃ tokens, tokenize (String.ofList (text.toList.take p)) = .ok tokens) ∧
      ∀ other : String, other.toList.take (p + 1) = text.toList.take (p + 1) →
        tokenize other = .error e := by
  refine ⟨fun tokens => Token.tiles_of_tokenize, fun e hTokens => ?_⟩
  obtain ⟨front, c, back, hText, hHalts⟩ := Token.halts_of_scan hTokens
  have hError : e = ⟨.unexpectedCharacter c, some front.length⟩ := by
    have hFails := hHalts.fails back
    rw [← hText, Nat.zero_add] at hFails
    exact Except.error.inj (hTokens.symm.trans hFails)
  refine ⟨front.length, c, hError, by simp [hText], hHalts.not_blank,
    hHalts.not_start,
    hHalts.not_operator, ?_, fun other hShared => ?_⟩
  · obtain ⟨tokens, hScans⟩ := hHalts.reads
    refine ⟨tokens, ?_⟩
    rw [tokenize, String.toList_ofList, hText, List.take_left]
    exact Token.scan_eq_ok_iff.2 hScans
  -- The other text is the same up to and with the character, and nothing else
  -- counts.
  · have hOther : other.toList = front ++
        c :: other.toList.drop (front.length + 1) := by
      have hTake : other.toList.take (front.length + 1) = front ++ [c] := by
        rw [hShared, hText, List.append_cons]
        exact List.take_left' (by simp)
      rw [List.append_cons, ← hTake, List.take_append_drop]
    rw [tokenize, hOther, hHalts.fails, Nat.zero_add, hError]

/-- The tokens of `IDENT[[I super`. -/
def mixedTokens : List Token :=
  [⟨.ident, "IDENT", 0, 5⟩, ⟨.internalName, "[[I", 5, 8⟩,
    ⟨.superWord, "super", 9, 14⟩,
    ⟨.eof, "", 14, 14⟩]

private theorem tokenize_hash :
    tokenize "a #b" = .error ⟨.unexpectedCharacter '#', some 2⟩ := by
  cbv

/-- An internal array name stands right behind a word, and a text that goes
wrong at its third character goes wrong there whatever the fourth is. -/
theorem tokenize_tiles_mixed :
    tokenize "IDENT[[I super" = .ok mixedTokens ∧
    Token.Tiles "IDENT[[I super" mixedTokens ∧
    tokenize "a #b" = .error ⟨.unexpectedCharacter '#', some 2⟩ ∧
    tokenize "a #" = .error ⟨.unexpectedCharacter '#', some 2⟩ := by
  have hTokens : tokenize "IDENT[[I super" = .ok mixedTokens := by cbv
  obtain ⟨p, c, hError, -, -, -, -, -, hShared⟩ :=
    (tokenize_tiles "a #b").2 _ tokenize_hash
  have hPlace : p = 2 := by
    have hPosition := congrArg GrammarError.position hError
    simp only [Option.some.injEq] at hPosition
    omega
  subst hPlace
  exact ⟨hTokens, (tokenize_tiles "IDENT[[I super").1 mixedTokens hTokens,
    tokenize_hash,
    hShared "a #" (by decide)⟩

end JvmTypes
