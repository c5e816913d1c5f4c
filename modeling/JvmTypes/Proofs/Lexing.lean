import JvmTypes.Proofs.Grammar

/-!
# Lexemes of a text

`Lexes text ls` says that a text falls apart into given lexemes. It follows the
scan step by step but knows no offsets, so it is the form in which texts are put
together: whatever a text is made of, the lexemes of the whole are those of the
parts, as long as no lexeme can run on across a seam.

The seams that do hold: a character that can stand in no word and no internal
array name ends every lexeme before it (`Lexes.append`), except that a bracket
behind a bracket would open an internal array name.

## Main results

* `Lexes.scan` and `lexes_of_scan`: the relation and the scan agree, at every
  offset.
* `Lexes.append`: lexemes of a text that is put together from two.
* `Lexes.getLast?_of_bracket`: what a text that ends with a bracket ends with.
* `Lexes.unique`: there is one way to fall apart.
* `Lexes.wordBefore`, `Lexes.internalName`: a word, an internal array name.
* `isBlank_of_isNamePart`: no character of a word is blank.
-/

namespace JvmTypes

open Text

/-! ## Character classes -/

/-- The blank code points of `blankTable`, one by one. -/
private theorem mem_of_isBlank {c : Char} (hBlank : isBlank c = true) :
    c.toNat ∈ blankTable.flatMap fun range =>
      (List.range (range.last + 1 - range.first)).map (range.first + ·) := by
  obtain ⟨range, hFind⟩ := Option.isSome_iff_exists.1 hBlank
  obtain ⟨hMem, hFirst, hLast⟩ := Range.mem_of_find? hFind
  refine List.mem_flatMap.2
    ⟨range, hMem, List.mem_map.2 ⟨c.toNat - range.first, ?_, ?_⟩⟩
  · rw [List.mem_range]
    omega
  · omega

/-- No blank has a place in `wordTable`. -/
private theorem find?_wordTable_of_blank :
    ∀ n ∈ blankTable.flatMap fun range =>
      (List.range (range.last + 1 - range.first)).map (range.first + ·),
    (Range.find? wordTable n).isNone = true := by
  decide +kernel

/-- No character of a word is blank, that is, `isBlank` and `isNamePart` exclude
each other. -/
theorem isBlank_of_isNamePart {c : Char} (hPart : isNamePart c = true) :
    isBlank c = false := by
  refine Bool.eq_false_iff.2 fun hBlank => ?_
  have hNone := Option.isNone_iff_eq_none.1
    (find?_wordTable_of_blank _ (mem_of_isBlank hBlank))
  have hWord : isWord c = false := by simp [isWord, wordKind?, hNone]
  simp only [isNamePart, hWord, Bool.false_or, Bool.or_eq_true,
    decide_eq_true_eq] at hPart
  rcases hPart with rfl | rfl <;> exact absurd hBlank (by decide)

/-- A character that can stand behind no bracket of an internal array name, by
`isInternalPart`, can stand in no word. -/
theorem isNamePart_of_not_isInternalPart {c : Char}
    (hPart : Token.isInternalPart c = false) : isNamePart c = false := by
  simp only [Token.isInternalPart, Bool.or_eq_false_iff] at hPart
  exact hPart.1.1

private theorem isNameStart_of_not_isNamePart {c : Char}
    (hPart : isNamePart c = false) : isNameStart c = false :=
  Bool.eq_false_iff.2 fun hStart =>
    by simp [isNamePart_of_isNameStart hStart] at hPart

/-! ## Runs of characters at a seam -/

section Runs

variable {α : Type} {p : α → Bool}

/-- A run of `takeWhile` that would stop at `c` stops there at the latest. -/
theorem takeWhile_append_cons (front : List α) {c : α} (hStop : p c = false)
    (back : List α) : (front ++ c :: back).takeWhile p = front.takeWhile p := by
  induction front with
  | nil => simp [hStop]
  | cons a front ih => simp [List.takeWhile_cons, ih]

private theorem dropWhile_append_cons (front : List α) {c : α}
    (hStop : p c = false) (back : List α) :
    (front ++ c :: back).dropWhile p = front.dropWhile p ++ c :: back := by
  induction front with
  | nil => simp [hStop]
  | cons a front ih =>
      by_cases hHead : p a = true
      · simp [hHead, ih]
      · simp [hHead]

/-- A run of `takeWhile` that stops before the seam of two lists does not see
it. -/
theorem takeWhile_append_of_mem {front : List α} {a : α} (hMem : a ∈ front)
    (hStop : p a = false) (back : List α) :
    (front ++ back).takeWhile p = front.takeWhile p := by
  obtain ⟨before, after, rfl⟩ := List.append_of_mem hMem
  rw [List.append_assoc, List.cons_append, takeWhile_append_cons _ hStop,
    takeWhile_append_cons _ hStop]

private theorem dropWhile_append_of_mem {front : List α} {a : α}
    (hMem : a ∈ front) (hStop : p a = false) (back : List α) :
    (front ++ back).dropWhile p = front.dropWhile p ++ back := by
  obtain ⟨before, after, rfl⟩ := List.append_of_mem hMem
  rw [List.append_assoc, List.cons_append, dropWhile_append_cons _ hStop,
    dropWhile_append_cons _ hStop, List.append_assoc, List.cons_append]

/-- A run of `takeWhile` that covers all in front of the seam of two lists and
stops there is just that. -/
theorem takeWhile_append_of_all {front : List α}
    (hAll : ∀ a ∈ front, p a = true) (back : List α)
    (hStop : ∀ a, back.head? = some a → p a = false) :
    (front ++ back).takeWhile p = front := by
  rw [List.takeWhile_append_of_pos hAll]
  cases back with
  | nil => simp
  | cons b bs => simp [hStop b rfl]

theorem dropWhile_append_of_all {front : List α}
    (hAll : ∀ a ∈ front, p a = true) (back : List α)
    (hStop : ∀ a, back.head? = some a → p a = false) :
    (front ++ back).dropWhile p = back := by
  rw [List.dropWhile_append_of_pos hAll]
  cases back with
  | nil => rfl
  | cons b bs => simp [hStop b rfl]

/-- The last element of what is left behind a run is that of the whole. -/
theorem getLast?_of_suffix {front back : List α} (hSuffix : back <:+ front)
    {a : α} (hLast : back.getLast? = some a) : front.getLast? = some a := by
  obtain ⟨before, rfl⟩ := hSuffix
  simp [List.getLast?_append, hLast]

/-- The last element of two lists in a row is that of the second, if it has
one. -/
theorem getLast?_append_of_ne_nil (front : List α) {back : List α}
    (hBack : back ≠ []) : (front ++ back).getLast? = back.getLast? := by
  rw [List.getLast?_append, List.getLast?_eq_some_getLast hBack, Option.some_or]

end Runs

namespace Token

/-! ## The relation -/

/-- A text falls apart into the given lexemes. -/
inductive Lexes : List Char → List Lexeme → Prop
  | nil : Lexes [] []
  | blank {c : Char} {cs : List Char} {ls : List Lexeme}
      (hBlank : isBlank c = true) (hRest : Lexes cs ls) : Lexes (c :: cs) ls
  | word {c : Char} {cs : List Char} {ls : List Lexeme}
      (hStart : isNameStart c = true)
      (hRest : Lexes (cs.dropWhile isNamePart) ls) :
      Lexes (c :: cs)
        (⟨.ofWord (String.ofList (c :: cs.takeWhile isNamePart)),
          String.ofList (c :: cs.takeWhile isNamePart)⟩ :: ls)
  | internal {cs : List Char} {ls : List Lexeme}
      (hOpens : opensInternalName cs = true)
      (hRest : Lexes (afterInternal cs) ls) :
      Lexes ('[' :: cs) (⟨.internalName,
        String.ofList ('[' :: internalTail cs)⟩ :: ls)
  | operator {c : Char} {cs : List Char} {ls : List Lexeme} {kind : Kind}
      (hKind : Kind.ofOperator? c = some kind)
      (hOpens : (c = '[' && opensInternalName cs) = false)
      (hRest : Lexes cs ls) :
      Lexes (c :: cs) (⟨kind, String.ofList [c]⟩ :: ls)

/-- A character that `ofOperator?` knows is neither blank nor the start of a
word. -/
theorem not_blank_of_ofOperator? {c : Char} {kind : Kind}
    (hKind : Kind.ofOperator? c = some kind) :
    isBlank c = false ∧ isNameStart c = false := by
  unfold Kind.ofOperator? at hKind
  split at hKind
  case h_10 => cases hKind
  all_goals decide

/-! ## The steps of the scan -/

section Steps

variable (offset : Nat) {c : Char} {cs : List Char}

theorem scan_blank (hBlank : isBlank c = true) :
    scan offset (c :: cs) = scan (offset + 1) cs := by
  rw [scan, if_pos hBlank]

theorem scan_word (hStart : isNameStart c = true) :
    scan offset (c :: cs) =
      (ofChars (.ofWord (String.ofList (c :: cs.takeWhile isNamePart))) offset
          (c :: cs.takeWhile isNamePart) :: ·) <$>
        scan (offset + (c :: cs.takeWhile isNamePart).length)
          (cs.dropWhile isNamePart) := by
  have hBlank := isBlank_of_isNamePart (isNamePart_of_isNameStart hStart)
  rw [scan, if_neg (by simp [hBlank]), if_pos hStart]

theorem scan_internal (hOpens : opensInternalName cs = true) :
    scan offset ('[' :: cs) =
      (ofChars .internalName offset ('[' :: internalTail cs) :: ·) <$>
        scan (offset + ('[' :: internalTail cs).length) (afterInternal cs) := by
  rw [scan, if_neg (by decide), if_neg (by decide), if_pos (by simp [hOpens])]

theorem scan_operator {kind : Kind} (hKind : Kind.ofOperator? c = some kind)
    (hOpens : (c = '[' && opensInternalName cs) = false) :
    scan offset (c :: cs) = (ofChars kind offset [c] :: ·) <$>
      scan (offset + 1) cs := by
  obtain ⟨hBlank, hStart⟩ := not_blank_of_ofOperator? hKind
  rw [scan, if_neg (by simp [hBlank]), if_neg (by simp [hStart]),
    if_neg (by simp [hOpens]), hKind]

end Steps

/-- A text that falls apart into lexemes by `Lexes` is scanned into tokens with
these lexemes, wherever it starts. -/
theorem Lexes.scan {text : List Char} {ls : List Lexeme}
    (hLexes : Lexes text ls) (offset : Nat) :
    ∃ tokens stop, Token.scan offset text = .ok (tokens ++ [stop]) ∧
      stop.kind = .eof ∧
      tokens.map lexeme = ls := by
  induction hLexes generalizing offset with
  | nil => exact ⟨[], ofChars .eof offset [], by rw [Token.scan]; rfl, rfl, rfl⟩
  | blank hBlank _ ih =>
      rw [scan_blank offset hBlank]
      exact ih (offset + 1)
  | @word c cs _ hStart _ ih =>
      obtain ⟨tokens, stop, hScan, hStop, rfl⟩ :=
        ih (offset + (c :: cs.takeWhile isNamePart).length)
      rw [scan_word offset hStart, hScan]
      exact ⟨_ :: tokens, stop, rfl, hStop, rfl⟩
  | @internal cs _ hOpens _ ih =>
      obtain ⟨tokens, stop, hScan, hStop, rfl⟩ :=
        ih (offset + ('[' :: internalTail cs).length)
      rw [scan_internal offset hOpens, hScan]
      exact ⟨_ :: tokens, stop, rfl, hStop, rfl⟩
  | operator hKind hOpens _ ih =>
      obtain ⟨tokens, stop, hScan, hStop, rfl⟩ := ih (offset + 1)
      rw [scan_operator offset hKind hOpens, hScan]
      exact ⟨_ :: tokens, stop, rfl, hStop, rfl⟩

/-- A success of `(token :: ·)` mapped over a result is a success of that with
the token in front. -/
theorem exists_of_cons_map {token : Token}
    {result : Except GrammarError (List Token)} {all : List Token}
    (hMap : (token :: ·) <$> result = .ok all) :
    ∃ rest, result = .ok rest ∧ all = token :: rest := by
  cases result with
  | error error => cases hMap
  | ok rest =>
      cases hMap
      exact ⟨rest, rfl, rfl⟩

/-- A text that is scanned falls apart into the lexemes of its tokens, behind
which there is one `eof`. -/
theorem lexes_of_scan {offset : Nat} {text : List Char} {all : List Token}
    (hScan : scan offset text = .ok all) :
    ∃ tokens stop, all = tokens ++ [stop] ∧ stop.kind = .eof ∧
      Lexes text (tokens.map lexeme) := by
  fun_induction scan offset text generalizing all with
  | case1 offset =>
      cases hScan
      exact ⟨[], _, rfl, rfl, .nil⟩
  | case2 offset c cs hBlank ih =>
      obtain ⟨tokens, stop, rfl, hStop, hLexes⟩ := ih hScan
      exact ⟨tokens, stop, rfl, hStop, .blank hBlank hLexes⟩
  | case3 =>
      rename_i hStart _ ih
      obtain ⟨rest, hRest, rfl⟩ := exists_of_cons_map hScan
      obtain ⟨tokens, stop, rfl, hStop, hLexes⟩ := ih hRest
      exact ⟨_ :: tokens, stop, rfl, hStop, .word hStart hLexes⟩
  | case4 =>
      rename_i hOpens _ ih
      obtain ⟨hBracket, hOpens⟩ := Bool.and_eq_true_iff.1 hOpens
      obtain rfl := of_decide_eq_true hBracket
      obtain ⟨rest, hRest, rfl⟩ := exists_of_cons_map hScan
      obtain ⟨tokens, stop, rfl, hStop, hLexes⟩ := ih hRest
      exact ⟨_ :: tokens, stop, rfl, hStop, .internal hOpens hLexes⟩
  | case5 offset c cs _ _ _ hKind => cases hScan
  | case6 offset c cs _ _ hOpens kind hKind ih =>
      obtain ⟨rest, hRest, rfl⟩ := exists_of_cons_map hScan
      obtain ⟨tokens, stop, rfl, hStop, hLexes⟩ := ih hRest
      exact ⟨_ :: tokens, stop, rfl, hStop,
        .operator hKind (by simpa using hOpens) hLexes⟩

/-- The kind of a word is no `eof`, and if it is a keyword of a primitive type,
the word is that keyword. -/
theorem kind_ofWord (text : String) :
    Kind.ofWord text ≠ .eof ∧ ∀ p, Kind.ofWord text = .primitive p →
    text = p.name := by
  unfold Kind.ofWord
  cases hFind : Kind.ofKeyword? text with
  | none => simp
  | some kind =>
      rw [Option.getD_some]
      have hName := Kind.name_of_ofKeyword? hFind
      refine ⟨?_, ?_⟩
      · rintro rfl
        rw [← hName] at hFind
        revert hFind
        decide
      · rintro p rfl
        exact hName.symm

/-- The lexemes of a text have no `eof` among them, and a keyword of a primitive
type is its own text. -/
theorem Lexes.kinds {text : List Char} {ls : List Lexeme}
    (hLexes : Lexes text ls) :
    ∀ l ∈ ls, l.kind ≠ .eof ∧ ∀ p, l.kind = .primitive p → l.text = p.name := by
  induction hLexes with
  | nil => simp
  | blank _ _ ih => exact ih
  | word _ _ ih => exact List.forall_mem_cons.2 ⟨kind_ofWord _, ih⟩
  | internal _ _ ih => exact List.forall_mem_cons.2 ⟨⟨by simp, by simp⟩, ih⟩
  | operator hKind _ _ ih =>
      refine List.forall_mem_cons.2 ⟨?_, ih⟩
      unfold Kind.ofOperator? at hKind
      split at hKind <;> cases hKind <;> simp

/-! ## Texts that are put together -/

theorem opensInternalName_append {front : List Char} (hFront : front ≠ [])
    (back : List Char) :
    opensInternalName (front ++ back) = opensInternalName front := by
  cases front with
  | nil => exact absurd rfl hFront
  | cons c cs => rfl

/-- The brackets of an internal array name end before a character that is no
bracket, or before one that is if the name has gone on by then. -/
private theorem runs_of_brackets {front : List Char} {c : Char}
    (hBracket : c = '[' → front.getLast? ≠ some '[') (hFront : front ≠ [])
    (back : List Char) :
    (front ++ c :: back).takeWhile (· = '[') = front.takeWhile (· = '[') ∧
      (front ++ c :: back).dropWhile (· = '[') = front.dropWhile (· = '[') ++
        c :: back := by
  by_cases hHead : c = '['
  · -- The last character of `front` is no bracket, so the run stops inside it.
    have hLast : front.getLast hFront ≠ '[' := fun hEq =>
      hBracket hHead (by rw [List.getLast?_eq_some_getLast hFront, hEq])
    exact ⟨takeWhile_append_of_mem (List.getLast_mem hFront)
      (by simpa using hLast) _,
      dropWhile_append_of_mem (List.getLast_mem hFront)
        (by simpa using hLast) _⟩
  · exact ⟨takeWhile_append_cons _ (by simpa using hHead) _,
      dropWhile_append_cons _ (by simpa using hHead) _⟩

/-- The lexemes of two texts in a row, the second of which starts with a
character that no lexeme of the first can run on to. -/
theorem Lexes.append {front back : List Char} {c : Char} {ls ms : List Lexeme}
    (hFront : Lexes front ls) (hBack : Lexes (c :: back) ms)
    (hPart : isInternalPart c = false)
    (hBracket : c = '[' → front.getLast? ≠ some '[') :
    Lexes (front ++ c :: back) (ls ++ ms) := by
  have hName := isNamePart_of_not_isInternalPart hPart
  induction hFront with
  | nil => exact hBack
  | @blank a cs _ hBlank _ ih =>
      refine .blank hBlank (ih fun hHead hLast => hBracket hHead ?_)
      exact getLast?_of_suffix (List.suffix_cons a cs) hLast
  | @word a cs ls hStart _ ih =>
      have hRest := ih fun hHead hLast => hBracket hHead
        (getLast?_of_suffix ((List.dropWhile_suffix _).trans
          (List.suffix_cons a cs)) hLast)
      rw [← dropWhile_append_cons cs hName back] at hRest
      have hWord := Lexes.word hStart hRest
      rwa [takeWhile_append_cons cs hName back] at hWord
  | @internal cs ls hOpens _ ih =>
      have hNonempty : cs ≠ [] := by
        rintro rfl
        exact absurd hOpens (by decide)
      have hSuffix : afterInternal cs <:+ '[' :: cs :=
        ((List.dropWhile_suffix _).trans (List.dropWhile_suffix _)).trans
          (List.suffix_cons _ cs)
      have hRest :=
        ih fun hHead hLast => hBracket hHead (getLast?_of_suffix hSuffix hLast)
      have hInner : c = '[' → cs.getLast? ≠ some '[' := fun hHead hLast =>
        hBracket hHead (getLast?_of_suffix (List.suffix_cons _ cs) hLast)
      obtain ⟨hTake, hDrop⟩ := runs_of_brackets hInner hNonempty back
      have hTail : internalTail (cs ++ c :: back) = internalTail cs := by
        rw [internalTail, hTake, hDrop,
          takeWhile_append_cons _ hPart, internalTail]
      have hAfter : afterInternal (cs ++ c :: back) = afterInternal cs ++
          c :: back := by
        rw [afterInternal, hDrop, dropWhile_append_cons _ hPart, afterInternal]
      rw [← hAfter] at hRest
      have hInternal := Lexes.internal
        (by rw [opensInternalName_append hNonempty, hOpens]) hRest
      rwa [hTail] at hInternal
  | @operator a cs ls kind hKind hOpens _ ih =>
      have hRest := ih fun hHead hLast =>
        hBracket hHead (getLast?_of_suffix (List.suffix_cons a cs) hLast)
      refine .operator hKind ?_ hRest
      cases cs with
      | cons b cs => exact hOpens
      | nil =>
          have hStart := isNameStart_of_not_isNamePart hName
          by_cases hHead : a = '['
          · have hOther : c ≠ '[' := fun hC => hBracket hC (by simp [hHead])
            simp [opensInternalName, hStart, hOther]
          · simp [hHead]

/-- An internal array name at the start of a text and `afterInternal` make up
the text. -/
theorem internalTail_append_afterInternal (text : List Char) :
    internalTail text ++ afterInternal text = text := by
  rw [internalTail, afterInternal, List.append_assoc,
    List.takeWhile_append_dropWhile, List.takeWhile_append_dropWhile]

/-- A text that ends with a bracket ends with an opening bracket or in the
middle of an internal array name. -/
theorem Lexes.getLast?_of_bracket {text : List Char} {ls : List Lexeme}
    (hLexes : Lexes text ls) (hBracket : text.getLast? = some '[') :
    ∃ l, ls.getLast? = some l ∧ (l.kind = .lbracket ∨
      l.kind = .internalName ∧ l.text.toList.getLast? = some '[') := by
  -- In each step either something follows the first lexeme, which then ends
  -- with the bracket, or the first lexeme is the whole text.
  induction hLexes with
  | nil => cases hBracket
  | @blank c cs ls hBlank _ ih =>
      cases cs with
      | nil =>
          cases hBracket
          exact absurd hBlank (by decide)
      | cons d ds => exact ih (by rwa [List.getLast?_cons_cons] at hBracket)
  | @word c cs ls hStart _ ih =>
      have hSplit : c :: cs.takeWhile isNamePart ++
          cs.dropWhile isNamePart = c :: cs := by
        rw [List.cons_append, List.takeWhile_append_dropWhile]
      rw [← hSplit] at hBracket
      by_cases hRest : cs.dropWhile isNamePart = []
      · rw [hRest, List.append_nil] at hBracket
        rcases List.mem_cons.1 (List.mem_of_getLast? hBracket) with rfl | hTail
        · exact absurd hStart (by decide)
        · exact absurd (List.all_eq_true.1 List.all_takeWhile _ hTail)
            (by decide)
      · rw [getLast?_append_of_ne_nil _ hRest] at hBracket
        obtain ⟨l, hLast, hKind⟩ := ih hBracket
        exact ⟨l, by simp [List.getLast?_cons, hLast], hKind⟩
  | @internal cs ls hOpens _ ih =>
      rw [← internalTail_append_afterInternal cs,
        ← List.cons_append] at hBracket
      by_cases hRest : afterInternal cs = []
      · rename_i hLexes
        rw [hRest] at hLexes hBracket
        cases hLexes
        exact ⟨_, rfl, .inr ⟨rfl, by simpa using hBracket⟩⟩
      · rw [getLast?_append_of_ne_nil _ hRest] at hBracket
        obtain ⟨l, hLast, hKind⟩ := ih hBracket
        exact ⟨l, by simp [List.getLast?_cons, hLast], hKind⟩
  | @operator c cs ls kind hKind _ hLexes ih =>
      cases cs with
      | nil =>
          cases hBracket
          cases hLexes
          cases hKind
          exact ⟨_, rfl, .inl rfl⟩
      | cons d ds =>
          rw [List.getLast?_cons_cons] at hBracket
          obtain ⟨l, hLast, hKind⟩ := ih hBracket
          exact ⟨l, by simp [List.getLast?_cons, hLast], hKind⟩

/-! ## Single lexemes -/

/-- A text falls apart into lexemes by `Lexes` in one way. -/
theorem Lexes.unique {text : List Char} {ls ms : List Lexeme}
    (hFirst : Lexes text ls) (hSecond : Lexes text ms) : ls = ms := by
  obtain ⟨tokens, stop, hScan, -, rfl⟩ := hFirst.scan 0
  obtain ⟨tokens', stop', hScan', -, rfl⟩ := hSecond.scan 0
  rw [hScan] at hScan'
  have hTokens := congrArg List.dropLast (Except.ok.inj hScan')
  rw [List.dropLast_concat, List.dropLast_concat] at hTokens
  rw [hTokens]

/-- A word ends before any character that `isNamePart` keeps out of it. -/
theorem Lexes.wordBefore {c : Char} (cs rest : List Char) {ls : List Lexeme}
    (hStart : isNameStart c = true) (hParts : ∀ d ∈ cs, isNamePart d = true)
    (hHead : ∀ d, rest.head? = some d → isNamePart d = false)
    (hRest : Lexes rest ls) :
    Lexes (c :: cs ++ rest)
      (⟨.ofWord (String.ofList (c :: cs)), String.ofList (c :: cs)⟩ :: ls) := by
  rw [← dropWhile_append_of_all hParts rest hHead] at hRest
  have hWord := Lexes.word hStart hRest
  rwa [takeWhile_append_of_all hParts rest hHead] at hWord

/-- Every character of a class name is an `isInternalPart`. -/
theorem isInternalPart_of_mem_isClassName {name : List Char}
    (hName : IsClassName name) : ∀ c ∈ name, isInternalPart c = true := by
  obtain ⟨segments, -, hSegments, rfl⟩ := hName
  induction segments with
  | nil => simp
  | cons segment segments ih =>
      obtain ⟨hHead, hRest⟩ := List.forall_mem_cons.1 hSegments
      obtain ⟨d, ds, rfl, hStart, hParts⟩ := hHead
      have hSegment : ∀ c ∈ d :: ds, isInternalPart c = true := by
        intro c hMem
        have hPart : isNamePart c = true := by
          rcases List.mem_cons.1 hMem with rfl | hMem
          · exact isNamePart_of_isSegmentStart hStart
          · exact hParts c hMem
        simp [isInternalPart, hPart]
      cases segments with
      | nil => simpa using hSegment
      | cons next segments =>
          rw [List.intercalate_cons_cons]
          intro c hMem
          rw [List.append_assoc] at hMem
          rcases List.mem_append.1 hMem with hMem | hMem
          · exact hSegment c hMem
          · rcases List.mem_append.1 hMem with hMem | hMem
            · rw [List.mem_singleton.1 hMem]
              decide
            · exact ih hRest c hMem

/-- The characters of a descriptor that `IsElement` accepts can all stand in an
internal array name, and it starts with a letter. -/
theorem isInternalPart_of_isElement {descriptor : List Char}
    (hElement : InternalName.IsElement descriptor) :
    (∀ c ∈ descriptor, isInternalPart c = true) ∧
      ∃ c cs, descriptor = c :: cs ∧ isNameStart c = true := by
  rcases hElement with ⟨p, -, rfl⟩ | ⟨name, hName, rfl⟩
  · refine ⟨List.forall_mem_singleton.2 ?_, p.code, [], rfl, ?_⟩ <;>
      cases p <;> decide
  · refine ⟨?_, 'L', name ++ [';'], rfl, by decide⟩
    intro c hMem
    rcases List.mem_cons.1 hMem with rfl | hMem
    · decide
    · rcases List.mem_append.1 hMem with hMem | hMem
      · exact isInternalPart_of_mem_isClassName hName c hMem
      · rw [List.mem_singleton.1 hMem]
        decide

/-- Behind its first bracket, an internal array name goes on as one, by
`opensInternalName`. -/
theorem opensInternalName_of_isElement {descriptor : List Char}
    (hElement : InternalName.IsElement descriptor) (n : Nat) :
    opensInternalName (List.replicate n '[' ++ descriptor) = true := by
  obtain ⟨-, c, cs, hDescriptor, hStart⟩ := isInternalPart_of_isElement hElement
  cases n with
  | zero => simp [hDescriptor, opensInternalName, hStart]
  | succ n => simp [List.replicate_succ, opensInternalName]

/-- An internal array name, as `IsInternalName` tells it, is a single lexeme. -/
theorem Lexes.internalName {text : List Char}
    (hInternal : InternalName.IsInternalName text) :
    Lexes text [⟨.internalName, String.ofList text⟩] := by
  obtain ⟨dimensions, descriptor, hPositive, hElement, rfl⟩ := hInternal
  obtain ⟨n, rfl⟩ := Nat.exists_eq_succ_of_ne_zero (Nat.ne_of_gt hPositive)
  obtain ⟨hParts, -⟩ := isInternalPart_of_isElement hElement
  have hHead : ∀ a, descriptor.head? = some a → decide (a = '[') = false := by
    intro a hFirst
    refine decide_eq_false fun hEq => ?_
    exact InternalName.head?_ne_bracket_of_isElement hElement (hEq ▸ hFirst)
  have hBrackets : ∀ a ∈ List.replicate n '[',
      decide (a = '[') = true := by simp
  have hDrop := dropWhile_append_of_all hBrackets descriptor hHead
  have hTail : internalTail (List.replicate n '[' ++ descriptor) =
      List.replicate n '[' ++ descriptor := by
    rw [internalTail, takeWhile_append_of_all hBrackets descriptor hHead, hDrop]
    congr 1
    simpa using takeWhile_append_of_all hParts [] (by simp)
  have hAfter : afterInternal (List.replicate n '[' ++ descriptor) = [] := by
    rw [afterInternal, hDrop]
    simpa using dropWhile_append_of_all hParts [] (by simp)
  have hOpens := opensInternalName_of_isElement hElement n
  have hLexes := Lexes.internal hOpens (hAfter ▸ Lexes.nil)
  rwa [hTail] at hLexes

end Token

end JvmTypes
