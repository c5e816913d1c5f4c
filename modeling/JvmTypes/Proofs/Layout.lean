import JvmTypes.Proofs.Places

/-!
# Layout

Blanks may be put into a text wherever they lie inside no token: in front, at
the end, and between tokens. `Relaid` says so by the offsets of the tokens,
character by character. A text that is laid out anew has the same tokens at
other places, because a token ends as it did when a blank, or what followed
before, follows it (`Token.Munch.of_head`). From there on it is the comparison
of texts with tokens that are alike.

## Main results

* `Token.Scans.relaid`: the tokens of a text that is laid out anew.
* `relaid_parse`: reading, value and error of such a text.
-/

namespace JvmTypes

open Text

/-- A text, from an offset on, and the same text with blanks put in at places
that lie inside none of the given tokens. -/
inductive Relaid (tokens : List Token) : Nat → List Char → List Char → Prop
  | nil (offset : Nat) : Relaid tokens offset [] []
  | keep {offset : Nat} {c : Char} {cs cs' : List Char}
      (hRest : Relaid tokens (offset + 1) cs cs') :
      Relaid tokens offset (c :: cs) (c :: cs')
  | insert {offset : Nat} {b : Char} {cs cs' : List Char}
      (hBlank : isBlank b = true)
      (hPlace : ∀ t ∈ tokens, (offset : Int) ≤ t.start ∨
        t.stop ≤ (offset : Int))
      (hRest : Relaid tokens offset cs cs') : Relaid tokens offset cs (b :: cs')

namespace Relaid

variable {tokens : List Token} {offset : Nat} {text text' : List Char}

/-- Nothing but blanks is put behind the end. -/
theorem of_nil (hRelaid : Relaid tokens offset [] text') :
    ∀ b ∈ text', isBlank b = true := by
  generalize hText : ([] : List Char) = text at hRelaid
  induction hRelaid with
  | nil => simp
  | keep => cases hText
  | insert hBlank _ _ ih => exact List.forall_mem_cons.2 ⟨hBlank, ih hText⟩

/-- No character is taken away. -/
theorem of_empty (hRelaid : Relaid tokens offset text []) : text = [] := by
  cases hRelaid
  rfl

/-- Nothing but blanks is put in front of a character. -/
theorem of_cons {c : Char} {cs : List Char}
    (hRelaid : Relaid tokens offset (c :: cs) text') :
    ∃ blanks rest, (∀ b ∈ blanks, isBlank b = true) ∧
      text' = blanks ++ c :: rest ∧
      Relaid tokens (offset + 1) cs rest := by
  generalize hText : c :: cs = text at hRelaid
  induction hRelaid with
  | nil => cases hText
  | keep hRest =>
      cases hText
      exact ⟨[], _, by simp, rfl, hRest⟩
  | @insert _ b _ _ hBlank _ _ ih =>
      obtain ⟨blanks, rest, hBlanks, rfl, hRest⟩ := ih hText
      exact ⟨b :: blanks, rest,
        List.forall_mem_cons.2 ⟨hBlank, hBlanks⟩, rfl, hRest⟩

/-- Nothing is put into a token behind its first character. -/
theorem of_inside {t : Token} (hMem : t ∈ tokens) {word rest : List Char}
    (hRelaid : Relaid tokens offset (word ++ rest) text')
    (hStart : t.start < (offset : Int))
    (hStop : t.stop = (offset + word.length : Nat)) :
    ∃ rest', text' = word ++ rest' ∧
      Relaid tokens (offset + word.length) rest rest' := by
  induction word generalizing offset text' with
  | nil => exact ⟨text', rfl, hRelaid⟩
  | cons c cs ih =>
      simp only [List.length_cons] at hStop
      cases hRelaid with
      | keep hRest =>
          obtain ⟨rest', rfl, hBehind⟩ := ih hRest (by omega) (by omega)
          refine ⟨rest', rfl, ?_⟩
          rwa [List.length_cons, Nat.add_comm cs.length, ← Nat.add_assoc]
      | insert _ hPlace =>
          have hInside := hPlace t hMem
          omega

/-- What is laid out anew starts with a blank or as before. -/
theorem head (hRelaid : Relaid tokens offset text text') :
    ∀ c, text'.head? = some c → isBlank c = true ∨ text.head? = some c := by
  intro c hHead
  cases hRelaid with
  | nil => cases hHead
  | keep => exact .inr hHead
  | insert hBlank =>
      obtain rfl := Option.some.inj hHead
      exact .inl hBlank

end Relaid

namespace Token

theorem Scans.blanks {blanks rest : List Char} {offset : Nat}
    {tokens : List Token} (hBlanks : ∀ b ∈ blanks, isBlank b = true)
    (hRest : Scans (offset + blanks.length) rest tokens) :
    Scans offset (blanks ++ rest) tokens := by
  induction blanks generalizing offset with
  | nil => exact hRest
  | cons b blanks ih =>
      obtain ⟨hBlank, hBlanks⟩ := List.forall_mem_cons.1 hBlanks
      refine .blank hBlank (ih hBlanks ?_)
      rwa [Nat.add_assoc, Nat.add_comm 1]

/-- A text that is `Relaid` has the same tokens at other places. -/
theorem Scans.relaid {tokens scanned : List Token} {offset : Nat}
    {text text' : List Char} (hScans : Scans offset text scanned)
    (hTokens : ∀ t ∈ scanned, t ∈ tokens)
    (hRelaid : Relaid tokens offset text text') (offset' : Nat) :
    ∃ scanned', Scans offset' text' scanned' ∧
      List.Forall₂ (fun t t' => t.kind = t'.kind ∧
        t.value = t'.value) scanned scanned' := by
  induction hScans generalizing text' offset' with
  | eof offset =>
      have hEof := Scans.blanks hRelaid.of_nil (.eof (offset' + text'.length))
      rw [List.append_nil] at hEof
      exact ⟨_, hEof, .cons ⟨rfl, rfl⟩ .nil⟩
  | blank hBlank _ ih =>
      obtain ⟨blanks, rest, hBlanks, rfl, hRest⟩ := hRelaid.of_cons
      obtain ⟨scanned', hScans', hSame⟩ :=
        ih hTokens hRest (offset' + blanks.length + 1)
      exact ⟨scanned', .blanks hBlanks (.blank hBlank hScans'), hSame⟩
  | @token offset kind word rest scanned hMunch hBehind ih =>
      obtain ⟨hMem, hLater⟩ := List.forall_mem_cons.1 hTokens
      match word, hMunch.length_pos with
      | c :: cs, _ =>
          -- Blanks in front of the token, the token as it is, and the rest laid
          -- out anew.
          obtain ⟨blanks, behind, hBlanks, rfl, hInside⟩ := hRelaid.of_cons
          obtain ⟨rest', rfl, hRest⟩ := hInside.of_inside hMem
            (by simp only [ofChars]; omega)
            (by simp only [ofChars, List.length_cons]; omega)
          have hLength : offset + 1 + cs.length = offset +
              (c :: cs).length := by
            simp only [List.length_cons]
            omega
          rw [hLength] at hRest
          obtain ⟨scanned', hScans', hSame⟩ :=
            ih hLater hRest (offset' + blanks.length + (c :: cs).length)
          exact ⟨_, .blanks hBlanks
            (.token (hMunch.of_head hRest.head) hScans'),
            .cons ⟨rfl, rfl⟩ hSame⟩

end Token

/-- The places where corresponding tokens of two lists start, as a relation for
`Token.Like`. -/
def StartsAlike (tokens tokens' : List Token) (place place' : Int) : Prop :=
  ∃ t t', (t, t') ∈ tokens.zip tokens' ∧ t.start = place ∧ t'.start = place'

private theorem startsAlike_of_same {tokens tokens' : List Token}
    (hSame : List.Forall₂ (fun t t' : Token => t.kind = t'.kind ∧
      t.value = t'.value)
      tokens tokens') :
    List.Forall₂ (Token.Like (StartsAlike tokens tokens')) tokens tokens' := by
  refine List.forall₂_iff_zip.2 ⟨hSame.length_eq, fun {t t'} hMem => ?_⟩
  obtain ⟨hKind, hValue⟩ := List.forall₂_zip hSame hMem
  exact ⟨hKind, hValue, t, t', hMem, rfl, rfl⟩

/-- Layout does not matter: if a text is `Relaid`, with blanks put in anywhere
but inside a token, `tokenize` yields tokens of the same kinds and texts,
`Expression.ofText` makes the same tree and `parse` comes to the same value. If
it fails, the `report` of the error stays the same but for its place, which
moves along with the token that starts there. -/
theorem relaid_parse (scope : Scope) (text text' : String) (tokens : List Token)
    (hText : text ≠ "") (hTokens : tokenize text = .ok tokens)
    (hRelaid : Relaid tokens 0 text.toList text'.toList) :
    ∃ tokens', tokenize text' = .ok tokens' ∧
      List.Forall₂ (fun t t' => t.kind = t'.kind ∧
        t.value = t'.value) tokens tokens' ∧
      InStep
        (fun e e' : GrammarError => ∃ t t', (t, t') ∈ tokens.zip tokens' ∧
          e.report.position = some t.start ∧
          e'.report = { e.report with position := some t'.start })
        (fun e e' => e.same e' = true) (Expression.ofText text)
        (Expression.ofText text') ∧
      InStep
        (fun e e' : Error => ∃ t t', (t, t') ∈ tokens.zip tokens' ∧
          e.report.position = some t.start ∧
          e'.report = { e.report with position := some t'.start })
        (· = ·) (scope.parse text).result (scope.parse text').result := by
  have hScans := Token.scan_eq_ok_iff.1 hTokens
  obtain ⟨tokens', hScans', hSame⟩ :=
    hScans.relaid (fun t hMem => hMem) hRelaid 0
  have hTokens' : tokenize text' = .ok tokens' := Token.scan_eq_ok_iff.2 hScans'
  have hLike := startsAlike_of_same hSame
  have hText' : text' ≠ "" := by
    rintro rfl
    exact hText (String.toList_eq_nil_iff.1 hRelaid.of_empty)
  refine ⟨tokens', hTokens', hSame, ?_, ?_⟩
  · refine (Expression.like_of_ofText hText hText' hTokens hTokens' hLike).mono
      ?_ ?_
    · intro e e' hMoved
      obtain ⟨p, p', hPosition, hReport, t, t', hMem, rfl, rfl⟩ :=
        hMoved.moved.report
      exact ⟨t, t', hMem, hPosition, hReport⟩
    · intro e e' hTree
      exact (Expression.same_iff_erase_eq e e').2 hTree.erase
  · refine (scope.moved_of_parse hText hText' hTokens hTokens' hLike).mono ?_
      fun v v' hEq => hEq
    intro e e' hMoved
    obtain ⟨p, p', hPosition, hReport, t, t', hMem, rfl, rfl⟩ := hMoved.report
    exact ⟨t, t', hMem, hPosition, hReport⟩

/-- The tokens of `List[]`. -/
def listArrayTokens : List Token := [
  ⟨.ident, "List", 0, 4⟩, ⟨.lbracket, "[", 4, 5⟩, ⟨.rbracket, "]", 5, 6⟩,
  ⟨.eof, "", 6, 6⟩]

private theorem parse_listArray : (listScope.parse "List[]").result =
    .ok (.classType (.array (.declared ⟨"List", ["E"]⟩))) := by
  have hTree : Expression.ofText "List[]" =
      .ok (.array (.raw ⟨"List", some ⟨0, 4⟩⟩) (some ⟨0, 6⟩)) := by cbv
  rw [Scope.parse, hTree]
  rfl

/-- Blanks between the brackets of `List[]`, in front of them and at the end. -/
theorem relaid_parse_listArray :
    tokenize "List[]" = .ok listArrayTokens ∧
    Relaid listArrayTokens 0 "List[]".toList "List [\t] ".toList ∧
    ∃ v, (listScope.parse "List[]").result = .ok v ∧
      (listScope.parse "List [\t] ").result = .ok v := by
  have hTokens : tokenize "List[]" = .ok listArrayTokens := by cbv
  have hRelaid : Relaid listArrayTokens 0 "List[]".toList "List [\t] ".toList :=
    .keep (.keep (.keep (.keep
      (.insert (by decide) (by decide) (.keep (.insert (by decide)
      (by decide) (.keep (.insert (by decide) (by decide) (.nil 6)))))))))
  obtain ⟨tokens', -, -, -, hParse⟩ :=
    relaid_parse listScope "List[]" "List [\t] " listArrayTokens
      (by decide) hTokens hRelaid
  rw [parse_listArray] at hParse
  refine ⟨hTokens, hRelaid, _, parse_listArray, ?_⟩
  generalize (listScope.parse "List [\t] ").result = outcome at hParse
  cases hParse with
  | ok hEq => rw [← hEq]

end JvmTypes
