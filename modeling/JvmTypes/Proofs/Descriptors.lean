import JvmTypes.Catalog
import JvmTypes.Proofs.InStep
import JvmTypes.Proofs.Tiling

/-!
# Descriptors, names in texts and names in catalogs

Three scans decide about class names: a catalog reads the name of a class, an
internal array name has a class name in its descriptor, and a text spells dotted
names. The first two accept the same names, wherever such a name starts and
however it would be cut into tokens by itself: what is written between `[L` and
`;` is a class name or no text can be read that way. A `;` stands in no token
but an internal array name, and only brackets may follow such a token, so a text
that ends with `;` and starts with an internal array name is that one token
(`eq_internal_of_semicolon`).

A text spells fewer names than a catalog takes, for its words start with no
numeral. The names of a tree are among those that a catalog takes, and each is
the text that it was read from without the blanks (`name_of_ofText`).

## Main results

* `Catalog.takesName_iff`, `Catalog.register_eq_invalidName_iff`: the names that
  a catalog takes.
* `Expression.ofText_descriptor_iff`: a text that puts a name between `[L` and
  `;`.
* `Expression.takesName_of_ofText`: internal names, the names in a tree and the
  catalogs agree.
-/

namespace JvmTypes

open Text

/-! ## Names in catalogs -/

/-- Of a name only `readName` complains. The type parameters are read later, and
whatever is wrong there is said of them. -/
theorem Declaration.readName_of_read_eq_invalidName
    {name parameters other : Document}
    (hRead : read name parameters = .error (.invalidName other)) :
    readName name = .error (.invalidName other) := by
  rcases cases_of_bind_eq_error hRead with hName | ⟨owner, -, hRest⟩
  · exact hName
  · exfalso
    rcases cases_of_bind_eq_error hRest with hListed | ⟨listed, -, hRest⟩
    · cases parameters <;> cases hListed
    · rcases cases_of_bind_eq_error hRest
        with hParameters | ⟨names, -, hDistinct⟩
      · obtain ⟨parameter, -, hParameter⟩ := exists_of_mapM_eq_error hParameters
        unfold readParameter at hParameter
        split at hParameter
        · split at hParameter <;> cases hParameter
        · cases hParameter
      · split at hDistinct <;> cases hDistinct

namespace Catalog

/-- A catalog takes a name as that of a class: `register` succeeds under it,
without type parameters. -/
def TakesName (c : Catalog) (name : String) : Prop :=
  ∃ after, c.register (.str name) (.list []) = .ok (⟨name, []⟩, after)

variable {c : Catalog} {name : String}

theorem takesName_iff : c.TakesName name ↔ IsClassName name.toList := by
  rw [← isClassName_iff, TakesName, register, Declaration.read,
    Declaration.readName]
  constructor
  · rintro ⟨after, hRegister⟩
    split at hRegister
    · next hName => exact hName
    · cases hRegister
  · intro hName
    rw [if_pos hName]
    exact ⟨_, rfl⟩

/-- A `register` under a name that is not taken fails for the name, whatever the
type parameters, and no other does. -/
theorem register_eq_invalidName_iff (parameters : Document) :
    c.register (.str name) parameters = .error (.invalidName (.str name)) ↔
      ¬ c.TakesName name := by
  rw [takesName_iff, ← isClassName_iff, register]
  constructor
  · intro hRegister hName
    rcases cases_of_bind_eq_error hRegister with hRead | ⟨d, -, hStored⟩
    · have hRefused := Declaration.readName_of_read_eq_invalidName hRead
      rw [Declaration.readName, if_pos hName] at hRefused
      cases hRefused
    · cases hStored
  · intro hName
    rw [Declaration.read, Declaration.readName, if_neg hName]
    rfl

end Catalog

/-! ## Class descriptors -/

namespace InternalName

/-- A bracket in front of the `classDescriptor` of a name makes an internal
array name exactly if the name is that of a class. -/
theorem isInternalName_bracket_iff {name : List Char} :
    IsInternalName ('[' :: classDescriptor name) ↔ IsClassName name := by
  have hHead : (classDescriptor name).head? ≠ some '[' := by
    simp [classDescriptor]
  have hDepth : depth ('[' :: classDescriptor name) = 1 :=
    depth_brackets 1 hHead
  have hElement : element ('[' :: classDescriptor name) =
      classDescriptor name :=
    element_brackets 1 hHead
  have hCode : isPrimitiveCode (classDescriptor name) = false := by
    cases name <;> rfl
  rw [← isValid_iff, isValid, hDepth, hElement, hCode, ← isClassName_iff]
  simp [isClassDescriptor, classDescriptor]

end InternalName

namespace Token

/-! ## Texts that are one internal array name -/

section Munch

variable {kind : Kind} {word rest : List Char}

/-- A `;` stands in no other token than an internal array name. -/
theorem Munch.kind_of_semicolon (hMunch : Munch kind word rest)
    (hMem : ';' ∈ word) : kind = .internalName := by
  cases hMunch with
  | word hStart hParts =>
      rcases List.mem_cons.1 hMem with rfl | hTail
      · exact absurd hStart (by decide)
      · exact absurd (hParts _ hTail) (by decide)
  | internal => rfl
  | operator hKind =>
      rw [← List.mem_singleton.1 hMem] at hKind
      cases hKind

/-- No token has a blank in it, as `Munch` takes it off a text. -/
theorem Munch.not_blank (hMunch : Munch kind word rest) :
    ∀ c ∈ word, isBlank c = false := by
  cases hMunch with
  | word hStart hParts =>
      exact List.forall_mem_cons.2
        ⟨isBlank_of_isNamePart (isNamePart_of_isNameStart hStart),
        fun c hMem => isBlank_of_isNamePart (hParts c hMem)⟩
  | internal hBrackets hParts =>
      refine List.forall_mem_cons.2 ⟨by decide, fun c hMem => ?_⟩
      rcases List.mem_append.1 hMem with hBracket | hPart
      · rw [hBrackets c hBracket]
        decide
      · refine Bool.eq_false_iff.2 fun hBlank => ?_
        have hNot := (isInternalPart_of_isBlank hBlank).1
        rw [hParts c hPart] at hNot
        cases hNot
  | operator hKind =>
      exact List.forall_mem_singleton.2 (not_blank_of_ofOperator? hKind).1

/-- A token of kind `dot` is a dot. -/
theorem Munch.word_of_dot (hMunch : Munch kind word rest)
    (hKind : kind = .dot) : word = ['.'] := by
  cases hMunch with
  | word =>
      have hWord := hKind ▸ isWord_ofWord _
      cases hWord
  | internal => cases hKind
  | @operator c _ _ hOperator =>
      subst hKind
      unfold Kind.ofOperator? at hOperator
      split at hOperator <;> cases hOperator
      rfl

end Munch

section Scans

variable {offset : Nat} {text : List Char} {tokens : List Token}

/-- A text that ends with a character which is not blank has a token at its end,
with that character as its last one, in front of the `eof`. -/
theorem Scans.exists_last (hScans : Scans offset text tokens) {c : Char}
    (hLast : text.getLast? = some c) (hBlank : isBlank c = false) :
    ∃ words kind start word, tokens = words ++ [ofChars kind start word,
        ofChars .eof (offset + text.length) []] ∧
      Munch kind word [] ∧ word.getLast? = some c := by
  induction hScans with
  | eof offset => cases hLast
  | @blank offset b cs _ hFirst hRest ih =>
      cases cs with
      | nil =>
          obtain rfl : b = c := by simpa using hLast
          rw [hFirst] at hBlank
          cases hBlank
      | cons d ds =>
          obtain ⟨words, kind, start, word, rfl, hFound⟩ :=
            ih (by rwa [List.getLast?_cons_cons] at hLast)
          exact ⟨words, kind, start, word,
            by simp [Nat.add_assoc, Nat.add_comm 1], hFound⟩
  | @token offset kind word rest _ hMunch hRest ih =>
      by_cases hEnd : rest = []
      · subst hEnd
        rw [List.append_nil] at hLast ⊢
        rw [hRest.unique (.eof _)]
        exact ⟨[], kind, offset, word, rfl, hMunch, hLast⟩
      · rw [getLast?_append_of_ne_nil _ hEnd] at hLast
        obtain ⟨words, last, start, final, rfl, hFound⟩ := ih hLast
        exact ⟨ofChars kind offset word :: words, last, start, final,
          by simp [Nat.add_assoc], hFound⟩

/-- A text without its blanks is what the tokens of its scan say one after
another. -/
theorem Scans.flatMap_value (hScans : Scans offset text tokens) :
    tokens.flatMap (fun t => t.value.toList) = text.filter fun c =>
      !isBlank c := by
  induction hScans with
  | eof => rfl
  | blank hBlank _ ih => rw [ih, List.filter_cons_of_neg (by simp [hBlank])]
  | @token offset kind word rest _ hMunch _ ih =>
      have hWord : word.filter (fun c => !isBlank c) = word :=
        List.filter_eq_self.2 fun c hMem => by simp [hMunch.not_blank c hMem]
      rw [List.flatMap_cons, ih, List.filter_append, hWord, ofChars,
        String.toList_ofList]

end Scans

/-- An internal array name is munched whole in front of the end of a text. -/
theorem munch_of_isInternalName {text : List Char}
    (hInternal : InternalName.IsInternalName text) :
    Munch .internalName text [] := by
  obtain ⟨dimensions, descriptor, hPositive, hElement, rfl⟩ := hInternal
  obtain ⟨n, rfl⟩ := Nat.exists_eq_succ_of_ne_zero (Nat.ne_of_gt hPositive)
  have hBrackets : ∀ x ∈ List.replicate n '[', x = '[' :=
    fun x hX => (List.mem_replicate.1 hX).2
  have hParts := (isInternalPart_of_isElement hElement).1
  exact .internal hBrackets hParts
    (opensInternalName_of_isElement hElement n) (by simp)

end Token

namespace Grammar

/-- The tokens that `MakesName` derives start with a word. -/
theorem MakesName.head? {ts : List Token} {r : RawName}
    (hName : MakesName ts r) : ∃ t, ts.head? = some t ∧ t.kind = .ident := by
  induction hName with
  | @word t hWord => exact ⟨t, rfl, hWord⟩
  | dotted _ _ _ ih =>
      obtain ⟨t, hHead, hKind⟩ := ih
      exact ⟨t, by rw [List.head?_append, hHead, Option.some_or], hKind⟩

/-- What `MakesType` derives from an internal array name at its start is that
name, or ends with a bracket. -/
theorem MakesType.of_internalName {ts : List Token} {e : Expression} {t : Token}
    (hType : MakesType ts e) (hHead : ts.head? = some t)
    (hKind : t.kind = .internalName) :
    (ts = [t] ∧ InternalName.IsInternalName t.value.toList ∧
        e = .internal t.value (some t.span)) ∨
      ∃ last, ts.getLast? = some last ∧ last.kind = .rbracket := by
  have hNoName : ∀ (front back : List Token) (r : RawName), MakesName front r →
      (front ++ back).head? ≠ some t := by
    intro front back r hName hFirst
    obtain ⟨u, hWord, hIdent⟩ := hName.head?
    rw [List.head?_append, hWord, Option.some_or] at hFirst
    cases hFirst
    simp [hIdent] at hKind
  cases hType with
  | unbounded hMark =>
      cases hHead
      simp [hMark] at hKind
  | upper hMark =>
      cases hHead
      simp [hMark] at hKind
  | lower hMark =>
      cases hHead
      simp [hMark] at hKind
  | bare hBare =>
      cases hBare with
      | primitive hPrimitive =>
          cases hHead
          simp [hPrimitive] at hKind
      | name hName => exact absurd hHead (by simpa using hNoName _ [] _ hName)
      | internal _ hInternal =>
          cases hHead
          exact .inl ⟨rfl, hInternal, rfl⟩
      | parameterized hName => exact absurd hHead (hNoName _ _ _ hName)
      | @array _ _ opening closing _ _ _ hClosing =>
          exact .inr ⟨closing, by simp, hClosing⟩

end Grammar

namespace Expression

open Grammar Token

/-- The tokens of a text that starts as an internal array name and ends with a
`;` make no tree but that of the whole text. -/
theorem eq_internal_of_semicolon {cs : List Char}
    (hOpens : opensInternalName cs = true)
    (hLast : ('[' :: cs).getLast? = some ';') {words : List Token}
    {stop : Token} {e : Expression}
    (hScans : Scans 0 ('[' :: cs) (words ++ [stop]))
    (hType : MakesType words e) :
    InternalName.IsInternalName ('[' :: cs) ∧
      e = .internal (String.ofList ('[' :: cs))
        (some ⟨0, ('[' :: cs).length⟩) := by
  -- The last token has the semicolon, so no bracket is the last one.
  obtain ⟨front, kind, start, word, hEnd, hMunch, hWord⟩ :=
    hScans.exists_last hLast (by decide)
  obtain rfl := hMunch.kind_of_semicolon (List.mem_of_getLast? hWord)
  have hWords : words = front ++ [ofChars .internalName start word] :=
    (List.append_inj' (hEnd.trans (List.append_cons front _ _)) rfl).1
  have hNoBracket : ¬ ∃ last, words.getLast? = some last ∧
      last.kind = .rbracket := by
    rintro ⟨last, hFound, hBracket⟩
    rw [hWords, List.getLast?_concat] at hFound
    cases hFound
    cases hBracket
  -- The first token is one too, and so the only one.
  have hScan := scan_eq_ok_iff.2 hScans
  rw [scan_internal 0 hOpens] at hScan
  obtain ⟨rest, hRest, hFirst⟩ := exists_of_cons_map hScan
  have hHead : words.head? =
      some (ofChars .internalName 0 ('[' :: internalTail cs)) := by
    cases words with
    | nil => exact absurd rfl hType.ne_nil
    | cons w ws => exact congrArg some (List.cons.inj hFirst).1
  obtain ⟨rfl, hInternal, rfl⟩ :=
    (hType.of_internalName hHead rfl).resolve_right hNoBracket
  obtain rfl : [stop] = rest := (List.cons.inj hFirst).2
  have hAfter : afterInternal cs = [] := by
    by_contra hMore
    rw [← internalTail_append_afterInternal cs, ← List.cons_append,
      getLast?_append_of_ne_nil _ hMore] at hLast
    obtain ⟨words, _, _, _, hTwo, -⟩ :=
      (scan_eq_ok_iff.1 hRest).exists_last hLast (by decide)
    have hLength := congrArg List.length hTwo
    simp at hLength
  have hTail : internalTail cs = cs := by
    have hParts := internalTail_append_afterInternal cs
    rwa [hAfter, List.append_nil] at hParts
  rw [hTail] at hInternal ⊢
  exact ⟨by simpa [ofChars] using hInternal, by simp [ofChars, Token.span]⟩

/-- An internal array name is read by `ofText` as itself. -/
theorem ofText_of_isInternalName {chars : List Char}
    (hInternal : InternalName.IsInternalName chars) :
    ofText (String.ofList chars) =
      .ok (.internal (String.ofList chars) (some ⟨0, chars.length⟩)) := by
  have hMunch := munch_of_isInternalName hInternal
  have hScans : Scans 0 (chars ++ [])
      ([ofChars .internalName 0 chars] ++ [ofChars .eof _ []]) :=
    .token hMunch (.eof _)
  have hValue : InternalName.IsInternalName
      (ofChars .internalName 0 chars).value.toList := by
    rwa [ofChars, String.toList_ofList]
  have hBare :=
    MakesBare.internal (t := ofChars .internalName 0 chars) rfl hValue
  have hSpan : (ofChars .internalName 0 chars).span = ⟨0, chars.length⟩ := by
    simp [Token.span, ofChars]
  rw [cover_singleton, hSpan] at hBare
  rw [List.append_nil] at hScans
  exact ofText_of_scans (List.ne_nil_of_length_pos hMunch.length_pos) hScans rfl
    (.bare hBare)

/-- A text that puts a name between `[L` and `;` is read exactly if the name is
that of a class, and then as the internal array name of one dimension that it
spells. -/
theorem ofText_descriptor_iff {name : String} {e : Expression} :
    ofText ("[L" ++ name ++ ";") = .ok e ↔
      IsClassName name.toList ∧
        e = .internal ("[L" ++ name ++ ";") (some ⟨0, name.length + 3⟩) := by
  have hChars : ("[L" ++ name ++ ";").toList =
      '[' :: InternalName.classDescriptor name.toList := by
    simp [InternalName.classDescriptor]
  have hText : "[L" ++ name ++ ";" =
      String.ofList ('[' :: InternalName.classDescriptor name.toList) := by
    rw [← hChars, String.ofList_toList]
  have hLength :
      (('[' :: InternalName.classDescriptor name.toList).length : Int) =
        name.length + 3 := by
    simp only [InternalName.classDescriptor, List.length_cons,
      List.length_append, List.length_nil, String.length_toList]
    omega
  constructor
  · intro hRead
    obtain ⟨words, stop, hScans, -, hType⟩ := exists_scans_of_ofText hRead
    rw [hChars] at hScans
    obtain ⟨hInternal, hTree⟩ := eq_internal_of_semicolon (by rfl)
      (by rw [InternalName.classDescriptor, ← List.cons_append,
        ← List.cons_append, List.getLast?_concat]) hScans hType
    rw [hLength, ← hText] at hTree
    exact ⟨InternalName.isInternalName_bracket_iff.1 hInternal, hTree⟩
  · rintro ⟨hName, rfl⟩
    have hInternal := InternalName.isInternalName_bracket_iff.2 hName
    rw [hText, ← hLength]
    exact ofText_of_isInternalName hInternal

/-! ## Names in a text -/

/-- A name that `MakesName` derives from the tokens of a text has its words with
dots between, and no blanks. -/
theorem name_of_makesName {tokens : List Token} {r : RawName}
    (hName : MakesName tokens r)
    (hWords : ∀ t ∈ tokens, t.kind = .ident → IsSpelled t.value.toList)
    (hDots : ∀ t ∈ tokens, t.kind = .dot → t.value = ".") :
    IsDotted IsSpelled r.name.toList ∧
      r.name.toList = tokens.flatMap fun t => t.value.toList := by
  induction hName with
  | @word t hWord =>
      have hSpelled := hWords t List.mem_cons_self hWord
      exact ⟨⟨[t.value.toList], by simp, by simpa using hSpelled, by simp⟩,
        by simp⟩
  | @dotted ts r dot t hFront hDot hWord ih =>
      obtain ⟨⟨pieces, hNonempty, hPieces, hText⟩, hValues⟩ :=
        ih (fun u hMem => hWords u (List.mem_append_left _ hMem))
          fun u hMem => hDots u (List.mem_append_left _ hMem)
      have hSpelled := hWords t (by simp) hWord
      have hDotValue := hDots dot (by simp) hDot
      have hWhole : (r.name ++ "." ++ t.value).toList =
          ['.'].intercalate (pieces ++ [t.value.toList]) := by
        match pieces, hNonempty with
        | first :: rest, _ =>
            rw [List.cons_append, intercalate_dot_cons first,
              List.flatMap_append, ← List.append_assoc,
              ← intercalate_dot_cons first, ← hText]
            simp
      refine ⟨⟨pieces ++ [t.value.toList], by simp, ?_, hWhole⟩, ?_⟩
      · exact List.forall_mem_append.2
          ⟨hPieces, List.forall_mem_singleton.2 hSpelled⟩
      · rw [String.toList_append, String.toList_append, hValues]
        simp [hDotValue]

/-- A text that `ofText` reads as a name is that name with blanks between its
words and dots. -/
theorem name_of_ofText {text : String} {r : RawName}
    (hText : ofText text = .ok (.raw r)) :
    IsDotted IsSpelled r.name.toList ∧
    r.name.toList = text.toList.filter fun c => !isBlank c := by
  obtain ⟨words, stop, hScans, hWords, hType⟩ := exists_scans_of_ofText hText
  have hName : MakesName words r := by
    cases hType with
    | bare hBare =>
        cases hBare with
        | name hName => exact hName
  have hTokens : tokenize text = .ok (words ++ [stop]) :=
    scan_eq_ok_iff.2 hScans
  obtain ⟨hDotted, hValues⟩ := name_of_makesName hName
    (fun t hMem hIdent =>
      (isWord_iff_isSpelled hTokens (List.mem_append_left _ hMem)).1
      (by rw [hIdent]; rfl))
    (fun t hMem hDot => by
      obtain ⟨front, word, rest, -, hMunch, hValue, -⟩ :=
        exists_place hTokens (List.mem_append_left _ hMem) (hWords t hMem)
      rw [hValue, hMunch.word_of_dot hDot])
  obtain ⟨front, hAll, -⟩ := hScans.exists_eof
  obtain rfl : stop = ofChars .eof (0 + text.toList.length) [] :=
    List.singleton_inj.1 (List.append_inj' hAll rfl).2
  rw [← hScans.flatMap_value, List.flatMap_append, ← hValues,
    List.flatMap_singleton]
  exact ⟨hDotted, by simp [ofChars]⟩

/-- Internal names, the names in texts and catalogs agree. A name between `[L`
and `;` can be read exactly if catalogs take it, and then makes an internal
array name with one dimension and just this descriptor. Every name in a tree is
one that catalogs take; it is the text that it spans without the blanks. -/
theorem takesName_of_ofText (c : Catalog) :
    (∀ name : String,
      ((∃ e, ofText ("[L" ++ name ++ ";") = .ok e) ↔ c.TakesName name) ∧
      ∀ e, ofText ("[L" ++ name ++ ";") = .ok e →
        e = .internal ("[L" ++ name ++ ";") (some ⟨0, name.length + 3⟩) ∧
        InternalName.depth ("[L" ++ name ++ ";").toList = 1 ∧
        InternalName.element ("[L" ++ name ++ ";").toList =
          ("L" ++ name ++ ";").toList) ∧
    ∀ (text : String) (e : Expression) (r : RawName), ofText text = .ok e →
      e.IsNode (.raw r) →
      c.TakesName r.name ∧ ∃ s, r.span = some s ∧
        r.name.toList = (s.slice text).toList.filter fun x => !isBlank x := by
  refine ⟨fun name => ⟨?_, fun e hText => ?_⟩, fun text e r hText hNode => ?_⟩
  · rw [Catalog.takesName_iff]
    exact ⟨fun ⟨_, hText⟩ => (ofText_descriptor_iff.1 hText).1,
      fun hName => ⟨_, ofText_descriptor_iff.2 ⟨hName, rfl⟩⟩⟩
  · have hHead : ("L" ++ name ++ ";").toList.head? ≠ some '[' := by simp
    have hChars : ("[L" ++ name ++ ";").toList =
        List.replicate 1 '[' ++ ("L" ++ name ++ ";").toList := by simp
    rw [hChars]
    exact ⟨(ofText_descriptor_iff.1 hText).2,
      InternalName.depth_brackets 1 hHead,
      InternalName.element_brackets 1 hHead⟩
  · obtain ⟨words, stop, hScans, hWords, hType⟩ := exists_scans_of_ofText hText
    have hOrdered := hScans.ordered_words hWords
    obtain ⟨before, part, after, rfl, hPart⟩ := hType.exists_piece hNode
    obtain ⟨s, hFaithful⟩ := faithfulAt_of_piece hScans hOrdered hPart
    obtain ⟨⟨pieces, hNonempty, hPieces, hDotted⟩, hBlanks⟩ :=
      name_of_ofText hFaithful.read
    refine ⟨Catalog.takesName_iff.2
      ⟨pieces, hNonempty, fun p hMem => ?_, hDotted⟩, s,
      hFaithful.span, hBlanks⟩
    obtain ⟨d, ds, rfl, hStart, hParts⟩ := hPieces p hMem
    exact ⟨d, ds, rfl, isSegmentStart_of_isNameStart hStart, hParts⟩

/-- In ` a . B<C>` the name in front is `a.B`. The catalog without classes takes
it, and so it can stand in an internal array name. -/
theorem takesName_spaced :
    ofText " a . B<C>" =
      .ok (.parameterized ⟨"a.B", some ⟨1, 6⟩⟩ [.raw ⟨"C", some ⟨7, 8⟩⟩]
      (some ⟨1, 9⟩)) ∧
    Catalog.empty.TakesName "a.B" ∧
    ∃ e, ofText ("[L" ++ "a.B" ++ ";") = .ok e := by
  obtain ⟨hDescriptors, hNames⟩ := takesName_of_ofText Catalog.empty
  have hText : ofText " a . B<C>" = .ok (.parameterized ⟨"a.B", some ⟨1, 6⟩⟩
      [.raw ⟨"C", some ⟨7, 8⟩⟩] (some ⟨1, 9⟩)) := by cbv
  obtain ⟨hTakes, -⟩ :=
    hNames _ _ ⟨"a.B", some ⟨1, 6⟩⟩ hText (.child .root (by simp [children]))
  exact ⟨hText, hTakes, (hDescriptors "a.B").1.2 hTakes⟩

end Expression

end JvmTypes
