import JvmTypes.Proofs.Lexing
import JvmTypes.Proofs.Reader.Completeness

/-!
# Texts of type expressions

The grammar speaks of lexemes. Here it is read off texts:
`TextOf rule text tree` says that the lexemes of a text derive a tree by a rule,
and each rule of the grammar gives a way to write such texts. Blanks never
matter and a seam is safe wherever an operator stands, so texts can be put
together without looking into them. The one exception is a bracket behind a
bracket, which no bare type ends with (`TextOf.array`).

## Main results

* `Expression.ofText_iff_textOf`: the reader of texts and the grammar agree.
* `TextOf.array`, `TextOf.parameterized`, `TextOf.upper`, `TextOf.lower`: texts
  of composite types.
* `textOf_name`, `textOf_primitive`, `textOf_internal`: texts of names.
-/

namespace JvmTypes

open Token (Lexes)

/-! ## Names that can be written -/

/-- A word of the source text that is no keyword. -/
def IsWord (word : List Char) : Prop :=
  ∃ c cs, word = c :: cs ∧ isNameStart c = true ∧
    (∀ d ∈ cs, isNamePart d = true) ∧
    Token.Kind.ofKeyword? (String.ofList word) = none

/-- A class name that can be written in source text: words by `IsWord` with dots
between. -/
def IsLexable (name : List Char) : Prop := IsDotted IsWord name

theorem isSegment_of_isWord {word : List Char} (hWord : IsWord word) :
    IsSegment word := by
  obtain ⟨c, cs, rfl, hStart, hParts, -⟩ := hWord
  exact ⟨c, cs, rfl, isSegmentStart_of_isNameStart hStart, hParts⟩

theorem isClassName_of_isLexable {name : List Char} (hName : IsLexable name) :
    IsClassName name := by
  obtain ⟨words, hNonempty, hWords, rfl⟩ := hName
  exact ⟨words, hNonempty,
    fun w hMem => isSegment_of_isWord (hWords w hMem), rfl⟩

/-- Dotted pieces are the first one and the others behind their dots. -/
theorem intercalate_dot_cons (piece : List Char) (pieces : List (List Char)) :
    ['.'].intercalate (piece :: pieces) = piece ++
      pieces.flatMap ('.' :: ·) := by
  induction pieces generalizing piece with
  | nil => simp
  | cons next pieces ih => simp [List.intercalate_cons_cons, ih]

/-- The lexemes of words behind their dots. -/
def dottedLexemes (words : List (List Char)) : List Lexeme :=
  words.flatMap fun w => [⟨.dot, "."⟩, ⟨.ident, String.ofList w⟩]

/-- What follows a word inside dotted words is a dot, which ends it. -/
theorem isNamePart_head?_dotted (words : List (List Char)) :
    ∀ d, (words.flatMap ('.' :: ·)).head? = some d → isNamePart d = false := by
  intro d hFirst
  cases words with
  | nil => simp at hFirst
  | cons word words =>
      obtain rfl : '.' = d := by simpa using hFirst
      decide

/-- A word of the source text, which may be a keyword. -/
def IsSpelled (word : List Char) : Prop :=
  ∃ c cs, word = c :: cs ∧ isNameStart c = true ∧ ∀ d ∈ cs, isNamePart d = true

/-- The lexeme of a word, with the kind that `ofWord` gives it. -/
def wordLexeme (word : List Char) : Lexeme :=
  ⟨.ofWord (String.ofList word), String.ofList word⟩

/-- The lexemes of words behind their dots, keywords among them or not. -/
def spelledLexemes (words : List (List Char)) : List Lexeme :=
  words.flatMap fun w => [⟨.dot, "."⟩, wordLexeme w]

theorem IsWord.isSpelled {word : List Char} (hWord : IsWord word) :
    IsSpelled word := by
  obtain ⟨c, cs, rfl, hStart, hParts, -⟩ := hWord
  exact ⟨c, cs, rfl, hStart, hParts⟩

private theorem IsWord.wordLexeme_eq {word : List Char} (hWord : IsWord word) :
    wordLexeme word = ⟨.ident, String.ofList word⟩ := by
  obtain ⟨c, cs, rfl, -, -, hKeyword⟩ := hWord
  rw [wordLexeme, Token.Kind.ofWord, hKeyword, Option.getD_none]

private theorem spelledLexemes_eq {words : List (List Char)}
    (hWords : ∀ w ∈ words, IsWord w) :
    spelledLexemes words = dottedLexemes words := by
  rw [spelledLexemes, dottedLexemes, List.flatMap_def, List.flatMap_def]
  refine congrArg List.flatten (List.map_congr_left fun w hMem => ?_)
  rw [(hWords w hMem).wordLexeme_eq]

/-- A word is one lexeme, `wordLexeme`, if what follows starts with a dot or is
empty. -/
theorem lexes_word {word rest : List Char} {ls : List Lexeme}
    (hWord : IsSpelled word)
    (hHead : ∀ d, rest.head? = some d → isNamePart d = false)
    (hRest : Lexes rest ls) : Lexes (word ++ rest) (wordLexeme word :: ls) := by
  obtain ⟨c, cs, rfl, hStart, hParts⟩ := hWord
  exact Lexes.wordBefore cs rest hStart hParts hHead hRest

/-- The lexemes of words with dots between. -/
theorem lexes_spelled {word : List Char} {words : List (List Char)}
    (hWords : ∀ w ∈ word :: words, IsSpelled w) :
    Lexes (['.'].intercalate (word :: words))
      (wordLexeme word :: spelledLexemes words) := by
  obtain ⟨hHead, hRest⟩ := List.forall_mem_cons.1 hWords
  rw [intercalate_dot_cons]
  refine lexes_word hHead (isNamePart_head?_dotted words) ?_
  clear hHead hWords
  induction words with
  | nil => exact .nil
  | cons next words ih =>
      obtain ⟨hNext, hOthers⟩ := List.forall_mem_cons.1 hRest
      exact .operator rfl rfl
        (lexes_word hNext (isNamePart_head?_dotted words) (ih hOthers))

namespace Grammar

private theorem IsName.append_dotted {ls : List Lexeme} {name : String}
    (hName : IsName ls name) (words : List (List Char)) :
    IsName (ls ++ dottedLexemes words)
      (name ++ String.ofList (words.flatMap ('.' :: ·))) := by
  induction words generalizing ls name with
  | nil => simpa [dottedLexemes] using hName
  | cons word words ih =>
      have hRest := ih (hName.dotted "." (String.ofList word))
      have hText : name ++ String.ofList ((word :: words).flatMap ('.' :: ·)) =
          name ++ "." ++ String.ofList word ++
            String.ofList (words.flatMap ('.' :: ·)) := by
        apply String.toList_injective
        simp
      rw [hText]
      simpa [dottedLexemes] using hRest

/-! ## Texts and rules -/

/-- A text whose lexemes derive something by a rule of the grammar. -/
def TextOf {α : Type} (rule : List Lexeme → α → Prop) (text : String) (a : α) :
    Prop :=
  ∃ ls, Lexes text.toList ls ∧ rule ls a

theorem TextOf.mono {α β : Type} {rule : List Lexeme → α → Prop}
    {rule' : List Lexeme → β → Prop} {text : String} {a : α} {b : β}
    (hText : TextOf rule text a) (hRule : ∀ ls, rule ls a → rule' ls b) :
    TextOf rule' text b := by
  obtain ⟨ls, hLexes, hDerives⟩ := hText
  exact ⟨ls, hLexes, hRule ls hDerives⟩

/-- A text that is lexable (`IsLexable`) derives itself as a name. -/
theorem textOf_name {name : String} (hName : IsLexable name.toList) :
    TextOf IsName name name := by
  obtain ⟨words, hNonempty, hWords, hText⟩ := hName
  cases words with
  | nil => exact absurd rfl hNonempty
  | cons word words =>
      obtain ⟨hHead, hRest⟩ := List.forall_mem_cons.1 hWords
      have hLexes := lexes_spelled fun w hMem => (hWords w hMem).isSpelled
      rw [← hText, hHead.wordLexeme_eq, spelledLexemes_eq hRest] at hLexes
      have hDerives := IsName.append_dotted (.word (String.ofList word)) words
      have hWhole : String.ofList word ++
          String.ofList (words.flatMap ('.' :: ·)) = name := by
        apply String.toList_injective
        rw [hText, intercalate_dot_cons]
        simp
      rw [hWhole] at hDerives
      exact ⟨_, hLexes, hDerives⟩

theorem textOf_primitive (p : Primitive) :
    TextOf IsBare p.name (.primitive p.name none) := by
  have hWord : ∃ c cs, p.name.toList = c :: cs ∧ isNameStart c = true ∧
      ∀ d ∈ cs, isNamePart d = true := by
    cases p <;> exact ⟨_, _, rfl, by decide, List.all_eq_true.1 rfl⟩
  have hKind : Token.Kind.ofWord p.name = .primitive p := by cases p <;> decide
  obtain ⟨c, cs, hName, hStart, hParts⟩ := hWord
  have hLexes := Lexes.wordBefore cs [] hStart hParts (by simp) .nil
  rw [List.append_nil, ← hName, String.ofList_toList, hKind] at hLexes
  exact ⟨_, hLexes, .base (.primitive p)⟩

theorem textOf_internal {text : String}
    (hInternal : InternalName.IsInternalName text.toList) :
    TextOf IsBare text (.internal text none) := by
  have hLexes := Lexes.internalName hInternal
  rw [String.ofList_toList] at hLexes
  exact ⟨_, hLexes, .base (.internal hInternal)⟩

/-! ## Seams -/

/-- A text that is a single operator between any two others. -/
structure Separates (separator : List Char) (l : Lexeme) : Prop where
  head : ∃ c cs, separator = c :: cs ∧ Token.isInternalPart c = false ∧ c ≠ '['
  lexes : ∀ back ms, Lexes back ms → Lexes (separator ++ back) (l :: ms)

/-- The lexemes of two texts with a text that `Separates` between. -/
theorem Separates.append {separator front back : List Char} {l : Lexeme}
    {ls ms : List Lexeme} (hSeparates : Separates separator l)
    (hFront : Lexes front ls) (hBack : Lexes back ms) :
    Lexes (front ++ (separator ++ back)) (ls ++ l :: ms) := by
  obtain ⟨c, cs, rfl, hPart, hBracket⟩ := hSeparates.head
  exact hFront.append (hSeparates.lexes back ms hBack) hPart fun hHead =>
    absurd hHead hBracket

/-- An operator that can stand inside no name and is no bracket `Separates`,
with blanks on either side or none. -/
theorem separates_operator {c : Char} {kind : Token.Kind}
    (hKind : Token.Kind.ofOperator? c = some kind)
    (hPart : Token.isInternalPart c = false) (hBracket : c ≠ '[') :
    Separates [c] ⟨kind, String.ofList [c]⟩ :=
  ⟨⟨c, [], rfl, hPart, hBracket⟩,
    fun _ _ hBack => .operator hKind (by simp [hBracket]) hBack⟩

theorem Separates.blank {separator : List Char} {l : Lexeme}
    (hSeparates : Separates separator l) : Separates (' ' :: separator) l :=
  ⟨⟨' ', separator, rfl, by decide, by decide⟩, fun back ms hBack =>
    .blank (by decide) (hSeparates.lexes back ms hBack)⟩

private theorem Separates.concat_blank {separator : List Char} {l : Lexeme}
    (hSeparates : Separates separator l) :
    Separates (separator ++ [' ']) l := by
  obtain ⟨c, cs, rfl, hPart, hBracket⟩ := hSeparates.head
  refine ⟨⟨c, cs ++ [' '], rfl, hPart, hBracket⟩, fun back ms hBack => ?_⟩
  rw [List.append_assoc]
  exact hSeparates.lexes _ _ (.blank (by decide) hBack)

theorem separates_comma : Separates ",".toList ⟨.comma, ","⟩ :=
  separates_operator rfl (by decide) (by decide)

theorem separates_commaBlank : Separates ", ".toList ⟨.comma, ","⟩ :=
  separates_comma.concat_blank

theorem separates_amp : Separates " & ".toList ⟨.amp, "&"⟩ :=
  (separates_operator (c := '&') rfl (by decide) (by decide)).blank.concat_blank

/-- The lexemes of several texts with a text that `Separates` between each
two. -/
theorem Separates.intercalate {ι : Type} {separator : String} {l : Lexeme}
    (hSeparates : Separates separator.toList l) (text : ι → String)
    (lexemes : ι → List Lexeme) {items : List ι}
    (hItems : ∀ i ∈ items, Lexes (text i).toList (lexemes i)) :
    Lexes (separator.intercalate (items.map text)).toList
      ([l].intercalate (items.map lexemes)) := by
  induction items with
  | nil => exact .nil
  | cons i items ih =>
      obtain ⟨hHead, hRest⟩ := List.forall_mem_cons.1 hItems
      cases items with
      | nil => simpa using hHead
      | cons next items =>
          have hBack := hSeparates.append hHead (ih hRest)
          simpa [List.intercalate_cons_cons] using hBack

/-- The lexemes of a text in angle brackets behind another. -/
theorem lexes_angles {front middle : String} {ls ms : List Lexeme}
    (hFront : Lexes front.toList ls) (hMiddle : Lexes middle.toList ms) :
    Lexes (front ++ "<" ++ middle ++ ">").toList
      (ls ++ ⟨.lt, "<"⟩ :: (ms ++ [⟨.gt, ">"⟩])) := by
  have hGt : Separates ['>'] ⟨.gt, ">"⟩ :=
    separates_operator rfl (by decide) (by decide)
  have hLt : Separates ['<'] ⟨.lt, "<"⟩ :=
    separates_operator rfl (by decide) (by decide)
  simpa using hLt.append hFront (hGt.append hMiddle .nil)

/-- The lexemes of a text behind `?` and the word `c :: cs`. -/
theorem lexes_bounded {text : String} {ls : List Lexeme}
    (hText : Lexes text.toList ls) (c : Char) (cs : List Char)
    (hStart : isNameStart c = true) (hParts : ∀ d ∈ cs, isNamePart d = true) :
    Lexes ('?' :: ' ' :: (c :: cs ++ ' ' :: text.toList))
      (⟨.question, "?"⟩ ::
        ⟨.ofWord (String.ofList (c :: cs)), String.ofList (c :: cs)⟩ ::
          ls) := by
  have hWord := Lexes.wordBefore cs (' ' :: text.toList) hStart hParts
    (by rintro d ⟨⟩; decide) (.blank (by decide) hText)
  exact .operator rfl rfl (.blank (by decide) hWord)

theorem lexes_extends {text : String} {ls : List Lexeme}
    (hText : Lexes text.toList ls) :
    Lexes ("? extends " ++ text).toList
      (⟨.question, "?"⟩ :: ⟨.extendsWord, "extends"⟩ :: ls) := by
  rw [String.toList_append]
  exact lexes_bounded hText 'e' "xtends".toList (by decide)
    (List.all_eq_true.1 rfl)

theorem lexes_super {text : String} {ls : List Lexeme}
    (hText : Lexes text.toList ls) :
    Lexes ("? super " ++ text).toList
      (⟨.question, "?"⟩ :: ⟨.superWord, "super"⟩ :: ls) := by
  rw [String.toList_append]
  exact lexes_bounded hText 's' "uper".toList (by decide)
    (List.all_eq_true.1 rfl)

/-- No text of a type that `IsBare` derives ends with an opening bracket, so a
pair of brackets behind it opens no internal array name. -/
theorem lexes_brackets {text : String} {ls : List Lexeme} {e : Expression}
    (hText : Lexes text.toList ls) (hBare : IsBare ls e) :
    Lexes (text ++ "[]").toList
      (ls ++ [⟨.lbracket, "["⟩, ⟨.rbracket, "]"⟩]) := by
  rw [String.toList_append]
  refine hText.append (.operator rfl rfl (.operator rfl rfl .nil)) (by decide)
    fun _ hLast => ?_
  obtain ⟨l, hBracket, hKind⟩ := hText.getLast?_of_bracket hLast
  obtain ⟨l', hEnd, hOpening, hInternal⟩ := hBare.getLast?
  obtain rfl : l = l' := Option.some.inj (hBracket.symm.trans hEnd)
  rcases hKind with hKind | ⟨hKind, hText⟩
  · exact hOpening hKind
  · exact (hInternal hKind).getLast?_ne_bracket hText

/-! ## Texts of composite types -/

/-- Members of a list with a separator between each two. -/
theorem TextOf.intercalate {ι : Type} {item : List Lexeme → Expression → Prop}
    {list : List Lexeme → List Expression → Prop} {separator : String}
    {l : Lexeme} (hSeparates : Separates separator.toList l)
    (hOne : ∀ {ls e}, item ls e → list ls [e])
    (hMore : ∀ {ls ms e es}, item ls e → list ms es →
      list (ls ++ l :: ms) (e :: es))
    (text : ι → String) (tree : ι → Expression) {items : List ι}
    (hNonempty : items ≠ [])
    (hItems : ∀ i ∈ items, TextOf item (text i) (tree i)) :
    TextOf list (separator.intercalate (items.map text)) (items.map tree) := by
  induction items with
  | nil => exact absurd rfl hNonempty
  | cons i items ih =>
      obtain ⟨hHead, hRest⟩ := List.forall_mem_cons.1 hItems
      cases items with
      | nil => simpa using hHead.mono fun _ => hOne
      | cons next items =>
          obtain ⟨ls, hLexes, hItem⟩ := hHead
          obtain ⟨ms, hLexesRest, hList⟩ := ih (by simp) hRest
          refine ⟨ls ++ l :: ms, ?_, hMore hItem hList⟩
          have hBack := hSeparates.append hLexes hLexesRest
          simpa using hBack

/-- What derives by `rule` and is no primitive type: a member of a list of type
arguments or of bounds. -/
def NotPrimitive (rule : List Lexeme → Expression → Prop) (ls : List Lexeme)
    (e : Expression) : Prop :=
  rule ls e ∧ e.isPrimitive = false

theorem TextOf.arguments {ι : Type} {separator comma : String}
    (hSeparates : Separates separator.toList ⟨.comma, comma⟩)
    (text : ι → String) (tree : ι → Expression) {items : List ι}
    (hNonempty : items ≠ [])
    (hItems : ∀ i ∈ items, TextOf (NotPrimitive IsType) (text i) (tree i)) :
    TextOf IsArguments (separator.intercalate (items.map text))
      (items.map tree) :=
  TextOf.intercalate hSeparates (fun hItem => .one hItem.1 hItem.2)
    (fun hItem hRest => .more comma hItem.1 hItem.2 hRest) text tree
      hNonempty hItems

theorem TextOf.bounds {ι : Type} (text : ι → String) (tree : ι → Expression)
    {items : List ι} (hNonempty : items ≠ [])
    (hItems : ∀ i ∈ items, TextOf (NotPrimitive IsBare) (text i) (tree i)) :
    TextOf IsBounds (" & ".intercalate (items.map text)) (items.map tree) :=
  TextOf.intercalate separates_amp (fun hItem => .one hItem.1 hItem.2)
    (fun hItem hRest => .more "&" hItem.1 hItem.2 hRest) text tree
      hNonempty hItems

theorem TextOf.parameterized {raw name arguments : String}
    {es : List Expression} (hRaw : TextOf IsName raw name)
    (hArguments : TextOf IsArguments arguments es) :
    TextOf IsBare (raw ++ "<" ++ arguments ++ ">")
      (.parameterized ⟨name, none⟩ es none) := by
  obtain ⟨ls, hLexes, hName⟩ := hRaw
  obtain ⟨ms, hLexesArguments, hList⟩ := hArguments
  exact ⟨_, lexes_angles hLexes hLexesArguments,
    .base (.parameterized "<" ">" hName hList)⟩

theorem TextOf.array {text : String} {e : Expression}
    (hText : TextOf IsBare text e) (hVoid : e.isVoid = false) :
    TextOf IsBare (text ++ "[]") (.array e none) := by
  obtain ⟨ls, hLexes, hBare⟩ := hText
  exact ⟨_, lexes_brackets hLexes hBare, .array "[" "]" hBare hVoid⟩

theorem textOf_unbounded : TextOf IsType "?" (.wildcard .unbounded [] none) :=
  ⟨_, .operator rfl rfl .nil, .wildcard (.unbounded "?")⟩

theorem TextOf.upper {bounds : String} {es : List Expression}
    (hBounds : TextOf IsBounds bounds es) :
    TextOf IsType ("? extends " ++ bounds) (.wildcard .upper es none) := by
  obtain ⟨ls, hLexes, hList⟩ := hBounds
  exact ⟨_, lexes_extends hLexes, .wildcard (.upper "?" "extends" hList)⟩

theorem TextOf.lower {bound : String} {e : Expression}
    (hBound : TextOf (NotPrimitive IsBare) bound e) :
    TextOf IsType ("? super " ++ bound) (.wildcard .lower [e] none) := by
  obtain ⟨ls, hLexes, hBare, hPrimitive⟩ := hBound
  exact ⟨_, lexes_super hLexes, .wildcard (.lower "?" "super" hBare hPrimitive)⟩

end Grammar

/-! ## The reader of texts -/

namespace Grammar

theorem IsType.ne_nil {ls : List Lexeme} {e : Expression}
    (hType : IsType ls e) : ls ≠ [] := by
  rintro rfl
  cases hType with
  | wildcard hWildcard => cases hWildcard
  | bare hBare =>
      obtain ⟨l, hLast, -⟩ := hBare.getLast?
      cases hLast

end Grammar

namespace Expression

open Grammar

theorem kinds_of_lexes {text : List Char} {tokens : List Token}
    (hLexes : Lexes text (tokens.map Token.lexeme)) :
    ∀ t ∈ tokens, t.kind ≠ .eof ∧ t.IsKeyed := by
  intro t hMem
  exact hLexes.kinds t.lexeme (List.mem_map_of_mem hMem)

theorem isKeyed_concat {tokens : List Token} {stop : Token}
    (hKeyed : ∀ t ∈ tokens, t.IsKeyed) (hStop : stop.kind = .eof) :
    ∀ t ∈ tokens ++ [stop], t.IsKeyed := by
  intro t hMem p hKind
  rcases List.mem_append.1 hMem with hMem | hMem
  · exact hKeyed t hMem p hKind
  · rw [List.mem_singleton.1 hMem, hStop] at hKind
    cases hKind

/-- What a text is read as is read from its tokens, of which only the last is
`eof`, and whose texts are keywords where their kinds are. -/
theorem exists_tokens_of_ofText {text : String} {e : Expression}
    (hText : ofText text = .ok e) :
    ∃ tokens stop, tokenize text = .ok (tokens ++ [stop]) ∧ stop.kind = .eof ∧
      Lexes text.toList (tokens.map Token.lexeme) ∧
      (∀ t ∈ tokens, t.kind ≠ .eof) ∧
      (∀ t ∈ tokens ++ [stop], t.IsKeyed) ∧
      read (tokens ++ [stop]) = .ok e := by
  rw [ofText] at hText
  split at hText
  · cases hText
  · obtain ⟨all, hScan, hRead⟩ := exists_of_bind_eq_ok hText
    obtain ⟨tokens, stop, rfl, hStop, hLexes⟩ := Token.lexes_of_scan hScan
    have hKinds := kinds_of_lexes hLexes
    exact ⟨tokens, stop, hScan, hStop, hLexes, fun t hMem => (hKinds t hMem).1,
      isKeyed_concat (fun t hMem => (hKinds t hMem).2) hStop, hRead⟩

/-- The tree that `ofText` makes of a text is the one that its lexemes derive by
`IsType`. -/
theorem ofText_iff_textOf {text : String} {tree : Expression} :
    (∃ e, ofText text = .ok e ∧ e.erase = tree) ↔ TextOf IsType text tree := by
  constructor
  · rintro ⟨e, hText, rfl⟩
    obtain ⟨tokens, stop, -, -, hLexes, hTokens, hKeyed, hRead⟩ :=
      exists_tokens_of_ofText hText
    obtain ⟨front, last, back, hSplit, hLast, hType⟩ := read_sound hKeyed hRead
    rw [Token.eq_of_append_eof hTokens hLast hSplit] at hType
    exact ⟨_, hLexes, hType⟩
  · rintro ⟨ls, hLexes, hType⟩
    obtain ⟨tokens, stop, hScan, hStop, rfl⟩ := hLexes.scan 0
    obtain ⟨e, hRead, hTree⟩ := read_complete hType hStop []
    have hNonempty : text ≠ "" := by
      rintro rfl
      exact hType.ne_nil (Lexes.unique hLexes .nil)
    refine ⟨e, ?_, hTree⟩
    rw [ofText, if_neg hNonempty, tokenize, hScan]
    exact hRead

end Expression

end JvmTypes
