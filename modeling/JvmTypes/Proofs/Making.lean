import JvmTypes.Proofs.Grammar

/-!
# The grammar over tokens

The grammar of lexemes leaves the spans of a tree open. `MakesType` is the same
grammar over tokens, and puts into every node the span of its own tokens, from
the start of the first to the stop of the last (`Token.cover`). That an array
goes on with the span of its component, a wildcard to the stop of its last bound
and a class with arguments to its closing bracket is all this one rule.

## Main results

* `MakesType.span`: a tree spans the tokens that make it.
* `IsType.exists_makes`: tokens whose lexemes derive a tree make that tree, with
  spans.
-/

namespace JvmTypes

/-- The span from the start of the first of some tokens to the stop of the
last. -/
def Token.cover (tokens : List Token) : Option Span :=
  tokens.head?.bind fun first =>
    tokens.getLast?.map fun last => ⟨first.start, last.stop⟩

theorem Token.cover_singleton (t : Token) : cover [t] = some t.span := rfl

theorem Token.cover_of_ne_nil {tokens : List Token} (hTokens : tokens ≠ []) :
    cover tokens = some ⟨(tokens.head hTokens).start,
      (tokens.getLast hTokens).stop⟩ := by
  rw [cover, List.head?_eq_some_head hTokens,
    List.getLast?_eq_some_getLast hTokens]
  rfl

/-- More tokens move the stop of what `cover` yields. -/
theorem Token.cover_append {front back : List Token} {last : Token}
    (hFront : front ≠ []) (hLast : back.getLast? = some last) :
    cover (front ++ back) = (cover front).map (·.upTo last.stop) := by
  match front, hFront with
  | first :: front, _ =>
      rw [cover, cover, List.getLast?_append, hLast]
      simp [List.getLast?_eq_some_getLast, Span.upTo]

namespace Grammar

/-- A dotted name from its tokens, as `IsName` derives it from lexemes, with its
span. -/
inductive MakesName : List Token → RawName → Prop
  | word {t : Token} (hWord : t.kind = .ident) :
      MakesName [t] ⟨t.value, Token.cover [t]⟩
  | dotted {ts : List Token} {r : RawName} {dot t : Token}
      (hName : MakesName ts r) (hDot : dot.kind = .dot)
      (hWord : t.kind = .ident) :
      MakesName (ts ++ [dot, t])
        ⟨r.name ++ "." ++ t.value, Token.cover (ts ++ [dot, t])⟩

mutual

/-- A type from its tokens, as `IsType` derives it from lexemes, with the spans
of all its nodes. -/
inductive MakesType : List Token → Expression → Prop
  | unbounded {mark : Token} (hMark : mark.kind = .question) :
      MakesType [mark] (.wildcard .unbounded [] (Token.cover [mark]))
  | upper {mark word : Token} {ts : List Token} {es : List Expression}
      (hMark : mark.kind = .question) (hWord : word.kind = .extendsWord)
      (hBounds : MakesBounds ts es) :
      MakesType (mark :: word :: ts)
        (.wildcard .upper es (Token.cover (mark :: word :: ts)))
  | lower {mark word : Token} {ts : List Token} {e : Expression}
      (hMark : mark.kind = .question) (hWord : word.kind = .superWord)
      (hBare : MakesBare ts e) (hPrimitive : e.isPrimitive = false) :
      MakesType (mark :: word :: ts)
        (.wildcard .lower [e] (Token.cover (mark :: word :: ts)))
  | bare {ts : List Token} {e : Expression} (hBare : MakesBare ts e) :
      MakesType ts e

/-- A type other than a wildcard from its tokens, as `IsBare` derives it from
lexemes. -/
inductive MakesBare : List Token → Expression → Prop
  | primitive {t : Token} {p : Primitive} (hKind : t.kind = .primitive p) :
      MakesBare [t] (.primitive t.value (Token.cover [t]))
  | name {ts : List Token} {r : RawName} (hName : MakesName ts r) :
      MakesBare ts (.raw r)
  | internal {t : Token} (hKind : t.kind = .internalName)
      (hInternal : InternalName.IsInternalName t.value.toList) :
      MakesBare [t] (.internal t.value (Token.cover [t]))
  | parameterized {ts ms : List Token} {r : RawName} {es : List Expression}
      {opening closing : Token} (hName : MakesName ts r)
      (hOpening : opening.kind = .lt) (hArguments : MakesArguments ms es)
      (hClosing : closing.kind = .gt) :
      MakesBare (ts ++ opening :: (ms ++ [closing]))
        (.parameterized r es (Token.cover (ts ++ opening :: (ms ++ [closing]))))
  | array {ts : List Token} {e : Expression} {opening closing : Token}
      (hBare : MakesBare ts e) (hVoid : e.isVoid = false)
      (hOpening : opening.kind = .lbracket)
      (hClosing : closing.kind = .rbracket) :
      MakesBare (ts ++ [opening, closing])
        (.array e (Token.cover (ts ++ [opening, closing])))

/-- Type arguments from their tokens, with `comma` between them. -/
inductive MakesArguments : List Token → List Expression → Prop
  | one {ts : List Token} {e : Expression} (hType : MakesType ts e)
      (hPrimitive : e.isPrimitive = false) : MakesArguments ts [e]
  | more {ts ms : List Token} {e : Expression} {es : List Expression}
      {comma : Token} (hType : MakesType ts e)
      (hPrimitive : e.isPrimitive = false) (hComma : comma.kind = .comma)
      (hRest : MakesArguments ms es) :
      MakesArguments (ts ++ comma :: ms) (e :: es)

/-- The bounds of a wildcard from their tokens, with `amp` between them. -/
inductive MakesBounds : List Token → List Expression → Prop
  | one {ts : List Token} {e : Expression} (hBare : MakesBare ts e)
      (hPrimitive : e.isPrimitive = false) : MakesBounds ts [e]
  | more {ts ms : List Token} {e : Expression} {es : List Expression}
      {amp : Token} (hBare : MakesBare ts e)
      (hPrimitive : e.isPrimitive = false) (hAmp : amp.kind = .amp)
      (hRest : MakesBounds ms es) : MakesBounds (ts ++ amp :: ms) (e :: es)

end

/-! ## Spans -/

section

variable {ts : List Token} {e : Expression}

theorem MakesName.ne_nil {r : RawName} (hName : MakesName ts r) : ts ≠ [] := by
  cases hName <;> simp

/-- A name that `MakesName` derives spans the tokens that make it. -/
theorem MakesName.span {r : RawName} (hName : MakesName ts r) :
    r.span = Token.cover ts := by
  cases hName <;> rfl

theorem MakesBare.ne_nil (hBare : MakesBare ts e) : ts ≠ [] := by
  cases hBare with
  | name hName => exact hName.ne_nil
  | _ => simp

theorem MakesBare.span (hBare : MakesBare ts e) : e.span = Token.cover ts := by
  cases hBare with
  | name hName => exact hName.span
  | _ => rfl

theorem MakesBare.isWildcard (hBare : MakesBare ts e) :
    e.isWildcard = false := by
  cases hBare <;> rfl

theorem MakesType.ne_nil (hType : MakesType ts e) : ts ≠ [] := by
  cases hType with
  | bare hBare => exact hBare.ne_nil
  | _ => simp

/-- A tree that `MakesType` derives spans the tokens that make it. -/
theorem MakesType.span (hType : MakesType ts e) : e.span = Token.cover ts := by
  cases hType with
  | bare hBare => exact hBare.span
  | _ => rfl

end

/-- The last bound of a wildcard stops where the last token does. -/
theorem MakesBounds.stop {ts : List Token} {es : List Expression}
    (hBounds : MakesBounds ts es) :
    ∃ last, ts.getLast? = some last ∧
      ∃ start, es.getLast?.bind Expression.span = some ⟨start, last.stop⟩ := by
  match hBounds with
  | .one hBare _ =>
      have hSpan := hBare.span
      rw [Token.cover_of_ne_nil hBare.ne_nil] at hSpan
      exact ⟨_, List.getLast?_eq_some_getLast hBare.ne_nil, _,
        by simpa using hSpan⟩
  | .more _ _ _ hRest =>
      obtain ⟨last, hLast, start, hSpan⟩ := hRest.stop
      obtain ⟨bound, hBound, -⟩ := Option.bind_eq_some_iff.1 hSpan
      refine ⟨last, by simp [List.getLast?_cons, hLast], start, ?_⟩
      rw [List.getLast?_cons, hBound, Option.getD_some, ← hBound, hSpan]

/-- The bounds that `MakesBounds` derives are neither wildcards nor primitive
types. -/
theorem MakesBounds.kinds {ts : List Token} {es : List Expression}
    (hBounds : MakesBounds ts es) :
    ∀ e ∈ es, e.isWildcard = false ∧ e.isPrimitive = false := by
  match hBounds with
  | .one hBare hPrimitive =>
      exact List.forall_mem_singleton.2 ⟨hBare.isWildcard, hPrimitive⟩
  | .more hBare hPrimitive _ hRest =>
      exact List.forall_mem_cons.2 ⟨⟨hBare.isWildcard, hPrimitive⟩, hRest.kinds⟩

/-! ## Derivations from tokens -/

section

variable {tokens : List Token} {kind : Token.Kind} {text : String}

theorem exists_of_lexemes_cons {ls : List Lexeme}
    (hTokens : tokens.map Token.lexeme = ⟨kind, text⟩ :: ls) :
    ∃ t ts, tokens = t :: ts ∧ t.kind = kind ∧ t.value = text ∧
      ts.map Token.lexeme = ls := by
  obtain ⟨t, ts, rfl, hHead, hTail⟩ := List.map_eq_cons_iff.1 hTokens
  obtain ⟨hKind, hValue⟩ := Token.lexeme_eq_iff.1 hHead
  exact ⟨t, ts, rfl, hKind, hValue, hTail⟩

theorem exists_of_lexemes_singleton
    (hTokens : tokens.map Token.lexeme = [⟨kind, text⟩]) :
    ∃ t, tokens = [t] ∧ t.kind = kind ∧ t.value = text := by
  obtain ⟨t, ts, rfl, hKind, hValue, hTail⟩ := exists_of_lexemes_cons hTokens
  obtain rfl := List.map_eq_nil_iff.1 hTail
  exact ⟨t, rfl, hKind, hValue⟩

end

/-- Tokens whose lexemes derive a name by `IsName` make it by `MakesName`. -/
theorem IsName.exists_makes {ls : List Lexeme} {name : String}
    (hName : IsName ls name) {tokens : List Token}
    (hTokens : tokens.map Token.lexeme = ls) :
    ∃ span, MakesName tokens ⟨name, span⟩ := by
  induction hName generalizing tokens with
  | word text =>
      obtain ⟨t, rfl, hWord, rfl⟩ := exists_of_lexemes_singleton hTokens
      exact ⟨_, .word hWord⟩
  | dotted dot text _ ih =>
      obtain ⟨front, back, rfl, hFront, hBack⟩ :=
        List.map_eq_append_iff.1 hTokens
      obtain ⟨first, rest, rfl, hDot, -, hRest⟩ := exists_of_lexemes_cons hBack
      obtain ⟨second, rfl, hWord, rfl⟩ := exists_of_lexemes_singleton hRest
      obtain ⟨span, hMakes⟩ := ih hFront
      exact ⟨_, .dotted hMakes hDot hWord⟩

/-- One part more in front of a list whose parts are set off by tokens of kind
`kind`. What a part and what a list is made of is left open, for arguments and
bounds differ in it. -/
theorem exists_makes_more {ls ms : List Lexeme} {tree : Expression}
    {trees : List Expression} {kind : Token.Kind} {text : String}
    {part : List Token → Expression → Prop}
    {list : List Token → List Expression → Prop}
    (hMore : ∀ {ts ms e es t}, part ts e → e.isPrimitive = false →
      t.kind = kind →
      list ms es → list (ts ++ t :: ms) (e :: es))
    (hPrimitive : tree.isPrimitive = false)
    (hPart : ∀ {tokens : List Token}, tokens.map Token.lexeme = ls →
      ∃ e, part tokens e ∧ e.erase = tree)
    (hRest : ∀ {tokens : List Token}, tokens.map Token.lexeme = ms →
      ∃ es, list tokens es ∧ es.map Expression.erase = trees)
    {tokens : List Token}
    (hTokens : tokens.map Token.lexeme = ls ++ ⟨kind, text⟩ :: ms) :
    ∃ es, list tokens es ∧ es.map Expression.erase = tree :: trees := by
  obtain ⟨front, back, rfl, hFront, hBack⟩ := List.map_eq_append_iff.1 hTokens
  obtain ⟨middle, back, rfl, hKind, -, hBack⟩ := exists_of_lexemes_cons hBack
  obtain ⟨e, hMakes, rfl⟩ := hPart hFront
  obtain ⟨es, hMakesRest, rfl⟩ := hRest hBack
  exact ⟨e :: es, hMore hMakes (by simpa using hPrimitive) hKind hMakesRest,
    rfl⟩

-- The recursion is on the derivation, whose lexemes say how the tokens are
-- split.
mutual

/-- Tokens whose lexemes derive a tree by `IsType` make it, with spans, by
`MakesType`. -/
theorem IsType.exists_makes {ls : List Lexeme} {tree : Expression}
    (hType : IsType ls tree) {tokens : List Token}
    (hTokens : tokens.map Token.lexeme = ls) :
    ∃ e, MakesType tokens e ∧ e.erase = tree := by
  cases hType with
  | wildcard hWildcard => exact hWildcard.exists_makes hTokens
  | bare hBare =>
      obtain ⟨e, hMakes, hTree⟩ := hBare.exists_makes hTokens
      exact ⟨e, .bare hMakes, hTree⟩

theorem IsWildcard.exists_makes {ls : List Lexeme} {tree : Expression}
    (hWildcard : IsWildcard ls tree) {tokens : List Token}
    (hTokens : tokens.map Token.lexeme = ls) :
    ∃ e, MakesType tokens e ∧ e.erase = tree := by
  cases hWildcard with
  | unbounded mark =>
      obtain ⟨question, rfl, hMark, -⟩ := exists_of_lexemes_singleton hTokens
      exact ⟨_, .unbounded hMark, rfl⟩
  | upper mark word hBounds =>
      obtain ⟨question, rest, rfl, hMark, -, hRest⟩ :=
        exists_of_lexemes_cons hTokens
      obtain ⟨second, back, rfl, hWord, -, hBack⟩ :=
        exists_of_lexemes_cons hRest
      obtain ⟨es, hMakes, rfl⟩ := hBounds.exists_makes hBack
      exact ⟨_, .upper hMark hWord hMakes,
        by rw [Expression.erase, Expression.eraseAll_eq_map]⟩
  | lower mark word hBare hPrimitive =>
      obtain ⟨question, rest, rfl, hMark, -, hRest⟩ :=
        exists_of_lexemes_cons hTokens
      obtain ⟨second, back, rfl, hWord, -, hBack⟩ :=
        exists_of_lexemes_cons hRest
      obtain ⟨e, hMakes, rfl⟩ := hBare.exists_makes hBack
      exact ⟨_, .lower hMark hWord hMakes (by simpa using hPrimitive), rfl⟩

theorem IsBare.exists_makes {ls : List Lexeme} {tree : Expression}
    (hBare : IsBare ls tree) {tokens : List Token}
    (hTokens : tokens.map Token.lexeme = ls) :
    ∃ e, MakesBare tokens e ∧ e.erase = tree := by
  cases hBare with
  | base hBase => exact hBase.exists_makes hTokens
  | array opening closing hBare hVoid =>
      obtain ⟨front, back, rfl, hFront, hBack⟩ :=
        List.map_eq_append_iff.1 hTokens
      obtain ⟨first, rest, rfl, hOpening, -, hRest⟩ :=
        exists_of_lexemes_cons hBack
      obtain ⟨second, rfl, hClosing, -⟩ := exists_of_lexemes_singleton hRest
      obtain ⟨e, hMakes, rfl⟩ := hBare.exists_makes hFront
      exact ⟨_, .array hMakes (by simpa using hVoid) hOpening hClosing, rfl⟩

theorem IsBase.exists_makes {ls : List Lexeme} {tree : Expression}
    (hBase : IsBase ls tree) {tokens : List Token}
    (hTokens : tokens.map Token.lexeme = ls) :
    ∃ e, MakesBare tokens e ∧ e.erase = tree := by
  cases hBase with
  | primitive p =>
      obtain ⟨t, rfl, hKind, hValue⟩ := exists_of_lexemes_singleton hTokens
      exact ⟨_, .primitive hKind, by rw [Expression.erase, hValue]⟩
  | name hName =>
      obtain ⟨span, hMakes⟩ := hName.exists_makes hTokens
      exact ⟨_, .name hMakes, rfl⟩
  | internal hInternal =>
      obtain ⟨t, rfl, hKind, rfl⟩ := exists_of_lexemes_singleton hTokens
      exact ⟨_, .internal hKind hInternal, rfl⟩
  | parameterized opening closing hName hArguments =>
      obtain ⟨front, back, rfl, hFront, hBack⟩ :=
        List.map_eq_append_iff.1 hTokens
      obtain ⟨first, rest, rfl, hOpening, -, hRest⟩ :=
        exists_of_lexemes_cons hBack
      obtain ⟨middle, last, rfl, hMiddle, hLast⟩ :=
        List.map_eq_append_iff.1 hRest
      obtain ⟨final, rfl, hClosing, -⟩ := exists_of_lexemes_singleton hLast
      obtain ⟨span, hMakes⟩ := hName.exists_makes hFront
      obtain ⟨es, hMakesAll, rfl⟩ := hArguments.exists_makes hMiddle
      refine ⟨_, .parameterized hMakes hOpening hMakesAll hClosing, ?_⟩
      rw [Expression.erase, Expression.eraseAll_eq_map]

theorem IsArguments.exists_makes {ls : List Lexeme} {trees : List Expression}
    (hArguments : IsArguments ls trees) {tokens : List Token}
    (hTokens : tokens.map Token.lexeme = ls) :
    ∃ es, MakesArguments tokens es ∧ es.map Expression.erase = trees := by
  cases hArguments with
  | one hType hPrimitive =>
      obtain ⟨e, hMakes, rfl⟩ := hType.exists_makes hTokens
      exact ⟨[e], .one hMakes (by simpa using hPrimitive), rfl⟩
  | more comma hType hPrimitive hRest =>
      exact exists_makes_more .more hPrimitive
        (fun hFront => hType.exists_makes hFront)
        (fun hBack => hRest.exists_makes hBack) hTokens

theorem IsBounds.exists_makes {ls : List Lexeme} {trees : List Expression}
    (hBounds : IsBounds ls trees) {tokens : List Token}
    (hTokens : tokens.map Token.lexeme = ls) :
    ∃ es, MakesBounds tokens es ∧ es.map Expression.erase = trees := by
  cases hBounds with
  | one hBare hPrimitive =>
      obtain ⟨e, hMakes, rfl⟩ := hBare.exists_makes hTokens
      exact ⟨[e], .one hMakes (by simpa using hPrimitive), rfl⟩
  | more amp hBare hPrimitive hRest =>
      exact exists_makes_more .more hPrimitive
        (fun hFront => hBare.exists_makes hFront)
        (fun hBack => hRest.exists_makes hBack) hTokens

end

end Grammar

end JvmTypes
