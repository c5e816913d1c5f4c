import JvmTypes.Proofs.Alike
import JvmTypes.Proofs.Denotation
import JvmTypes.Proofs.Nodes

/-!
# Exchanging a wildcard

Cut a wildcard out of a text, at any depth, and put another one in its place.
The text can still be read, and its tree is the old one with the one node
exchanged. That is a fact about the grammar: a wildcard is the whole type or a
type argument, so behind its piece of the tokens there is nothing or a token
that ends every token in front of it (`Token.Kind.isSeam`), and what is made
from the tokens around it does not look at the piece
(`Grammar.MakesType.exists_exchange`).

If the new wildcard means what is akin to what the old one means, then so it is
with the trees that they stand in, for composing respects kinship. From the
wildcard up to the whole tree that is one step after another
(`Expression.Exchanged`).

## Main results

* `Grammar.MakesType.exists_exchange`: exchanging a piece of some tokens.
* `Expression.exists_exchanged`: exchanging a piece of a text.
* `Scope.keeps_of_exchanged`: kinship of what is meant, from a node up to its
  tree.
* `Scope.exists_parse_splice`: a text with a wildcard exchanged denotes what is
  akin.
-/

namespace JvmTypes

/-! ## Trees with a node exchanged -/

namespace Expression

mutual

/-- Two trees that agree apart from spans, except that one has the node `new`
where the other has the node `old`. -/
inductive Exchanged (old new : Expression) : Expression → Expression → Prop
  | here : Exchanged old new old new
  | array {e e' : Expression} {s s' : Option Span}
      (hComponent : Exchanged old new e e') :
      Exchanged old new (.array e s) (.array e' s')
  | parameterized {r : RawName} {es es' : List Expression} {s s' : Option Span}
      (hArguments : ExchangedAll old new es es') :
      Exchanged old new (.parameterized r es s) (.parameterized r es' s')
  | upper {es es' : List Expression} {s s' : Option Span}
      (hBounds : ExchangedAll old new es es') :
      Exchanged old new (.wildcard .upper es s) (.wildcard .upper es' s')
  | lower {e e' : Expression} {s s' : Option Span}
      (hBound : Exchanged old new e e') :
      Exchanged old new (.wildcard .lower [e] s) (.wildcard .lower [e'] s')

/-- Two lists of trees that agree but for one tree, where one is `Exchanged` for
the other. -/
inductive ExchangedAll (old new : Expression) :
    List Expression → List Expression → Prop
  | head {e e' : Expression} {es : List Expression}
      (hHead : Exchanged old new e e') :
      ExchangedAll old new (e :: es) (e' :: es)
  | tail {e : Expression} {es es' : List Expression}
      (hTail : ExchangedAll old new es es') :
      ExchangedAll old new (e :: es) (e :: es')

end

variable {old new e e' : Expression}

private theorem isPrimitive_of_isWildcard (hWildcard : e.isWildcard = true) :
    e.isPrimitive = false := by
  cases e <;> first | rfl | cases hWildcard

private theorem isVoid_of_not_primitive (hPrimitive : e.isPrimitive = false) :
    e.isVoid = false := by
  cases e <;> first | rfl | cases hPrimitive

theorem Exchanged.isPrimitive (hExchanged : Exchanged old new e e')
    (hNew : new.isPrimitive = false) : e'.isPrimitive = false := by
  cases hExchanged with
  | here => exact hNew
  | _ => rfl

end Expression

/-! ## Tokens with a piece exchanged -/

/-- The kinds of tokens at whose character every token in front of it ends. -/
def Token.Kind.isSeam : Token.Kind → Bool
  | .comma | .gt | .question => true
  | _ => false

private theorem Token.Kind.isSeam_ofWord (text : String) :
    (ofWord text).isSeam = false := by
  unfold ofWord ofKeyword?
  split
  · rfl
  · split
    · rfl
    · cases Primitive.ofName? text <;> rfl

namespace Grammar

open Expression

variable {old : Expression} {made : Expression → List Token → Prop}

/-- Some tokens hold a piece that makes `old`, with a separating token behind
it. With a piece that makes another tree instead, that is no primitive type, the
tokens make something that fits it. -/
def Exchangeable (old : Expression) (ts : List Token)
    (made : Expression → List Token → Prop) : Prop :=
  ∃ before part closing after, ts = before ++ (part ++ closing :: after) ∧
    MakesType part old ∧
    closing.kind.isSeam = true ∧
    ∀ new piece, MakesType piece new → new.isPrimitive = false →
      made new (before ++ (piece ++ closing :: after))

/-- With more tokens in front the piece stays `Exchangeable`. -/
theorem Exchangeable.append_left {ts : List Token}
    {made' : Expression → List Token → Prop} (front : List Token)
    (hInner : Exchangeable old ts made)
    (hMade : ∀ new ts', new.isPrimitive = false → made new ts' →
      made' new (front ++ ts')) :
    Exchangeable old (front ++ ts) made' := by
  obtain ⟨before, part, closing, after, rfl, hPart, hClosing, hExchange⟩ :=
    hInner
  refine ⟨front ++ before, part, closing, after, by simp, hPart, hClosing, ?_⟩
  intro new piece hPiece hNew
  rw [List.append_assoc]
  exact hMade new _ hNew (hExchange new piece hPiece hNew)

theorem Exchangeable.append_right {ts : List Token}
    {made' : Expression → List Token → Prop} (back : List Token)
    (hInner : Exchangeable old ts made)
    (hMade : ∀ new ts', new.isPrimitive = false → made new ts' →
      made' new (ts' ++ back)) :
    Exchangeable old (ts ++ back) made' := by
  obtain ⟨before, part, closing, after, rfl, hPart, hClosing, hExchange⟩ :=
    hInner
  refine ⟨before, part, closing, after ++ back, by simp, hPart, hClosing, ?_⟩
  intro new piece hPiece hNew
  have hWhole := hMade new _ hNew (hExchange new piece hPiece hNew)
  rwa [List.append_assoc, List.append_assoc] at hWhole

/-- Some tokens with a piece exchanged for one that makes `new` derive by `rule`
a tree with the node `Exchanged`. -/
abbrev MakesExchanged (rule : List Token → Expression → Prop)
    (old e new : Expression) (ts : List Token) : Prop :=
  ∃ e', rule ts e' ∧ Exchanged old new e e'

/-- The same for a list of trees, `ExchangedAll`. -/
abbrev MakesAllExchanged (rule : List Token → List Expression → Prop)
    (old : Expression) (es : List Expression) (new : Expression)
    (ts : List Token) : Prop :=
  ∃ es', rule ts es' ∧ ExchangedAll old new es es'

/-- Type arguments that `MakesArguments` derives, with the bracket that closes
them. -/
def ClosedArguments (closing : Token) (ts : List Token) (es : List Expression) :
    Prop :=
  ∃ ms, ts = ms ++ [closing] ∧ MakesArguments ms es

section Rules

variable {ts ms : List Token} {e : Expression} {es : List Expression}
    {span : Option Span}

private theorem exchangeable_upper {mark word : Token}
    (hMark : mark.kind = .question) (hWord : word.kind = .extendsWord)
    (hBounds : Exchangeable old ts (MakesAllExchanged MakesBounds old es)) :
    Exchangeable old (mark :: word :: ts)
      (MakesExchanged MakesType old (.wildcard .upper es span)) := by
  refine hBounds.append_left [mark, word] ?_
  rintro new ts' - ⟨es', hMakes, hExchanged⟩
  exact ⟨_, .upper hMark hWord hMakes, .upper hExchanged⟩

private theorem exchangeable_lower {mark word : Token}
    (hMark : mark.kind = .question) (hWord : word.kind = .superWord)
    (hBound : Exchangeable old ts (MakesExchanged MakesBare old e)) :
    Exchangeable old (mark :: word :: ts)
      (MakesExchanged MakesType old (.wildcard .lower [e] span)) := by
  refine hBound.append_left [mark, word] ?_
  rintro new ts' hNew ⟨e', hMakes, hExchanged⟩
  exact ⟨_, .lower hMark hWord hMakes (hExchanged.isPrimitive hNew),
    .lower hExchanged⟩

private theorem exchangeable_bare
    (hBare : Exchangeable old ts (MakesExchanged MakesBare old e)) :
    Exchangeable old ts (MakesExchanged MakesType old e) := by
  refine hBare.append_left [] ?_
  rintro new ts' - ⟨e', hMakes, hExchanged⟩
  exact ⟨e', .bare hMakes, hExchanged⟩

private theorem exchangeable_parameterized {r : RawName}
    {opening closing : Token} (hName : MakesName ts r)
    (hOpening : opening.kind = .lt) (hClosing : closing.kind = .gt)
    (hArguments : Exchangeable old (ms ++ [closing])
      (MakesAllExchanged (ClosedArguments closing) old es)) :
    Exchangeable old (ts ++ opening :: (ms ++ [closing]))
      (MakesExchanged MakesBare old (.parameterized r es span)) := by
  rw [List.append_cons]
  refine hArguments.append_left (ts ++ [opening]) ?_
  rintro new us - ⟨es', ⟨ms', rfl, hMakes⟩, hExchanged⟩
  rw [← List.append_cons]
  exact ⟨_, .parameterized hName hOpening hMakes hClosing,
    .parameterized hExchanged⟩

private theorem exchangeable_array {opening closing : Token}
    (hOpening : opening.kind = .lbracket) (hClosing : closing.kind = .rbracket)
    (hComponent : Exchangeable old ts (MakesExchanged MakesBare old e)) :
    Exchangeable old (ts ++ [opening, closing])
      (MakesExchanged MakesBare old (.array e span)) := by
  refine hComponent.append_right [opening, closing] ?_
  rintro new ts' hNew ⟨e', hMakes, hExchanged⟩
  have hVoid := isVoid_of_not_primitive (hExchanged.isPrimitive hNew)
  exact ⟨_, .array hMakes hVoid hOpening hClosing, .array hExchanged⟩

/-- A tree in front of a token that `isSeam`: if it is the old node itself, it
can be exchanged, and otherwise that node can be exchanged within it. -/
theorem exchangeable_first {after : List Token} {closing : Token}
    (hType : MakesType ts e) (hClosing : closing.kind.isSeam = true)
    (hInner : old = e ∨ Exchangeable old ts (MakesExchanged MakesType old e))
    (hMade : ∀ new e' ts', MakesType ts' e' → e'.isPrimitive = false →
      Exchanged old new e e' → made new (ts' ++ closing :: after)) :
    Exchangeable old (ts ++ closing :: after) made := by
  rcases hInner with rfl | hInner
  · refine ⟨[], ts, closing, after, rfl, hType, hClosing,
      fun new piece hPiece hNew => ?_⟩
    exact hMade new new piece hPiece hNew .here
  · refine hInner.append_right (closing :: after) ?_
    rintro new ts' hNew ⟨e', hMakes, hExchanged⟩
    exact hMade new e' ts' hMakes (hExchanged.isPrimitive hNew) hExchanged

private theorem exchangeable_oneArgument {closing : Token}
    (hType : MakesType ts e) (hClosing : closing.kind = .gt)
    (hInner : old = e ∨ Exchangeable old ts (MakesExchanged MakesType old e)) :
    Exchangeable old (ts ++ [closing])
      (MakesAllExchanged (ClosedArguments closing) old [e]) := by
  have hSeam : closing.kind.isSeam = true := by rw [hClosing]; rfl
  refine exchangeable_first hType hSeam hInner
    fun new e' ts' hMakes hKind hExchanged => ?_
  exact ⟨[e'], ⟨ts', rfl, .one hMakes hKind⟩, .head hExchanged⟩

private theorem exchangeable_firstArgument {comma closing : Token}
    (hType : MakesType ts e) (hComma : comma.kind = .comma)
    (hRest : MakesArguments ms es)
    (hInner : old = e ∨ Exchangeable old ts (MakesExchanged MakesType old e)) :
    Exchangeable old (ts ++ comma :: ms ++ [closing])
      (MakesAllExchanged (ClosedArguments closing) old (e :: es)) := by
  have hSeam : comma.kind.isSeam = true := by rw [hComma]; rfl
  rw [List.append_assoc, List.cons_append]
  refine exchangeable_first hType hSeam hInner
    fun new e' ts' hMakes hKind hExchanged => ?_
  exact ⟨e' :: es, ⟨ts' ++ comma :: ms, by simp,
    .more hMakes hKind hComma hRest⟩,
    .head hExchanged⟩

private theorem exchangeable_laterArgument {comma closing : Token}
    (hType : MakesType ts e) (hPrimitive : e.isPrimitive = false)
    (hComma : comma.kind = .comma)
    (hRest : Exchangeable old (ms ++ [closing])
      (MakesAllExchanged (ClosedArguments closing) old es)) :
    Exchangeable old (ts ++ comma :: ms ++ [closing])
      (MakesAllExchanged (ClosedArguments closing) old (e :: es)) := by
  rw [List.append_assoc, List.cons_append, List.append_cons]
  refine hRest.append_left (ts ++ [comma]) ?_
  rintro new us - ⟨es', ⟨ms', rfl, hMakes⟩, hExchanged⟩
  exact ⟨e :: es', ⟨ts ++ comma :: ms', by simp,
    .more hType hPrimitive hComma hMakes⟩,
    .tail hExchanged⟩

private theorem exchangeable_oneBound
    (hBound : Exchangeable old ts (MakesExchanged MakesBare old e)) :
    Exchangeable old ts (MakesAllExchanged MakesBounds old [e]) := by
  refine hBound.append_left [] ?_
  rintro new ts' hNew ⟨e', hMakes, hExchanged⟩
  exact ⟨[e'], .one hMakes (hExchanged.isPrimitive hNew), .head hExchanged⟩

private theorem exchangeable_firstBound {amp : Token} (hAmp : amp.kind = .amp)
    (hRest : MakesBounds ms es)
    (hBound : Exchangeable old ts (MakesExchanged MakesBare old e)) :
    Exchangeable old (ts ++ amp :: ms)
      (MakesAllExchanged MakesBounds old (e :: es)) := by
  refine hBound.append_right (amp :: ms) ?_
  rintro new ts' hNew ⟨e', hMakes, hExchanged⟩
  exact ⟨e' :: es, .more hMakes (hExchanged.isPrimitive hNew) hAmp hRest,
    .head hExchanged⟩

private theorem exchangeable_laterBound {amp : Token} (hBare : MakesBare ts e)
    (hPrimitive : e.isPrimitive = false) (hAmp : amp.kind = .amp)
    (hRest : Exchangeable old ms (MakesAllExchanged MakesBounds old es)) :
    Exchangeable old (ts ++ amp :: ms)
      (MakesAllExchanged MakesBounds old (e :: es)) := by
  rw [List.append_cons]
  refine hRest.append_left (ts ++ [amp]) ?_
  rintro new us - ⟨es', hMakes, hExchanged⟩
  rw [← List.append_cons]
  exact ⟨e :: es', .more hBare hPrimitive hAmp hMakes, .tail hExchanged⟩

end Rules

/-- A wildcard that is a node of a parameterized type is a node of an argument,
not of its class name. -/
theorem isNode_arguments {r : RawName} {es : List Expression} {c : Expression}
    (hOld : old.isWildcard = true) (hChild : c ∈ raw r :: es)
    (hNode : c.IsNode old) : c ∈ es := by
  refine (List.mem_cons.1 hChild).resolve_left ?_
  rintro rfl
  rcases isNode_iff.1 hNode with rfl | ⟨d, hLeaf, -⟩
  · cases hOld
  · cases hLeaf

-- The recursion is on the derivation, with one rule above for each way to
-- derive. A wildcard below a node is below one of its children.
mutual

/-- A wildcard that is a node of a tree is the tree, or its piece of the tokens
is `Exchangeable`. -/
theorem MakesType.exchange (hOld : old.isWildcard = true) {ts : List Token}
    {e : Expression} (hType : MakesType ts e) (hNode : e.IsNode old) :
    old = e ∨ Exchangeable old ts (MakesExchanged MakesType old e) := by
  refine (isNode_iff.1 hNode).imp_right fun ⟨c, hChild, hBelow⟩ => ?_
  cases hType with
  | unbounded => cases hChild
  | upper hMark hWord hBounds =>
      exact exchangeable_upper hMark hWord (hBounds.exchange hOld hChild hBelow)
  | lower hMark hWord hBare =>
      have hBound := List.mem_singleton.1 hChild ▸ hBelow
      exact exchangeable_lower hMark hWord (hBare.exchange hOld hBound)
  | bare hBare => exact exchangeable_bare (hBare.exchange hOld hNode)
termination_by (sizeOf e, 1)

private theorem MakesBare.exchange (hOld : old.isWildcard = true)
    {ts : List Token} {e : Expression} (hBare : MakesBare ts e)
    (hNode : e.IsNode old) :
    Exchangeable old ts (MakesExchanged MakesBare old e) := by
  have hInside := (isNode_iff.1 hNode).resolve_left fun hRoot => by
    simp [hRoot, hBare.isWildcard] at hOld
  obtain ⟨c, hChild, hBelow⟩ := hInside
  cases hBare with
  | primitive | name | internal => cases hChild
  | parameterized hName hOpening hArguments hClosing =>
      have hMem := isNode_arguments hOld hChild hBelow
      exact exchangeable_parameterized hName hOpening hClosing
        (hArguments.exchange hOld hClosing hMem hBelow)
  | array hBare _ hOpening hClosing =>
      have hComponent := List.mem_singleton.1 hChild ▸ hBelow
      exact exchangeable_array hOpening hClosing
        (hBare.exchange hOld hComponent)
termination_by (sizeOf e, 0)

private theorem MakesArguments.exchange (hOld : old.isWildcard = true)
    {ts : List Token} {es : List Expression} {closing : Token}
    (hArguments : MakesArguments ts es) (hClosing : closing.kind = .gt)
    {c : Expression} (hMem : c ∈ es) (hNode : c.IsNode old) :
    Exchangeable old (ts ++ [closing])
      (MakesAllExchanged (ClosedArguments closing) old es) := by
  cases hArguments with
  | one hType =>
      have hOnly := List.mem_singleton.1 hMem ▸ hNode
      exact exchangeable_oneArgument hType hClosing (hType.exchange hOld hOnly)
  | more hType hPrimitive hComma hRest =>
      rcases List.mem_cons.1 hMem with hFirst | hLater
      · have hHead := hFirst ▸ hNode
        exact exchangeable_firstArgument hType hComma hRest
          (hType.exchange hOld hHead)
      · exact exchangeable_laterArgument hType hPrimitive hComma
          (hRest.exchange hOld hClosing hLater hNode)
termination_by (sizeOf es, 0)

private theorem MakesBounds.exchange (hOld : old.isWildcard = true)
    {ts : List Token} {es : List Expression} (hBounds : MakesBounds ts es)
    {c : Expression} (hMem : c ∈ es) (hNode : c.IsNode old) :
    Exchangeable old ts (MakesAllExchanged MakesBounds old es) := by
  cases hBounds with
  | one hBare =>
      have hOnly := List.mem_singleton.1 hMem ▸ hNode
      exact exchangeable_oneBound (hBare.exchange hOld hOnly)
  | more hBare hPrimitive hAmp hRest =>
      rcases List.mem_cons.1 hMem with hFirst | hLater
      · have hHead := hFirst ▸ hNode
        exact exchangeable_firstBound hAmp hRest (hBare.exchange hOld hHead)
      · exact exchangeable_laterBound hBare hPrimitive hAmp
          (hRest.exchange hOld hLater hNode)
termination_by (sizeOf es, 0)

end

/-- A wildcard that is a node of a tree is made from a piece of the tree's
tokens, with nothing or a token that `isSeam` behind it. What `MakesType`
derives with another piece in its place is the tree with the node
`Exchanged`. -/
theorem MakesType.exists_exchange {ts : List Token} {e : Expression}
    (hType : MakesType ts e) (hNode : e.IsNode old)
    (hOld : old.isWildcard = true) :
    ∃ before part after, ts = before ++ (part ++ after) ∧ MakesType part old ∧
      (∀ t, after.head? = some t → t.kind.isSeam = true) ∧
      ∀ new piece, MakesType piece new → new.isPrimitive = false →
        MakesExchanged MakesType old e new (before ++ (piece ++ after)) := by
  rcases hType.exchange hOld hNode with rfl | hInner
  · refine ⟨[], ts, [], by simp, hType, by simp,
      fun new piece hPiece _ => ⟨new, ?_, .here⟩⟩
    simpa using hPiece
  · obtain ⟨before, part, closing, after, rfl, hPart, hClosing, hExchange⟩ :=
      hInner
    exact ⟨before, part, closing :: after, rfl, hPart,
      by simpa using hClosing, hExchange⟩

private theorem MakesType.exists_question {ts : List Token} {e : Expression}
    (hType : MakesType ts e) (hWildcard : e.isWildcard = true) :
    ∃ mark rest, ts = mark :: rest ∧ mark.kind = .question := by
  cases hType with
  | unbounded hMark => exact ⟨_, _, rfl, hMark⟩
  | upper hMark => exact ⟨_, _, rfl, hMark⟩
  | lower hMark => exact ⟨_, _, rfl, hMark⟩
  | bare hBare => simp [hBare.isWildcard] at hWildcard

/-- What the tokens of a text make by `MakesType` derives from its lexemes by
`IsType`. -/
theorem MakesType.textOf {text : String} {ts : List Token} {e : Expression}
    (hType : MakesType ts e)
    (hLexes : Token.Lexes text.toList (ts.map Token.lexeme)) :
    TextOf IsType text e.erase := by
  have hKinds := Expression.kinds_of_lexes hLexes
  let eof := Token.ofChars .eof 0 []
  have hKeyed : ∀ t ∈ ts ++ [eof], t.IsKeyed :=
    Expression.isKeyed_concat (fun t hMem => (hKinds t hMem).2) rfl
  have hRead : Expression.read (ts ++ [eof]) = .ok e :=
    Expression.read_of_makesType hType rfl []
  obtain ⟨front, stop, back, hSplit, hStop, hDerives⟩ :=
    Expression.read_sound hKeyed hRead
  rw [Token.eq_of_append_eof (fun t hMem => (hKinds t hMem).1) hStop hSplit]
    at hDerives
  exact ⟨_, hLexes, hDerives⟩

end Grammar

/-! ## Texts with a piece exchanged -/

namespace Token

open Text

/-- A text whose first lexeme is of a kind that `isSeam` starts with a character
that no lexeme in front of it can run on to. -/
theorem Lexes.head_of_isSeam {text : List Char} {ls : List Lexeme}
    (hLexes : Lexes text ls)
    (hSeam : ∀ l, ls.head? = some l → l.kind.isSeam = true) :
    ∀ c, text.head? = some c → isInternalPart c = false ∧ c ≠ '[' := by
  rintro c hHead
  cases hLexes with
  | nil => cases hHead
  | blank hBlank =>
      obtain rfl := Option.some.inj hHead
      exact isInternalPart_of_isBlank hBlank
  | @word d cs =>
      have hWord := hSeam _ rfl
      rw [Kind.isSeam_ofWord] at hWord
      cases hWord
  | internal => cases hSeam _ rfl
  | @operator d cs ls kind hKind =>
      obtain rfl := Option.some.inj hHead
      have hOperator : kind.isSeam = true := hSeam _ rfl
      unfold Kind.ofOperator? at hKind
      split at hKind <;> cases hKind <;> first | decide | cases hOperator

/-- The lexemes of two texts in a row, if the second has none or starts with one
whose kind `isSeam`. -/
theorem Lexes.append_of_isSeam {front back : List Char} {ls ms : List Lexeme}
    (hFront : Lexes front ls) (hBack : Lexes back ms)
    (hSeam : ∀ l, ms.head? = some l → l.kind.isSeam = true) :
    Lexes (front ++ back) (ls ++ ms) := by
  have hHead := hBack.head_of_isSeam hSeam
  cases back with
  | nil =>
      cases hBack
      simpa using hFront
  | cons c cs =>
      obtain ⟨hPart, hBracket⟩ := hHead c rfl
      exact hFront.append hBack hPart fun hEq => absurd hEq hBracket

end Token

/-- The text with `piece` in place of the one under the span `s`. -/
def Span.splice (s : Span) (text piece : String) : String :=
  String.ofList (text.toList.take s.start.toNat) ++ piece ++
    String.ofList (text.toList.drop s.stop.toNat)

private theorem Span.toList_splice {text : String} {front mid back : List Char}
    (hText : text.toList = front ++ (mid ++ back)) (piece : String) :
    (Span.splice ⟨front.length, front.length + mid.length⟩ text piece).toList =
      front ++ (piece.toList ++ back) := by
  have hStop : ((front.length : Int) + mid.length).toNat = front.length +
      mid.length := by omega
  simp [Span.splice, hStop, hText, ← List.drop_drop]

namespace Expression

open Grammar

/-- A text with a wildcard exchanged for another (`Span.splice`) makes the tree
with the node `Exchanged`. -/
theorem exists_exchanged {text piece : String} {e old new : Expression}
    {s : Span} (hText : ofText text = .ok e) (hNode : e.IsNode old)
    (hOld : old.isWildcard = true) (hSpan : old.span = some s)
    (hPiece : ofText piece = .ok new) (hNew : new.isWildcard = true) :
    ∃ e', TextOf IsType (s.splice text piece) e'.erase ∧
      Exchanged old new e e' := by
  obtain ⟨words, stop, hScans, -, hType⟩ := exists_scans_of_ofText hText
  obtain ⟨words', stop', hScans', -, hType'⟩ := exists_scans_of_ofText hPiece
  obtain ⟨before, part, after, rfl, hPart, hSeam, hExchange⟩ :=
    hType.exists_exchange hNode hOld
  obtain ⟨e', hMakes, hExchanged⟩ :=
    hExchange new words' hType' (isPrimitive_of_isWildcard hNew)
  refine ⟨e', hMakes.textOf ?_, hExchanged⟩
  -- The span says where the text is cut.
  rw [List.append_assoc, List.append_assoc] at hScans
  obtain ⟨front, mid, back, hChars, hFront, -, hBack, hStart, hStop⟩ :=
    hScans.slice hPart.ne_nil (by simp)
  have hCover := Token.cover_of_ends hStart hStop
  obtain rfl : s = ⟨front.length, front.length + mid.length⟩ := by
    rw [hPart.span, hCover] at hSpan
    exact (Option.some.inj hSpan).symm
  rw [Span.toList_splice hChars, List.map_append, List.map_append]
  -- Neither seam lets a lexeme run on.
  obtain ⟨mark, rest, rfl, hMark⟩ := hType'.exists_question hNew
  have hBehind : ∀ l, (after.map Token.lexeme).head? = some l →
      l.kind.isSeam = true := by
    intro l hHead
    rw [List.head?_map, Option.map_eq_some_iff] at hHead
    obtain ⟨t, hFirst, rfl⟩ := hHead
    exact hSeam t hFirst
  have hInner := hScans'.lexes.append_of_isSeam hBack.lexes hBehind
  refine hFront.lexes.append_of_isSeam hInner fun l hHead => ?_
  obtain rfl : mark.lexeme = l := by simpa using hHead
  show mark.kind.isSeam = true
  rw [hMark]
  rfl

end Expression

/-! ## What exchanging does to the meaning -/

namespace Scope

variable {scope : Scope}

private theorem isTypeValue_of_arrayTimes {n : Nat} {c : ClassType} {v : Value}
    (hArray : arrayTimes n (.classType c) = .ok v) : v.IsTypeValue := by
  induction n generalizing c with
  | zero =>
      cases hArray
      exact .classType trivial
  | succ n ih =>
      rw [arrayTimes] at hArray
      obtain ⟨w, hFirst, hRest⟩ := exists_of_bind_eq_ok hArray
      obtain ⟨-, rfl⟩ := Composition.arrayOf_classType_eq_ok_iff.1 hFirst
      exact ih hRest

private theorem isTypeValue_of_evaluateClassArray {depth : Nat}
    {descriptor : List Char} {position : Option Int} {v : Value}
    (hValue : (scope.evaluateClassArray depth descriptor position).value? =
      some v) :
    v.IsTypeValue := by
  rw [evaluateClassArray, Traced.value?_bind, Option.bind_eq_some_iff] at hValue
  obtain ⟨d, -, hArray⟩ := hValue
  rw [value?_composed, toOption_eq_some_iff] at hArray
  exact isTypeValue_of_arrayTimes hArray

private theorem isTypeValue_of_evaluateInternal {encoded : String}
    {position : Option Int} {v : Value}
    (hValue : (scope.evaluateInternal encoded position).value? = some v) :
    v.IsTypeValue := by
  simp only [evaluateInternal] at hValue
  split at hValue
  · split at hValue
    · rw [value?_composed, toOption_eq_some_iff] at hValue
      exact isTypeValue_of_arrayTimes hValue
    · exact isTypeValue_of_evaluateClassArray hValue
  · exact isTypeValue_of_evaluateClassArray hValue

private theorem isTypeValue_of_subtypeOf {bounds : List Value} {v : Value}
    (hBounds : ∀ b ∈ bounds, b.IsTypeValue)
    (hSubtype : Composition.subtypeOf bounds = .ok v) : v.IsTypeValue := by
  obtain ⟨-, -, rfl⟩ := Composition.subtypeOf_eq_ok_iff.1 hSubtype
  refine .wildcard (fun b hMem => ?_) (by simp)
  rcases Composition.mem_of_mem_effectiveBounds hMem with rfl | hGiven
  · exact .classType trivial
  · exact hBounds b hGiven

private theorem isTypeValue_of_supertypeOf {bound v : Value}
    (hBound : bound.IsTypeValue)
    (hSupertype : Composition.supertypeOf bound = .ok v) : v.IsTypeValue := by
  obtain ⟨-, -, rfl⟩ := Composition.supertypeOf_eq_ok_iff.1 hSupertype
  exact .wildcard (List.forall_mem_singleton.2 (.classType trivial))
    (List.forall_mem_singleton.2 hBound)

/-- What an expression means is a type throughout (`IsTypeValue`). -/
theorem isTypeValue_of_meaning (e : Expression) :
    ∀ v, scope.meaning e = some v → v.IsTypeValue := by
  induction e using Expression.induction_children with
  | hStep e ih =>
      intro v hMeaning
      cases e with
      | primitive name span =>
          rw [meaning, evaluate] at hMeaning
          split at hMeaning
          · cases hMeaning
            exact .classType trivial
          · cases hMeaning
      | raw r =>
          obtain ⟨d, -, rfl⟩ := meaning_raw_eq_some_iff.1 hMeaning
          exact .classType trivial
      | internal encoded span =>
          rw [meaning, evaluate] at hMeaning
          exact isTypeValue_of_evaluateInternal hMeaning
      | array component span =>
          obtain ⟨w, hInner, hArray⟩ := meaning_array_eq_some_iff.1 hMeaning
          have hComponent :=
            ih component (by simp [Expression.children]) w hInner
          rcases Composition.cases_of_arrayOf hArray
            with ⟨c, -, -, rfl⟩ | ⟨-, -, rfl⟩
          · exact .classType trivial
          · exact .array hComponent
      | parameterized r arguments span =>
          obtain ⟨d, -, vs, hMeanings, hParameterized⟩ :=
            meaning_parameterized_eq_some_iff.1 hMeaning
          obtain ⟨-, -, -, -, -, rfl⟩ :=
            Composition.parameterizedOf_eq_ok_iff.1 hParameterized
          refine .parameterized (.classType trivial) fun a hMem => ?_
          obtain ⟨c, hChild, hArgument⟩ :=
            (scope.mem_meanings_iff hMeanings).1 hMem
          exact ih c (List.mem_cons_of_mem _ hChild) a hArgument
      | wildcard kind bounds span =>
          rw [meaning, evaluate, Traced.value?_bind, ← meanings,
            Option.bind_eq_some_iff] at hMeaning
          obtain ⟨vs, hMeanings, hWildcard⟩ := hMeaning
          have hBounds : ∀ b ∈ vs, b.IsTypeValue := by
            intro b hMem
            obtain ⟨c, hChild, hBound⟩ :=
              (scope.mem_meanings_iff hMeanings).1 hMem
            exact ih c hChild b hBound
          split at hWildcard
          · rw [value?_composed, toOption_eq_some_iff] at hWildcard
            exact isTypeValue_of_supertypeOf
              (hBounds _ (List.mem_singleton.2 rfl)) hWildcard
          · cases hWildcard
          · rw [value?_composed, toOption_eq_some_iff] at hWildcard
            exact isTypeValue_of_subtypeOf hBounds hWildcard

/-- If the first expression means a value, the second means one that is `Akin`
to it. -/
def Keeps (scope : Scope) (e e' : Expression) : Prop :=
  ∀ v, scope.meaning e = some v → ∃ w, scope.meaning e' = some w ∧ v.Akin w

/-- If the first expressions mean values, the second mean as many that are
`Akin` to them, one by one. -/
def KeepsAll (scope : Scope) (es es' : List Expression) : Prop :=
  ∀ vs, scope.meanings es = some vs →
    ∃ ws, scope.meanings es' = some ws ∧ List.Forall₂ Value.Akin vs ws

theorem keeps_refl (e : Expression) : scope.Keeps e e := fun v hMeaning =>
  ⟨v, hMeaning, .refl (isTypeValue_of_meaning e v hMeaning)⟩

private theorem keepsAll_cons {e e' : Expression} {es es' : List Expression}
    (hHead : scope.Keeps e e') (hTail : scope.KeepsAll es es') :
    scope.KeepsAll (e :: es) (e' :: es') := by
  intro vs hMeanings
  obtain ⟨v, hFirst, rest, hRest, rfl⟩ :=
    scope.meanings_cons_eq_some_iff.1 hMeanings
  obtain ⟨w, hFirst', hAkin⟩ := hHead v hFirst
  obtain ⟨ws, hRest', hAkins⟩ := hTail rest hRest
  exact ⟨w :: ws, scope.meanings_cons_eq_some_iff.2
    ⟨w, hFirst', ws, hRest', rfl⟩,
    .cons hAkin hAkins⟩

theorem keepsAll_refl (es : List Expression) : scope.KeepsAll es es := by
  induction es with
  | nil =>
      intro vs hMeanings
      rw [meanings_nil] at hMeanings
      cases hMeanings
      exact ⟨[], scope.meanings_nil, .nil⟩
  | cons e es ih => exact keepsAll_cons (keeps_refl e) ih

private theorem keeps_array {e e' : Expression} (hComponent : scope.Keeps e e')
    (s s' : Option Span) : scope.Keeps (.array e s) (.array e' s') := by
  intro v hMeaning
  obtain ⟨u, hInner, hArray⟩ := meaning_array_eq_some_iff.1 hMeaning
  obtain ⟨u', hInner', hAkin⟩ := hComponent u hInner
  obtain ⟨w, hOther, hResult⟩ := hAkin.exists_arrayOf hArray
  exact ⟨w, meaning_array_eq_some_iff.2 ⟨u', hInner', hOther⟩, hResult⟩

private theorem keeps_parameterized {es es' : List Expression}
    (hArguments : scope.KeepsAll es es') (r : RawName) (s s' : Option Span) :
    scope.Keeps (.parameterized r es s) (.parameterized r es' s') := by
  intro v hMeaning
  obtain ⟨d, hLookup, us, hInner, hParameterized⟩ :=
    meaning_parameterized_eq_some_iff.1 hMeaning
  obtain ⟨us', hInner', hAkins⟩ := hArguments us hInner
  obtain ⟨w, hOther, hResult⟩ :=
    Value.Akin.exists_parameterizedOf hAkins hParameterized
  exact ⟨w, meaning_parameterized_eq_some_iff.2
    ⟨d, hLookup, us', hInner', hOther⟩, hResult⟩

private theorem keeps_upper {es es' : List Expression}
    (hBounds : scope.KeepsAll es es') (s s' : Option Span) :
    scope.Keeps (.wildcard .upper es s) (.wildcard .upper es' s') := by
  have hKind : BoundKind.upper ≠ .lower := by decide
  intro v hMeaning
  obtain ⟨us, hInner, hSubtype⟩ := (meaning_upper_eq_some_iff hKind).1 hMeaning
  obtain ⟨us', hInner', hAkins⟩ := hBounds us hInner
  obtain ⟨w, hOther, hResult⟩ := Value.Akin.exists_subtypeOf hAkins hSubtype
  exact ⟨w, (meaning_upper_eq_some_iff hKind).2 ⟨us', hInner', hOther⟩, hResult⟩

private theorem keeps_lower {e e' : Expression} (hBound : scope.Keeps e e')
    (s s' : Option Span) :
    scope.Keeps (.wildcard .lower [e] s) (.wildcard .lower [e'] s') := by
  intro v hMeaning
  obtain ⟨u, hInner, hSupertype⟩ := meaning_lower_eq_some_iff.1 hMeaning
  obtain ⟨u', hInner', hAkin⟩ := hBound u hInner
  obtain ⟨w, hOther, hResult⟩ := hAkin.exists_supertypeOf hSupertype
  exact ⟨w, meaning_lower_eq_some_iff.2 ⟨u', hInner', hOther⟩, hResult⟩

-- The recursion is on the way from the root to the node that is exchanged.
mutual

/-- With a node `Exchanged` for one that means what is akin, a tree means what
is akin. -/
theorem keeps_of_exchanged {old new e e' : Expression}
    (hKeeps : scope.Keeps old new) :
    Expression.Exchanged old new e e' → scope.Keeps e e'
  | .here => hKeeps
  | .array hComponent => keeps_array (keeps_of_exchanged hKeeps hComponent) _ _
  | .parameterized hArguments =>
      keeps_parameterized (keepsAll_of_exchanged hKeeps hArguments) _ _ _
  | .upper hBounds => keeps_upper (keepsAll_of_exchanged hKeeps hBounds) _ _
  | .lower hBound => keeps_lower (keeps_of_exchanged hKeeps hBound) _ _

private theorem keepsAll_of_exchanged {old new : Expression}
    {es es' : List Expression} (hKeeps : scope.Keeps old new) :
    Expression.ExchangedAll old new es es' → scope.KeepsAll es es'
  | .head hHead =>
      keepsAll_cons (keeps_of_exchanged hKeeps hHead) (keepsAll_refl _)
  | .tail hTail =>
      keepsAll_cons (keeps_refl _) (keepsAll_of_exchanged hKeeps hTail)

end

/-- A text with a wildcard exchanged by `Span.splice` for one that means what is
akin denotes what is akin. -/
theorem exists_parse_splice {text piece : String} {e old new : Expression}
    {s : Span} {v : Value} (hParse : (scope.parse text).result = .ok v)
    (hText : Expression.ofText text = .ok e) (hNode : e.IsNode old)
    (hOld : old.isWildcard = true) (hSpan : old.span = some s)
    (hPiece : Expression.ofText piece = .ok new) (hNew : new.isWildcard = true)
    (hKeeps : scope.Keeps old new) :
    ∃ w, (scope.parse (s.splice text piece)).result = .ok w ∧ v.Akin w := by
  obtain ⟨e', hTextOf, hExchanged⟩ :=
    Expression.exists_exchanged hText hNode hOld hSpan hPiece hNew
  rw [result_parse hText] at hParse
  have hMeaning : scope.meaning e = some v := Traced.value?_eq_some_iff.2 hParse
  obtain ⟨w, hOther, hAkin⟩ := keeps_of_exchanged hKeeps hExchanged v hMeaning
  refine ⟨w, scope.parse_eq_ok_iff.2 ⟨e'.erase, hTextOf, ?_⟩, hAkin⟩
  rw [meaning_erase, hOther]

end Scope

end JvmTypes
