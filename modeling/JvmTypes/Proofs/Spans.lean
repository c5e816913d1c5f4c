import JvmTypes.Proofs.Scanning
import JvmTypes.Proofs.Spelling

/-!
# Spans

A tree read from a text says of every node where its piece of the text stands.
Behind this is the grammar over tokens, in which every node spans the tokens
that make it. The children of a node are made from pieces of its tokens, one
behind the other (`Grammar.Pieces`), so every node is made from a piece of the
tokens of the whole text. The text under such a piece has those very tokens,
moved to its start, and moved tokens make the moved tree.

## Main results

* `Grammar.MakesType.shift`: moved tokens make the moved tree.
* `Grammar.MakesType.exists_piece`: the tokens of a node.
* `Expression.faithful_of_ofText`: every node of a tree spans the text that it
  is read from.
-/

namespace JvmTypes

/-! ## Trees further on -/

/-- The span a number of characters further on. -/
def Span.shift (distance : Int) (s : Span) : Span :=
  ⟨s.start + distance, s.stop + distance⟩

/-- The name a number of characters further on. -/
def RawName.shift (distance : Int) (r : RawName) : RawName :=
  { r with span := r.span.map (Span.shift distance) }

namespace Expression

mutual

/-- The expression with all its spans moved, by `Span.shift`. -/
def shift (distance : Int) : Expression → Expression
  | primitive name span => primitive name (span.map (Span.shift distance))
  | raw r => raw (r.shift distance)
  | internal encoded span => internal encoded (span.map (Span.shift distance))
  | array component span =>
      array (component.shift distance) (span.map (Span.shift distance))
  | parameterized r arguments span =>
      parameterized (r.shift distance) (shiftAll distance arguments)
        (span.map (Span.shift distance))
  | wildcard kind bounds span =>
      wildcard kind (shiftAll distance bounds) (span.map (Span.shift distance))

/-- The expressions with all their spans moved. -/
def shiftAll (distance : Int) : List Expression → List Expression
  | [] => []
  | e :: es => e.shift distance :: shiftAll distance es

end

variable (distance : Int)

private theorem isPrimitive_shift (e : Expression) :
    (e.shift distance).isPrimitive = e.isPrimitive := by
  cases e <;> rfl

private theorem isVoid_shift (e : Expression) :
    (e.shift distance).isVoid = e.isVoid := by
  cases e <;> rfl

mutual

theorem erase_shift (e : Expression) : (e.shift distance).erase = e.erase := by
  cases e with
  | primitive => rfl
  | raw => rfl
  | internal => rfl
  | array component => rw [shift, erase, erase, erase_shift component]
  | parameterized r arguments =>
      rw [shift, erase, erase, eraseAll_shiftAll arguments]
      rfl
  | wildcard kind bounds => rw [shift, erase, erase, eraseAll_shiftAll bounds]

private theorem eraseAll_shiftAll (es : List Expression) :
    eraseAll (shiftAll distance es) = eraseAll es := by
  cases es with
  | nil => rfl
  | cons e es =>
      rw [shiftAll, eraseAll, eraseAll, erase_shift e, eraseAll_shiftAll es]

end

end Expression

private theorem Token.cover_shift (distance : Int) (ts : List Token) :
    cover (ts.map (shift distance)) = (cover ts).map (Span.shift distance) := by
  rw [cover, cover, List.head?_map, List.getLast?_map]
  cases ts.head? with
  | none => rfl
  | some first => cases ts.getLast? <;> rfl

namespace Grammar

theorem MakesName.shift (distance : Int) {ts : List Token} {r : RawName}
    (hName : MakesName ts r) :
    MakesName (ts.map (Token.shift distance)) (r.shift distance) := by
  induction hName with
  | word hWord => exact .word hWord
  | @dotted _ r dot t _ hDot hWord ih =>
      rw [RawName.shift, ← Token.cover_shift, List.map_append]
      exact @MakesName.dotted _ (r.shift distance) (dot.shift distance)
        (t.shift distance) ih hDot
        hWord

/-- One part more in front of a list of moved parts, be they arguments or
bounds. -/
theorem shift_more {distance : Int} {part : List Token → Expression → Prop}
    {list : List Token → List Expression → Prop} {kind : Token.Kind}
    (hMore : ∀ {ts ms e es t}, part ts e → e.isPrimitive = false →
      t.kind = kind →
      list ms es → list (ts ++ t :: ms) (e :: es)) {ts ms : List Token}
    {e : Expression} {es : List Expression} {t : Token}
    (hPart : part (ts.map (Token.shift distance)) (e.shift distance))
    (hPrimitive : e.isPrimitive = false) (hKind : t.kind = kind)
    (hRest : list (ms.map (Token.shift distance))
      (Expression.shiftAll distance es)) :
    list ((ts ++ t :: ms).map (Token.shift distance))
      (Expression.shiftAll distance (e :: es)) := by
  have hPrimitive' : (e.shift distance).isPrimitive = false := by
    rwa [Expression.isPrimitive_shift]
  rw [List.map_append]
  exact hMore hPart hPrimitive' hKind hRest

-- The recursion is on the derivation, whose lists are split as before the move.
mutual

/-- Tokens moved by `Token.shift` make the moved tree. -/
theorem MakesType.shift (distance : Int) {ts : List Token} {e : Expression} :
    MakesType ts e → MakesType (ts.map (Token.shift distance))
      (e.shift distance)
  | .unbounded hMark => .unbounded hMark
  | .upper hMark hWord hBounds => by
      rw [Expression.shift, ← Token.cover_shift]
      exact .upper hMark hWord (hBounds.shift distance)
  | .lower hMark hWord hBare hPrimitive => by
      rw [Expression.shift, ← Token.cover_shift]
      exact .lower hMark hWord (hBare.shift distance)
        (by rwa [Expression.isPrimitive_shift])
  | .bare hBare => .bare (hBare.shift distance)

theorem MakesBare.shift (distance : Int) {ts : List Token} {e : Expression} :
    MakesBare ts e → MakesBare (ts.map (Token.shift distance))
      (e.shift distance)
  | .primitive hKind => .primitive hKind
  | .name hName => .name (hName.shift distance)
  | .internal hKind hInternal => .internal hKind hInternal
  | .parameterized hName hOpening hArguments hClosing => by
      rw [Expression.shift, ← Token.cover_shift, List.map_append, List.map_cons,
        List.map_append]
      exact .parameterized (hName.shift distance) hOpening
        (hArguments.shift distance) hClosing
  | .array hBare hVoid hOpening hClosing => by
      rw [Expression.shift, ← Token.cover_shift, List.map_append]
      exact .array (hBare.shift distance)
        (by rwa [Expression.isVoid_shift]) hOpening hClosing

theorem MakesArguments.shift (distance : Int) {ts : List Token}
    {es : List Expression} :
    MakesArguments ts es →
      MakesArguments (ts.map (Token.shift distance))
        (Expression.shiftAll distance es)
  | .one hType hPrimitive =>
      .one (hType.shift distance) (by rwa [Expression.isPrimitive_shift])
  | .more hType hPrimitive hComma hRest =>
      shift_more .more (hType.shift distance) hPrimitive hComma
        (hRest.shift distance)

theorem MakesBounds.shift (distance : Int) {ts : List Token}
    {es : List Expression} :
    MakesBounds ts es →
      MakesBounds (ts.map (Token.shift distance))
        (Expression.shiftAll distance es)
  | .one hBare hPrimitive =>
      .one (hBare.shift distance) (by rwa [Expression.isPrimitive_shift])
  | .more hBare hPrimitive hAmp hRest =>
      shift_more .more (hBare.shift distance) hPrimitive hAmp
        (hRest.shift distance)

end

end Grammar

/-! ## Nodes -/

namespace Expression

/-- The nodes right below a node, as they stand in the text. The class name in
front of type arguments is one of them. -/
def children : Expression → List Expression
  | primitive .. | raw .. | internal .. => []
  | array component _ => [component]
  | parameterized r arguments _ => raw r :: arguments
  | wildcard _ bounds _ => bounds

/-- The nodes of a tree: the root, and the `children` of a node. -/
inductive IsNode (e : Expression) : Expression → Prop
  | root : IsNode e e
  | child {n c : Expression} (hNode : IsNode e n) (hChild : c ∈ n.children) :
      IsNode e c

end Expression

namespace Grammar

/-- Trees that `MakesType` derives from pieces of some tokens, one piece behind
the other. -/
inductive Pieces : List Token → List Expression → Prop
  | nil (ts : List Token) : Pieces ts []
  | cons {before part after : List Token} {e : Expression}
      {es : List Expression} (hType : MakesType part e)
      (hRest : Pieces after es) :
      Pieces (before ++ (part ++ after)) (e :: es)

variable {ts : List Token} {e : Expression} {es : List Expression}

theorem Pieces.append_left (front : List Token) (hPieces : Pieces ts es) :
    Pieces (front ++ ts) es := by
  cases hPieces with
  | nil => exact .nil _
  | cons hType hRest =>
      rw [← List.append_assoc]
      exact .cons hType hRest

theorem Pieces.append_right (hPieces : Pieces ts es) (back : List Token) :
    Pieces (ts ++ back) es := by
  induction hPieces with
  | nil => exact .nil _
  | cons hType _ ih =>
      rw [List.append_assoc, List.append_assoc]
      exact .cons hType ih

/-- A tree that is made from the tokens in front of the other pieces. -/
theorem Pieces.first {part after : List Token} (hType : MakesType part e)
    (hRest : Pieces after es) : Pieces (part ++ after) (e :: es) :=
  @Pieces.cons [] _ _ _ _ hType hRest

theorem Pieces.one (hType : MakesType ts e) : Pieces ts [e] := by
  simpa using Pieces.first hType (.nil [])

theorem MakesArguments.pieces {ts : List Token} {es : List Expression} :
    MakesArguments ts es → Pieces ts es
  | .one hType _ => .one hType
  | @MakesArguments.more _ _ _ _ comma hType _ _ hRest =>
      .first hType (hRest.pieces.append_left [comma])

theorem MakesBounds.pieces {ts : List Token} {es : List Expression} :
    MakesBounds ts es → Pieces ts es
  | .one hBare _ => .one (.bare hBare)
  | @MakesBounds.more _ _ _ _ amp hBare _ _ hRest =>
      .first (.bare hBare) (hRest.pieces.append_left [amp])

theorem MakesBare.pieces (hBare : MakesBare ts e) : Pieces ts e.children := by
  cases hBare with
  | primitive | name | internal => exact .nil _
  | @parameterized _ _ _ _ opening closing hName _ hArguments _ =>
      exact .first (.bare (.name hName))
        ((hArguments.pieces.append_right [closing]).append_left [opening])
  | @array _ _ opening closing hBare =>
      exact (Pieces.one (.bare hBare)).append_right [opening, closing]

/-- The `children` of a node are made from pieces of its tokens. -/
theorem MakesType.pieces (hType : MakesType ts e) : Pieces ts e.children := by
  cases hType with
  | unbounded => exact .nil _
  | @upper mark word _ _ _ _ hBounds =>
      exact hBounds.pieces.append_left [mark, word]
  | @lower mark word _ _ _ _ hBare =>
      exact (Pieces.one (.bare hBare)).append_left [mark, word]
  | bare hBare => exact hBare.pieces

private theorem Pieces.exists_of_mem (hPieces : Pieces ts es) (hMem : e ∈ es) :
    ∃ before part after, ts = before ++ (part ++ after) ∧ MakesType part e := by
  induction hPieces with
  | nil => cases hMem
  | @cons before part after first es hType _ ih =>
      rcases List.mem_cons.1 hMem with rfl | hMem
      · exact ⟨before, part, after, rfl, hType⟩
      · obtain ⟨skipped, piece, rest, rfl, hPiece⟩ := ih hMem
        exact ⟨before ++ (part ++ skipped), piece, rest, by simp, hPiece⟩

/-- Every node of a tree that `MakesType` derives is made from a piece of the
tree's tokens. -/
theorem MakesType.exists_piece (hType : MakesType ts e) {n : Expression}
    (hNode : e.IsNode n) :
    ∃ before part after, ts = before ++ (part ++ after) ∧ MakesType part n := by
  -- On the way down from the root, each node is a child of one that is made so.
  induction hNode with
  | root => exact ⟨[], ts, [], by simp, hType⟩
  | child _ hChild ih =>
      obtain ⟨before, part, after, rfl, hPart⟩ := ih
      obtain ⟨skipped, piece, rest, rfl, hPiece⟩ :=
        hPart.pieces.exists_of_mem hChild
      exact ⟨before ++ skipped, piece, rest ++ after, by simp, hPiece⟩

end Grammar

/-! ## Tokens in order -/

/-- Tokens that stand one behind the other, none of which is empty. -/
def Token.Ordered (ts : List Token) : Prop :=
  ts.Pairwise (fun t u => t.stop ≤ u.start) ∧ ∀ t ∈ ts, t.start < t.stop

namespace Token

variable {ts : List Token} {s : Span}

theorem Ordered.of_append {front back : List Token}
    (hOrdered : Ordered (front ++ back)) :
    Ordered front ∧ Ordered back ∧
    ∀ t ∈ front, ∀ u ∈ back, t.stop ≤ u.start := by
  obtain ⟨hPairs, hSizes⟩ := hOrdered
  obtain ⟨hFront, hBack, hBetween⟩ := List.pairwise_append.1 hPairs
  exact ⟨⟨hFront, fun t hMem => hSizes t (List.mem_append_left _ hMem)⟩,
    ⟨hBack, fun t hMem => hSizes t (List.mem_append_right _ hMem)⟩, hBetween⟩

/-- What `cover` yields starts and stops where some tokens do. -/
theorem exists_of_cover (hCover : cover ts = some s) :
    (∃ t ∈ ts, t.start = s.start) ∧ ∃ t ∈ ts, t.stop = s.stop := by
  obtain ⟨first, hFirst, hRest⟩ := Option.bind_eq_some_iff.1 hCover
  obtain ⟨last, hLast, rfl⟩ := Option.map_eq_some_iff.1 hRest
  exact ⟨⟨first, List.mem_of_head? hFirst, rfl⟩,
    ⟨last, List.mem_of_getLast? hLast, rfl⟩⟩

theorem cover_of_ends {a b : Int} (hStart : ts.head?.map Token.start = some a)
    (hStop : ts.getLast?.map Token.stop = some b) : cover ts = some ⟨a, b⟩ := by
  obtain ⟨first, hFirst, rfl⟩ := Option.map_eq_some_iff.1 hStart
  obtain ⟨last, hLast, rfl⟩ := Option.map_eq_some_iff.1 hStop
  rw [cover, hFirst, hLast]
  rfl

/-- What `cover` yields holds every token. -/
theorem Ordered.inside (hOrdered : Ordered ts) (hCover : cover ts = some s) :
    ∀ t ∈ ts, s.start ≤ t.start ∧ t.stop ≤ s.stop := by
  obtain ⟨first, hFirst, hRest⟩ := Option.bind_eq_some_iff.1 hCover
  obtain ⟨last, hLast, rfl⟩ := Option.map_eq_some_iff.1 hRest
  obtain ⟨hPairs, hSizes⟩ := hOrdered
  refine fun t hMem => ⟨?_, ?_⟩
  · have hSize := hSizes first (List.mem_of_head? hFirst)
    obtain ⟨rest, rfl⟩ := List.head?_eq_some_iff.1 hFirst
    rcases List.mem_cons.1 hMem with rfl | hMem
    · exact Int.le_refl _
    · have hBehind := (List.pairwise_cons.1 hPairs).1 t hMem
      show first.start ≤ t.start
      omega
  · have hSize := hSizes last (List.mem_of_getLast? hLast)
    obtain ⟨init, rfl⟩ := List.getLast?_eq_some_iff.1 hLast
    rcases List.mem_append.1 hMem with hMem | hMem
    · have hBefore :=
        (List.pairwise_append.1 hPairs).2.2 t hMem last List.mem_cons_self
      show t.stop ≤ last.stop
      omega
    · obtain rfl := List.mem_singleton.1 hMem
      exact Int.le_refl _

private theorem Ordered.lt_of_cover (hOrdered : Ordered ts)
    (hCover : cover ts = some s) : s.start < s.stop := by
  obtain ⟨⟨t, hMem, hStart⟩, -⟩ := exists_of_cover hCover
  have hSize := hOrdered.2 t hMem
  have hStop := (hOrdered.inside hCover t hMem).2
  omega

end Token

/-! ## Faithful spans -/

/-- The piece of a text under a span. -/
def Span.slice (s : Span) (text : String) : String :=
  String.ofList (text.toList.extract s.start.toNat s.stop.toNat)

theorem Span.slice_of_append {text : String} {front mid back : List Char}
    (hText : text.toList = front ++ (mid ++ back)) :
    Span.slice ⟨front.length, front.length + mid.length⟩ text =
      String.ofList mid := by
  have hStop : ((front.length : Int) + mid.length).toNat = front.length +
      mid.length := by omega
  simp only [Span.slice, hStop, Int.toNat_natCast, hText,
    List.extract_eq_take_drop, List.drop_left, Nat.add_sub_cancel_left,
    List.take_left]

namespace Expression

/-- The expression `a` stands wholly in front of `b`: its span stops where that
of `b` starts, or earlier. -/
def Precedes (a b : Expression) : Prop :=
  ∃ s t, a.span = some s ∧ b.span = some t ∧ s.stop ≤ t.start

/-- The span of a node of a tree that a text makes is a piece of the text
(`Span.slice`) that is not empty, and it holds the spans of the children, one
behind the other. The text under it makes the same node, with all spans moved to
where this one starts. -/
structure FaithfulAt (text : String) (n : Expression) (s : Span) : Prop where
  span : n.span = some s
  start : 0 ≤ s.start
  nonempty : s.start < s.stop
  stop : s.stop ≤ text.length
  read : ofText (s.slice text) = .ok (n.shift (-s.start))
  same : (n.shift (-s.start)).same n = true
  inside : ∀ c ∈ n.children, ∃ t, c.span = some t ∧ s.start ≤ t.start ∧
  t.stop ≤ s.stop
  ordered : n.children.Pairwise Precedes

end Expression

namespace Grammar

variable {ts : List Token} {e : Expression} {es : List Expression}

theorem MakesType.exists_span (hType : MakesType ts e) : ∃ s, e.span = some s :=
  ⟨_, hType.span.trans (Token.cover_of_ne_nil hType.ne_nil)⟩

/-- A tree that `MakesType` derives from a piece of some tokens stands inside of
them. -/
theorem MakesType.inside {before part after : List Token} {s t : Span}
    (hOrdered : Token.Ordered (before ++ (part ++ after)))
    (hType : MakesType part e)
    (hCover : Token.cover (before ++ (part ++ after)) = some s)
    (hSpan : e.span = some t) : s.start ≤ t.start ∧ t.stop ≤ s.stop := by
  rw [hType.span] at hSpan
  obtain ⟨⟨first, hFirst, hStart⟩, last, hLast, hStop⟩ :=
    Token.exists_of_cover hSpan
  have hInside := hOrdered.inside hCover
  rw [← hStart, ← hStop]
  exact ⟨(hInside first (by simp [hFirst])).1,
    (hInside last (by simp [hLast])).2⟩

/-- Trees that are made from `Pieces` of tokens stand in order. -/
theorem Pieces.ordered (hPieces : Pieces ts es) (hOrdered : Token.Ordered ts) :
    es.Pairwise Expression.Precedes := by
  induction hPieces with
  | nil => exact .nil
  | @cons before part after e es hType hRest ih =>
      obtain ⟨-, hOrdered, -⟩ := hOrdered.of_append
      obtain ⟨-, hAfter, hBetween⟩ := hOrdered.of_append
      refine List.pairwise_cons.2 ⟨fun c hMem => ?_, ih hAfter⟩
      obtain ⟨_, piece, _, rfl, hPiece⟩ := hRest.exists_of_mem hMem
      obtain ⟨s, hSpan⟩ := hType.exists_span
      obtain ⟨t, hSpan'⟩ := hPiece.exists_span
      obtain ⟨-, last, hLast, hStop⟩ :=
        Token.exists_of_cover (hType.span ▸ hSpan)
      obtain ⟨⟨first, hFirst, hStart⟩, -⟩ :=
        Token.exists_of_cover (hPiece.span ▸ hSpan')
      refine ⟨s, t, hSpan, hSpan', ?_⟩
      rw [← hStop, ← hStart]
      exact hBetween last hLast first (by simp [hFirst])

end Grammar

theorem Token.Scans.ordered_words {offset : Nat} {text : List Char}
    {words : List Token} {stop : Token}
    (hScans : Token.Scans offset text (words ++ [stop]))
    (hWords : ∀ t ∈ words, t.kind ≠ .eof) : Token.Ordered words :=
  ⟨(List.pairwise_append.1 hScans.ordered).1, fun t hMem =>
    (hScans.bounds t (List.mem_append_left _ hMem)).2.2.2 (hWords t hMem)⟩

namespace Expression

open Grammar

/-- What `ofText` makes of a text is what `read` makes of its tokens. -/
theorem ofText_eq_read {chars : List Char} {tokens : List Token}
    (hChars : chars ≠ []) (hScans : Token.Scans 0 chars tokens) :
    ofText (String.ofList chars) = read tokens := by
  have hNonempty : String.ofList chars ≠ "" := by
    intro hEmpty
    apply hChars
    rw [← String.toList_ofList (l := chars), hEmpty, String.toList_empty]
  rw [ofText, if_neg hNonempty, tokenize, String.toList_ofList,
    Token.scan_eq_ok_iff.2 hScans]
  rfl

theorem ofText_of_scans {chars : List Char} {tokens : List Token} {stop : Token}
    {e : Expression} (hChars : chars ≠ [])
    (hScans : Token.Scans 0 chars (tokens ++ [stop])) (hStop : stop.kind = .eof)
    (hType : MakesType tokens e) : ofText (String.ofList chars) = .ok e := by
  rw [ofText_eq_read hChars hScans]
  exact read_of_makesType hType hStop []

/-- The tokens of a text, `eof` apart, make the tree that it is read as. -/
theorem exists_scans_of_ofText {text : String} {e : Expression}
    (hText : ofText text = .ok e) :
    ∃ words stop, Token.Scans 0 text.toList (words ++ [stop]) ∧
      (∀ t ∈ words, t.kind ≠ .eof) ∧
      MakesType words e := by
  obtain ⟨words, stop, hTokens, -, -, hWords, hKeyed, hRead⟩ :=
    exists_tokens_of_ofText hText
  obtain ⟨front, eof, back, hSplit, hEof, hType⟩ :=
    makesType_of_read hKeyed hRead
  obtain rfl := Token.eq_of_append_eof hWords hEof hSplit
  exact ⟨front, stop, Token.scan_eq_ok_iff.1 hTokens, hWords, hType⟩

/-- Some consecutive tokens of a text that make a tree by `MakesType` span a
piece of the text that makes the same tree. -/
theorem faithfulAt_of_piece {text : String} {before part after : List Token}
    {stop : Token} {n : Expression}
    (hScans : Token.Scans 0 text.toList (before ++ (part ++ after) ++ [stop]))
    (hOrdered : Token.Ordered (before ++ (part ++ after)))
    (hType : MakesType part n) : ∃ s, n.FaithfulAt text s := by
  rw [List.append_assoc, List.append_assoc] at hScans
  obtain ⟨front, mid, back, hText, -, hSlice, -, hStart, hStop⟩ :=
    hScans.slice hType.ne_nil (by simp)
  have hCover := Token.cover_of_ends hStart hStop
  obtain ⟨-, hOrdered, -⟩ := hOrdered.of_append
  obtain ⟨hPart, -⟩ := hOrdered.of_append
  have hSize : (front.length : Int) < front.length + mid.length :=
    hPart.lt_of_cover hCover
  have hMid : mid ≠ [] := by
    rintro rfl
    simp at hSize
  refine ⟨⟨front.length, front.length + mid.length⟩, ?_⟩
  exact {
    span := hType.span.trans hCover
    start := Int.natCast_nonneg _
    nonempty := hSize
    stop := by
      rw [← String.length_toList, hText]
      simp only [List.length_append]
      omega
    read := by
      rw [Span.slice_of_append hText]
      exact ofText_of_scans hMid hSlice rfl (hType.shift _)
    same := (same_iff_erase_eq _ _).2 (erase_shift _ n)
    inside := fun c hMem => by
      obtain ⟨first, piece, last, rfl, hPiece⟩ :=
        hType.pieces.exists_of_mem hMem
      obtain ⟨t, hSpan⟩ := hPiece.exists_span
      exact ⟨t, hSpan, hPiece.inside hPart hCover hSpan⟩
    ordered := hType.pieces.ordered hPart }

/-- Every node of a tree that a text makes, names in front of type arguments
included, spans a piece of the text that makes the node again, at its own place,
and holds its children in order. The tree itself spans all tokens but `eof`. -/
theorem faithful_of_ofText (text : String) (e : Expression)
    (hText : ofText text = .ok e) :
    (∀ n, e.IsNode n → ∃ s, n.FaithfulAt text s) ∧
    ∃ words stop first last, tokenize text = .ok (words ++ [stop]) ∧
      stop.kind = .eof ∧
      (∀ t ∈ words, t.kind ≠ .eof) ∧ words.head? = some first ∧
      words.getLast? = some last ∧
      e.span = some ⟨first.start, last.stop⟩ := by
  obtain ⟨words, stop, hTokens, hStop, -, hWords, hKeyed, hRead⟩ :=
    exists_tokens_of_ofText hText
  obtain ⟨front, eof, back, hSplit, hEof, hType⟩ :=
    makesType_of_read hKeyed hRead
  obtain rfl := Token.eq_of_append_eof hWords hEof hSplit
  have hScans := Token.scan_eq_ok_iff.1 hTokens
  have hOrdered := hScans.ordered_words hWords
  refine ⟨fun n hNode => ?_, front, stop, _, _, hTokens, hStop, hWords,
    List.head?_eq_some_head hType.ne_nil,
    List.getLast?_eq_some_getLast hType.ne_nil,
    hType.span.trans (Token.cover_of_ne_nil hType.ne_nil)⟩
  obtain ⟨before, part, after, rfl, hPart⟩ := hType.exists_piece hNode
  exact faithfulAt_of_piece hScans hOrdered hPart

/-- The tree of ` Map<? super A, int[]>`. -/
def spannedMap : Expression :=
  .parameterized ⟨"Map", some ⟨1, 4⟩⟩
    [.wildcard .lower [.raw ⟨"A", some ⟨13, 14⟩⟩] (some ⟨5, 14⟩),
      .array (.primitive "int" (some ⟨16, 19⟩)) (some ⟨16, 21⟩)] (some ⟨1, 22⟩)

private theorem ofText_spannedMap :
    ofText " Map<? super A, int[]>" = .ok spannedMap := by cbv

/-- The bound and the array in that text are faithful nodes, and so is the name
in front of the arguments. -/
theorem faithful_of_ofText_map :
    ofText " Map<? super A, int[]>" = .ok spannedMap ∧
    ∀ n ∈ [.raw ⟨"Map", some ⟨1, 4⟩⟩, .raw ⟨"A", some ⟨13, 14⟩⟩,
        .array (.primitive "int" (some ⟨16, 19⟩)) (some ⟨16, 21⟩)],
      ∃ s, FaithfulAt " Map<? super A, int[]>" n s := by
  have hName : spannedMap.IsNode (.raw ⟨"Map", some ⟨1, 4⟩⟩) :=
    .child .root (by simp [spannedMap, children])
  have hBound : spannedMap.IsNode (.raw ⟨"A", some ⟨13, 14⟩⟩) := by
    have hWildcard : spannedMap.IsNode
        (.wildcard .lower [.raw ⟨"A", some ⟨13, 14⟩⟩] (some ⟨5, 14⟩)) :=
      .child .root (by simp [spannedMap, children])
    exact .child hWildcard (by simp [children])
  have hArray : spannedMap.IsNode
      (.array (.primitive "int" (some ⟨16, 19⟩)) (some ⟨16, 21⟩)) :=
    .child .root (by simp [spannedMap, children])
  obtain ⟨hNodes, -⟩ := faithful_of_ofText _ _ ofText_spannedMap
  refine ⟨ofText_spannedMap, ?_⟩
  simp only [List.forall_mem_cons, List.not_mem_nil, false_implies,
    implies_true, and_true]
  exact ⟨hNodes _ hName, hNodes _ hBound, hNodes _ hArray⟩

end Expression

end JvmTypes
