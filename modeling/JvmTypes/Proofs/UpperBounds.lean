import JvmTypes.Proofs.Compositional
import JvmTypes.Proofs.Exchange

/-!
# Upper bounds as sets

The bounds of a wildcard that count are those other than `Object`, or `Object`
if there is no other, and wildcards compare them as sets. So two wildcards are
the same exactly when the bounds that are not `Object` are the same sets, and
neither order nor repetition of the bounds nor any `Object` among them ever
matters.

In a text the bounds are written out. A wildcard with its bounds moved, repeated
or with `Object` among them means the same as before, and exchanging it in its
text, at any depth, leaves the value of the text the same.

## Main results

* `Composition.sameSets_effectiveBounds_iff`: the bounds that count, as sets.
* `Scope.keeps_of_sameBounds`: wildcards with the same bounds mean the same.
* `upperBounds_as_sets`: both for values and for texts.
-/

namespace JvmTypes

open Value

/-! ## Bounds that are values -/

namespace Composition

variable {bs cs : List Value}

/-- Types that can bound a wildcard make one by `subtypeOf`, whatever their
number. -/
theorem subtypeOf_of_isBound (hBounds : ∀ b ∈ bs, b.IsPlain ∧ b.IsBound) :
    subtypeOf bs = .ok (.wildcard (effectiveBounds bs) []) := by
  have hCount : ∀ b ∈ effectiveBounds bs, b.IsPlain ∧ b.IsBound := by
    intro b hMem
    rcases mem_of_mem_effectiveBounds hMem with rfl | hGiven
    · exact ⟨⟨.classType trivial, rfl⟩, rfl, rfl⟩
    · exact hBounds b hGiven
  refine subtypeOf_eq_ok_iff.2 ⟨fun b hMem => ?_, ?_, rfl⟩
  · obtain ⟨hPlain, hWildcard, hPrimitive⟩ := hCount b hMem
    refine Role.check_eq_ok_iff.2
      ⟨hPlain.types.isForeign, hPrimitive, fun hIs => ?_⟩
    rw [hWildcard] at hIs
    cases hIs
  · have hNone : anyPlaceholder (effectiveBounds bs) = false :=
      anyPlaceholder_eq_false_iff.2 fun b hMem =>
        (hCount b hMem).1.hasPlaceholder
    rw [hasPlaceholder, hNone]
    rfl

/-- Of two lists that are the same sets, either both hold nothing but `Object`
or neither. -/
theorem all_isObject_iff_of_sameSets (hSame : SameSets bs cs) :
    (∀ b ∈ bs, b.isObject = true) ↔ ∀ c ∈ cs, c.isObject = true := by
  constructor
  · intro hAll c hC
    obtain ⟨b, hB, hPartner⟩ := hSame.2 c hC
    rw [← isObject_congr hPartner, hAll b hB]
  · intro hAll b hB
    obtain ⟨c, hC, hPartner⟩ := hSame.1 b hB
    rw [isObject_congr hPartner, hAll c hC]

private theorem not_all_isObject
    (hSome : bs.filter (fun b => !b.isObject) ≠ []) :
    ¬ ∀ b ∈ bs.filter (fun b => !b.isObject), b.isObject = true := by
  obtain ⟨b, hMem⟩ := List.exists_mem_of_ne_nil _ hSome
  intro hAll
  have hOther : b.isObject = false := by simpa using (List.mem_filter.1 hMem).2
  rw [hAll b hMem] at hOther
  cases hOther

/-- The bounds that count are the same sets exactly when those other than
`Object` are. -/
theorem sameSets_effectiveBounds_iff :
    SameSets (effectiveBounds bs) (effectiveBounds cs) ↔
      SameSets (bs.filter fun b => !b.isObject)
        (cs.filter fun c => !c.isObject) := by
  have hObject : ∀ b ∈ [object], b.isObject = true :=
    List.forall_mem_singleton.2 rfl
  have hNone : ∀ b ∈ ([] : List Value), b.isObject = true := by simp
  -- If only one of the lists has other bounds, the sets differ before and
  -- after.
  rcases effectiveBounds_cases bs with ⟨hAll, hEq⟩ | ⟨hSome, hEq⟩ <;>
    rcases effectiveBounds_cases cs with ⟨hAll', hEq'⟩ | ⟨hSome', hEq'⟩ <;>
    rw [hEq, hEq']
  · have hLeft : bs.filter (fun b => !b.isObject) = [] := by simpa using hAll
    have hRight : cs.filter (fun c => !c.isObject) = [] := by simpa using hAll'
    rw [hLeft, hRight]
    exact iff_of_true (.of_forall₂ (.cons (same_object rfl) .nil))
      (.self (by simp))
  · have hLeft : bs.filter (fun b => !b.isObject) = [] := by simpa using hAll
    rw [hLeft]
    exact iff_of_false
      (fun hSame => not_all_isObject hSome'
        ((all_isObject_iff_of_sameSets hSame).1 hObject))
      (fun hSame => not_all_isObject hSome'
        ((all_isObject_iff_of_sameSets hSame).1 hNone))
  · have hRight : cs.filter (fun c => !c.isObject) = [] := by simpa using hAll'
    rw [hRight]
    exact iff_of_false
      (fun hSame => not_all_isObject hSome
        ((all_isObject_iff_of_sameSets hSame).2 hObject))
      (fun hSame => not_all_isObject hSome
        ((all_isObject_iff_of_sameSets hSame).2 hNone))

/-- Wildcards compare the bounds other than `Object`, as sets. -/
theorem same_wildcard_effectiveBounds_iff :
    (Value.wildcard (effectiveBounds bs) []).same
      (.wildcard (effectiveBounds cs) []) = true ↔
      SameSets (bs.filter fun b => !b.isObject)
        (cs.filter fun c => !c.isObject) := by
  rw [← sameSets_effectiveBounds_iff, same_wildcard_sets_iff]
  constructor
  · rintro ⟨upper, lower, hEq, hUpper, -⟩
    cases hEq
    exact hUpper
  · intro hUpper
    exact ⟨_, _, rfl, hUpper, .self (by simp)⟩

/-- With the same members other than `Object`, the bounds that count have the
same members. -/
theorem mem_effectiveBounds_congr
    (hMembers : ∀ x : Value, x.isObject = false → (x ∈ bs ↔ x ∈ cs))
    {x : Value} :
    x ∈ effectiveBounds bs ↔ x ∈ effectiveBounds cs := by
  have hOthers : ∀ x, (x ∈ bs ∧ x.isObject = false) ↔
      (x ∈ cs ∧ x.isObject = false) :=
    fun x => and_congr_left fun hOther => hMembers x hOther
  have hAll : (∀ b ∈ bs, b.isObject = true) ↔ ∀ c ∈ cs, c.isObject = true := by
    constructor
    · intro hObjects c hC
      by_contra hOther
      exact hOther (hObjects c ((hMembers c (by simpa using hOther)).2 hC))
    · intro hObjects b hB
      by_contra hOther
      exact hOther (hObjects b ((hMembers b (by simpa using hOther)).1 hB))
  rw [mem_effectiveBounds_iff, mem_effectiveBounds_iff, hOthers x, hAll]

end Composition

/-! ## Bounds that are expressions -/

namespace Scope

variable (scope : Scope)

/-- An expression that means the class `Object`. -/
def MeansObject (e : Expression) : Prop :=
  ∃ v, scope.meaning e = some v ∧ v.isObject = true

/-- Two lists with the same expressions, apart from their spans and from those
that mean `Object`, in any order and number. -/
structure SameBounds (bounds others : List Expression) : Prop where
  forward : ∀ b ∈ bounds, scope.MeansObject b ∨ ∃ c ∈ others, b.same c = true
  backward : ∀ c ∈ others, scope.MeansObject c ∨ ∃ b ∈ bounds, b.same c = true

variable {scope}

private theorem meaning_of_same {a b : Expression} (hSame : a.same b = true) :
    scope.meaning a = scope.meaning b := by
  rw [← scope.meaning_erase a, ← scope.meaning_erase b,
    (Expression.same_iff_erase_eq a b).1 hSame]

theorem exists_meanings_iff {es : List Expression} :
    (∃ vs, scope.meanings es = some vs) ↔
    ∀ e ∈ es, ∃ v, scope.meaning e = some v := by
  constructor
  · rintro ⟨vs, hMeanings⟩
    induction es generalizing vs with
    | nil => simp
    | cons e es ih =>
        obtain ⟨v, hHead, rest, hTail, rfl⟩ :=
          scope.meanings_cons_eq_some_iff.1 hMeanings
        exact List.forall_mem_cons.2 ⟨⟨v, hHead⟩, ih rest hTail⟩
  · intro hEach
    obtain ⟨pairs, rfl, hPairs⟩ := exists_pairs hEach
    exact ⟨_, scope.meanings_map Prod.fst Prod.snd hPairs⟩

/-- The same bounds mean the same values, apart from `Object`. -/
theorem SameBounds.exists_meanings {bounds others : List Expression}
    (hSame : scope.SameBounds bounds others) {vs : List Value}
    (hMeanings : scope.meanings bounds = some vs) :
    ∃ ws, scope.meanings others = some ws ∧
      ∀ x : Value, x.isObject = false → (x ∈ vs ↔ x ∈ ws) := by
  have hEach : ∀ c ∈ others, ∃ v, scope.meaning c = some v := by
    intro c hC
    rcases hSame.backward c hC with ⟨v, hObject, -⟩ | ⟨b, hB, hAgree⟩
    · exact ⟨v, hObject⟩
    · obtain ⟨v, hBound⟩ := exists_meanings_iff.1 ⟨vs, hMeanings⟩ b hB
      exact ⟨v, by rw [← meaning_of_same hAgree, hBound]⟩
  obtain ⟨ws, hOthers⟩ := exists_meanings_iff.2 hEach
  -- What means `x`, which is not `Object`, agrees with an expression of the
  -- other list.
  have hNotObject : ∀ {e : Expression} {x : Value}, x.isObject = false →
      scope.meaning e = some x → ¬ scope.MeansObject e := by
    rintro e x hOther hMeaning ⟨w, hObject, hIs⟩
    obtain rfl := Option.some.inj (hMeaning.symm.trans hObject)
    rw [hOther] at hIs
    cases hIs
  refine ⟨ws, hOthers, fun x hOther => ?_⟩
  rw [scope.mem_meanings_iff hMeanings, scope.mem_meanings_iff hOthers]
  constructor
  · rintro ⟨b, hB, hBound⟩
    obtain ⟨c, hC, hAgree⟩ :=
      (hSame.forward b hB).resolve_left (hNotObject hOther hBound)
    exact ⟨c, hC, by rw [← meaning_of_same hAgree, hBound]⟩
  · rintro ⟨c, hC, hBound⟩
    obtain ⟨b, hB, hAgree⟩ :=
      (hSame.backward c hC).resolve_left (hNotObject hOther hBound)
    exact ⟨b, hB, by rw [meaning_of_same hAgree, hBound]⟩

/-- Wildcards whose upper bounds are `SameBounds` mean the same. -/
theorem keeps_of_sameBounds {bounds others : List Expression}
    (s t : Option Span) (hSame : scope.SameBounds bounds others) :
    scope.Keeps (.wildcard .upper bounds s) (.wildcard .upper others t) := by
  have hKind : BoundKind.upper ≠ .lower := by decide
  intro v hMeaning
  have hType := isTypeValue_of_meaning _ v hMeaning
  obtain ⟨vs, hMeanings, hSubtype⟩ :=
    (meaning_upper_eq_some_iff hKind).1 hMeaning
  obtain ⟨ws, hOthers, hMembers⟩ := hSame.exists_meanings hMeanings
  have hEffective := @Composition.mem_effectiveBounds_congr vs ws hMembers
  -- The bounds that count are the same values on both sides, and they are
  -- types.
  have hTypes : ∀ x ∈ Composition.effectiveBounds vs, x.IsTypeValue := by
    obtain ⟨-, -, rfl⟩ := Composition.subtypeOf_eq_ok_iff.1 hSubtype
    cases hType with
    | wildcard hUpper => exact hUpper
  have hMatching : Matching Akin (Composition.effectiveBounds vs)
      (Composition.effectiveBounds ws) :=
    .of_mem_iff (fun x hX => .refl (hTypes x hX)) fun x => hEffective
  obtain ⟨w, hOther, hResult⟩ :=
    Akin.exists_subtypeOf_of_matching hMatching hSubtype
  exact ⟨w, (meaning_upper_eq_some_iff hKind).2 ⟨ws, hOthers, hOther⟩, hResult⟩

/-! ## Bounds that are texts -/

/-- A text that denotes the class `Object`. -/
def DenotesObject (scope : Scope) (text : String) : Prop :=
  ∃ v, (scope.parse text).result = .ok v ∧ v.isObject = true

/-- The pieces of a text that some expressions span, by `Span.slice`. -/
def slices (text : String) (es : List Expression) : List String :=
  es.filterMap fun e => e.span.map fun s => s.slice text

theorem mem_slices_iff {text n : String} {es : List Expression} :
    n ∈ slices text es ↔ ∃ e ∈ es, ∃ s, e.span = some s ∧ s.slice text = n := by
  simp [slices]

end Scope

open Grammar

namespace Expression

/-- The bounds of a wildcard in a text are bare, and their `Span.slice` of the
text derives them. -/
theorem exists_textOf_bound {text : String} {e b : Expression}
    {bounds : List Expression} {s : Option Span} (hText : ofText text = .ok e)
    (hNode : e.IsNode (.wildcard .upper bounds s)) (hBound : b ∈ bounds) :
    ∃ u, b.span = some u ∧
      TextOf (NotPrimitive IsBare) (u.slice text) b.erase := by
  obtain ⟨words, stop, hScans, hWords, hType⟩ := exists_scans_of_ofText hText
  have hOrdered := hScans.ordered_words hWords
  obtain ⟨hWildcard, hPrimitive⟩ : b.isWildcard = false ∧
      b.isPrimitive = false := by
    obtain ⟨_, _, _, -, hWhole⟩ := hType.exists_piece hNode
    cases hWhole with
    | upper _ _ hBounds => exact hBounds.kinds b hBound
    | bare hBare => cases hBare.isWildcard
  obtain ⟨before, part, after, rfl, hPart⟩ :=
    hType.exists_piece (.child hNode hBound)
  obtain ⟨u, hFaithful⟩ := faithfulAt_of_piece hScans hOrdered hPart
  obtain ⟨ls, hLexes, hDerives⟩ :=
    ofText_iff_textOf.1 ⟨_, hFaithful.read, erase_shift _ b⟩
  exact ⟨u, hFaithful.span, ls, hLexes,
    hDerives.toBare (by simpa using hWildcard),
    by simpa using hPrimitive⟩

private theorem exists_of_erase_wildcard {e : Expression} {kind : BoundKind}
    {trees : List Expression} (hErase : e.erase = .wildcard kind trees none) :
    ∃ bounds s, e = .wildcard kind bounds s ∧ bounds.map erase = trees := by
  cases e with
  | wildcard kind' bounds s =>
      simp only [erase, wildcard.injEq, eraseAll_eq_map] at hErase
      obtain ⟨rfl, hTrees, -⟩ := hErase
      exact ⟨bounds, s, rfl, hTrees⟩
  | _ => cases hErase

end Expression

namespace Scope

variable {scope : Scope}

private theorem meansObject_erase {e : Expression} :
    scope.MeansObject e.erase ↔ scope.MeansObject e := by
  simp only [MeansObject, meaning_erase]

/-- A text that denotes `Object` derives an expression that means it, and no
other. -/
theorem meansObject_of_textOf {text : String} {b : Expression}
    (hDenotes : scope.DenotesObject text) (hText : TextOf IsType text b.erase) :
    scope.MeansObject b := by
  obtain ⟨v, hParse, hObject⟩ := hDenotes
  obtain ⟨tree, hTree, hMeaning⟩ := scope.parse_eq_ok_iff.1 hParse
  obtain rfl := hTree.unique hText
  exact meansObject_erase.1 ⟨v, hMeaning, hObject⟩

/-- The texts of the bounds of a wildcard, moved or repeated, and with texts
that denote `Object` among them or left out, are the bounds of another
wildcard. -/
theorem exists_sameBounds {text : String} {e : Expression}
    {bounds : List Expression} {s : Option Span} {news : List String}
    (hText : Expression.ofText text = .ok e)
    (hNode : e.IsNode (.wildcard .upper bounds s)) (hNews : news ≠ [])
    (hForward : ∀ n ∈ slices text bounds, n ∈ news ∨ scope.DenotesObject n)
    (hBackward : ∀ n ∈ news, n ∈ slices text bounds ∨ scope.DenotesObject n) :
    ∃ others t, Expression.ofText ("? extends " ++ " & ".intercalate news) =
      .ok (.wildcard .upper others t) ∧ scope.SameBounds bounds others := by
  have hEach : ∀ n ∈ news, ∃ tree, TextOf (NotPrimitive IsBare) n tree ∧
      (scope.MeansObject tree ∨ ∃ b ∈ bounds, b.erase = tree) := by
    intro n hMem
    rcases hBackward n hMem with hSlice | ⟨v, hParse, hObject⟩
    · obtain ⟨b, hB, u, hSpan, rfl⟩ := mem_slices_iff.1 hSlice
      obtain ⟨u', hSpan', hTextOf⟩ :=
        Expression.exists_textOf_bound hText hNode hB
      obtain rfl := Option.some.inj (hSpan.symm.trans hSpan')
      exact ⟨b.erase, hTextOf, .inr ⟨b, hB, rfl⟩⟩
    · have hDenotes := scope.parse_eq_ok_iff_denotes.1 hParse
      obtain ⟨tree, hTree, hMeaning⟩ :=
        hDenotes.bound (isBound_of_isObject hObject)
      exact ⟨tree, hTree, .inl ⟨v, hMeaning, hObject⟩⟩
  obtain ⟨pairs, rfl, hPairs⟩ := exists_pairs hEach
  have hBounds := TextOf.bounds Prod.fst Prod.snd (by simpa using hNews)
    fun pair hMem => (hPairs pair hMem).1
  obtain ⟨made, hRead, hErase⟩ := Expression.ofText_iff_textOf.2 hBounds.upper
  obtain ⟨others, t, rfl, hOthers⟩ := Expression.exists_of_erase_wildcard hErase
  refine ⟨others, t, hRead, fun b hB => ?_, fun c hC => ?_⟩
  · obtain ⟨u, hSpan, hTextOf⟩ := Expression.exists_textOf_bound hText hNode hB
    have hWhole : TextOf IsType (u.slice text) b.erase :=
      hTextOf.mono fun _ hBare => .bare hBare.1
    rcases hForward _ (mem_slices_iff.2 ⟨b, hB, u, hSpan, rfl⟩)
      with hKept | hObject
    · obtain ⟨pair, hPair, hFirst⟩ := List.mem_map.1 hKept
      have hTree : TextOf IsType (u.slice text) pair.2 :=
        hFirst ▸ (hPairs pair hPair).1.mono fun _ hBare => .bare hBare.1
      have hMem : b.erase ∈ others.map Expression.erase := by
        rw [hOthers, hWhole.unique hTree]
        exact List.mem_map_of_mem hPair
      obtain ⟨c, hC, hAgree⟩ := List.mem_map.1 hMem
      exact .inr ⟨c, hC, (Expression.same_iff_erase_eq b c).2 hAgree.symm⟩
    · exact .inl (meansObject_of_textOf hObject hWhole)
  · have hMem : c.erase ∈ pairs.map Prod.snd := hOthers ▸ List.mem_map_of_mem hC
    obtain ⟨pair, hPair, hTree⟩ := List.mem_map.1 hMem
    rcases (hPairs pair hPair).2 with hObject | ⟨b, hB, hAgree⟩
    · exact .inl (meansObject_erase.1 (hTree ▸ hObject))
    · exact .inr ⟨b, hB, (Expression.same_iff_erase_eq b c).2
        (hAgree.trans hTree)⟩

end Scope

/-! ## Values and texts -/

/-- Types that can be bounds make wildcards, and these are the same exactly when
the bounds other than `Object` are the same sets. So they are if the bounds
other than `Object` are the same values, in any order and number.

In a text, a wildcard with upper bounds can be exchanged, at any depth, for any
other with the same bounds, however that is laid out. And the texts of its
bounds, moved or repeated, and with texts that denote `Object` among them or
left out, are the bounds of such a wildcard. The text denotes the same value in
either case. -/
theorem upperBounds_as_sets :
    (∀ bs cs : List Value, (∀ b ∈ bs, b.IsPlain ∧ b.IsBound) →
      (∀ c ∈ cs, c.IsPlain ∧ c.IsBound) →
      ∃ v w, Composition.subtypeOf bs = .ok v ∧
        Composition.subtypeOf cs = .ok w ∧
        (v.same w = true ↔
          SameSets (bs.filter fun b => !b.isObject)
            (cs.filter fun c => !c.isObject)) ∧
        ((∀ x : Value, x.isObject = false → (x ∈ bs ↔ x ∈ cs)) →
          v.same w = true)) ∧
    ∀ (scope : Scope) (text : String) (e : Expression)
      (bounds : List Expression) (s : Span)
      (v : Value), (scope.parse text).result = .ok v →
      Expression.ofText text = .ok e →
      e.IsNode (.wildcard .upper bounds (some s)) →
      (∀ piece others t, Expression.ofText piece =
        .ok (.wildcard .upper others t) →
        scope.SameBounds bounds others →
        ∃ w, (scope.parse (s.splice text piece)).result = .ok w ∧
          v.same w = true) ∧
      ∀ news : List String, news ≠ [] →
        (∀ n ∈ Scope.slices text bounds, n ∈ news ∨ scope.DenotesObject n) →
        (∀ n ∈ news, n ∈ Scope.slices text bounds ∨ scope.DenotesObject n) →
        ∃ w, (scope.parse (s.splice text
          ("? extends " ++ " & ".intercalate news))).result =
          .ok w ∧ v.same w = true := by
  constructor
  · intro bs cs hBs hCs
    refine ⟨_, _, Composition.subtypeOf_of_isBound hBs,
      Composition.subtypeOf_of_isBound hCs,
      Composition.same_wildcard_effectiveBounds_iff, fun hMembers => ?_⟩
    refine Composition.same_wildcard_effectiveBounds_iff.2 (.of_mem_iff ?_ ?_)
    · intro x hMem
      exact (hBs x (List.mem_filter.1 hMem).1).1.types.same_self
    · intro x
      rw [List.mem_filter, List.mem_filter]
      exact and_congr_left fun hOther => hMembers x (by simpa using hOther)
  · intro scope text e bounds s v hParse hText hNode
    have hExchange : ∀ piece others t,
        Expression.ofText piece = .ok (.wildcard .upper others t) →
        scope.SameBounds bounds others →
        ∃ w, (scope.parse (s.splice text piece)).result = .ok w ∧
          v.same w = true := by
      intro piece others t hPiece hSame
      obtain ⟨w, hOther, hAkin⟩ :=
        Scope.exists_parse_splice hParse hText hNode rfl rfl hPiece rfl
          (Scope.keeps_of_sameBounds (some s) t hSame)
      exact ⟨w, hOther, hAkin.same⟩
    refine ⟨hExchange, fun news hNews hForward hBackward => ?_⟩
    obtain ⟨others, t, hPiece, hSame⟩ :=
      Scope.exists_sameBounds hText hNode hNews hForward hBackward
    exact hExchange _ others t hPiece hSame

/-- A scope that knows `List<E>`, `A`, `B` and `Object`. -/
def boundScope : Scope :=
  ⟨⟨[⟨"List", ["E"]⟩, ⟨"A", []⟩, ⟨"B", []⟩, ⟨"java.lang.Object", []⟩]⟩,
    "java.lang"⟩

/-- The bounds in `List<? extends A & B>`. -/
def listedBounds : List Expression :=
  [.raw ⟨"A", some ⟨15, 16⟩⟩, .raw ⟨"B", some ⟨19, 20⟩⟩]

/-- The tree of `List<? extends A & B>`. -/
def boundedList : Expression :=
  .parameterized ⟨"List", some ⟨0, 4⟩⟩
    [.wildcard .upper listedBounds (some ⟨5, 20⟩)]
    (some ⟨0, 21⟩)

private theorem ofText_boundedList :
    Expression.ofText "List<? extends A & B>" = .ok boundedList := by cbv

/-- The bounds in `? extends B&Object&A&B`. -/
def movedBounds : List Expression :=
  [.raw ⟨"B", some ⟨10, 11⟩⟩, .raw ⟨"Object", some ⟨12, 18⟩⟩,
    .raw ⟨"A", some ⟨19, 20⟩⟩,
    .raw ⟨"B", some ⟨21, 22⟩⟩]

private theorem ofText_movedBounds :
    Expression.ofText "? extends B&Object&A&B" =
    .ok (.wildcard .upper movedBounds (some ⟨0, 22⟩)) := by cbv

private theorem sameBounds_movedBounds :
    boundScope.SameBounds listedBounds movedBounds := by
  have hObject : boundScope.MeansObject (.raw ⟨"Object", some ⟨12, 18⟩⟩) :=
    ⟨.object, rfl, rfl⟩
  constructor
  · simp [listedBounds, movedBounds, Expression.same]
  · simp [listedBounds, movedBounds, Expression.same, hObject]

private theorem denotesObject_object : boundScope.DenotesObject "Object" := by
  have hText : Expression.ofText "Object" =
      .ok (.raw ⟨"Object", some ⟨0, 6⟩⟩) := by cbv
  refine ⟨.object, ?_, rfl⟩
  rw [Scope.result_parse hText]
  rfl

/-- The value of `List<? extends A & B>`. -/
def listOfBounded : Value :=
  .parameterized (.classType (.declared ⟨"List", ["E"]⟩))
    [.wildcard [.classType (.ofName "A"), .classType (.ofName "B")] []]

private theorem parse_boundedList :
    (boundScope.parse "List<? extends A & B>").result = .ok listOfBounded := by
  rw [Scope.result_parse ofText_boundedList]
  rfl

private theorem splice_movedBounds :
    (Span.mk 5 20).splice "List<? extends A & B>" "? extends B&Object&A&B" =
        "List<? extends B&Object&A&B>" ∧
      (Span.mk 5 20).splice "List<? extends A & B>"
        ("? extends " ++ " & ".intercalate ["B", "Object", "A"]) =
        "List<? extends B & Object & A>" := by
  constructor <;> cbv

/-- The bound `A` beside `Object` and twice, and two bounds in a type argument
moved, with `Object` among them and one repeated or not. -/
theorem upperBounds_as_sets_list :
    (∃ v w, Composition.subtypeOf [.classType (.ofName "A"), .object] = .ok v ∧
      Composition.subtypeOf [.classType (.ofName "A"),
        .classType (.ofName "A")] = .ok w ∧
      v.same w = true) ∧
    (boundScope.parse "List<? extends A & B>").result = .ok listOfBounded ∧
    (∃ w, (boundScope.parse "List<? extends B&Object&A&B>").result = .ok w ∧
      listOfBounded.same w = true) ∧
    ∃ w, (boundScope.parse "List<? extends B & Object & A>").result = .ok w ∧
      listOfBounded.same w = true := by
  obtain ⟨hValues, hTexts⟩ := upperBounds_as_sets
  have hNode : boundedList.IsNode
      (.wildcard .upper listedBounds (some ⟨5, 20⟩)) :=
    .child .root (by simp [boundedList, Expression.children])
  obtain ⟨hPieces, hNews⟩ :=
    hTexts boundScope "List<? extends A & B>" boundedList listedBounds
      ⟨5, 20⟩ listOfBounded parse_boundedList ofText_boundedList hNode
  refine ⟨?_, parse_boundedList, ?_, ?_⟩
  · have hBound : ∀ c : ClassType, c.isPrimitive = false →
        (Value.classType c).IsPlain ∧ (Value.classType c).IsBound :=
      fun c hPrimitive => ⟨⟨.classType trivial, rfl⟩, rfl, hPrimitive⟩
    have hA := hBound (.ofName "A") rfl
    have hObject := hBound .object rfl
    obtain ⟨v, w, hV, hW, -, hMembers⟩ := hValues
      [.classType (.ofName "A"), .object]
      [.classType (.ofName "A"), .classType (.ofName "A")]
      (by simp [hA, hObject, Value.object]) (by simp [hA])
    refine ⟨v, w, hV, hW, hMembers fun x hOther => ?_⟩
    have hNot : x ≠ .object := by
      rintro rfl
      cases hOther
    simp [hNot]
  · rw [← splice_movedBounds.1]
    exact hPieces _ movedBounds _ ofText_movedBounds sameBounds_movedBounds
  · have hSlices : Scope.slices "List<? extends A & B>" listedBounds =
        ["A", "B"] := by cbv
    rw [← splice_movedBounds.2]
    refine hNews ["B", "Object", "A"] (by simp) ?_ ?_
    · simp [hSlices]
    · simp [hSlices, denotesObject_object]

end JvmTypes
