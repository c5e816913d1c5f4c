import JvmTypes.Proofs.Denotation
import JvmTypes.Proofs.Reader.Refusal

/-!
# Texts compose as values do

A text put together from the texts of some parts denotes a value exactly when
the values of the parts compose, and then it denotes the composite. One
direction is the rules for texts of composites. For the other, the lexemes of
the whole are known from those of the parts, so a derivation of the whole is
read along the derivations of the parts: the reader lets pass only what
composition lets pass, the tree of the whole is therefore the composite of the
trees of the parts, and its value is the composite of their values.

The parts may be any texts with a value, with blanks, brackets and bounds of
their own.

## Main results

* `denotes_parameterized_iff`, `denotes_upper_iff`, `denotes_lower_iff`,
  `denotes_array_iff`: one kind of composite each.
* `parse_composite_iff`: all four as statements about parsing.
-/

namespace JvmTypes

open Grammar
open Token (Lexes)

theorem Grammar.TextOf.unique {text : String} {a b : Expression}
    (hFirst : TextOf IsType text a) (hSecond : TextOf IsType text b) :
    a = b := by
  obtain ⟨ls, hLexes, hType⟩ := hFirst
  obtain ⟨ms, hLexes', hType'⟩ := hSecond
  obtain rfl := hLexes.unique hLexes'
  exact hType.unique hType'

namespace Scope

variable {scope : Scope}

/-! ## Names -/

/-- Only a name denotes a declared class. -/
theorem exists_name_of_denotes {text : String} {d : Declaration}
    (hText : scope.Denotes text (.classType (.declared d))) :
    ∃ name, TextOf IsName text name ∧ scope.lookup? name = some d := by
  obtain ⟨tree, ⟨ls, hLexes, hType⟩, hMeaning⟩ := hText
  have hAgrees := agrees_of_isType hType hMeaning
  cases hType.toBare hAgrees.wildcard.symm with
  | array =>
      obtain ⟨w, -, hArray⟩ := meaning_array_eq_some_iff.1 hMeaning
      rcases Composition.cases_of_arrayOf hArray
        with ⟨c, -, -, hEq⟩ | ⟨-, -, hEq⟩ <;> cases hEq
  | base hBase =>
      cases hBase with
      | primitive p =>
          rw [meaning_primitive] at hMeaning
          cases hMeaning
      | name hName =>
          obtain ⟨d', hLookup, hEq⟩ := meaning_raw_eq_some_iff.1 hMeaning
          cases hEq
          exact ⟨_, ⟨ls, hLexes, hName⟩, hLookup⟩
      | internal hInternal =>
          obtain ⟨n, c, hEq, -⟩ :=
            scope.exists_arrays_of_internal hInternal hMeaning
          rw [ClassType.arrays_succ] at hEq
          cases hEq
      | parameterized opening closing hName hArguments =>
          obtain ⟨d', -, vs, -, hParameterized⟩ :=
            meaning_parameterized_eq_some_iff.1 hMeaning
          obtain ⟨-, -, -, -, -, hEq⟩ :=
            Composition.parameterizedOf_eq_ok_iff.1 hParameterized
          cases hEq

/-! ## Pieces -/

/-- A text with its lexemes, their tree and its value. -/
structure Piece (scope : Scope) where
  text : String
  value : Value
  lexemes : List Lexeme
  tree : Expression
  lexes : Lexes text.toList lexemes
  isType : IsType lexemes tree
  meaning : scope.meaning tree = some value

theorem Piece.denotes (piece : Piece scope) :
    scope.Denotes piece.text piece.value :=
  ⟨piece.tree, ⟨piece.lexemes, piece.lexes, piece.isType⟩, piece.meaning⟩

/-- A text that `Denotes` a value is that of a `Piece`. -/
theorem exists_piece {part : String × Value}
    (hPart : scope.Denotes part.1 part.2) :
    ∃ piece : Piece scope, (piece.text, piece.value) = part := by
  obtain ⟨tree, ⟨ls, hLexes, hType⟩, hMeaning⟩ := hPart
  exact ⟨⟨part.1, part.2, ls, tree, hLexes, hType, hMeaning⟩, rfl⟩

private theorem exists_pieces {parts : List (String × Value)}
    (hParts : ∀ part ∈ parts, scope.Denotes part.1 part.2) :
    ∃ pieces : List (Piece scope),
      pieces.map (fun piece => (piece.text, piece.value)) = parts := by
  obtain ⟨pairs, rfl, hPairs⟩ := exists_pairs fun part hMem =>
    exists_piece (hParts part hMem)
  refine ⟨pairs.map Prod.snd, ?_⟩
  rw [List.map_map]
  exact List.map_congr_left hPairs

/-! ## One kind of composite each -/

theorem denotes_parameterized_iff {raw : String} {d : Declaration}
    (hRaw : scope.Denotes raw (.classType (.declared d)))
    {pieces : List (Piece scope)} (hNonempty : pieces ≠ []) (w : Value) :
    scope.Denotes (raw ++ "<" ++
      ",".intercalate (pieces.map Piece.text) ++ ">") w ↔
      Composition.parameterizedOf (.classType (.declared d))
        (pieces.map Piece.value) = .ok w := by
  obtain ⟨name, hName, hLookup⟩ := exists_name_of_denotes hRaw
  refine ⟨fun hWhole => ?_, fun hParameterized =>
    .parameterized hName hLookup separates_comma Piece.text
      Piece.value hNonempty
      (fun piece _ => piece.denotes) hParameterized⟩
  obtain ⟨tree, ⟨ms, hLexes, hType⟩, hMeaning⟩ := hWhole
  obtain ⟨ls, hLexesName, hIsName⟩ := hName
  have hLexesParts := separates_comma.intercalate Piece.text Piece.lexemes
    fun (piece : Piece scope) (_ : piece ∈ pieces) => piece.lexes
  obtain rfl := hLexes.unique (lexes_angles hLexesName hLexesParts)
  -- The reader lets the whole pass, so the parts are what arguments can be.
  have hPrimitive :=
    hType.isPrimitive_of_angles hIsName fun piece _ => piece.isType
  have hArguments :=
    TextOf.arguments separates_comma Piece.text Piece.tree hNonempty
      fun piece hMem =>
        ⟨piece.lexemes, piece.lexes, piece.isType, hPrimitive piece hMem⟩
  have hComposite := TextOf.parameterized ⟨ls, hLexesName, hIsName⟩ hArguments
  obtain rfl :=
    TextOf.unique ⟨_, hLexes, hType⟩ (hComposite.mono fun _ => .bare)
  have hMeanings := scope.meanings_map Piece.tree Piece.value
    fun (piece : Piece scope) (_ : piece ∈ pieces) => piece.meaning
  rwa [meaning_parameterized, hLookup, Option.bind_some, hMeanings,
    Option.bind_some,
    toOption_eq_some_iff] at hMeaning

theorem denotes_upper_iff {pieces : List (Piece scope)}
    (hNonempty : pieces ≠ []) (w : Value) :
    scope.Denotes ("? extends " ++
      " & ".intercalate (pieces.map Piece.text)) w ↔
      Composition.subtypeOf (pieces.map Piece.value) = .ok w := by
  refine ⟨fun hWhole => ?_,
    .upper Piece.text Piece.value hNonempty fun piece _ => piece.denotes⟩
  obtain ⟨tree, ⟨ms, hLexes, hType⟩, hMeaning⟩ := hWhole
  have hLexesParts := separates_amp.intercalate Piece.text Piece.lexemes
    fun (piece : Piece scope) (_ : piece ∈ pieces) => piece.lexes
  obtain rfl := hLexes.unique (lexes_extends hLexesParts)
  -- The reader lets the whole pass, so the parts are what bounds can be.
  have hBound := hType.isBound_of_extends fun piece _ => piece.isType
  have hBounds :=
    TextOf.bounds Piece.text Piece.tree hNonempty fun piece hMem =>
      ⟨piece.lexemes, piece.lexes, piece.isType.toBare (hBound piece hMem).1,
        (hBound piece hMem).2⟩
  obtain rfl := TextOf.unique ⟨_, hLexes, hType⟩ hBounds.upper
  have hMeanings := scope.meanings_map Piece.tree Piece.value
    fun (piece : Piece scope) (_ : piece ∈ pieces) => piece.meaning
  rwa [scope.meaning_upper (by simp), hMeanings, Option.bind_some,
    toOption_eq_some_iff]
    at hMeaning

theorem denotes_lower_iff (piece : Piece scope) (w : Value) :
    scope.Denotes ("? super " ++ piece.text) w ↔
      Composition.supertypeOf piece.value = .ok w := by
  refine ⟨fun hWhole => ?_, piece.denotes.lower⟩
  obtain ⟨tree, ⟨ms, hLexes, hType⟩, hMeaning⟩ := hWhole
  obtain rfl := hLexes.unique (lexes_super piece.lexes)
  have hBound := piece.isType.isBound_of_super hType
  have hLower := TextOf.lower
    ⟨piece.lexemes, piece.lexes, piece.isType.toBare hBound.1, hBound.2⟩
  obtain rfl := TextOf.unique ⟨_, hLexes, hType⟩ hLower
  rwa [meaning_lower, piece.meaning, Option.bind_some,
    toOption_eq_some_iff] at hMeaning

theorem denotes_array_iff {piece : Piece scope}
    (hWildcard : piece.value.isWildcard = false) (w : Value) :
    scope.Denotes (piece.text ++ "[]") w ↔
    Composition.arrayOf piece.value = .ok w := by
  refine ⟨fun hWhole => ?_, piece.denotes.array hWildcard⟩
  obtain ⟨tree, ⟨ms, hLexes, hType⟩, hMeaning⟩ := hWhole
  have hBare : IsBare piece.lexemes piece.tree :=
    piece.isType.toBare ((agrees_of_isType piece.isType
      piece.meaning).wildcard ▸ hWildcard)
  obtain rfl := hLexes.unique (lexes_brackets piece.lexes hBare)
  have hArray := TextOf.array ⟨piece.lexemes, piece.lexes, hBare⟩
    (hType.isVoid_of_bracket hBare)
  obtain rfl := TextOf.unique ⟨_, hLexes, hType⟩ (hArray.mono fun _ => .bare)
  rwa [meaning_array, piece.meaning, Option.bind_some,
    toOption_eq_some_iff] at hMeaning

/-! ## Parsing -/

/-- For texts that parse to some values: behind the name of a class of the
catalog and between angle brackets, behind `? extends`, behind `? super` and in
front of brackets they parse exactly when their values compose, and to the
composite. A wildcard in front of brackets is left out: these are read as part
of its last bound. -/
theorem parse_composite_iff (scope : Scope) {parts : List (String × Value)}
    (hNonempty : parts ≠ [])
    (hParts : ∀ part ∈ parts, (scope.parse part.1).result = .ok part.2) :
    (∀ raw d, (scope.parse raw).result = .ok (.classType (.declared d)) → ∀ w,
      (scope.parse (raw ++ "<" ++ ",".intercalate (parts.map Prod.fst) ++
        ">")).result = .ok w ↔
        Composition.parameterizedOf (.classType (.declared d))
          (parts.map Prod.snd) = .ok w) ∧
    (∀ w, (scope.parse ("? extends " ++
      " & ".intercalate (parts.map Prod.fst))).result = .ok w ↔
      Composition.subtypeOf (parts.map Prod.snd) = .ok w) ∧
    (∀ part ∈ parts, ∀ w, (scope.parse ("? super " ++ part.1)).result = .ok w ↔
      Composition.supertypeOf part.2 = .ok w) ∧
    (∀ part ∈ parts, part.2.isWildcard = false → ∀ w,
      (scope.parse (part.1 ++ "[]")).result = .ok w ↔
      Composition.arrayOf part.2 = .ok w) := by
  simp only [parse_eq_ok_iff_denotes] at hParts ⊢
  refine ⟨fun raw d hRaw w => ?_, fun w => ?_, fun part hMem w => ?_,
    fun part hMem hWildcard w => ?_⟩
  · obtain ⟨pieces, rfl⟩ := exists_pieces hParts
    rw [List.map_map, List.map_map]
    exact denotes_parameterized_iff hRaw (by simpa using hNonempty) w
  · obtain ⟨pieces, rfl⟩ := exists_pieces hParts
    rw [List.map_map, List.map_map]
    exact denotes_upper_iff (by simpa using hNonempty) w
  · obtain ⟨piece, rfl⟩ := exists_piece (hParts part hMem)
    exact denotes_lower_iff piece w
  · obtain ⟨piece, rfl⟩ := exists_piece (hParts part hMem)
    exact denotes_array_iff hWildcard w

/-- `List<? super int[]>` is a type argument of `List` again. -/
theorem parse_listOfLists :
    (listScope.parse "List<? super int[]>").result = .ok listOfInts ∧
    (listScope.parse "List").result =
      .ok (.classType (.declared ⟨"List", ["E"]⟩)) ∧
    (listScope.parse "List<List<? super int[]>>").result =
      .ok (.parameterized (.classType (.declared ⟨"List", ["E"]⟩))
        [listOfInts]) := by
  have hParts : ∀ part ∈ [("List<? super int[]>", listOfInts)],
      (listScope.parse part.1).result = .ok part.2 :=
    List.forall_mem_singleton.2 parse_listOfInts
  have hRaw : (listScope.parse "List").result =
      .ok (.classType (.declared ⟨"List", ["E"]⟩)) :=
    listScope.parse_eq_ok_iff.2
      ⟨_, (textOf_name isLexable_list).mono fun _ hName =>
        .bare (.base (.name hName)), rfl⟩
  refine ⟨parse_listOfInts, hRaw, ?_⟩
  exact ((parse_composite_iff listScope (List.cons_ne_nil _ _) hParts).1 "List"
    _ hRaw _).2 rfl

end Scope

end JvmTypes
