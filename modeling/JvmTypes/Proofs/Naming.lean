import JvmTypes.Proofs.Compositional
import JvmTypes.Proofs.Nominal
import JvmTypes.Proofs.RoundTrip

/-!
# Registered classes and their names in texts

A catalog and the lexer have a notion of a name each. A catalog takes any dotted
sequence of segments; a text can spell a segment only if it is a word, and a
word that is reserved is a keyword instead. So among the names that a catalog
takes and whose segments start as words do, those that denote their classes are
the names without a keyword (`isLexable_iff`).

## Main results

* `exists_segments`: a registered name falls into its segments at the dots.
* `Grammar.not_reserved_of_isName`: a keyword stands in no class name.
* `Catalog.parse_registered`: which registered classes a text can name.
-/

namespace JvmTypes

open Grammar
open Token (Lexes)

/-! ## Segments of names -/

/-- The segments of a name. -/
def segments (name : String) : List (List Char) := name.toList.splitOn '.'

/-- Whether every one of the `segments` of a name starts as a word of the source
text can. -/
def StartsAsWords (name : String) : Prop :=
  ∀ segment ∈ segments name, ∃ c cs, segment = c :: cs ∧ isNameStart c = true

/-- Whether one of the `segments` of a name is a keyword. -/
def HasKeyword (name : String) : Prop :=
  ∃ segment ∈ segments name,
    Token.Kind.ofKeyword? (String.ofList segment) ≠ none

theorem IsSegment.dot_notMem {segment : List Char}
    (hSegment : IsSegment segment) : '.' ∉ segment := by
  obtain ⟨c, cs, rfl, hStart, hParts⟩ := hSegment
  intro hDot
  rcases List.mem_cons.1 hDot with hEq | hMem
  · exact ne_dot_of_isNamePart (isNamePart_of_isSegmentStart hStart) hEq.symm
  · exact ne_dot_of_isNamePart (hParts '.' hMem) rfl

/-- A class name is its `segments` with dots between. -/
theorem exists_segments {name : String} (hName : IsClassName name.toList) :
    ∃ first rest, segments name = first :: rest ∧
      (∀ s ∈ first :: rest, IsSegment s) ∧
      name.toList = ['.'].intercalate (first :: rest) := by
  obtain ⟨pieces, hNonempty, hPieces, hText⟩ := hName
  have hSplit : segments name = pieces := by
    rw [segments, hText]
    exact List.splitOn_intercalate '.'
      (fun s hMem => (hPieces s hMem).dot_notMem) hNonempty
  cases pieces with
  | nil => exact absurd rfl hNonempty
  | cons first rest => exact ⟨first, rest, hSplit, hPieces, hText⟩

theorem IsSegment.isSpelled {segment : List Char} (hSegment : IsSegment segment)
    (hStarts : ∃ c cs, segment = c :: cs ∧ isNameStart c = true) :
    IsSpelled segment := by
  obtain ⟨c, cs, rfl, -, hParts⟩ := hSegment
  obtain ⟨d, ds, hEq, hStart⟩ := hStarts
  cases hEq
  exact ⟨c, cs, rfl, hStart, hParts⟩

/-- A class name whose segments start as words is lexable (`IsLexable`) exactly
if none of them is a keyword. -/
theorem isLexable_iff {name : String} (hName : IsClassName name.toList)
    (hStarts : StartsAsWords name) :
    IsLexable name.toList ↔ ¬ HasKeyword name := by
  obtain ⟨first, rest, hSplit, hSegments, hText⟩ := exists_segments hName
  constructor
  · rintro ⟨words, hNonempty, hWords, hWhole⟩ ⟨segment, hMem, hKeyword⟩
    have hEq : segments name = words := by
      rw [segments, hWhole]
      exact List.splitOn_intercalate '.'
        (fun w hMem => (isSegment_of_isWord (hWords w hMem)).dot_notMem)
          hNonempty
    obtain ⟨c, cs, rfl, -, -, hNone⟩ := hWords segment (hEq ▸ hMem)
    exact hKeyword hNone
  · intro hNone
    refine ⟨first :: rest, by simp, fun segment hMem => ?_, hText⟩
    obtain ⟨c, cs, rfl, hStart, hParts⟩ :=
      (hSegments segment hMem).isSpelled (hStarts segment (hSplit ▸ hMem))
    refine ⟨c, cs, rfl, hStart, hParts, ?_⟩
    by_contra hKeyword
    exact hNone ⟨c :: cs, hSplit ▸ hMem, hKeyword⟩

/-! ## Keywords in names -/

namespace Grammar

/-- A name that `IsName` derives is made of words and dots. -/
theorem IsName.kinds {ls : List Lexeme} {name : String}
    (hName : IsName ls name) : ∀ l ∈ ls, l.kind = .ident ∨ l.kind = .dot := by
  induction hName with
  | word => simp
  | dotted dot text _ ih =>
      intro l hMem
      rcases List.mem_append.1 hMem with hFront | hBack
      · exact ih l hFront
      · rcases List.mem_cons.1 hBack with rfl | hLast
        · exact .inr rfl
        · rw [List.mem_singleton.1 hLast]
          exact .inl rfl

/-- A word that `ofWord` gives a kind that names are made of is no keyword. -/
theorem ofKeyword?_of_kind {text : String}
    (hKind : Token.Kind.ofWord text = .ident ∨ Token.Kind.ofWord text = .dot) :
    Token.Kind.ofKeyword? text = none := by
  cases hFind : Token.Kind.ofKeyword? text with
  | none => rfl
  | some kind =>
      rw [Token.Kind.ofWord, hFind, Option.getD_some] at hKind
      have hName := Token.Kind.name_of_ofKeyword? hFind
      rw [← hName] at hFind
      rcases hKind with rfl | rfl
      · exact absurd hFind (by decide)
      · exact absurd hFind (by decide)

/-- Where a text that spells words with dots between derives a name by `IsName`,
no word of it is a keyword. -/
theorem not_reserved_of_isName {word : List Char} {words : List (List Char)}
    {text name : String} (hWords : ∀ w ∈ word :: words, IsSpelled w)
    (hText : text.toList = ['.'].intercalate (word :: words))
    (hName : TextOf IsName text name) :
    ∀ w ∈ word :: words, Token.Kind.ofKeyword? (String.ofList w) = none := by
  obtain ⟨ls, hLexes, hDerives⟩ := hName
  rw [hText] at hLexes
  obtain rfl := hLexes.unique (lexes_spelled hWords)
  intro w hMem
  refine ofKeyword?_of_kind (hDerives.kinds (wordLexeme w) ?_)
  rcases List.mem_cons.1 hMem with rfl | hRest
  · exact List.mem_cons_self
  · refine List.mem_cons_of_mem _ (List.mem_flatMap.2 ⟨w, hRest, ?_⟩)
    simp

end Grammar

namespace Scope

variable {scope : Scope}

/-- A class whose name `StartsAsWords` is denoted by its name exactly if no
keyword stands in that. -/
theorem denotes_name_iff {d : Declaration} (hName : IsClassName d.name.toList)
    (hStarts : StartsAsWords d.name)
    (hFind : scope.catalog.find? d.name = some d) :
    scope.Denotes d.name (.classType (.declared d)) ↔ ¬ HasKeyword d.name := by
  constructor
  · rintro hDenotes ⟨segment, hMem, hKeyword⟩
    obtain ⟨name, hText, -⟩ := exists_name_of_denotes hDenotes
    obtain ⟨first, rest, hSplit, hSegments, hWhole⟩ := exists_segments hName
    have hSpelled : ∀ s ∈ first :: rest, IsSpelled s := fun s hS =>
      (hSegments s hS).isSpelled (hStarts s (hSplit ▸ hS))
    exact hKeyword (not_reserved_of_isName hSpelled hWhole hText segment
      (hSplit ▸ hMem))
  · intro hNone
    exact denotes_name ((isLexable_iff hName hStarts).2 hNone) hFind

end Scope

/-! ## Registered classes -/

namespace Catalog

theorem register_eq_ok_iff {before after : Catalog} {name parameters : Document}
    {d : Declaration} :
    before.register name parameters = .ok (d, after) ↔
      Declaration.read name parameters = .ok d ∧ after = before.insert d := by
  rw [register]
  cases Declaration.read name parameters with
  | error e => simp [bind, Except.bind]
  | ok d' =>
      simp only [bind, Except.bind, Except.ok.injEq, Prod.mk.injEq]
      constructor
      · rintro ⟨rfl, rfl⟩
        exact ⟨rfl, rfl⟩
      · rintro ⟨rfl, rfl⟩
        exact ⟨rfl, rfl⟩

/-- A class that `register` accepts is found in the catalog, under the name that
was given for it. Wherever it is found, whatever the default package, its name
denotes it exactly if no segment of the name is a keyword (`HasKeyword`), and
then the name with brackets denotes its array class; this is so for names whose
segments start as words (`StartsAsWords`). -/
theorem parse_registered {before after : Catalog} {name parameters : Document}
    {d : Declaration}
    (hRegister : before.register name parameters = .ok (d, after)) :
    name = .str d.name ∧ after.find? d.name = some d ∧
      ∀ scope : Scope, scope.catalog.find? d.name = some d →
        StartsAsWords d.name →
        ((scope.parse d.name).result = .ok (.classType (.declared d)) ↔
          ¬ HasKeyword d.name) ∧
          (¬ HasKeyword d.name →
            (scope.parse (d.name ++ "[]")).result =
              .ok (.classType (.array (.declared d)))) := by
  obtain ⟨hRead, rfl⟩ := register_eq_ok_iff.1 hRegister
  have hName := (isClassName_iff _).1 (Declaration.isClassName_of_read hRead)
  refine ⟨?_, before.find?_insert_self d, fun scope hFind hStarts => ?_⟩
  · have hReadName := Declaration.name_of_read hRead
    unfold Declaration.readName at hReadName
    split at hReadName
    · split at hReadName <;> cases hReadName
      rfl
    · cases hReadName
  · simp only [Scope.parse_eq_ok_iff_denotes]
    have hIff := Scope.denotes_name_iff hName hStarts hFind
    refine ⟨hIff, fun hNone => ?_⟩
    exact (hIff.2 hNone).array rfl
      (Composition.arrayOf_classType_eq_ok_iff.2 ⟨by simp, rfl⟩)

/-- Once registered, `List` is denoted by its name, and its array class by
`List[]`. -/
theorem parse_registered_list :
    empty.register (.str "List") (.list [.str "E"]) =
      .ok (⟨"List", ["E"]⟩, listScope.catalog) ∧
    (listScope.parse "List").result =
      .ok (.classType (.declared ⟨"List", ["E"]⟩)) ∧
    (listScope.parse "List[]").result =
      .ok (.classType (.array (.declared ⟨"List", ["E"]⟩))) := by
  have hRegister : empty.register (.str "List") (.list [.str "E"]) =
      .ok (⟨"List", ["E"]⟩, listScope.catalog) :=
    toOption_eq_some_iff.1 (by decide +kernel)
  have hSegments : segments "List" = ["List".toList] := by decide
  have hStarts : StartsAsWords "List" := by
    intro segment hMem
    rw [hSegments, List.mem_singleton] at hMem
    exact ⟨'L', "ist".toList, hMem, by decide⟩
  have hKeyword : ¬ HasKeyword "List" := by
    rintro ⟨segment, hMem, hKeyword⟩
    rw [hSegments, List.mem_singleton] at hMem
    rw [hMem] at hKeyword
    exact hKeyword (by decide)
  obtain ⟨-, hFind, hScope⟩ := parse_registered hRegister
  obtain ⟨hName, hArray⟩ := hScope listScope hFind hStarts
  exact ⟨hRegister, hName.2 hKeyword, hArray hKeyword⟩

/-- A class can be registered as `int`, but a text that says `int` means the
primitive type. -/
theorem parse_registered_int :
    ∃ after, empty.register (.str "int") (.list []) = .ok (⟨"int", []⟩, after) ∧
      (Scope.parse ⟨after, "java.lang"⟩ "int").result =
        .ok (.classType (.primitive .int)) ∧
      (Scope.parse ⟨after, "java.lang"⟩ "int").result ≠
        .ok (.classType (.declared ⟨"int", []⟩)) := by
  have hRegister : empty.register (.str "int") (.list []) =
      .ok (⟨"int", []⟩, empty.insert ⟨"int", []⟩) :=
    toOption_eq_some_iff.1 (by decide +kernel)
  have hParse : (Scope.parse
    ⟨empty.insert ⟨"int", []⟩, "java.lang"⟩ "int").result =
      .ok (.classType (.primitive .int)) :=
    Scope.parse_eq_ok_iff_denotes.2 (Scope.denotes_primitive .int)
  refine ⟨_, hRegister, hParse, ?_⟩
  rw [hParse]
  simp

end Catalog

end JvmTypes
