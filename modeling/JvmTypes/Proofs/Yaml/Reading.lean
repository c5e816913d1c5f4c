import JvmTypes.Proofs.Yaml.Nodes
import JvmTypes.Proofs.Yaml.Tokens

/-!
# Reading block style

A text in block style is read as the document that it stands for (`read_text`),
comments in front of it or not. A word stands for its own text unless it is a
number, a truth value or nothing (`plainValue_of_isText`).
-/

namespace JvmTypes.Yaml

/-! ## Words that mean their text -/

/-- Whether a character can start a number. -/
def startsNumber (c : Char) : Bool :=
  c.isDigit || ['+', '-', '.', ':'].contains c

/-- Whether a text is one of the `nullWords`, `trueWords` and `falseWords`. -/
def isKeyword (cs : List Char) : Bool :=
  (nullWords ++ trueWords ++ falseWords).any fun word => word.toList = cs

/-- Whether a text is a word that `plainValue` takes for itself: it starts like
no number and is no keyword. -/
def isText (cs : List Char) : Bool :=
  isPlain cs && cs.head?.all (!startsNumber ·) && !isKeyword cs

theorem isPlain_of_isText {cs : List Char} (hText : isText cs) :
    isPlain cs := by
  simp only [isText, Bool.and_eq_true] at hText
  exact hText.1.1

section

variable {c : Char} (hStart : startsNumber c = false) (cs : List Char)

include hStart

private theorem splitSign_of_start :
    splitSign (c :: cs) = (false, c :: cs) := by
  simp only [startsNumber, Bool.or_eq_false_iff] at hStart
  rw [splitSign] <;> (rintro rest ⟨⟩; exact absurd hStart.2 (by decide))

private theorem integer?_of_start : integer? (c :: cs) = none := by
  have hDigit : c.isDigit = false := by
    simp only [startsNumber, Bool.or_eq_false_iff] at hStart
    exact hStart.1
  have hNatural : natural? (c :: cs) = none := by
    rw [natural?]
    · simp [startsWithDigit, hDigit]
    all_goals (rintro rest ⟨⟩; exact absurd hDigit (by decide))
  simp [integer?, splitSign_of_start hStart, hNatural]

omit hStart in
/-- No part of a text that `colonParts` cuts starts it anew. -/
theorem startsWithDigit_of_colonParts {whole head : List Char}
    {parts : List (List Char)} (hWhole : startsWithDigit whole = false)
    (hParts : colonParts whole = head :: parts) :
    startsWithDigit head = false := by
  rw [colonParts, List.splitOn] at hParts
  cases whole with
  | nil =>
      cases hParts
      rfl
  | cons d whole =>
      rw [List.splitOnP_cons_eq_if_modifyHead] at hParts
      split at hParts
      · cases hParts
        rfl
      · cases hTail : whole.splitOnP (· == ':') with
        | nil => simp [hTail] at hParts
        | cons first more =>
            rw [hTail, List.modifyHead_cons] at hParts
            cases hParts
            exact hWhole

private theorem positive?_of_start : positive? false (c :: cs) = none := by
  have hPoint : c ≠ '.' := by
    rintro rfl
    exact absurd hStart (by decide)
  have hDigit : startsWithDigit (c :: cs) = false := by
    simp only [startsNumber, Bool.or_eq_false_iff] at hStart
    exact hStart.1
  simp only [positive?, List.cons.injEq, hPoint, false_and, or_self,
    if_false, and_false]
  generalize hTaken : (c :: cs).takeWhile
    (fun c => isDigitOrGap c || c = ':') = whole
  have hWhole : startsWithDigit whole = false := by
    simp only [startsWithDigit, ← hTaken, List.head?_takeWhile, List.head?_cons,
      Option.filter]
      at hDigit ⊢
    split <;> simp_all
  split
  · rename_i rest hRest
    have hNe : whole ≠ [] := by
      rintro rfl
      exact hPoint (List.cons.inj hRest).1
    split
    · split
      · rename_i head parts hParts
        simp [startsWithDigit_of_colonParts hWhole hParts]
      · rfl
    · simp [hWhole]
  · rfl

private theorem fraction?_of_start : fraction? (c :: cs) = none := by
  simp [fraction?, splitSign_of_start hStart, positive?_of_start hStart]

end

theorem plainValue_of_isText {cs : List Char} (hText : isText cs) :
    plainValue cs = .str (String.ofList cs) := by
  simp only [isText, isKeyword, Bool.and_eq_true, Bool.not_eq_true',
    List.any_append, Bool.or_eq_false_iff] at hText
  obtain ⟨⟨hPlain, hStart⟩, ⟨hNull, hTrue⟩, hFalse⟩ := hText
  have hOther : ∀ words : List String,
      words.any (fun word => word.toList = cs) = false →
      String.ofList cs ∉ words := by
    rintro words hNone hMem
    simpa using List.any_eq_false.1 hNone _ hMem
  have hNull := hOther _ hNull
  have hTrue := hOther _ hTrue
  have hFalse := hOther _ hFalse
  obtain ⟨c, cs, rfl, -⟩ := startsPlain_of_isPlain hPlain
  have hStart : startsNumber c = false := by simpa using hStart
  simp only [plainValue, List.contains_eq_mem, hNull, hTrue,
    hFalse, decide_false, Bool.false_eq_true, if_false,
    fraction?_of_start hStart, integer?_of_start hStart]

/-! ## Documents -/

theorem isScalar_plainValue (cs : List Char) : (plainValue cs).isScalar := by
  rw [plainValue]
  repeat' split
  all_goals rfl

private theorem documents_words (texts : List (List Char)) :
    documents (texts.map fun cs => .scalar none cs true) =
      some (texts.map plainValue) := by
  induction texts with
  | nil => rfl
  | cons cs texts ih =>
      simp [documents, ih, Yaml.document, scalarValue]

mutual

/-- What `Yaml.document` makes of the node of an item is its document. -/
theorem document_node (item : Item) (hLegible : item.IsLegible) :
    Yaml.document item.node = some item.document :=
  match item with
  | .word cs => rfl
  | .quoted cs => rfl
  | .words texts => by
      simp [Item.node, Item.document, Yaml.document, hasType, documents_words]
  | .block [] => rfl
  | .block (entry :: entries) => by
      have hEntries := mappingEntries_entryNodes (entry :: entries) hLegible
      simp [Item.node, Item.document, Yaml.document, hasType, hEntries]

/-- What `mappingEntries` makes of the nodes of the entries of a block are their
documents, and nothing is merged in. -/
theorem mappingEntries_entryNodes (entries : List (List Char × Item))
    (hLegible : Item.AreLegible entries) :
    mappingEntries (Item.entryNodes entries) =
      some ([], Item.entryDocuments entries) :=
  match entries with
  | [] => rfl
  | (name, item) :: entries => by
      obtain ⟨⟨-, -, hMerge⟩, hItem, hEntries⟩ := hLegible
      simp [Item.entryNodes, Item.entryDocuments, mappingEntries,
        document_node item hItem, mappingEntries_entryNodes entries hEntries,
        isMergeKey, hMerge, Yaml.document, scalarValue, isScalar_plainValue]

end

/-- A text of comments and a block is read by `Yaml.read` as the document of the
block. -/
theorem read_text {remarks : List (List Char)}
    (hRemarks : ∀ cs ∈ remarks, isRemark cs) {entries : List (List Char × Item)}
    (hLegible : Item.AreLegible entries) (hNe : entries ≠ []) :
    read (String.ofList (remarksText remarks ++ Item.entriesText 0 entries)) =
      some (Item.block entries).document := by
  have hScan := Token.scan_text hRemarks hLegible hNe
  have hNode := Node.ofTokens?_block hNe
  have hDocument := document_node (.block entries) hLegible
  simp [read, hScan, hNode, hDocument]

end JvmTypes.Yaml
