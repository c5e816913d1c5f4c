import JvmTypes.Proofs.Yaml.Words
import JvmTypes.Yaml

/-!
# Documents in block style

A plain way to write documents down: blocks of entries, one key a line, whose
values are words, texts in quotes, lists of words in brackets, or blocks that
are indented by two more columns. An `Item` stands for such a document; this
module says what it looks like (`Item.text`), what its tokens and its node are
(`Item.tokens`, `Item.node`) and which document it means (`Item.document`).
-/

namespace JvmTypes.Yaml

/-- A document in block style, or a part of one, as `Item.text` writes it. -/
inductive Item where
  /-- A plain scalar. -/
  | word (text : List Char)
  /-- A scalar in double quotes. -/
  | quoted (text : List Char)
  /-- A sequence of plain scalars, in brackets. -/
  | words (texts : List (List Char))
  /-- A mapping with a line for each key. Without entries nothing is written. -/
  | block (entries : List (List Char × Item))

namespace Item

mutual

/-- What is written behind a key at `column` and its colon. -/
def text (column : Nat) : Item → List Char
  | word cs => ' ' :: (cs ++ ['\n'])
  | quoted cs => ' ' :: '"' :: (cs ++ ['"', '\n'])
  | words texts => ' ' :: '[' :: ([',', ' '].intercalate texts ++ [']', '\n'])
  | block entries => '\n' :: entriesText (column + 2) entries

/-- The lines of a block at `column`. -/
def entriesText (column : Nat) : List (List Char × Item) → List Char
  | [] => []
  | (key, item) :: entries =>
      List.replicate column ' ' ++
        (key ++ ':' :: (item.text column ++ entriesText column entries))

end

mutual

/-- The tokens of an item, as `Token.scan` finds them in its text. -/
def tokens : Item → List Token
  | word cs => [.scalar cs true]
  | quoted cs => [.scalar cs false]
  | words texts =>
      .flowSequenceStart ::
        ((texts.map fun cs => .scalar cs true).intersperse .flowEntry ++
          [.flowSequenceEnd])
  | block [] => []
  | block (entry :: entries) =>
      .blockMappingStart :: (entriesTokens (entry :: entries) ++ [.blockEnd])

/-- The tokens of the entries of a block. -/
def entriesTokens : List (List Char × Item) → List Token
  | [] => []
  | (key, item) :: entries =>
      .key :: .scalar key true :: .value ::
        (item.tokens ++ entriesTokens entries)

end

mutual

/-- The node of an item, as `ofTokens?` makes it of its tokens. -/
def node : Item → Node
  | word cs => .scalar none cs true
  | quoted cs => .scalar none cs false
  | words texts => .sequence none (texts.map fun cs => .scalar none cs true)
  | block [] => .missing
  | block (entry :: entries) => .mapping none (entryNodes (entry :: entries))

/-- The nodes of the entries of a block. -/
def entryNodes : List (List Char × Item) → List (Node × Node)
  | [] => []
  | (key, item) :: entries =>
      (.scalar none key true, item.node) :: entryNodes entries

end

mutual

/-- The document that an item means: words mean what `plainValue` says. -/
def document : Item → Document
  | word cs => plainValue cs
  | quoted cs => .str (String.ofList cs)
  | words texts => .list (texts.map plainValue)
  | block [] => .null
  | block (entry :: entries) =>
      .map (Document.ofEntries (entryDocuments (entry :: entries)))

/-- The documents of the entries of a block. -/
def entryDocuments : List (List Char × Item) → List (Document × Document)
  | [] => []
  | (key, item) :: entries =>
      (plainValue key, item.document) :: entryDocuments entries

end

theorem document_block {entries : List (List Char × Item)}
    (hNe : entries ≠ []) :
    (block entries).document =
      .map (Document.ofEntries (entryDocuments entries)) := by
  cases entries with
  | nil => exact absurd rfl hNe
  | cons entry entries => rfl

mutual

/-- Whether an item can be read back: its words are plain (`isPlain`), and what
it has in quotes is `isQuotable`. -/
def IsLegible : Item → Prop
  | word cs => isPlain cs
  | quoted cs => ∀ c ∈ cs, isQuotable c
  | words texts => ∀ cs ∈ texts, isPlain cs
  | block entries => AreLegible entries

/-- Whether the entries of a block can be read back: a key `isPlain`, takes at
most 1024 characters and is not the one that asks for a merge. -/
def AreLegible : List (List Char × Item) → Prop
  | [] => True
  | (key, item) :: entries =>
      (isPlain key ∧ key.length ≤ 1024 ∧ key ≠ ['<', '<']) ∧ item.IsLegible ∧
      AreLegible entries

end

mutual

/-- Whether an item can be read back can be decided. -/
def decideLegible : (item : Item) → Decidable item.IsLegible
  | word cs => inferInstanceAs (Decidable (isPlain cs = true))
  | quoted cs => decidable_of_iff (cs.all isQuotable = true) List.all_eq_true
  | words texts => decidable_of_iff (texts.all isPlain = true) List.all_eq_true
  | block entries => decideAllLegible entries

/-- Whether the entries of a block can be read back can be decided. -/
def decideAllLegible :
    (entries : List (List Char × Item)) → Decidable (AreLegible entries)
  | [] => .isTrue trivial
  | (key, item) :: entries =>
      have : Decidable item.IsLegible := decideLegible item
      have : Decidable (AreLegible entries) := decideAllLegible entries
      inferInstanceAs (Decidable
        ((isPlain key = true ∧ key.length ≤ 1024 ∧ key ≠ ['<', '<']) ∧
        item.IsLegible ∧ AreLegible entries))

end

instance (entries : List (List Char × Item)) : Decidable (AreLegible entries) :=
  decideAllLegible entries

end Item

/-- Whether a text can stand in a comment: the scanner allows its characters and
none of them ends the line. -/
def isRemark (cs : List Char) : Bool :=
  cs.all fun c => Token.isAllowed c && Cursor.isInline c

/-- The lines of some comments, each behind a `#`. -/
def remarksText (remarks : List (List Char)) : List Char :=
  (remarks.map fun cs => '#' :: (cs ++ ['\n'])).flatten

theorem length_le_remarksText (remarks : List (List Char)) :
    remarks.length ≤ (remarksText remarks).length := by
  induction remarks with
  | nil => exact Nat.zero_le _
  | cons cs remarks ih =>
      simp only [remarksText] at ih ⊢
      simp only [List.map_cons, List.flatten_cons, List.length_cons,
        List.length_append]
      omega

/-! ## Characters of a text -/

/-- Whether `unifyBreaks` leaves a character of a text as it is, and `scan`
allows it. -/
def isKept (c : Char) : Bool := Token.isAllowed c && c ≠ '\r'

private theorem isKept_of_isInline {c : Char} (hAllowed : Token.isAllowed c)
    (hInline : Cursor.isInline c) : isKept c := by
  have hReturn : c ≠ '\r' := by
    rintro rfl
    exact absurd hInline (by decide)
  simp [isKept, hAllowed, hReturn]

theorem all_isKept_remarksText {remarks : List (List Char)}
    (hRemarks : ∀ cs ∈ remarks, isRemark cs) :
    (remarksText remarks).all isKept := by
  have hMarks : isKept '#' ∧ isKept '\n' := by decide
  induction remarks with
  | nil => rfl
  | cons cs remarks ih =>
      have hRemark := hRemarks cs (by simp)
      have hHere : cs.all isKept := List.all_eq_true.2 fun c hMem => by
        have hChar := List.all_eq_true.1 hRemark c hMem
        simp only [Bool.and_eq_true] at hChar
        exact isKept_of_isInline hChar.1 hChar.2
      have hRest := ih fun cs hMem => hRemarks cs (by simp [hMem])
      simp only [remarksText] at hRest ⊢
      simp only [List.map_cons, List.flatten_cons, List.all_append,
        List.all_cons, List.all_nil, hHere, hRest, hMarks]
      rfl

private theorem all_isKept_of_isPlain {cs : List Char} (hPlain : isPlain cs) :
    cs.all isKept :=
  List.all_eq_true.2 fun c hMem =>
    isKept_of_isInline (isAllowed_of_isPlain hPlain c hMem).1
    (isInline_of_isPlain hPlain c hMem)

private theorem all_isKept_intercalate {texts : List (List Char)}
    (hPlain : ∀ cs ∈ texts, isPlain cs) :
    ([',', ' '].intercalate texts).all isKept := by
  have hComma : isKept ',' := by decide
  have hSpace : isKept ' ' := by decide
  induction texts with
  | nil => rfl
  | cons cs texts ih =>
      have hHere := all_isKept_of_isPlain (hPlain cs (by simp))
      have hRest := ih fun cs hMem => hPlain cs (by simp [hMem])
      cases texts with
      | nil => simpa using hHere
      | cons next texts => simp_all

mutual

/-- All characters of the text of an item that `IsLegible` are kept. -/
theorem all_isKept_text (item : Item) (hLegible : item.IsLegible) (n : Nat) :
    (item.text n).all isKept :=
  match item with
  | .word cs => by
      have hWord := all_isKept_of_isPlain hLegible
      have hMarks : isKept ' ' ∧ isKept '\n' := by decide
      simp only [Item.text, List.all_cons, List.all_append, List.all_nil,
        hWord, hMarks]
      rfl
  | .quoted cs => by
      have hQuote : cs.all isKept := List.all_eq_true.2 fun c hMem => by
        have hHere := hLegible c hMem
        simp only [isQuotable, Bool.and_eq_true] at hHere
        exact isKept_of_isInline hHere.1.2
          (isInline_of_isQuotable (hLegible c hMem))
      have hMarks : isKept ' ' ∧ isKept '"' ∧ isKept '\n' := by decide
      simp only [Item.text, List.all_cons, List.all_append, List.all_nil,
        hQuote, hMarks]
      rfl
  | .words texts => by
      have hWords := all_isKept_intercalate hLegible
      have hMarks : isKept ' ' ∧ isKept '[' ∧ isKept ']' ∧
          isKept '\n' := by decide
      simp only [Item.text, List.all_cons, List.all_append, List.all_nil,
        hWords, hMarks]
      rfl
  | .block entries => by
      have hBreak : isKept '\n' := by decide
      simp only [Item.text, List.all_cons,
        all_isKept_entriesText entries hLegible, hBreak]
      rfl

/-- All characters of the lines of a block that `AreLegible` are kept. -/
theorem all_isKept_entriesText (entries : List (List Char × Item))
    (hLegible : Item.AreLegible entries) (n : Nat) :
    (Item.entriesText n entries).all isKept :=
  match entries with
  | [] => rfl
  | (name, item) :: entries => by
      obtain ⟨⟨hKey, -⟩, hItem, hEntries⟩ := hLegible
      have hName := all_isKept_of_isPlain hKey
      have hMarks : isKept ' ' ∧ isKept ':' := by decide
      simp only [Item.entriesText, List.all_append, List.all_replicate,
        List.all_cons, hName, hMarks, all_isKept_text item hItem,
        all_isKept_entriesText entries hEntries]
      simp

end

end JvmTypes.Yaml
