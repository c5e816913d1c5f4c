import JvmTypes.Primitive

/-!
# Tokens

A token is a kind, the text it was read from and the offsets where that text
starts and stops. Only the kind steers the grammar; a list of tokens ends with
one of kind `eof`.
-/

namespace JvmTypes

/-- The kinds of tokens. Keywords are kinds of their own, and `other` stands for
a kind that the grammar has no use for. -/
inductive Token.Kind where
  | eof
  | ident
  | internalName
  | lt
  | gt
  | amp
  | comma
  | lbracket
  | rbracket
  | question
  | atSign
  | dot
  | extendsWord
  | superWord
  | primitive (p : Primitive)
  | other (name : String)
  deriving DecidableEq, Repr

/-- A token with its kind, its text and its offsets `[start, stop)`. -/
structure Token where
  kind : Token.Kind
  value : String
  start : Int
  stop : Int
  deriving DecidableEq, Repr

namespace Token.Kind

/-- The written name of a kind; a keyword is its own name. -/
def name : Kind → String
  | eof => "EOF"
  | ident => "IDENT"
  | internalName => "INTERNAL_NAME"
  | lt => "LT"
  | gt => "GT"
  | amp => "AMP"
  | comma => "COMMA"
  | lbracket => "LBRACKET"
  | rbracket => "RBRACKET"
  | question => "QUESTION"
  | atSign => "AT"
  | dot => "DOT"
  | extendsWord => "extends"
  | superWord => "super"
  | primitive p => p.name
  | other text => text

/-- The kinds that are neither a keyword nor unknown. -/
def shapes : List Kind :=
  [eof, ident, internalName, lt, gt, amp, comma, lbracket, rbracket,
    question, atSign, dot]

/-- The kind of a keyword. -/
def ofKeyword? (text : String) : Option Kind :=
  if text = extendsWord.name then some extendsWord
  else if text = superWord.name then some superWord
  else (Primitive.ofName? text).map primitive

/-- The kind whose `name` is `text`; a name that no kind has gives `other`. -/
def ofName (text : String) : Kind :=
  match shapes.find? (fun kind => kind.name = text) with
  | some kind => kind
  | none => (ofKeyword? text).getD (other text)

/-- The kind of a word of the source text: that of `ofKeyword?`, or `ident`. -/
def ofWord (text : String) : Kind := (ofKeyword? text).getD ident

/-- The kind of an operator character. -/
def ofOperator? : Char → Option Kind
  | '<' => some lt
  | '>' => some gt
  | '&' => some amp
  | ',' => some comma
  | '[' => some lbracket
  | ']' => some rbracket
  | '?' => some question
  | '@' => some atSign
  | '.' => some dot
  | _ => none

/-- The kind that `ofKeyword?` gives a keyword has the keyword as its name. -/
theorem name_of_ofKeyword? {text : String} {kind : Kind}
    (hFind : ofKeyword? text = some kind) : kind.name = text := by
  unfold ofKeyword? at hFind
  split at hFind
  · cases hFind; simp_all
  · split at hFind
    · cases hFind; simp_all
    · obtain ⟨p, hPrimitive, rfl⟩ := Option.map_eq_some_iff.1 hFind
      exact Primitive.name_of_ofName? hPrimitive

/-- The kind that `ofName` reads from a written name has that name. -/
@[simp] theorem name_ofName (text : String) : (ofName text).name = text := by
  unfold ofName
  split
  · next hFind => simpa using List.find?_some hFind
  · cases hFind : ofKeyword? text with
    | none => rfl
    | some kind => exact name_of_ofKeyword? hFind

end Token.Kind

/-- Whether a list of tokens ends with one of kind `eof`. -/
def Token.terminated (tokens : List Token) : Bool :=
  tokens.getLast?.map Token.kind = some .eof

end JvmTypes
