import JvmTypes.Decimal.Shortest
import JvmTypes.Text.Quoted

/-!
# Documents

A document is what a settings file holds: nested lists and mappings of scalars.
A mapping keeps its entries in the order in which their keys first came, and a
repeated key takes the last value. Keys are compared by value, so that `1`,
`1.0` and `true` are one key.
-/

namespace JvmTypes

/-- A document, or a part of one. -/
inductive Document where
  | null
  | bool (value : Bool)
  | int (value : Int)
  | float (value : Float)
  | str (value : String)
  | list (items : List Document)
  | map (entries : List (Document × Document))

namespace Document

instance : Inhabited Document := ⟨null⟩

/-- The numbers of a document: truth values count as 0 and 1. -/
inductive Number where
  | whole (value : Int)
  | fraction (value : Float)

/-- The number that a scalar is. A fraction with a whole value counts as
`whole`. -/
def number? : Document → Option Number
  | bool value => some (.whole (if value then 1 else 0))
  | int value => some (.whole value)
  | float value => some ((Decimal.toInt? value).elim (.fraction value) .whole)
  | _ => none

/-- Whether two numbers are equal; `number?` never gives a whole one as a
`fraction`. -/
def Number.same : Number → Number → Bool
  | whole a, whole b => a = b
  | fraction a, fraction b => a == b
  | _, _ => false

/-- Whether two scalars are the same key: equal as numbers by `Number.same`, or
equal texts. Lists and mappings are no keys. -/
def sameKey (a b : Document) : Bool :=
  match a, b with
  | null, null => true
  | str x, str y => x = y
  | _, _ =>
      match a.number?, b.number? with
      | some x, some y => x.same y
      | _, _ => false

/-- Whether a document can be the key of an entry. -/
def isScalar : Document → Bool
  | list _ | map _ => false
  | _ => true

/-- Entries with one more: a key that is there by `sameKey` stays and takes the
value, and a new one comes last. -/
def insertEntry (key value : Document) :
    List (Document × Document) → List (Document × Document)
  | [] => [(key, value)]
  | entry :: rest =>
      if sameKey entry.1 key then (entry.1, value) :: rest
      else entry :: insertEntry key value rest

/-- The mapping of a list of entries, in which keys may be repeated: each goes
in by `insertEntry`. -/
def ofEntries (entries : List (Document × Document)) :
    List (Document × Document) :=
  entries.foldl (fun done entry => insertEntry entry.1 entry.2 done) []

/-- The value of the string `key`. -/
def lookup (key : String) (entries : List (Document × Document)) :
    Option Document :=
  (entries.find? fun entry => sameKey entry.1 (str key)).map Prod.snd

/-- The value of a key, where a missing key means the same as `null`. -/
def lookupOrNull (key : String) (entries : List (Document × Document)) :
    Document :=
  (lookup key entries).getD null

mutual

/-- The text of a document inside a message, with strings in quotes. -/
def shown : Document → String
  | null => "None"
  | bool value => if value then "True" else "False"
  | int value => toString value
  | float value => Decimal.plainLayout.text value
  | str value => Text.quoted value
  | list items => "[" ++ ", ".intercalate (shownAll items) ++ "]"
  | map entries => "\x7b" ++ ", ".intercalate (shownEntries entries) ++ "\x7d"

/-- The texts of several documents. -/
def shownAll : List Document → List String
  | [] => []
  | item :: items => shown item :: shownAll items

/-- The texts of the entries of a mapping. -/
def shownEntries : List (Document × Document) → List String
  | [] => []
  | (key, value) :: entries =>
      (shown key ++ ": " ++ shown value) :: shownEntries entries

end

/-- The text of a document: a string as it is, anything else as `shown` in a
message. -/
def text : Document → String
  | str value => value
  | other => shown other

/-- The word for what sort of value a document is. -/
def sortName : Document → String
  | null => "null"
  | bool _ => "bool"
  | int _ => "int"
  | float _ => "float"
  | str _ => "str"
  | list _ => "list"
  | map _ => "dict"

end Document

end JvmTypes
