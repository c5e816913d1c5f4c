import JvmTypes.Yaml.Node
import JvmTypes.Yaml.Number

/-!
# Reading YAML

A text in YAML 1.1 holds one document: scalars, sequences and mappings of the
standard types. `Yaml.read` yields the document, `null` for an empty text, and
nothing for a text that is malformed or uses types of its own.
-/

namespace JvmTypes.Yaml

/-- The standard type that a tag names. -/
def standardType (tag : List Char) : Option String :=
  match String.ofList tag with
  | "!null" => some "null"
  | "!bool" => some "bool"
  | "!int" => some "int"
  | "!float" => some "float"
  | "!str" => some "str"
  | "!seq" => some "seq"
  | "!map" => some "map"
  | _ => none

/-- Whether a collection with a tag is of a standard type. -/
def hasType (name : String) : Option (List Char) → Bool
  | none => true
  | some [] => true
  | some tag => standardType tag = some name

/-- The value of a scalar with a tag: a plain one without a tag by
`plainValue`. -/
def scalarValue (tag : Option (List Char)) (text : List Char) (plain : Bool) :
    Option Document :=
  match tag with
  | none => some (if plain then plainValue text else .str (String.ofList text))
  | some [] => some (plainValue text)
  | some tag =>
      match standardType tag with
      | some "str" => some (.str (String.ofList text))
      | some "null" => some .null
      | some "int" => (integer? text).map .int
      | some "float" =>
          match fraction? text, integer? text with
          | some x, _ => some (.float x)
          | none, some n => some (.float (Float.ofInt n))
          | none, none => none
      | some "bool" =>
          match plainValue text with
          | .bool b => some (.bool b)
          | _ => none
      | _ => none

/-- Whether a key asks for the entries of other mappings to be merged in. -/
def isMergeKey : Node → Bool
  | .scalar none text true => text = ['<', '<']
  | _ => false

/-- The entries that a merged value brings: those of a mapping, or of several
mappings from the last to the first, as later ones win in
`Document.ofEntries`. -/
def mergedEntries : Document → Option (List (Document × Document))
  | .map entries => some entries
  | .list items => do
      let parts ← items.reverse.mapM fun item =>
        match item with
        | .map entries => some entries
        | _ => none
      some parts.flatten
  | _ => none

mutual

/-- The document that a node means. -/
def document : Node → Option Document
  | .scalar tag text plain => scalarValue tag text plain
  | .sequence tag items =>
      if hasType "seq" tag then (documents items).map .list else none
  | .mapping tag entries =>
      if hasType "map" tag then do
        let (merged, own) ← mappingEntries entries
        some (.map (Document.ofEntries (merged ++ own)))
      else none

/-- The documents that several nodes mean, if each means one by `document`. -/
def documents : List Node → Option (List Document)
  | [] => some []
  | n :: ns => do
      let d ← document n
      let ds ← documents ns
      some (d :: ds)

/-- The entries that a mapping merges in, by `mergedEntries`, and its own. Every
key is a scalar. -/
def mappingEntries :
    List (Node × Node) →
    Option (List (Document × Document) × List (Document × Document))
  | [] => some ([], [])
  | (key, value) :: entries => do
      let v ← document value
      if isMergeKey key then
        let brought ← mergedEntries v
        let (merged, own) ← mappingEntries entries
        some (brought ++ merged, own)
      else
        let k ← document key
        let (merged, own) ← mappingEntries entries
        if k.isScalar then some (merged, (k, v) :: own) else none

end

/-- The document of a text: `Token.scan`, then `ofTokens?`, then `document`. -/
def read (text : String) : Option Document := do
  let tokens ← Token.scan text.toList
  match ← Node.ofTokens? tokens with
  | none => some .null
  | some n => document n

end JvmTypes.Yaml
