import JvmTypes.Catalog

/-!
# Sessions with a catalog

A catalog answers requests one after another. A registration is the only request
that can change it; `Catalog.history` lists the replies, each with the catalog
as it is after the request.
-/

namespace JvmTypes.Catalog

/-- What can be asked of a catalog in a session: the operations `register`,
`find?`, `contains`, `names` and `size` of `Catalog`. -/
inductive Request where
  | register (name parameters : Document)
  | resolve (name : String)
  | contains (name : Document)
  | list

/-- What a catalog replies. -/
inductive Reply where
  | registered (d : Declaration)
  | refused (error : CatalogError)
  | resolved (d : Declaration)
  | unknown (name : String)
  | contained (known : Bool)
  | listed (names : List String)

/-- Whether a document is the name of a class that is known. A list or a mapping
can be no key at all (`Document.isScalar`): to ask for one is a misuse whose
failure is left out of the model, and the answer here is `false`. -/
def containsNamed (c : Catalog) : Document → Bool
  | .str name => c.contains name
  | _ => false

/-- The reply to one request, and the catalog after it. Only a `register` that
succeeds changes the catalog. -/
def reply (c : Catalog) : Request → Reply × Catalog
  | .register name parameters =>
      match c.register name parameters with
      | .ok (d, next) => (.registered d, next)
      | .error e => (.refused e, c)
  | .resolve name =>
      match c.find? name with
      | some d => (.resolved d, c)
      | none => (.unknown name, c)
  | .contains name => (.contained (c.containsNamed name), c)
  | .list => (.listed c.names, c)

/-- The replies to requests made one after another, each with the catalog after
it, so that every `reply` sees what the earlier ones left. -/
def history (c : Catalog) : List Request → List (Reply × Catalog)
  | [] => []
  | request :: requests =>
      let next := c.reply request
      next :: next.2.history requests

end JvmTypes.Catalog
