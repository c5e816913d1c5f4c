import JvmTypes.ClassType
import JvmTypes.Name
import JvmTypes.Document

/-!
# Class catalogs

A catalog holds the classes that names can refer to, in the order in which
their names were first registered. Registering a name again replaces its class
in place. A registration is checked as a whole before anything is stored, so a
refused one changes nothing.
-/

namespace JvmTypes

/-- Why `Catalog.register` refuses a class, or `Catalog.ofDocument` finds no
catalog in a document. -/
inductive CatalogError where
  | invalidName (name : Document)
  | parametersNotListed (owner : Document)
  | invalidParameter (owner : String) (parameter : Document)
  | duplicateParameters (owner : String)
  | classesNotMapped
  deriving Inhabited

/-- The message of a `CatalogError`, with names and parameters as
`Document.shown` writes them. -/
def CatalogError.text : CatalogError → String
  | invalidName name => "invalid class name: " ++ name.shown
  | parametersNotListed owner =>
      owner.text ++ ": type parameters must be a list of names"
  | invalidParameter owner parameter =>
      owner ++ ": invalid type parameter " ++ parameter.shown
  | duplicateParameters owner => owner ++ ": duplicate type parameter names"
  | classesNotMapped => "'classes' must map class names to type parameter lists"

/-- The classes that names can refer to. -/
structure Catalog where
  classes : List Declaration
  deriving DecidableEq, Repr

namespace Declaration

/-- Reads the name of a class: a string that `isClassName` accepts. -/
def readName : Document → Except CatalogError String
  | .str name =>
      if isClassName name.toList then .ok name
      else .error (.invalidName (.str name))
  | other => .error (.invalidName other)

/-- Reads the names in a list of type parameters. A mapping lists its keys, and
a string is refused with `parametersNotListed`. So is `null`, a number or a
truth value here: nothing can be listed of these, which is a misuse that fails
before any check of a registration, and that failure is left out of the
model. -/
def readListed (owner : String) : Document → Except CatalogError (List Document)
  | .list items => .ok items
  | .map entries => .ok (entries.map Prod.fst)
  | _ => .error (.parametersNotListed (.str owner))

/-- Reads the name of one type parameter of `owner`: a string that
`Text.isIdentifier` accepts. -/
def readParameter (owner : String) : Document → Except CatalogError String
  | .str name =>
      if Text.isIdentifier name then .ok name
      else .error (.invalidParameter owner (.str name))
  | other => .error (.invalidParameter owner other)

/-- Reads a declaration: its name with `readName`, then its parameters one by
one with `readParameter`, and then whether two parameters share a name. -/
def read (name parameters : Document) : Except CatalogError Declaration := do
  let name ← readName name
  let listed ← readListed name parameters
  let parameters ← listed.mapM (readParameter name)
  if parameters.Nodup then .ok ⟨name, parameters⟩
  else .error (.duplicateParameters name)

end Declaration

namespace Catalog

/-- The catalog without classes. -/
def empty : Catalog := ⟨[]⟩

/-- The names of the classes. -/
def names (c : Catalog) : List String := c.classes.map Declaration.name

/-- The number of classes. -/
def size (c : Catalog) : Nat := c.classes.length

/-- The class that `name` stands for; `insertClass` keeps one class a name, so
the first found is the only one. -/
def find? (c : Catalog) (name : String) : Option Declaration :=
  c.classes.find? fun d => d.name = name

/-- Whether a name has a class. -/
def contains (c : Catalog) (name : String) : Bool := (c.find? name).isSome

/-- The classes with `d` added: it replaces the class of the same name in place,
or comes last. -/
def insertClass (d : Declaration) : List Declaration → List Declaration
  | [] => [d]
  | known :: rest =>
      if known.name = d.name then d :: rest else known :: insertClass d rest

/-- The catalog with `d` added or replaced, as `insertClass` does it. -/
def insert (c : Catalog) (d : Declaration) : Catalog :=
  ⟨insertClass d c.classes⟩

/-- The class that `insert` added is found under its own name. -/
theorem find?_insert_self (c : Catalog) (d : Declaration) :
    (c.insert d).find? d.name = some d := by
  obtain ⟨classes⟩ := c
  induction classes with
  | nil => simp [insert, insertClass, find?]
  | cons known rest ih =>
      simp only [insert, insertClass, find?] at ih ⊢
      by_cases hName : known.name = d.name
      · simp [hName]
      · simp [hName, ih]

/-- `insert` leaves what `find?` finds under any other name. -/
theorem find?_insert_of_ne (c : Catalog) {d : Declaration} {name : String}
    (hName : d.name ≠ name) : (c.insert d).find? name = c.find? name := by
  obtain ⟨classes⟩ := c
  induction classes with
  | nil => simp [insert, insertClass, find?, hName]
  | cons known rest ih =>
      simp only [insert, insertClass, find?] at ih ⊢
      by_cases hKnown : known.name = d.name
      · simp [hKnown, hName]
      · simp [hKnown, List.find?_cons, ih]

/-- The names after `insert`: a new name comes last, and a known one keeps its
place. -/
theorem names_insert (c : Catalog) (d : Declaration) :
    (c.insert d).names = if d.name ∈ c.names then c.names else c.names ++
      [d.name] := by
  obtain ⟨classes⟩ := c
  induction classes with
  | nil => simp [insert, insertClass, names]
  | cons known rest ih =>
      simp only [insert, insertClass, names] at ih ⊢
      by_cases hKnown : known.name = d.name
      · simp [hKnown]
      · rw [if_neg hKnown, List.map_cons, ih]
        by_cases hMem : d.name ∈ rest.map Declaration.name
        · simp [hMem]
        · simp [hMem, Ne.symm hKnown]

/-- The catalog with a class registered, and that class. `Declaration.read`
checks all of it before `insert` stores anything. -/
def register (c : Catalog) (name parameters : Document) :
    Except CatalogError (Declaration × Catalog) := do
  let d ← Declaration.read name parameters
  .ok (d, c.insert d)

/-- The catalog with the classes of several entries registered one after another
by `register`; the first that is refused ends it. -/
def registerAll (c : Catalog) :
    List (Document × Document) → Except CatalogError Catalog
  | [] => .ok c
  | entry :: entries => do
      let (_, c) ← c.register entry.1 entry.2
      c.registerAll entries

/-- Requires the parameters of each class to be given as a list; `null` counts
as the empty list. -/
def requireLists : List (Document × Document) →
    Except CatalogError (List (Document × Document))
  | [] => .ok []
  | (name, parameters) :: entries =>
      match parameters with
      | .null => do .ok ((name, .list []) :: (← requireLists entries))
      | .list items => do .ok ((name, .list items) :: (← requireLists entries))
      | _ => .error (.parametersNotListed name)

/-- The catalog that a document describes under `classes`: a mapping from names
to lists of type parameters. All lists are looked at before any class is. -/
def ofDocument (entries : List (Document × Document)) :
    Except CatalogError Catalog :=
  match Document.lookupOrNull "classes" entries with
  | .null => .ok empty
  | .map classes => do empty.registerAll (← requireLists classes)
  | _ => .error .classesNotMapped

end Catalog

end JvmTypes
