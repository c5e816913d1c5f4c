import JvmTypes.Path
import JvmTypes.Scope
import JvmTypes.Text.Blank
import JvmTypes.Yaml

/-!
# Settings

Settings choose the default package and the catalog. They are read from a file,
from a section of one, or are the standard ones; a catalog is read from a file
too, whose path counts from the folder of the settings that name it. Files are
given by a function from paths to their texts.
-/

namespace JvmTypes

/-- Why `Files.load` reads no mapping, or `Settings` or a `Catalog` cannot be
made of one. -/
inductive ConfigError where
  | missingFile (path : Path)
  | malformed (path : Path)
  | rootNotMapped (path : Path)
  | sectionNotMapped (path : Path)
  | packageNotText
  | catalog (error : CatalogError)

/-- The wording of a `ConfigError`. -/
def ConfigError.text : ConfigError → String
  | missingFile path => "configuration file not found: " ++ path.text
  | malformed path => "failed to parse " ++ path.text
  | rootNotMapped path => path.text ++ ": configuration root must be a mapping"
  | sectionNotMapped path =>
      path.text ++ ": 'typeexpr' section must be a mapping"
  | packageNotText => "default_package must be a string"
  | catalog error => error.text

/-- The texts of the files there are. -/
abbrev Files := Path → Option String

/-- The entries of the mapping that a file holds, as `Yaml.read` reads it; an
empty file holds none. -/
def Files.load (files : Files) (path : Path) :
    Except ConfigError (List (Document × Document)) :=
  match files path with
  | none => .error (.missingFile path)
  | some text =>
      match Yaml.read text with
      | none => .error (.malformed path)
      | some .null => .ok []
      | some (.map entries) => .ok entries
      | some _ => .error (.rootNotMapped path)

/-- The catalog that a file describes, by `Catalog.ofDocument`. A success leaves
a `loaded` event behind. -/
def Catalog.load (files : Files) (path : Path) :
    Traced Event ConfigError Catalog := do
  let entries ← .ofExcept (files.load path)
  let catalog ← .ofExcept ((Catalog.ofDocument entries).mapError .catalog)
  .emit (.loaded catalog.size path.text)
  pure catalog

/-- Where the classes come from. -/
inductive CatalogSource where
  | bundled
  | file (path : Path)
  deriving DecidableEq, Repr

/-- The choices that settings make. -/
structure Settings where
  defaultPackage : String
  catalog : CatalogSource
  deriving DecidableEq, Repr

namespace Settings

/-- The settings that hold when none are given: those of `Scope.standard`. -/
def standard : Settings := ⟨Scope.standard.defaultPackage, .bundled⟩

/-- The name of a package as settings give it: blanks around it are dropped, and
then the dots at its end. -/
def packageName (text : String) : String :=
  String.ofList (Text.dropEndWhile (· = '.') (Text.strip text.toList))

/-- The settings in the entries of a mapping. A path counts from `base`. -/
def ofEntries (entries : List (Document × Document)) (base : Option Path) :
    Except ConfigError Settings := do
  let package ←
    match Document.lookup "default_package" entries with
    | none => .ok standard.defaultPackage
    | some (.str text) => .ok text
    | some _ => .error .packageNotText
  let source :=
    match Document.lookupOrNull "catalog" entries with
    | .null => .bundled
    | value =>
        let path := Path.ofString value.text
        .file (base.elim path path.under)
  .ok ⟨packageName package, source⟩

/-- The settings of a file, by `ofEntries`: those in its section for type
expressions or, if it has none, in the whole of it. -/
def load (files : Files) (path : Path) : Except ConfigError Settings := do
  let entries ← files.load path
  match Document.lookup "typeexpr" entries with
  | none => ofEntries entries (some path.parent)
  | some (.map entries) => ofEntries entries (some path.parent)
  | some _ => .error (.sectionNotMapped path)

/-- The settings of the file that is asked for, or else of the one that the
environment names, or else the `standard` ones. An empty name in the environment
counts as none. -/
def find (files : Files) (path : Option Path) (environment : Option String) :
    Except ConfigError Settings :=
  match path, environment with
  | some path, _ => load files path
  | none, some name =>
      if name = "" then .ok standard else load files (.ofString name)
  | none, none => .ok standard

/-- The scope that settings describe; it loads a catalog from `files` unless the
source is `bundled`. -/
def scope (settings : Settings) (files : Files) :
    Traced Event ConfigError Scope :=
  match settings.catalog with
  | .bundled => pure ⟨.bundled, settings.defaultPackage⟩
  | .file path => do
      let catalog ← Catalog.load files path
      pure ⟨catalog, settings.defaultPackage⟩

end Settings

end JvmTypes
