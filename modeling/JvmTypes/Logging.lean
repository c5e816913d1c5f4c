import JvmTypes.Text.Blank
import JvmTypes.Text.Upper
import JvmTypes.Document

/-!
# Logging configuration

A logging configuration is made in three layers: the defaults, the sections of a
file that replace default sections as a whole, and a level from the environment
that replaces the level of one logger and nothing else.
-/

namespace JvmTypes.Logging

/-- A configuration: sections by name, as entries of a `Document`. -/
abbrev Config := List (Document × Document)

/-- The logger of this library, above those of its parts. -/
def packageLogger : String := "typeexpr"

/-- The level of the `packageLogger` when none is chosen. -/
def defaultLevel : String := "WARNING"

/-- The sections that a file can replace. -/
def sections : List String :=
  ["version", "disable_existing_loggers", "formatters", "handlers", "loggers"]

/-- A mapping with strings as keys. -/
def fields (entries : List (String × Document)) : Document :=
  .map (entries.map fun entry => (.str entry.1, entry.2))

/-- The default configuration, with the `packageLogger` at `level`: one
formatter and one handler, which writes to the error stream. -/
def defaultConfig (level : String) : Config := [
  (.str "version", .int 1),
  (.str "disable_existing_loggers", .bool false),
  (.str "formatters", fields [
    ("standard", fields [
      ("format",
        .str "%(asctime)s | %(levelname)-8s | %(name)s | %(message)s")])]),
  (.str "handlers", fields [
    ("console", fields [
      ("class", .str "logging.StreamHandler"),
      ("stream", .str "ext://sys.stderr"),
      ("formatter", .str "standard")])]),
  (.str "loggers", fields [
    (packageLogger, fields [
      ("level", .str level),
      ("handlers", .list [.str "console"]),
      ("propagate", .bool false)])])]

/-- The file that comes with the library spells out `defaultConfig`. -/
def bundledFile : Document := .map (defaultConfig defaultLevel)

/-- Whether a key names one of the `sections`. -/
def isSection : Document → Bool
  | .str name => sections.contains name
  | _ => false

/-- A configuration with the `sections` of a file in place of its own. A file
that is no mapping changes nothing. -/
def mergeFile (config : Config) : Option Document → Config
  | some (.map entries) =>
      (entries.filter fun entry => isSection entry.1).foldl
        (fun done entry => Document.insertEntry entry.1 entry.2 done) config
  | _ => config

/-- Why a configuration cannot be made. -/
inductive ConfigFault where
  | notMapped (value : Document)

/-- Whether a document counts as empty. -/
def isEmptyValue : Document → Bool
  | .null => true
  | .bool value => !value
  | .int value => value = 0
  | .float value => value == 0
  | .str value => value = ""
  | .list items => items.isEmpty
  | .map entries => entries.isEmpty

/-- The entries of a mapping that may be left out or empty (`isEmptyValue`). For
the section `loggers` a list of pairs would do as well; that spelling is left
out of the model, and such a list is refused with `ConfigFault.notMapped`. -/
def entriesOf (value : Document) : Except ConfigFault Config :=
  match value with
  | .map entries => .ok entries
  | other => if isEmptyValue other then .ok [] else .error (.notMapped other)

/-- A configuration with the `packageLogger` at another level; its other entries
and the other loggers stay. -/
def setLevel (level : String) (config : Config) :
    Except ConfigFault Config := do
  let loggers ← entriesOf (Document.lookupOrNull "loggers" config)
  let logger ← entriesOf (Document.lookupOrNull packageLogger loggers)
  let logger := Document.insertEntry (.str "level") (.str level) logger
  let loggers := Document.insertEntry (.str packageLogger) (.map logger) loggers
  .ok (Document.insertEntry (.str "loggers") (.map loggers) config)

/-- The level that the environment asks for, in capitals and without the blanks
around it. -/
def levelOf (environment : Option String) : String :=
  String.ofList (Text.upper (Text.strip (environment.getD "").toList))

/-- The configuration of a file and an environment: `defaultConfig`, then the
file by `mergeFile`, then the level by `setLevel`. -/
def configuration (file : Option Document) (environment : Option String) :
    Except ConfigFault Config :=
  let config := mergeFile (defaultConfig defaultLevel) file
  let level := levelOf environment
  if level = "" then .ok config else setLevel level config

end JvmTypes.Logging
