import JvmTypes.Logging.Setup
import JvmTypes.Text.Word

/-!
# Applying a logging configuration

What a configuration asks of formatters, handlers and loggers is checked in this
order; a formatter that lacks a field to print, a handler without a known class
or formatter, and a logger with an unknown level or handler are refused. Of what
is changed only the level of the package logger is kept track of. The classes of
formatters and handlers that are known are the standard ones that this library's
own configurations name; see `apply` for what is left out.
-/

namespace JvmTypes.Logging

/-- Why `apply` cannot apply a configuration. -/
inductive ApplyError where
  | missingVersion
  | unsupportedVersion (version : Document)
  | formatter (name : Document)
  | handler (name : Document)
  | logger (name : Document)
  | unusable (value : Document)

/-- The wording of an `ApplyError`. -/
def ApplyError.text : ApplyError → String
  | missingVersion => "dictionary doesn't specify a version"
  | unsupportedVersion version => "Unsupported version: " ++ version.text
  | formatter name => "Unable to configure formatter " ++ name.shown
  | handler name => "Unable to configure handler " ++ name.shown
  | logger name => "Unable to configure logger " ++ name.shown
  | unusable value => "not a mapping: " ++ value.shown

/-- The error of applying a configuration that could not be made. -/
def ApplyError.ofFault : ConfigFault → ApplyError
  | .notMapped value => .unusable value

/-- The named levels, the usual name of a level before others, as `levelName`
looks for it. -/
def levels : List (String × Int) :=
  [("CRITICAL", 50), ("ERROR", 40), ("WARNING", 30), ("INFO", 20),
    ("DEBUG", 10), ("NOTSET", 0),
    ("FATAL", 50), ("WARN", 30)]

/-- The level that a document names, by the table of `levels`, or is. A truth
value is a level as it is. -/
def level? : Document → Option Document
  | .int value => some (.int value)
  | .bool value => some (.bool value)
  | .str name => (levels.find? fun entry => entry.1 = name).map fun entry =>
      .int entry.2
  | _ => none

/-- The name of a level. -/
def levelName (level : Document) : String :=
  match levels.find? fun entry => level.sameKey (.int entry.2) with
  | some entry => entry.1
  | none => "Level " ++ level.shown

/-! ## Formatters -/

/-- Whether a character can stand in the name of a field, between the
parentheses of `%(name)s`. -/
def isFieldChar (c : Char) : Bool := Text.isWord c || c = '_'

/-- A count in a field: digits or a star, or nothing. -/
def dropCount : List Char → List Char
  | '*' :: rest => rest
  | cs => cs.dropWhile Text.isDecimal

/-- Whether a text starts with the conversion of a field: flags, width,
precision and a letter. -/
def startsWithConversion (cs : List Char) : Bool :=
  let afterFlags := cs.dropWhile fun c => "#0+ -".toList.contains c
  let afterWidth := dropCount afterFlags
  let afterPrecision :=
    match afterWidth with
    | '.' :: rest =>
        if dropCount rest = rest then afterWidth else dropCount rest
    | other => other
  match afterPrecision with
  | c :: _ => "diouxefgcrsa%DIOUXEFGCRSA".toList.contains c
  | [] => false

/-- Whether a text starts with a field to print, behind its `%`: a name in
parentheses and then a conversion by `startsWithConversion`. -/
def startsWithField : List Char → Bool
  | '(' :: rest =>
      let name := rest.takeWhile isFieldChar
      match rest.drop name.length with
      | ')' :: conversion => name ≠ [] && startsWithConversion conversion
      | _ => false
  | _ => false

/-- Whether a format has a field to print, by `startsWithField` behind one of
its `%`. -/
def hasField : List Char → Bool
  | [] => false
  | c :: rest => (c = '%' && startsWithField rest) || hasField rest

/-- Whether a formatter can be made of its entries `format`, `style` and
`class`. -/
def isFormatter : Document → Bool
  | .map entries =>
      let format :=
        match Document.lookupOrNull "format" entries with
        | .str text => text = "" || hasField text.toList
        | other => isEmptyValue other
      let style :=
        match Document.lookup "style" entries with
        | none => true
        | some (.str text) => text = "%"
        | some _ => false
      let known := isEmptyValue (Document.lookupOrNull "class" entries) ||
        (Document.lookupOrNull "class" entries).sameKey
          (.str "logging.Formatter")
      format && style && known
  | _ => false

/-! ## Handlers -/

/-- The settings that handlers of a class take besides the common ones. -/
def handlerSettings? : Document → Option (List String)
  | .str "logging.StreamHandler" => some ["stream"]
  | .str "logging.NullHandler" => some []
  | _ => none

/-- Whether a stream can be written to. -/
def isStream : Document → Bool
  | .str name =>
      !name.startsWith "ext://" || name = "ext://sys.stderr" ||
        name = "ext://sys.stdout"
  | _ => true

/-- The settings that every handler takes, besides those of
`handlerSettings?`. -/
def commonSettings : List String := ["class", "formatter", "level"]

/-- Whether a handler can be made, with the formatters there are: its class has
`handlerSettings?`, its level is one by `level?`, and it has no other
settings. -/
def isHandler (formatters : Config) : Document → Bool
  | .map entries =>
      let formatter := Document.lookupOrNull "formatter" entries
      let level := Document.lookupOrNull "level" entries
      let formatted :=
        isEmptyValue formatter ||
          formatters.any fun known => known.1.sameKey formatter
      let levelled := (match level with | .null => true | _ => false) ||
        (level? level).isSome
      match handlerSettings? (Document.lookupOrNull "class" entries) with
      | none => false
      | some settings =>
          formatted && levelled &&
            isStream (Document.lookupOrNull "stream" entries) &&
            entries.all fun entry =>
              match entry.1 with
              | .str key => (commonSettings ++ settings).contains key
              | _ => true
  | _ => false

/-! ## Loggers -/

/-- Looks for the handlers of a logger among those there are. -/
def checkHandlers (handlers : Config) (name : Document) (entries : Config) :
    Except ApplyError Unit :=
  match Document.lookupOrNull "handlers" entries with
  | .list names =>
      if names.all fun wanted =>
          handlers.any fun known => known.1.sameKey wanted
      then .ok ()
      else .error (.logger name)
  | other => if isEmptyValue other then .ok () else .error (.logger name)

/-- The level of the `packageLogger` after the logger `name` is configured, and
whether that succeeds. The level is set before `checkHandlers` looks at the
handlers. -/
def applyLogger (handlers : Config) (name value level : Document) :
    Except ApplyError Unit × Document :=
  match value with
  | .map entries =>
      let wanted := Document.lookupOrNull "level" entries
      match wanted, level? wanted with
      | .null, _ => (checkHandlers handlers name entries, level)
      | _, none => (.error (.logger name), level)
      | _, some next =>
          (checkHandlers handlers name entries,
            if name.sameKey (.str packageLogger) then next else level)
  | _ => (.error (.logger name), level)

/-- The level of the `packageLogger` after several loggers are configured by
`applyLogger` one after another, up to the first that fails. -/
def applyLoggers (handlers : Config) :
    Config → Document → Except ApplyError Unit × Document
  | [], level => (.ok (), level)
  | (name, value) :: rest, level =>
      match applyLogger handlers name value level with
      | (.ok (), level) => applyLoggers handlers rest level
      | (.error e, level) => (.error e, level)

/-- The entries of a section of a configuration; a missing section is empty. -/
def sectionEntries (name : String) (config : Config) :
    Except ApplyError Config :=
  match Document.lookup name config with
  | none => .ok []
  | some (.map entries) => .ok entries
  | some other => .error (.unusable other)

/-- What a key looks like when keys are put in order. -/
def orderKey : Document → String := Document.text

/-- Checks all parts of a configuration before its loggers: the version, each
formatter by `isFormatter` and then each handler, in order of their keys, by
`isHandler`. -/
def checkParts (config : Config) : Except ApplyError Unit := do
  match Document.lookup "version" config with
  | none => .error .missingVersion
  | some version =>
      if version.sameKey (.int 1) then .ok ()
      else .error (.unsupportedVersion version)
  let formatters ← sectionEntries "formatters" config
  match formatters.find? fun entry => !isFormatter entry.2 with
  | some entry => .error (.formatter entry.1)
  | none => .ok ()
  let handlers ← sectionEntries "handlers" config
  let ordered := handlers.mergeSort fun a b =>
    decide (orderKey a.1 ≤ orderKey b.1)
  match ordered.find? fun entry => !isHandler formatters entry.2 with
  | some entry => .error (.handler entry.1)
  | none => .ok ()

/-- Applies a configuration to the level of the package logger. This is the part
of applying one that the configurations of this library use: version 1 of the
format, formatters of the standard class with `%`-formats (`isFormatter`),
handlers that write to a stream or nowhere (`handlerSettings?`), and loggers by
name. Other classes of formatters and handlers, filters, the root logger and
incremental configurations are left out of the model; the classes among them are
refused. -/
def apply : Application Document ApplyError := fun config level =>
  let loggers : Except ApplyError (Config × Config) := do
    checkParts config
    .ok (← sectionEntries "handlers" config, ← sectionEntries "loggers" config)
  match loggers with
  | .error e => (.error e, level)
  | .ok (handlers, loggers) => applyLoggers handlers loggers level

/-- Logging before anything is configured, with the `packageLogger` at level
0. -/
def unconfigured : Setup Document := ⟨false, .int 0⟩

end JvmTypes.Logging
