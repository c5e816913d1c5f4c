import JvmTypes.Logging

/-!
# The layers of a logging configuration

A configuration has the sections of the defaults. A file that holds a mapping
replaces sections as a whole, and a level from the environment replaces one
field of one logger. What the level leaves alone is said by lists of entries,
not by lookups: `Document.Sets` relates entries that differ in the value of one
key, and all their other entries are the same ones in the same order, whatever
their keys are.

## Main results

* `Document.sets_insertEntry`: what storing a value changes.
* `Logging.mergeFile_eq`: the sections of a configuration, one by one.
* `Logging.configuration_layers`: a configuration without and with a level.
-/

namespace JvmTypes

namespace Document

/-! ## Entries -/

/-- By `sameKey` a key of another kind than a string is never the same as a
string. -/
theorem sameKey_str_iff {key : Document} {name : String} :
    sameKey key (str name) = true ↔ key = str name := by
  cases key <;> simp [sameKey, number?]

private theorem lookup_cons (name : String) (entry : Document × Document)
    (entries : List (Document × Document)) :
    lookup name (entry :: entries) =
      if sameKey entry.1 (str name) then some entry.2
      else lookup name entries := by
  rw [lookup, List.find?_cons]
  cases sameKey entry.1 (str name) <;> rfl

private theorem lookup_append (name : String)
    (front back : List (Document × Document)) :
    lookup name (front ++ back) = (lookup name front).or
      (lookup name back) := by
  rw [lookup, List.find?_append, Option.map_or]
  rfl

/-- The value of a key where a repeated key has the last of its values, which
`lookup` does not look at. -/
def lookupLast (name : String) (entries : List (Document × Document)) :
    Option Document :=
  lookup name entries.reverse

private theorem lookupLast_cons (name : String) (entry : Document × Document)
    (entries : List (Document × Document)) :
    lookupLast name (entry :: entries) = (lookupLast name entries).or
      (lookup name [entry]) := by
  rw [lookupLast, List.reverse_cons, lookup_append]
  rfl

/-- Entries that differ in the value of one key. It takes the place of the old
value, or comes last if the key is new. -/
inductive Sets (name : String) (value : Document) :
    List (Document × Document) → List (Document × Document) → Prop
  | replaced {front back : List (Document × Document)} {old : Document}
      (hFirst : lookup name front = none) :
      Sets name value (front ++ (str name, old) :: back)
        (front ++ (str name, value) :: back)
  | added {entries : List (Document × Document)}
      (hNew : lookup name entries = none) :
      Sets name value entries (entries ++ [(str name, value)])

/-- `insertEntry` sets the value of a key and changes nothing else. -/
theorem sets_insertEntry (name : String) (value : Document)
    (entries : List (Document × Document)) :
    Sets name value entries (insertEntry (str name) value entries) := by
  induction entries with
  | nil => exact .added rfl
  | cons entry rest ih =>
      obtain ⟨key, old⟩ := entry
      rw [insertEntry]
      by_cases hKey : sameKey key (str name) = true
      · obtain rfl := sameKey_str_iff.1 hKey
        rw [if_pos hKey]
        exact @Sets.replaced _ _ [] rest old rfl
      · have hSkip : ∀ entries, lookup name entries = none →
            lookup name ((key, old) :: entries) = none := by
          intro entries hNone
          rw [lookup_cons, if_neg hKey, hNone]
        rw [if_neg hKey]
        generalize insertEntry (str name) value rest = stored at ih ⊢
        cases ih with
        | replaced hFirst => exact .replaced (hSkip _ hFirst)
        | added hNew => exact .added (hSkip _ hNew)

/-- `insertEntry` under one of `names`, each of which occurs once as a key,
changes its value in place. -/
theorem insertEntry_map {names : List String} (hNodup : names.Nodup)
    {name : String} (hMem : name ∈ names) (value : Document)
    (values : String → Document) :
    insertEntry (str name) value (names.map fun n => (str n, values n)) =
      names.map fun n => (str n, if n = name then value else values n) := by
  induction names with
  | nil => cases hMem
  | cons first rest ih =>
      obtain ⟨hFresh, hRest⟩ := List.nodup_cons.1 hNodup
      rw [List.map_cons, List.map_cons, insertEntry]
      by_cases hName : first = name
      · subst hName
        have hOthers : ∀ n ∈ rest, n ≠ first :=
          fun n hMem hEq => hFresh (hEq ▸ hMem)
        rw [if_pos (sameKey_str_iff.2 rfl), if_pos rfl]
        refine congrArg _ (List.map_congr_left fun n hMem => ?_)
        rw [if_neg (hOthers n hMem)]
      · have hTail : name ∈ rest :=
          (List.mem_cons.1 hMem).resolve_left (Ne.symm hName)
        have hKey : ¬ sameKey (str first) (str name) = true := by
          rw [sameKey_str_iff]
          exact fun hEq => hName (str.inj hEq)
        rw [if_neg hKey, if_neg hName, ih hRest hTail]

/-- The value that `lookup` finds under one of `names`. -/
theorem lookup_map {names : List String} {name : String} (hMem : name ∈ names)
    (values : String → Document) :
    lookup name (names.map fun n => (str n, values n)) =
      some (values name) := by
  induction names with
  | nil => cases hMem
  | cons first rest ih =>
      rw [List.map_cons, lookup_cons]
      by_cases hName : first = name
      · rw [if_pos (sameKey_str_iff.2 (congrArg _ hName)), hName]
      · have hKey : ¬ sameKey (str first) (str name) = true := fun hSame =>
          hName (str.inj (sameKey_str_iff.1 hSame))
        rw [if_neg hKey]
        exact ih ((List.mem_cons.1 hMem).resolve_left (Ne.symm hName))

/-- A value that counts as a mapping: it is one, or it is left out as `null`. -/
def MayBeMap (value : Document) : Prop :=
  value = null ∨ ∃ entries, value = map entries

/-- The entries of a `map`; what is left out has none. -/
def entriesIn : Document → List (Document × Document)
  | map entries => entries
  | _ => []

end Document

namespace Logging

open Document

/-! ## Files -/

/-- The entries of a file for `mergeFile`; a file that is not there or holds no
mapping has none. -/
def fileEntries : Option Document → Config
  | some (.map entries) => entries
  | _ => []

/-- The `sections` of a configuration without a level: those that the file has
are the file's, by `lookupLast`, and the others are those of `defaultConfig`. -/
def layered (file : Config) : Config :=
  sections.map fun name =>
    (.str name, (lookupLast name file).getD
      (lookupOrNull name (defaultConfig defaultLevel)))

theorem isSection_iff {key : Document} :
    isSection key = true ↔ ∃ name ∈ sections, key = .str name := by
  cases key <;> simp [isSection]

private theorem defaultConfig_eq (level : String) :
    defaultConfig level =
      sections.map fun name =>
        (.str name, lookupOrNull name (defaultConfig level)) := by
  rfl

/-- `insertEntry` puts a section in the place of the one before. -/
theorem insertEntry_section {entry : Document × Document}
    (hSection : isSection entry.1 = true) (values : String → Document) :
    insertEntry entry.1 entry.2
      (sections.map fun name => (.str name, values name)) =
      sections.map fun name =>
        (.str name, (lookup name [entry]).getD (values name)) := by
  obtain ⟨key, value⟩ := entry
  obtain ⟨stored, hMem, rfl⟩ := isSection_iff.1 hSection
  rw [insertEntry_map (by decide) hMem]
  refine List.map_congr_left fun name _ => ?_
  rw [lookup_cons]
  by_cases hName : name = stored
  · rw [if_pos hName, if_pos (sameKey_str_iff.2 (congrArg _ hName.symm))]
    rfl
  · have hKey : ¬ sameKey (.str stored) (.str name) = true := fun hSame =>
      hName (str.inj (sameKey_str_iff.1 hSame)).symm
    rw [if_neg hName, if_neg hKey]
    rfl

/-- Of the entries that a fold stores, only `sections` count, and the last of
each by `lookupLast`. -/
theorem foldl_insertEntry (values : String → Document) (entries : Config) :
    (entries.filter fun entry => isSection entry.1).foldl
        (fun done entry => insertEntry entry.1 entry.2 done)
        (sections.map fun name => (.str name, values name)) =
      sections.map fun name =>
        (.str name, (lookupLast name entries).getD (values name)) := by
  -- The values so far change with each entry, so the induction is over all of
  -- them.
  induction entries generalizing values with
  | nil => rfl
  | cons entry rest ih =>
      rw [List.filter_cons]
      by_cases hSection : isSection entry.1 = true
      · rw [if_pos hSection, List.foldl_cons, insertEntry_section hSection, ih]
        refine List.map_congr_left fun name _ => ?_
        rw [lookupLast_cons, Option.getD_or]
      · rw [if_neg hSection, ih]
        refine List.map_congr_left fun name hMem => ?_
        have hOther : ¬ sameKey entry.1 (.str name) = true := fun hSame =>
          hSection (isSection_iff.2 ⟨name, hMem, sameKey_str_iff.1 hSame⟩)
        have hNone : lookup name [entry] = none := by
          rw [lookup_cons, if_neg hOther]
          rfl
        rw [lookupLast_cons, hNone, Option.or_none]

/-- The configuration without a level, as `mergeFile` makes it, section by
section. -/
theorem mergeFile_eq (file : Option Document) :
    mergeFile (defaultConfig defaultLevel) file =
      layered (fileEntries file) := by
  rw [layered, ← foldl_insertEntry, ← defaultConfig_eq]
  cases file with
  | none => rfl
  | some document => cases document <;> rfl

private theorem lookupOrNull_layered {name : String} (hName : name ∈ sections)
    (file : Config) :
    lookupOrNull name (layered file) =
      (lookupLast name file).getD
        (lookupOrNull name (defaultConfig defaultLevel)) := by
  rw [lookupOrNull, layered, lookup_map hName]
  rfl

/-! ## The level -/

theorem entriesOf_of_mayBeMap {value : Document} (hMap : MayBeMap value) :
    entriesOf value = .ok (entriesIn value) := by
  rcases hMap with rfl | ⟨entries, rfl⟩ <;> rfl

/-- Configurations that differ in the level of the `packageLogger` alone.
Loggers and fields of the logger that are left out count as none. -/
def SetsLevel (level : String) (before after : Config) : Prop :=
  ∃ loggers logger,
    Sets "loggers" (.map loggers) before after ∧
    Sets packageLogger (.map logger)
      (entriesIn (lookupOrNull "loggers" before)) loggers ∧
    Sets "level" (.str level)
      (entriesIn (lookupOrNull packageLogger
        (entriesIn (lookupOrNull "loggers" before)))) logger

/-- `setLevel` sets a level in a configuration whose loggers are well formed. -/
theorem exists_setLevel {config : Config} (level : String)
    (hLoggers : MayBeMap (lookupOrNull "loggers" config))
    (hLogger : MayBeMap (lookupOrNull packageLogger
      (entriesIn (lookupOrNull "loggers" config)))) :
    ∃ made, setLevel level config = .ok made ∧ SetsLevel level config made := by
  refine ⟨_, ?_, _, _, sets_insertEntry _ _ _, sets_insertEntry _ _ _,
    sets_insertEntry _ _ _⟩
  rw [setLevel, entriesOf_of_mayBeMap hLoggers]
  show (entriesOf (lookupOrNull packageLogger (entriesIn _)) >>= _) = _
  rw [entriesOf_of_mayBeMap hLogger]
  rfl

/-- What `configuration` makes of a file and an environment, where the loggers
of the file and the `packageLogger` among them are mappings or left out. Without
a level it is `layered`: the sections of the file in place of the default ones.
With a level, which is `levelOf` the environment, it differs from that in the
level of the `packageLogger` alone. Where the file is missing or holds no
mapping, it is the `defaultConfig` at the level. -/
theorem configuration_layers (file : Option Document)
    (environment : Option String)
    (hLoggers : MayBeMap ((lookupLast "loggers" (fileEntries file)).getD .null))
    (hLogger : MayBeMap (lookupOrNull packageLogger
      (entriesIn ((lookupLast "loggers" (fileEntries file)).getD .null)))) :
    ∃ made, configuration file environment = .ok made ∧
      (levelOf environment = "" → made = layered (fileEntries file)) ∧
      (levelOf environment ≠ "" →
        SetsLevel (levelOf environment) (layered (fileEntries file)) made) ∧
      (fileEntries file = [] → made = defaultConfig
        (if levelOf environment = "" then defaultLevel
          else levelOf environment)) := by
  have hLoggers' : MayBeMap
      (lookupOrNull "loggers" (layered (fileEntries file))) ∧
      MayBeMap (lookupOrNull packageLogger
        (entriesIn (lookupOrNull "loggers" (layered (fileEntries file))))) := by
    rw [lookupOrNull_layered (by decide)]
    cases hFile : lookupLast "loggers" (fileEntries file) with
    | none => exact ⟨.inr ⟨_, rfl⟩, .inr ⟨_, rfl⟩⟩
    | some loggers =>
        rw [hFile] at hLoggers hLogger
        exact ⟨hLoggers, hLogger⟩
  rw [configuration, mergeFile_eq]
  by_cases hLevel : levelOf environment = ""
  · rw [if_pos hLevel, if_pos hLevel]
    refine ⟨_, rfl, fun _ => rfl, fun hSome => absurd hLevel hSome,
      fun hNone => ?_⟩
    rw [hNone]
    rfl
  · rw [if_neg hLevel, if_neg hLevel]
    obtain ⟨made, hMade, hSets⟩ :=
      exists_setLevel (levelOf environment) hLoggers'.1 hLoggers'.2
    refine ⟨made, hMade, fun hNone => absurd hNone hLevel, fun _ => hSets,
      fun hNone => ?_⟩
    rw [hNone] at hMade
    exact (Except.ok.inj hMade).symm

/-- A file without handlers, with another logger and with nothing said of the
package logger. -/
def quietFile : Document :=
  .map [(.str "handlers", .map []), (.str "root", .map []),
    (.str "loggers", .map [(.str "other", .map [(.str "level", .str "INFO")]),
      (.str packageLogger, .null)])]

/-- The configuration of that file with the level `DEBUG`. -/
def quietConfig : Config := [
  (.str "version", .int 1),
  (.str "disable_existing_loggers", .bool false),
  (.str "formatters", lookupOrNull "formatters" (defaultConfig defaultLevel)),
  (.str "handlers", .map []),
  (.str "loggers", .map [(.str "other", .map [(.str "level", .str "INFO")]),
    (.str packageLogger, .map [(.str "level", .str "DEBUG")])])]

/-- The handlers are those of the file, `root` is no section, and the level is
all that is said of the package logger. -/
theorem configuration_layers_quiet :
    MayBeMap
      ((lookupLast "loggers" (fileEntries (some quietFile))).getD .null) ∧
    MayBeMap
      (lookupOrNull packageLogger (entriesIn
        ((lookupLast "loggers" (fileEntries (some quietFile))).getD .null))) ∧
    levelOf (some " debug ") = "DEBUG" ∧
    configuration (some quietFile) (some " debug ") = .ok quietConfig ∧
    SetsLevel "DEBUG" (layered (fileEntries (some quietFile))) quietConfig := by
  have hLoggers : MayBeMap
      ((lookupLast "loggers" (fileEntries (some quietFile))).getD .null) :=
    .inr ⟨_, rfl⟩
  have hLogger : MayBeMap (lookupOrNull packageLogger
      (entriesIn ((lookupLast "loggers" (fileEntries (some quietFile))).getD
        .null))) := .inl rfl
  have hLevel : levelOf (some " debug ") = "DEBUG" := by decide +kernel
  obtain ⟨made, hMade, -, hSets, -⟩ :=
    configuration_layers (some quietFile) (some " debug ") hLoggers hLogger
  have hConfig : configuration (some quietFile) (some " debug ") =
      .ok quietConfig := by
    rw [configuration, hLevel]
    rfl
  obtain rfl : quietConfig = made := Except.ok.inj (hConfig.symm.trans hMade)
  rw [hLevel] at hSets
  exact ⟨hLoggers, hLogger, hLevel, hConfig, hSets (by decide)⟩

end Logging

end JvmTypes
