import JvmTypes.Catalog.Bundled
import JvmTypes.Logging
import JvmTypes.Proofs.Sessions
import JvmTypes.Proofs.Yaml.Names
import JvmTypes.Settings

/-!
# Files written down

A catalog is written down as a line for each class (`Catalog.lines`), and a file
that holds these lines, behind comments or not, is loaded as the very same
catalog (`Catalog.load_lines`), as long as its names are no keywords of YAML and
not too long for keys (`Declaration.IsLegible`). The bundled catalog is one of
those (`Catalog.load_bundled`), and the file of the default logging
configuration is read as what it should be (`Logging.read_bundledLines`).
-/

namespace JvmTypes

namespace Document

/-- An entry whose key is a text. -/
def field (entry : String × Document) : Document × Document :=
  (.str entry.1, entry.2)

private theorem insertEntry_of_not_mem {name : String}
    {done : List (String × Document)} (hNew : name ∉ done.map Prod.fst)
    (value : Document) :
    insertEntry (.str name) value (done.map field) =
      (done ++ [(name, value)]).map field := by
  induction done with
  | nil => rfl
  | cons entry done ih =>
      simp only [List.map_cons, List.mem_cons, not_or] at hNew
      have hOther : sameKey (.str entry.1) (.str name) = false := by
        simpa [sameKey] using Ne.symm hNew.1
      simp [field, insertEntry, hOther, ih hNew.2]

private theorem foldl_insertEntry_of_nodup (done : List (String × Document))
    {entries : List (String × Document)}
    (hNodup : ((done ++ entries).map Prod.fst).Nodup) :
    (entries.map field).foldl
      (fun done entry => insertEntry entry.1 entry.2 done)
      (done.map field) = (done ++ entries).map field := by
  induction entries generalizing done with
  | nil => simp
  | cons entry entries ih =>
      have hNew : entry.1 ∉ done.map Prod.fst := by
        rw [List.map_append, List.nodup_append] at hNodup
        exact fun hMem => hNodup.2.2 _ hMem _ (by simp) rfl
      have hRest := ih (done ++ [entry]) (by simpa using hNodup)
      have hStep : insertEntry (field entry).1 (field entry).2
          (done.map field) =
          (done ++ [entry]).map field := insertEntry_of_not_mem hNew entry.2
      rw [List.map_cons, List.foldl_cons, hStep, hRest, List.append_assoc,
        List.singleton_append]

/-- Entries whose keys are different texts are what `ofEntries` makes of
them. -/
theorem ofEntries_of_nodup {entries : List (String × Document)}
    (hNodup : (entries.map Prod.fst).Nodup) :
    ofEntries (entries.map field) = entries.map field :=
  foldl_insertEntry_of_nodup [] hNodup

end Document

open Yaml

namespace Declaration

/-- A class that can be written down: it is `Sound`, its name is not too long
for a key, and neither the name nor a parameter is a keyword of YAML
(`isKeyword`). -/
structure IsLegible (d : Declaration) : Prop where
  sound : d.Sound
  length : d.name.toList.length ≤ 1024
  name : isKeyword d.name.toList = false
  parameters : ∀ p ∈ d.parameters, isKeyword p.toList = false

/-- The line of a class: its name and the names of its parameters. -/
def line (d : Declaration) : List Char × Item :=
  (d.name.toList, .words (d.parameters.map String.toList))

/-- The entry that registers a class by `Catalog.registerAll`. -/
def entry (d : Declaration) : Document × Document :=
  (.str d.name, .list (d.parameters.map .str))

private theorem isIdentifier_of_sound {d : Declaration} (hSound : d.Sound) :
    ∀ p ∈ d.parameters, Text.isIdentifier p = true := by
  intro p hMem
  exact hSound.isIdentifier ⟨p, d.name⟩ (List.mem_map_of_mem hMem)

private theorem nodup_of_sound {d : Declaration} (hSound : d.Sound) :
    d.parameters.Nodup := by
  simpa [typeVariables, Function.comp_def] using hSound.nodup

private theorem read_entry {d : Declaration} (hSound : d.Sound) :
    read d.entry.1 d.entry.2 = .ok d :=
  read_eq_ok_iff.2 ⟨rfl, (isClassName_iff _).2 hSound.isClassName, rfl,
    isIdentifier_of_sound hSound, nodup_of_sound hSound⟩

section

variable {d : Declaration} (hLegible : d.IsLegible)

include hLegible

private theorem isText_name : isText d.name.toList :=
  isText_of_isClassName hLegible.sound.isClassName hLegible.name

private theorem isText_parameters : ∀ p ∈ d.parameters, isText p.toList :=
  fun p hMem =>
  isText_of_isIdentifier (isIdentifier_of_sound hLegible.sound p hMem)
    (hLegible.parameters p hMem)

end

private theorem areLegible_lines {ds : List Declaration}
    (hLegible : ∀ d ∈ ds, d.IsLegible) : Item.AreLegible (ds.map line) := by
  induction ds with
  | nil => trivial
  | cons d ds ih =>
      obtain ⟨hHere, hRest⟩ := List.forall_mem_cons.1 hLegible
      have hMerge : d.name.toList ≠ ['<', '<'] := fun hEq => by
        have hName := (isClassName_iff _).2 hHere.sound.isClassName
        rw [hEq] at hName
        exact absurd hName (by decide +kernel)
      have hWords : ∀ cs ∈ d.parameters.map String.toList, isPlain cs :=
        List.forall_mem_map.2 fun p hMem =>
          isPlain_of_isText (isText_parameters hHere p hMem)
      exact ⟨⟨isPlain_of_isText (isText_name hHere), hHere.length, hMerge⟩,
        hWords, ih hRest⟩

private theorem entryDocuments_lines {ds : List Declaration}
    (hLegible : ∀ d ∈ ds, d.IsLegible) :
    Item.entryDocuments (ds.map line) = ds.map entry := by
  induction ds with
  | nil => rfl
  | cons d ds ih =>
      obtain ⟨hHere, hRest⟩ := List.forall_mem_cons.1 hLegible
      have hTexts : d.parameters.map (plainValue ∘ String.toList) =
          d.parameters.map .str :=
        List.map_congr_left fun p hMem => by
          simp [plainValue_of_isText (isText_parameters hHere p hMem)]
      simp [Item.entryDocuments, Item.document, line, entry,
        plainValue_of_isText (isText_name hHere), hTexts, ih hRest]

end Declaration

namespace Catalog

private theorem insert_of_not_mem {c : Catalog} {d : Declaration}
    (hNew : d.name ∉ c.names) : c.insert d = ⟨c.classes ++ [d]⟩ := by
  obtain ⟨classes⟩ := c
  induction classes with
  | nil => rfl
  | cons known classes ih =>
      simp only [names, List.map_cons, List.mem_cons, not_or] at hNew ih
      have hRest := congrArg Catalog.classes (ih hNew.2)
      simp only [insert] at hRest
      simp [insert, insertClass, Ne.symm hNew.1, hRest]

/-- Classes that are `Sound` and have different names are registered one after
another. -/
theorem registerAll_entries {c : Catalog} {ds : List Declaration}
    (hSound : ∀ d ∈ ds, d.Sound)
    (hNodup : (c.names ++ ds.map Declaration.name).Nodup) :
    c.registerAll (ds.map Declaration.entry) = .ok ⟨c.classes ++ ds⟩ := by
  induction ds generalizing c with
  | nil => simp [registerAll]
  | cons d ds ih =>
      have hRead := Declaration.read_entry (hSound d (by simp))
      have hNew : d.name ∉ c.names := by
        rw [List.nodup_append] at hNodup
        exact fun hMem => hNodup.2.2 _ hMem _ (by simp) rfl
      have hRest :=
        ih (c := ⟨c.classes ++ [d]⟩) (fun d hMem => hSound d (by simp [hMem]))
          (by simpa [names] using hNodup)
      have hRegister :=
        register_eq_ok_iff.2 ⟨hRead, (insert_of_not_mem hNew).symm⟩
      rw [List.map_cons, registerAll, hRegister]
      exact hRest.trans (by rw [List.append_assoc, List.singleton_append])

private theorem requireLists_entries (ds : List Declaration) :
    requireLists (ds.map Declaration.entry) =
      .ok (ds.map Declaration.entry) := by
  induction ds with
  | nil => rfl
  | cons d ds ih =>
      rw [List.map_cons, Declaration.entry, requireLists, ih]
      rfl

/-- The lines of a file that holds the classes of a catalog. -/
def lines (c : Catalog) : List (List Char × Item) :=
  [("classes".toList, .block (c.classes.map Declaration.line))]

/-- The entries of the document that `lines` spell. -/
def entries (c : Catalog) : List (Document × Document) :=
  [(.str "classes",
    if c.classes = [] then .null else .map (c.classes.map Declaration.entry))]

private theorem document_lines {c : Catalog} (hNodup : c.names.Nodup)
    (hLegible : ∀ d ∈ c.classes, d.IsLegible) :
    (Item.block c.lines).document = .map c.entries := by
  have hClasses : plainValue "classes".toList = .str "classes" :=
    plainValue_of_isText (by decide)
  have hValue : (Item.block (c.classes.map Declaration.line)).document =
      if c.classes = [] then .null
      else .map (c.classes.map Declaration.entry) := by
    by_cases hNone : c.classes = []
    · rw [hNone, if_pos rfl]
      rfl
    · have hFields : c.classes.map Declaration.entry =
          (c.classes.map fun d => (d.name, .list (d.parameters.map .str))).map
            Document.field := by
        simp [Declaration.entry, Document.field, Function.comp_def]
      have hKeys : ((c.classes.map fun d =>
          (d.name, Document.list (d.parameters.map .str))).map
            Prod.fst).Nodup := by
        simpa [names, Function.comp_def] using hNodup
      rw [Item.document_block (by simpa using hNone), if_neg hNone,
        Declaration.entryDocuments_lines hLegible, hFields,
        Document.ofEntries_of_nodup hKeys]
  rw [lines, Item.document_block (List.cons_ne_nil _ _), Item.entryDocuments,
    Item.entryDocuments, hClasses, hValue]
  rfl

private theorem ofDocument_entries {c : Catalog}
    (hSound : ∀ d ∈ c.classes, d.Sound) (hNodup : c.names.Nodup) :
    ofDocument c.entries = .ok c := by
  by_cases hNone : c.classes = []
  · obtain ⟨classes⟩ := c
    obtain rfl : classes = [] := hNone
    rfl
  · have hLookup : Document.lookupOrNull "classes" c.entries =
        .map (c.classes.map Declaration.entry) := by
      simp [entries, hNone, Document.lookupOrNull, Document.lookup,
        Document.sameKey]
    have hRegister := registerAll_entries (c := empty) hSound
      (by simpa [empty, names] using hNodup)
    rw [ofDocument, hLookup]
    simp only [requireLists_entries]
    exact hRegister

/-- A file with comments and the `lines` of a catalog is loaded as that
catalog. -/
theorem load_lines {c : Catalog} (hNodup : c.names.Nodup)
    (hLegible : ∀ d ∈ c.classes, d.IsLegible) {remarks : List (List Char)}
    (hRemarks : ∀ cs ∈ remarks, isRemark cs) {files : Files} {path : Path}
    (hFile : files path =
      some (String.ofList (remarksText remarks ++
        Item.entriesText 0 c.lines))) :
    load files path = ⟨[.loaded c.size path.text], .ok c⟩ := by
  have hLines : Item.AreLegible c.lines :=
    ⟨⟨by decide, by decide, by decide⟩,
      Declaration.areLegible_lines hLegible, trivial⟩
  have hRead := read_text hRemarks hLines (List.cons_ne_nil _ _)
  rw [document_lines hNodup hLegible] at hRead
  have hLoad : files.load path = .ok c.entries := by
    rw [Files.load, hFile]
    simp only [hRead]
  have hCatalog :=
    ofDocument_entries (fun d hMem => (hLegible d hMem).sound) hNodup
  simp only [load, hLoad, Traced.ofExcept, Traced.ok_bind, hCatalog]
  rfl

/-- The comments in front of the bundled classes. -/
def bundledRemarks : List String :=
  [" Built-in class catalog used by ClassCatalog.default().",
    " Keys are binary class names (nested classes use '$'); values list the",
    " declared type parameter names in order."]

private theorem isLegible_bundled : ∀ d ∈ bundled.classes, d.IsLegible := by
  have hSound : ∀ d ∈ bundled.classes, isClassName d.name.toList = true ∧
      (∀ p ∈ d.parameters, Text.isIdentifier p = true) ∧
      d.parameters.Nodup := by
    decide +kernel
  have hWords : ∀ d ∈ bundled.classes, d.name.toList.length ≤ 1024 ∧
      isKeyword d.name.toList = false ∧
      ∀ p ∈ d.parameters, isKeyword p.toList = false := by
    decide +kernel
  intro d hMem
  obtain ⟨hName, hIdentifiers, hNodup⟩ := hSound d hMem
  obtain ⟨hLength, hKeyword, hParameters⟩ := hWords d hMem
  have hRead : Declaration.read d.entry.1 d.entry.2 = .ok d :=
    Declaration.read_eq_ok_iff.2 ⟨rfl, hName, rfl, hIdentifiers, hNodup⟩
  exact ⟨Declaration.sound_of_read hRead, hLength, hKeyword, hParameters⟩

/-- The file with the `bundledRemarks` and the lines of the bundled classes is
loaded as `Catalog.bundled`. -/
theorem load_bundled {files : Files} {path : Path}
    (hFile : files path = some (String.ofList
      (remarksText (bundledRemarks.map String.toList) ++
        Item.entriesText 0 bundled.lines))) :
    load files path = ⟨[.loaded 54 path.text], .ok bundled⟩ :=
  load_lines (by decide +kernel) isLegible_bundled (by decide +kernel) hFile

end Catalog

namespace Logging

open Yaml

/-- The lines of the file that comes with the library. -/
def bundledLines : List (List Char × Item) := [
  ("version".toList, .word "1".toList),
  ("disable_existing_loggers".toList, .word "false".toList),
  ("formatters".toList, .block [
    ("standard".toList, .block [
      ("format".toList,
        .quoted
          "%(asctime)s | %(levelname)-8s | %(name)s | %(message)s".toList)])]),
  ("handlers".toList, .block [
    ("console".toList, .block [
      ("class".toList, .word "logging.StreamHandler".toList),
      ("stream".toList, .word "ext://sys.stderr".toList),
      ("formatter".toList, .word "standard".toList)])]),
  ("loggers".toList, .block [
    ("typeexpr".toList, .block [
      ("level".toList, .word "WARNING".toList),
      ("handlers".toList, .words ["console".toList]),
      ("propagate".toList, .word "false".toList)])])]

/-- The file that comes with the library is read as `bundledFile`. -/
theorem read_bundledLines :
    read (String.ofList (Item.entriesText 0 bundledLines)) =
      some bundledFile := by
  have hNone : ∀ cs ∈ ([] : List (List Char)), isRemark cs := by simp
  have hNe : bundledLines ≠ [] := List.cons_ne_nil _ _
  have hLegible : Item.AreLegible bundledLines := by decide +kernel
  have hRead := read_text hNone hLegible hNe
  have hEntries : Item.entryDocuments bundledLines =
      defaultConfig defaultLevel := rfl
  rw [Item.document_block hNe, hEntries] at hRead
  exact hRead

end Logging

end JvmTypes
