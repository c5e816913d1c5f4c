import Mathlib.Data.Finset.Card
import JvmTypes.Catalog.Session
import JvmTypes.Proofs.Naming

/-!
# What a catalog keeps

A catalog is built and then asked: classes are registered, looked up and listed
in any order, and some registrations are refused. Whatever is asked, the catalog
is the record of the classes that were registered. A class counts from the
moment its registration succeeds; what a refused registration had read before
the parameter it was refused for leaves no trace.

The record is a list of classes, one for each successful registration. One
request adds at most one class to it (`Catalog.reply_cases`), and a class that
is added keeps what the catalog says about the record (`Catalog.Keeps.insert`).
All else is induction on the requests.

## Main results

* `Declaration.sound_of_read`: what a class is like that was registered.
* `Catalog.Keeps`: what a catalog says about the classes registered in it.
* `Catalog.keeps_session`: it says so after every session, and a failing request
  changes nothing.
-/

namespace JvmTypes

/-! ## Stored classes -/

namespace Declaration

/-- A class as a catalog holds it: its name is one by `isClassName`, it is
neither primitive nor an array class, and its type parameters are identifiers,
differ from each other and are declared by it. -/
structure Sound (d : Declaration) : Prop where
  isClassName : IsClassName d.name.toList
  not_primitive : (ClassType.declared d).isPrimitive = false
  not_array : (ClassType.declared d).isArray = false
  nodup : (d.typeVariables.map TypeVariable.name).Nodup
  isIdentifier : ∀ v ∈ d.typeVariables, Text.isIdentifier v.name = true
  declaration : ∀ v ∈ d.typeVariables, v.declaration = d.name

theorem sound_of_read {name parameters : Document} {d : Declaration}
    (hRead : read name parameters = .ok d) : d.Sound := by
  obtain ⟨-, hName, -, hIdentifiers, hNodup⟩ := read_eq_ok_iff.1 hRead
  have hNames : d.typeVariables.map TypeVariable.name = d.parameters := by
    simp [typeVariables, Function.comp_def]
  refine ⟨(isClassName_iff _).1 hName, rfl, rfl, hNames.symm ▸ hNodup, ?_, ?_⟩
  · intro v hMem
    refine hIdentifiers v.name ?_
    rw [← hNames]
    exact List.mem_map_of_mem hMem
  · intro v hMem
    obtain ⟨p, -, rfl⟩ := List.mem_map.1 hMem
    rfl

end Declaration

namespace Catalog

/-! ## One request -/

/-- The class that a reply says was registered. -/
def Reply.registered? : Reply → Option Declaration
  | .registered d => some d
  | _ => none

/-- Whether a reply says that the request failed. -/
def Reply.isFailure : Reply → Bool
  | .refused _ | .unknown _ => true
  | _ => false

/-- One request registers a `Sound` class, or it leaves the catalog as it is. -/
theorem reply_cases (c : Catalog) (request : Request) :
    (∃ d, d.Sound ∧ c.reply request = (.registered d, c.insert d)) ∨
      ((c.reply request).1.registered? = none ∧ (c.reply request).2 = c) := by
  cases request with
  | register name parameters =>
      rw [reply]
      cases hRegister : c.register name parameters with
      | error e => exact .inr ⟨rfl, rfl⟩
      | ok registered =>
          obtain ⟨hRead, hNext⟩ := register_eq_ok_iff.1
            (show c.register name parameters =
              .ok (registered.1, registered.2) from hRegister)
          refine .inl ⟨registered.1, Declaration.sound_of_read hRead, ?_⟩
          rw [← hNext]
  | resolve name =>
      rw [reply]
      cases c.find? name with
      | some d => exact .inr ⟨rfl, rfl⟩
      | none => exact .inr ⟨rfl, rfl⟩
  | contains name => exact .inr ⟨rfl, rfl⟩
  | list => exact .inr ⟨rfl, rfl⟩

/-- A request whose reply `isFailure` leaves the catalog as it is: names, order
and classes. -/
theorem reply_of_isFailure {c : Catalog} {request : Request}
    (hFailure : (c.reply request).1.isFailure = true) :
    (c.reply request).2 = c := by
  rcases c.reply_cases request with ⟨d, -, hReply⟩ | ⟨-, hSame⟩
  · rw [hReply] at hFailure
    cases hFailure
  · exact hSame

/-- A name can be looked up exactly if it is contained. -/
theorem resolved_iff_contained (c : Catalog) (name : String) :
    (∃ d, (c.reply (.resolve name)).1 = .resolved d) ↔
      (c.reply (.contains (.str name))).1 = .contained true := by
  rw [reply, reply, containsNamed, contains]
  cases c.find? name with
  | some d => exact ⟨fun _ => rfl, fun _ => ⟨d, rfl⟩⟩
  | none => simp

/-! ## Many requests -/

/-- The catalog after requests: as `history` has it after the last of them. -/
def after (c : Catalog) (requests : List Request) : Catalog :=
  ((c.history requests).map Prod.snd).getLastD c

/-- The classes that requests registered, by `Reply.registered?`, from the first
to the last. -/
def registrations (c : Catalog) (requests : List Request) : List Declaration :=
  (c.history requests).filterMap fun step => step.1.registered?

@[simp] theorem after_nil (c : Catalog) : c.after [] = c := rfl

@[simp] theorem after_cons (c : Catalog) (request : Request)
    (requests : List Request) :
    c.after (request :: requests) = (c.reply request).2.after requests := by
  rw [after, history, List.map_cons, List.getLastD_cons]
  rfl

theorem after_append (c : Catalog) (front back : List Request) :
    c.after (front ++ back) = (c.after front).after back := by
  induction front generalizing c with
  | nil => rfl
  | cons request front ih => rw [List.cons_append, after_cons, after_cons, ih]

@[simp] theorem registrations_nil (c : Catalog) : c.registrations [] = [] := rfl

@[simp] theorem registrations_cons (c : Catalog) (request : Request)
    (requests : List Request) :
    c.registrations (request :: requests) =
      (c.reply request).1.registered?.toList ++
        (c.reply request).2.registrations requests := by
  rw [registrations, history, List.filterMap_cons]
  cases (c.reply request).1.registered? <;> rfl

/-! ## The record -/

/-- What a catalog says about the classes that were registered in it, from the
first to the last: it lists their names in the order in which each came first,
its size is the number of different names, the class of a name is the last one
of that name, and every class is sound and found under its own name. -/
structure Keeps (log : List Declaration) (c : Catalog) : Prop where
  names : c.names = (log.map Declaration.name).eraseDups
  size : c.size = (log.map Declaration.name).toFinset.card
  find? : ∀ name, c.find? name = log.reverse.find? fun d => d.name = name
  stored : ∀ d ∈ c.classes, c.find? d.name = some d ∧ d.Sound

private theorem eraseDups_append_singleton {α : Type} [BEq α] [LawfulBEq α]
    (l : List α) (a : α) [Decidable (a ∈ l)] :
    (l ++ [a]).eraseDups = if a ∈ l then l.eraseDups
      else l.eraseDups ++ [a] := by
  rw [List.eraseDups_append]
  by_cases hMem : a ∈ l
  · simp [hMem, List.removeAll]
  · simp [hMem, List.removeAll, List.eraseDups_cons]

private theorem nodup_eraseDups {α : Type} [DecidableEq α] (l : List α) :
    l.eraseDups.Nodup := by
  -- From the end: the last element is new, or it changes nothing.
  induction l using List.reverseRecOn with
  | nil => exact List.nodup_nil
  | append_singleton front a ih =>
      rw [eraseDups_append_singleton]
      split
      · exact ih
      · next hNew =>
          have hFresh : a ∉ front.eraseDups :=
            fun hMem => hNew (List.mem_eraseDups.1 hMem)
          exact List.concat_eq_append ▸ ih.concat hFresh

private theorem mem_insertClass {d x : Declaration} {classes : List Declaration}
    (hMem : x ∈ insertClass d classes) : x = d ∨ x ∈ classes := by
  induction classes with
  | nil => exact .inl (List.mem_singleton.1 hMem)
  | cons known rest ih =>
      rw [insertClass] at hMem
      split at hMem
      · rcases List.mem_cons.1 hMem with hNew | hRest
        · exact .inl hNew
        · exact .inr (List.mem_cons_of_mem _ hRest)
      · rcases List.mem_cons.1 hMem with rfl | hRest
        · exact .inr List.mem_cons_self
        · exact (ih hRest).imp_right (List.mem_cons_of_mem _)

/-- Where no two classes share a name, `find?` finds each under its own. -/
theorem find?_of_mem {c : Catalog} (hNodup : c.names.Nodup) {d : Declaration}
    (hMem : d ∈ c.classes) : c.find? d.name = some d := by
  obtain ⟨classes⟩ := c
  induction classes with
  | nil => cases hMem
  | cons known rest ih =>
      obtain ⟨hFresh, hRest⟩ := List.nodup_cons.1 hNodup
      rcases List.mem_cons.1 hMem with rfl | hTail
      · simp [find?]
      · have hOther : known.name ≠ d.name := by
          intro hName
          exact hFresh (hName ▸ List.mem_map_of_mem hTail)
        have hFind := ih hRest hTail
        rw [find?] at hFind ⊢
        simpa [hOther] using hFind

/-- The size of a catalog that lists the names of a record, each once. -/
theorem size_of_names {c : Catalog} {recorded : List String}
    (hNames : c.names = recorded.eraseDups) :
    c.size = recorded.toFinset.card := by
  have hMembers : recorded.eraseDups.toFinset = recorded.toFinset := by
    ext name
    simp only [List.mem_toFinset, List.mem_eraseDups]
  have hLength : c.size = c.names.length := by
    rw [names, List.length_map, size]
  rw [hLength, hNames, ← hMembers,
    List.toFinset_card_of_nodup (nodup_eraseDups _)]

private theorem keeps_empty : Keeps [] empty where
  names := rfl
  size := rfl
  find? := fun _ => rfl
  stored := by simp [empty]

/-- One more `insert` adds the class to the record that the catalog keeps. -/
theorem Keeps.insert {log : List Declaration} {c : Catalog}
    (hKeeps : Keeps log c) {d : Declaration} (hSound : d.Sound) :
    Keeps (log ++ [d]) (c.insert d) := by
  have hNames : (c.insert d).names =
      ((log ++ [d]).map Declaration.name).eraseDups := by
    rw [names_insert, hKeeps.names, List.map_append, List.map_singleton,
      eraseDups_append_singleton]
    simp only [List.mem_eraseDups]
  have hNodup : (c.insert d).names.Nodup := by
    rw [hNames]
    exact nodup_eraseDups _
  refine ⟨hNames, size_of_names hNames, fun name => ?_, fun x hMem => ?_⟩
  · rw [List.reverse_append, List.reverse_singleton, List.singleton_append,
      List.find?_cons]
    by_cases hName : d.name = name
    · subst hName
      simp [c.find?_insert_self d]
    · rw [c.find?_insert_of_ne hName, hKeeps.find? name]
      simp [hName]
  · have hOwn := find?_of_mem hNodup hMem
    rcases mem_insertClass hMem with rfl | hOld
    · exact ⟨hOwn, hSound⟩
    · exact ⟨hOwn, (hKeeps.stored x hOld).2⟩

/-- What a catalog replies about the classes that were registered in it: a
lookup yields the last class of the name, a name is contained exactly if a class
of that name is among them, and the list has each name once, in the order in
which each came first. -/
structure Replies (log : List Declaration) (c : Catalog) : Prop where
  resolve : ∀ name, (c.reply (.resolve name)).1 =
    (log.reverse.find? fun d => d.name = name).elim (.unknown name) .resolved
  contains : ∀ name, (c.reply (.contains (.str name))).1 =
    .contained (decide (name ∈ log.map Declaration.name))
  list : (c.reply .list).1 = .listed (log.map Declaration.name).eraseDups

/-- A catalog that `Keeps` a record answers from it. -/
theorem Keeps.replies {log : List Declaration} {c : Catalog}
    (hKeeps : Keeps log c) : Replies log c := by
  refine ⟨fun name => ?_, fun name => ?_, ?_⟩
  · rw [reply, ← hKeeps.find? name]
    cases c.find? name <;> rfl
  · have hFound : c.contains name =
        decide (name ∈ log.map Declaration.name) := by
      rw [contains, hKeeps.find? name, Bool.eq_iff_iff, List.find?_isSome]
      simp
    rw [reply, containsNamed, hFound]
  · rw [reply, hKeeps.names]

/-- A session adds its `registrations` to the record that the catalog keeps. -/
theorem Keeps.after {log : List Declaration} {c : Catalog}
    (hKeeps : Keeps log c) (requests : List Request) :
    Keeps (log ++ c.registrations requests) (c.after requests) := by
  -- The record grows with each request, so the induction is over every record.
  induction requests generalizing log c with
  | nil => simpa using hKeeps
  | cons request requests ih =>
      rw [after_cons, registrations_cons, ← List.append_assoc]
      refine ih ?_
      rcases c.reply_cases request with ⟨d, hSound, hReply⟩ | ⟨hNone, hSame⟩
      · rw [hReply]
        exact hKeeps.insert hSound
      · rw [hNone, hSame]
        simpa using hKeeps

/-! ## Sessions -/

/-- What a catalog is made of: classes with their parameters, or a document that
lists them under `classes`. -/
inductive Origin where
  | given (entries : List (Document × Document))
  | document (entries : List (Document × Document))

/-- The catalog that is made of it. -/
def Origin.build : Origin → Except CatalogError Catalog
  | given entries => empty.registerAll entries
  | document entries => ofDocument entries

/-- The request to `register` a class with its parameters. -/
def Request.ofEntry (entry : Document × Document) : Request :=
  .register entry.1 entry.2

/-- The request for a class of a document, where one without a list of
parameters has none, as in `Catalog.requireLists`. -/
def Request.ofListing : Document × Document → Request
  | (name, .null) => .register name (.list [])
  | (name, parameters) => .register name parameters

/-- The registrations that make the catalog. -/
def Origin.requests : Origin → List Request
  | given entries => entries.map .ofEntry
  | document entries =>
      match Document.lookupOrNull "classes" entries with
      | .map classes => classes.map .ofListing
      | _ => []

/-- The catalog that `registerAll` makes is the one after a session with these
registrations. -/
theorem after_of_registerAll {entries : List (Document × Document)}
    {before made : Catalog}
    (hRegister : before.registerAll entries = .ok made) :
    before.after (entries.map .ofEntry) = made := by
  induction entries generalizing before with
  | nil =>
      cases hRegister
      rfl
  | cons entry entries ih =>
      obtain ⟨⟨d, next⟩, hFirst, hRest⟩ := exists_of_bind_eq_ok hRegister
      rw [List.map_cons, after_cons, Request.ofEntry, reply, hFirst]
      exact ih hRest

private theorem ofListing_of_requireLists
    {classes lists : List (Document × Document)}
    (hLists : requireLists classes = .ok lists) :
    classes.map Request.ofListing = lists.map .ofEntry := by
  induction classes generalizing lists with
  | nil =>
      cases hLists
      rfl
  | cons entry classes ih =>
      obtain ⟨name, parameters⟩ := entry
      cases parameters with
      | null =>
          obtain ⟨rest, hRest, hMade⟩ := exists_of_bind_eq_ok hLists
          cases hMade
          rw [List.map_cons, List.map_cons, ih hRest]
          rfl
      | list items =>
          obtain ⟨rest, hRest, hMade⟩ := exists_of_bind_eq_ok hLists
          cases hMade
          rw [List.map_cons, List.map_cons, ih hRest]
          rfl
      | _ => cases hLists

/-- The catalog that `Origin.build` makes is the one after a session with its
requests. -/
theorem after_of_build {origin : Origin} {start : Catalog}
    (hBuild : origin.build = .ok start) :
    empty.after origin.requests = start := by
  cases origin with
  | given entries => exact after_of_registerAll hBuild
  | document entries =>
      rw [Origin.build, ofDocument] at hBuild
      rw [Origin.requests]
      split at hBuild
      · next hNull =>
          cases hBuild
          rw [hNull]
          rfl
      · next classes hClasses =>
          obtain ⟨lists, hLists, hRegister⟩ := exists_of_bind_eq_ok hBuild
          rw [hClasses]
          dsimp only
          rw [ofListing_of_requireLists hLists]
          exact after_of_registerAll hRegister
      · cases hBuild

/-- Through every session with a catalog, however it was built, the catalog is
the record of the classes registered so far (`Keeps`) and answers from it
(`Replies`). A `register`, `resolve` or `contains` that fails changes nothing,
and `resolve` finds a class of exactly the names for which `contains` is
true. -/
theorem keeps_session {origin : Origin} {start : Catalog}
    (hBuild : origin.build = .ok start) (requests : List Request) :
    Keeps (empty.registrations origin.requests ++ start.registrations requests)
        (start.after requests) ∧
      Replies (empty.registrations origin.requests ++
        start.registrations requests)
        (start.after requests) ∧
      (∀ request, ((start.after requests).reply request).1.isFailure = true →
        start.after (requests ++ [request]) = start.after requests) ∧
      ∀ name, (∃ d, ((start.after requests).reply (.resolve name)).1 =
        .resolved d) ↔
        ((start.after requests).reply (.contains (.str name))).1 =
          .contained true := by
  have hStart : Keeps (empty.registrations origin.requests) start := by
    rw [← after_of_build hBuild]
    exact keeps_empty.after origin.requests
  have hKeeps := hStart.after requests
  refine ⟨hKeeps, hKeeps.replies, fun request hFailure => ?_,
    resolved_iff_contained _⟩
  rw [after_append, after_cons, after_nil]
  exact reply_of_isFailure hFailure

/-- The document that lists `List<E>` and `Item`. -/
def listing : Origin :=
  .document [(.str "classes",
    .map [(.str "List", .list [.str "E"]), (.str "Item", .null)])]

/-- Requests to replace `List`, to register `Item` with a parameter named twice,
to look up `Map` and to register it. -/
def changes : List Request :=
  [.register (.str "List") (.list [.str "T"]),
    .register (.str "Item") (.list [.str "A", .str "A"]), .resolve "Map",
    .register (.str "Map") (.list [.str "K", .str "V"])]

/-- `List` is replaced in its place, `Item` stays as it was, and `Map` comes
last. -/
theorem keeps_session_listing :
    listing.build = .ok ⟨[⟨"List", ["E"]⟩, ⟨"Item", []⟩]⟩ ∧
    (Catalog.mk [⟨"List", ["E"]⟩, ⟨"Item", []⟩]).after changes =
      ⟨[⟨"List", ["T"]⟩, ⟨"Item", []⟩, ⟨"Map", ["K", "V"]⟩]⟩ ∧
    Keeps [⟨"List", ["E"]⟩, ⟨"Item", []⟩, ⟨"List", ["T"]⟩, ⟨"Map", ["K", "V"]⟩]
      ⟨[⟨"List", ["T"]⟩, ⟨"Item", []⟩, ⟨"Map", ["K", "V"]⟩]⟩ := by
  have hBuild : listing.build = .ok ⟨[⟨"List", ["E"]⟩, ⟨"Item", []⟩]⟩ :=
    toOption_eq_some_iff.1 (by decide +kernel)
  have hAfter : (Catalog.mk [⟨"List", ["E"]⟩, ⟨"Item", []⟩]).after changes =
      ⟨[⟨"List", ["T"]⟩, ⟨"Item", []⟩, ⟨"Map", ["K", "V"]⟩]⟩ := by
    decide +kernel
  have hLog : empty.registrations listing.requests ++
      (Catalog.mk [⟨"List", ["E"]⟩, ⟨"Item", []⟩]).registrations changes =
        [⟨"List", ["E"]⟩, ⟨"Item", []⟩, ⟨"List", ["T"]⟩,
          ⟨"Map", ["K", "V"]⟩] := by decide +kernel
  obtain ⟨hKeeps, -⟩ := keeps_session hBuild changes
  rw [hLog, hAfter] at hKeeps
  exact ⟨hBuild, hAfter, hKeeps⟩

end Catalog

end JvmTypes
