import JvmTypes.Proofs.WellFormed

/-!
# Classes told apart by their names

Classes are compared by name alone, although a class is more than its name: it
is declared, primitive or an array class, and a declared one has parameters.
Over a catalog that was registered, without the name of a primitive type,
nothing is lost by that. The reason lies in the spelling: no class name starts
with a bracket, and the first letter of a descriptor tells which kind of class
is meant.

## Main results

* `Declaration.read_eq_ok_iff`: which registrations a catalog accepts.
* `Catalog.isClassName_of_registerAll`: registered classes have class names.
* `nominal_isClass`: the classes over such a catalog, array classes of any
  dimension included, are told apart by their names.
* `nominal_withObject`: so are they together with `Object`, which the composite
  values mention whether or not it was registered.
* `nominal_registered`: both, for a catalog made by registering.
-/

namespace JvmTypes

/-! ## Classes told apart by their names -/

/-- Classes that their `name` tells apart, with the array classes over them. -/
structure Nominal (known : ClassType → Prop) : Prop where
  eq_of_name {c d : ClassType} (hFirst : known c) (hSecond : known d)
    (hName : c.name = d.name) :
    c = d
  array {c : ClassType} (hKnown : known c) (hVoid : c ≠ .primitive .void) :
  known (.array c)

/-! ## Accepted registrations -/

namespace Declaration

theorem readName_eq_ok_iff {document : Document} {name : String} :
    readName document = .ok name ↔ document = .str name ∧
    isClassName name.toList = true := by
  cases document with
  | str text =>
      rw [readName]
      split <;> grind
  | _ => simp [readName]

theorem readParameter_eq_ok_iff {owner : String} {document : Document}
    {parameter : String} :
    readParameter owner document = .ok parameter ↔
      document = .str parameter ∧ Text.isIdentifier parameter = true := by
  cases document with
  | str text =>
      rw [readParameter]
      split <;> grind
  | _ => simp [readParameter]

/-- The parameters are read by `readParameter` one by one, and the first that is
no identifier ends the reading. -/
theorem mapM_readParameter_eq_ok_iff {owner : String} {listed : List Document}
    {parameters : List String} :
    listed.mapM (readParameter owner) = .ok parameters ↔
      listed = parameters.map .str ∧
      ∀ p ∈ parameters, Text.isIdentifier p = true := by
  induction listed generalizing parameters with
  | nil =>
      rw [List.mapM_nil]
      constructor
      · intro hRead
        cases hRead
        simp
      · rintro ⟨hListed, -⟩
        rw [List.map_eq_nil_iff.1 hListed.symm]
        rfl
  | cons document listed ih =>
      rw [List.mapM_cons]
      constructor
      · intro hRead
        obtain ⟨p, hFirst, hRead⟩ := exists_of_bind_eq_ok hRead
        obtain ⟨ps, hRest, hRead⟩ := exists_of_bind_eq_ok hRead
        cases hRead
        obtain ⟨rfl, hIdentifier⟩ := readParameter_eq_ok_iff.1 hFirst
        obtain ⟨rfl, hIdentifiers⟩ := ih.1 hRest
        exact ⟨rfl, List.forall_mem_cons.2 ⟨hIdentifier, hIdentifiers⟩⟩
      · rintro ⟨hListed, hIdentifiers⟩
        cases parameters with
        | nil => cases hListed
        | cons p ps =>
            obtain ⟨rfl, hRest⟩ := List.cons_eq_cons.1 hListed
            obtain ⟨hIdentifier, hRestIdentifiers⟩ :=
              List.forall_mem_cons.1 hIdentifiers
            rw [readParameter_eq_ok_iff.2 ⟨rfl, hIdentifier⟩,
              ih.2 ⟨hRest, hRestIdentifiers⟩]
            rfl

/-- A class is accepted by `read` under a class name, with a list of identifiers
that differ from each other as its parameters. -/
theorem read_eq_ok_iff {name parameters : Document} {d : Declaration} :
    read name parameters = .ok d ↔
      name = .str d.name ∧ isClassName d.name.toList = true ∧
        readListed d.name parameters = .ok (d.parameters.map .str) ∧
        (∀ p ∈ d.parameters, Text.isIdentifier p = true) ∧
        d.parameters.Nodup := by
  rw [read]
  constructor
  · intro hRead
    obtain ⟨text, hName, hAfterName⟩ := exists_of_bind_eq_ok hRead
    obtain ⟨listed, hListed, hAfterList⟩ := exists_of_bind_eq_ok hAfterName
    obtain ⟨texts, hTexts, hChecked⟩ := exists_of_bind_eq_ok hAfterList
    obtain ⟨rfl, hIdentifiers⟩ := mapM_readParameter_eq_ok_iff.1 hTexts
    obtain ⟨rfl, hClassName⟩ := readName_eq_ok_iff.1 hName
    by_cases hNodup : texts.Nodup
    · rw [if_pos hNodup] at hChecked
      cases hChecked
      exact ⟨rfl, hClassName, hListed, hIdentifiers, hNodup⟩
    · rw [if_neg hNodup] at hChecked
      cases hChecked
  · rintro ⟨rfl, hClassName, hListed, hIdentifiers, hNodup⟩
    have hTexts : (d.parameters.map Document.str).mapM (readParameter d.name) =
        .ok d.parameters :=
      mapM_readParameter_eq_ok_iff.2 ⟨rfl, hIdentifiers⟩
    rw [readName_eq_ok_iff.2 ⟨rfl, hClassName⟩]
    simp only [bind, Except.bind, hListed, hTexts, if_pos hNodup]

theorem name_of_read {name parameters : Document} {d : Declaration}
    (hRead : read name parameters = .ok d) : readName name = .ok d.name := by
  obtain ⟨hName, hClassName, -⟩ := read_eq_ok_iff.1 hRead
  exact readName_eq_ok_iff.2 ⟨hName, hClassName⟩

/-- A class can be registered only under a name that `isClassName` accepts. -/
theorem isClassName_of_read {name parameters : Document} {d : Declaration}
    (hRead : read name parameters = .ok d) : isClassName d.name.toList = true :=
  (read_eq_ok_iff.1 hRead).2.1

end Declaration

namespace Catalog

/-- `registerAll` keeps all names of a catalog class names. -/
theorem isClassName_of_registerAll {entries : List (Document × Document)}
    {before after : Catalog}
    (hBefore : ∀ name ∈ before.names, isClassName name.toList = true)
    (hRegister : before.registerAll entries = .ok after) :
    ∀ name ∈ after.names, isClassName name.toList = true := by
  induction entries generalizing before with
  | nil =>
      cases hRegister
      exact hBefore
  | cons entry entries ih =>
      rw [registerAll, register] at hRegister
      cases hRead : Declaration.read entry.1 entry.2 with
      | error e => simp [hRead, bind, Except.bind] at hRegister
      | ok d =>
          simp only [hRead, bind, Except.bind] at hRegister
          refine ih (fun name hMem => ?_) hRegister
          rw [names_insert] at hMem
          split at hMem
          · exact hBefore name hMem
          · rcases List.mem_append.1 hMem with hOld | hNew
            · exact hBefore name hOld
            · rw [List.mem_singleton.1 hNew]
              exact Declaration.isClassName_of_read hRead

end Catalog

namespace Primitive

theorem code_ne (p : Primitive) : p.code ≠ 'L' ∧ p.code ≠ '[' := by
  cases p <;> decide

theorem code_injective (p : Primitive) {q : Primitive}
    (hCode : p.code = q.code) : p = q := by
  cases p <;> cases q <;> first | rfl | exact absurd hCode (by decide)

end Primitive

namespace ClassType

private theorem head?_name_array (c : ClassType) :
    (array c).name.toList.head? = some '[' := by
  rw [name_array, String.toList_append]
  rfl

private theorem head?_name_primitive (p : Primitive) :
    (primitive p).name.toList.head? ≠ some '[' := by
  cases p <;> decide

private theorem head?_name_declared {d : Declaration}
    (hName : isClassName d.name.toList = true) :
    (declared d).name.toList.head? ≠ some '[' := by
  rw [name]
  intro hHead
  obtain ⟨rest, hText⟩ := List.head?_eq_some_iff.1 hHead
  rw [hText] at hName
  rw [isClassName, completesClassName, Bool.and_eq_true] at hName
  exact absurd hName.1 (by decide)

/-- The first letter of the `descriptor` of a class. -/
def initial : ClassType → Char
  | primitive p => p.code
  | declared _ => 'L'
  | array _ => '['

private theorem head?_descriptor (c : ClassType) :
    c.descriptor.toList.head? = some c.initial := by
  cases c with
  | primitive p => simp [descriptor, initial]
  | declared d => simp [descriptor, initial]
  | array c => exact head?_name_array c

/-- Classes with one `descriptor` have one name: its first letter tells their
kind. -/
theorem name_of_descriptor {c d : ClassType}
    (hText : c.descriptor = d.descriptor) : c.name = d.name := by
  have hInitial : c.initial = d.initial := by
    rw [← Option.some.injEq, ← head?_descriptor, ← head?_descriptor, hText]
  cases c with
  | primitive p =>
      cases d with
      | primitive q => rw [p.code_injective hInitial]
      | declared e => exact absurd hInitial p.code_ne.1
      | array d => exact absurd hInitial p.code_ne.2
  | declared e =>
      cases d with
      | primitive q => exact absurd hInitial.symm q.code_ne.1
      | declared e' =>
          have hTexts : InternalName.classDescriptor e.name.toList =
              InternalName.classDescriptor e'.name.toList := by
            simpa [descriptor, InternalName.classDescriptor]
              using congrArg String.toList hText
          have hBodies := congrArg InternalName.body hTexts
          rw [InternalName.body_classDescriptor,
            InternalName.body_classDescriptor] at hBodies
          exact String.toList_inj.1 hBodies
      | array d => exact absurd hInitial (show 'L' ≠ '[' by decide)
  | array c =>
      cases d with
      | primitive q => exact absurd hInitial.symm q.code_ne.2
      | declared e => exact absurd hInitial (show '[' ≠ 'L' by decide)
      | array d => exact hText

end ClassType

section Catalogs

variable {catalog : Catalog}
  (hNames : ∀ name ∈ catalog.names, isClassName name.toList = true)
  (hPrimitive : ∀ p : Primitive, p.name ∉ catalog.names)

private theorem Catalog.mem_names_of_find? {d : Declaration}
    (hFind : catalog.find? d.name = some d) : d.name ∈ catalog.names :=
  List.mem_map_of_mem (List.mem_of_find?_eq_some hFind)

include hPrimitive in
private theorem Catalog.name_ne_of_find? {d : Declaration}
    (hFind : catalog.find? d.name = some d) (p : Primitive) :
    d.name ≠ p.name := by
  intro hName
  exact hPrimitive p (hName ▸ mem_names_of_find? hFind)

include hNames in
private theorem IsClass.head?_name {c : ClassType} (hClass : IsClass catalog c)
    (hPlain : c.isArray = false) : c.name.toList.head? ≠ some '[' := by
  cases hClass with
  | primitive p => exact ClassType.head?_name_primitive p
  | declared hFind =>
      exact ClassType.head?_name_declared
        (hNames _ (Catalog.mem_names_of_find? hFind))
  | array => cases hPlain

include hNames hPrimitive in
/-- Over a catalog of class names none of which is that of a primitive type, a
name has a single class. -/
theorem IsClass.eq_of_name {c d : ClassType} (hFirst : IsClass catalog c)
    (hSecond : IsClass catalog d) (hName : c.name = d.name) : c = d := by
  induction hFirst generalizing d with
  | primitive p =>
      cases hSecond with
      | primitive q =>
          have hFind := congrArg Primitive.ofName? hName
          simp only [ClassType.name, Primitive.ofName?_name,
            Option.some.injEq] at hFind
          rw [hFind]
      | declared hFind =>
          exact absurd hName.symm (Catalog.name_ne_of_find? hPrimitive hFind p)
      | array =>
          exact absurd (hName ▸ ClassType.head?_name_array _)
            (ClassType.head?_name_primitive p)
  | @declared e hFind =>
      cases hSecond with
      | primitive q =>
          exact absurd hName (Catalog.name_ne_of_find? hPrimitive hFind q)
      | @declared e' hFind' =>
          obtain rfl : e = e' := by
            rw [show e.name = e'.name from hName, hFind'] at hFind
            exact (Option.some.inj hFind).symm
          rfl
      | array =>
          exact absurd (hName ▸ ClassType.head?_name_array _)
            ((IsClass.declared hFind).head?_name hNames rfl)
  | @array c _ _ ih =>
      have hHead := hName ▸ c.head?_name_array
      cases hSecond with
      | primitive q => exact absurd hHead (ClassType.head?_name_primitive q)
      | declared hFind =>
          exact absurd hHead ((IsClass.declared hFind).head?_name hNames rfl)
      | @array d hComponent _ =>
          rw [ClassType.name_array, ClassType.name_array] at hName
          have hDescriptor : c.descriptor = d.descriptor :=
            (String.append_right_inj "[").1 hName
          rw [ih hComponent (ClassType.name_of_descriptor hDescriptor)]

include hNames hPrimitive in
/-- Classes over a catalog, by `IsClass`, are told apart by their names. -/
theorem nominal_isClass : Nominal (IsClass catalog) where
  eq_of_name hFirst hSecond hName :=
  hFirst.eq_of_name hNames hPrimitive hSecond hName
  array hKnown hVoid := .array hKnown hVoid

end Catalogs

/-! ## Object beside a catalog -/

/-- The catalog with the class `Object`, without parameters. -/
def Catalog.withObject (catalog : Catalog) : Catalog :=
  catalog.insert ⟨ClassType.object.name, []⟩

variable {catalog : Catalog}

private theorem Catalog.mem_names_withObject {name : String}
    (hMem : name ∈ catalog.withObject.names) :
    name ∈ catalog.names ∨ name = ClassType.object.name := by
  rw [withObject, names_insert] at hMem
  split at hMem
  · exact .inl hMem
  · exact (List.mem_append.1 hMem).imp_right List.mem_singleton.1

private theorem isClass_object : IsClass catalog.withObject .object :=
  .declared (catalog.find?_insert_self _)

/-- If `Object` takes no parameters, it can be added beside the classes of a
catalog. -/
theorem IsClass.withObject
    (hObject : ∀ d, catalog.find? ClassType.object.name = some d →
      d.parameters = [])
    {c : ClassType} (hClass : IsClass catalog c) :
    IsClass catalog.withObject c := by
  induction hClass with
  | primitive p => exact .primitive p
  | array _ hVoid ih => exact .array ih hVoid
  | @declared d hFind =>
      by_cases hName : ClassType.object.name = d.name
      · have hParameters := hObject d (hName ▸ hFind)
        obtain rfl : (⟨ClassType.object.name, []⟩ : Declaration) = d := by
          cases d
          simp_all
        exact isClass_object
      · exact .declared ((catalog.find?_insert_of_ne hName).trans hFind)

theorem nominal_withObject
    (hNames : ∀ name ∈ catalog.names, isClassName name.toList = true)
    (hPrimitive : ∀ p : Primitive, p.name ∉ catalog.names) :
    Nominal (IsClass catalog.withObject) := by
  refine nominal_isClass (fun name hMem => ?_) fun p hMem => ?_
  · rcases Catalog.mem_names_withObject hMem with hOld | rfl
    · exact hNames name hOld
    · decide +kernel
  · rcases Catalog.mem_names_withObject hMem with hOld | hName
    · exact hPrimitive p hOld
    · cases p <;> exact absurd hName (by decide)

/-- The classes over a registered catalog without the name of a primitive type
are told apart by their names, and so are they together with `Object` unless
that takes parameters there. -/
theorem nominal_registered {entries : List (Document × Document)}
    (hRegister : Catalog.empty.registerAll entries = .ok catalog)
    (hPrimitive : ∀ p : Primitive, p.name ∉ catalog.names) :
    Nominal (IsClass catalog) ∧
      ((∀ d, catalog.find? ClassType.object.name = some d → d.parameters = []) →
        Nominal (IsClass catalog.withObject) ∧
        IsClass catalog.withObject .object ∧
          ∀ c, IsClass catalog c → IsClass catalog.withObject c) := by
  have hEmpty : ∀ name ∈ Catalog.empty.names,
      isClassName name.toList = true := by
    simp [Catalog.names, Catalog.empty]
  have hNames := Catalog.isClassName_of_registerAll hEmpty hRegister
  refine ⟨nominal_isClass hNames hPrimitive, fun hObject => ?_⟩
  exact ⟨nominal_withObject hNames hPrimitive, isClass_object,
    fun c => IsClass.withObject hObject⟩

end JvmTypes
