import JvmTypes.Proofs.Denotation

/-!
# The spellings of an array class

An array class can be written by its internal name, with a bracket in front for
each dimension, or by the source name of its element, with a pair of brackets
behind it for each. The two can be mixed: pairs of brackets may also stand
behind an internal name. Reading decodes the brackets in front at once and the
pairs one by one, and both arrive at the class that `ClassType.arrays` builds
up.

The internal name can be written for every class, whatever characters its name
is made of. The source name takes a name of words that are no keywords
(`ClassType.IsSpellable`).

## Main results

* `Scope.denotes_internalText`: internal names denote array classes.
* `Scope.Denotes.brackets`: pairs of brackets add dimensions.
* `Scope.parse_spelling`: all spellings of an array class denote it.
-/

namespace JvmTypes

open Grammar

/-! ## Texts of classes -/

namespace Value

theorem classText_false (c : ClassType) : classText false c = c.name := by
  cases c <;> rfl

theorem classText_true_array (c : ClassType) :
    classText true (.array c) = classText true c ++ "[]" := rfl

end Value

namespace ClassType

/-- Pairs of brackets, `m` of them. -/
def bracketPairs (m : Nat) : String := String.join (List.replicate m "[]")

private theorem bracketPairs_succ (m : Nat) :
    bracketPairs (m + 1) = bracketPairs m ++ "[]" := by
  rw [bracketPairs, List.replicate_succ', String.join_append, bracketPairs]
  rfl

/-- The internal name of `c.arrays n`: a bracket for each of `n` dimensions, and
the descriptor of `c`. -/
def internalText (n : Nat) (c : ClassType) : String :=
  String.ofList (List.replicate n '[') ++ c.descriptor

/-- The `name` of an array class over `c` is its internal name. -/
theorem name_arrays_eq {n : Nat} (hPositive : 0 < n) (c : ClassType) :
    (c.arrays n).name = c.internalText n := by
  obtain ⟨n, rfl⟩ := Nat.exists_eq_succ_of_ne_zero (Nat.ne_of_gt hPositive)
  apply String.toList_injective
  rw [name_arrays, internalText, String.toList_append, String.toList_ofList]

/-- A text for the array class with `k + m` dimensions over a class: the
internal name for `k` of them, or the source name if there are none, and pairs
of brackets for the others. -/
def spelling (k m : Nat) (c : ClassType) : String :=
  (if k = 0 then c.name else c.internalText k) ++ bracketPairs m

private theorem spelling_eq (k m : Nat) (c : ClassType) :
    c.spelling k m = (c.arrays k).name ++ bracketPairs m := by
  rw [spelling]
  split
  · next hZero =>
      subst hZero
      rfl
  · next hPositive => rw [name_arrays_eq (Nat.pos_of_ne_zero hPositive)]

private theorem classText_true_arrays {c : ClassType}
    (hPlain : c.isArray = false) (n : Nat) :
    Value.classText true (c.arrays n) = c.spelling 0 n := by
  induction n with
  | zero =>
      have hText : Value.classText true c = c.name := by
        cases c with
        | array component => cases hPlain
        | _ => rfl
      rw [spelling_eq]
      exact hText.trans String.append_empty.symm
  | succ n ih =>
      have hPairs := bracketPairs_succ n
      rw [arrays_succ, Value.classText_true_array, ih, spelling_eq,
        spelling_eq, hPairs, String.append_assoc]

/-! ## Components -/

/-- The component of an array class, the component of that, and so on, by
`component?`. -/
def components : ClassType → List ClassType
  | array component => component :: component.components
  | _ => []

private theorem length_components {c : ClassType} (hPlain : c.isArray = false)
    (n : Nat) : (c.arrays n).components.length = n := by
  induction n with
  | zero =>
      cases c with
      | array component => cases hPlain
      | _ => rfl
  | succ n ih => rw [arrays_succ, components, List.length_cons, ih]

/-- The last of the `components` is the element. -/
theorem getLast?_components {c : ClassType} (hPlain : c.isArray = false)
    (n : Nat) : (c.arrays (n + 1)).components.getLast? = some c := by
  induction n with
  | zero =>
      cases c with
      | array component => cases hPlain
      | _ => rfl
  | succ n ih =>
      rw [arrays_succ, components, List.getLast?_cons, ih]
      rfl

end ClassType

/-! ## Elements -/

/-- The classes that array classes can be named over: the primitive types
without `void`, and the classes of a catalog. -/
inductive IsArrayElement (catalog : Catalog) : ClassType → Prop
  | primitive {p : Primitive} (hVoid : p ≠ .void) :
      IsArrayElement catalog (.primitive p)
  | declared {d : Declaration} (hFind : catalog.find? d.name = some d)
      (hName : isClassName d.name.toList = true) :
      IsArrayElement catalog (.declared d)

theorem IsArrayElement.isArray {catalog : Catalog} {c : ClassType}
    (hElement : IsArrayElement catalog c) : c.isArray = false := by
  cases hElement <;> rfl

private theorem IsArrayElement.ne_void {catalog : Catalog} {c : ClassType}
    (hElement : IsArrayElement catalog c) (n : Nat) :
    c.arrays n ≠ .primitive .void := by
  cases n with
  | zero =>
      cases hElement with
      | primitive hVoid => simpa [ClassType.arrays] using hVoid
      | declared => simp [ClassType.arrays]
  | succ n => simp [ClassType.arrays_succ]

/-- The classes that can be written by their names: a primitive type is a
keyword, and the name of any other class has to be lexable (`IsLexable`). -/
def ClassType.IsSpellable : ClassType → Prop
  | primitive _ => True
  | declared d => IsLexable d.name.toList
  | array _ => False

/-! ## What the spellings denote -/

namespace Scope

variable {scope : Scope}

/-- A name that `IsLexable` accepts denotes the class of that name. -/
theorem denotes_name {d : Declaration} (hName : IsLexable d.name.toList)
    (hFind : scope.catalog.find? d.name = some d) :
    scope.Denotes d.name (.classType (.declared d)) := by
  refine ⟨_, (textOf_name hName).mono fun _ hName =>
    .bare (.base (.name hName)), ?_⟩
  rw [meaning_raw, scope.lookup?_of_find? hFind]
  rfl

theorem denotes_primitive (p : Primitive) :
    scope.Denotes p.name (.classType (.primitive p)) :=
  ⟨_, (textOf_primitive p).mono fun _ => .bare, scope.meaning_primitive p none⟩

/-- The `internalText` of an element denotes the array class over it. -/
theorem denotes_internalText {c : ClassType}
    (hElement : IsArrayElement scope.catalog c) {n : Nat} (hPositive : 0 < n) :
    scope.Denotes (c.internalText n) (.classType (c.arrays n)) := by
  have hText : (c.internalText n).toList = List.replicate n '[' ++
      c.descriptor.toList := by
    rw [ClassType.internalText, String.toList_append, String.toList_ofList]
  cases hElement with
  | @primitive p hVoid =>
      have hDescriptor : (ClassType.primitive p).descriptor.toList =
          [p.code] := by
        simp [ClassType.descriptor]
      rw [hDescriptor] at hText
      have hInternal :
          InternalName.IsInternalName
            ((ClassType.primitive p).internalText n).toList :=
        ⟨n, [p.code], hPositive, .inl ⟨p, hVoid, rfl⟩, hText⟩
      exact ⟨_, (textOf_internal hInternal).mono fun _ => .bare,
        scope.meaning_internal_primitive none hVoid hText⟩
  | @declared d hFind hName =>
      have hDescriptor : (ClassType.declared d).descriptor.toList =
          InternalName.classDescriptor d.name.toList := by
        simp [ClassType.descriptor, InternalName.classDescriptor]
      rw [hDescriptor] at hText
      have hInternal : InternalName.IsInternalName
          ((ClassType.declared d).internalText n).toList :=
        ⟨n, _, hPositive, .inr ⟨_, (isClassName_iff _).1 hName, rfl⟩, hText⟩
      refine ⟨_, (textOf_internal hInternal).mono fun _ => .bare, ?_⟩
      rw [scope.meaning_internal_class none hText, String.ofList_toList,
        scope.lookup?_of_find? hFind]
      rfl

private theorem denotes_element {c : ClassType}
    (hElement : IsArrayElement scope.catalog c) (hSpellable : c.IsSpellable) :
    scope.Denotes c.name (.classType c) := by
  cases hElement with
  | primitive => exact denotes_primitive _
  | declared hFind => exact denotes_name hSpellable hFind

/-- Each pair of brackets behind a text adds a dimension to the array class that
it `Denotes`. -/
theorem Denotes.brackets {c : ClassType}
    (hElement : IsArrayElement scope.catalog c) {k : Nat} {text : String}
    (hText : scope.Denotes text (.classType (c.arrays k))) (m : Nat) :
    scope.Denotes (text ++ ClassType.bracketPairs m)
      (.classType (c.arrays (k + m))) := by
  induction m with
  | zero =>
      have hNone : text ++ ClassType.bracketPairs 0 = text :=
        String.append_empty
      rw [hNone]
      exact hText
  | succ m ih =>
      have hArray : Composition.arrayOf (.classType (c.arrays (k + m))) =
          .ok (.classType (c.arrays (k + m + 1))) := by
        rw [ClassType.arrays_succ]
        exact Composition.arrayOf_classType_eq_ok_iff.2
          ⟨hElement.ne_void (k + m), rfl⟩
      have hLonger := ih.array rfl hArray
      rw [String.append_assoc, ← ClassType.bracketPairs_succ] at hLonger
      exact hLonger

/-- An array class over a primitive type or a class of the catalog is denoted by
its internal name, which is its text, and has its element for the last of as
many components as it has dimensions. It is denoted as well by every other of
its spellings, among them the text of its source form; if that starts with the
name of the element, the element has to be one that can be written by its
name. -/
theorem parse_spelling (scope : Scope) {c : ClassType}
    (hElement : IsArrayElement scope.catalog c) {n : Nat} (hPositive : 0 < n) :
    (scope.parse (c.internalText n)).result = .ok (.classType (c.arrays n)) ∧
    (Value.classType (c.arrays n)).format false = c.internalText n ∧
    (c.arrays n).components.length = n ∧
    (c.arrays n).components.getLast? = some c ∧
    (∀ k m, k + m = n → (k = 0 → c.IsSpellable) →
      (scope.parse (c.spelling k m)).result = .ok (.classType (c.arrays n))) ∧
    (Value.classType (c.arrays n)).format true = c.spelling 0 n := by
  have hPlain := hElement.isArray
  obtain ⟨dimensions, rfl⟩ :=
    Nat.exists_eq_succ_of_ne_zero (Nat.ne_of_gt hPositive)
  refine ⟨parse_eq_ok_iff_denotes.2 (denotes_internalText hElement hPositive),
    ?_, ClassType.length_components hPlain _,
    ClassType.getLast?_components hPlain dimensions, ?_, ?_⟩
  · rw [Value.format, Value.classText_false, ClassType.name_arrays_eq hPositive]
  · intro k m hSum hSpellable
    have hStart : scope.Denotes (if k = 0 then c.name else c.internalText k)
        (.classType (c.arrays k)) := by
      split
      · next hZero =>
          subst hZero
          exact denotes_element hElement (hSpellable rfl)
      · next hNonzero =>
          exact denotes_internalText hElement (Nat.pos_of_ne_zero hNonzero)
    rw [← hSum]
    exact parse_eq_ok_iff_denotes.2 (hStart.brackets hElement m)
  · rw [Value.format, ClassType.classText_true_arrays hPlain]

/-- `[LList;[]` and `List[][]` denote the array class `[[LList;`. -/
theorem parse_spelling_list :
    let list := ClassType.declared ⟨"List", ["E"]⟩
    IsArrayElement listScope.catalog list ∧ list.IsSpellable ∧
      (listScope.parse "[LList;[]").result =
        .ok (.classType (.array (.array list))) ∧
      (listScope.parse "List[][]").result =
        .ok (.classType (.array (.array list))) := by
  intro list
  have hElement : IsArrayElement listScope.catalog list :=
    .declared (by decide) (by decide +kernel)
  have hSpellable : list.IsSpellable := isLexable_list
  obtain ⟨-, -, -, -, hSpellings, -⟩ :=
    parse_spelling listScope hElement (show 0 < 2 by decide)
  exact ⟨hElement, hSpellable, hSpellings 1 1 rfl (fun _ => hSpellable),
    hSpellings 0 2 rfl (fun _ => hSpellable)⟩

end Scope

end JvmTypes
