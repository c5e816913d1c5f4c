import Mathlib.Data.List.DropRight
import JvmTypes.Settings
import JvmTypes.Proofs.Scanning

/-!
# The default package of settings

Settings give the default package as a text that may have blanks around it and
dots at its end. Every text spells just one name that has none of them
(`bareName_eq`). What is kept of the text is that name if the text has no blank
in front of its last dots: blanks are dropped on both sides first, then dots at
the end, and then no blanks any more. Of `a .` the blank behind `a` is kept. It
is dropped when the text that was kept is read again, and until then no class is
found in the package, as no name of a class has a blank in it.

## Main results

* `Settings.packageName_eq_bareName_iff`: which texts are kept as the name that
  they spell.
* `Settings.packageName_eq_self_iff`: which names stay as they are.
* `Settings.defaultPackage_ofEntries`: the same for settings, with the classes
  found.
-/

namespace JvmTypes

open Text

/-! ## Texts that are cut at their end -/

namespace Text

variable {p : Char → Bool} {front back text : List Char}

private theorem exists_dropEndWhile_append (p : Char → Bool)
    (text : List Char) :
    ∃ back, text = dropEndWhile p text ++ back ∧ ∀ c ∈ back, p c = true :=
  ⟨text.rtakeWhile p, List.rdropWhile_append_rtakeWhile.symm,
    fun _ => List.mem_rtakeWhile_imp⟩

private theorem getLast?_dropEndWhile {c : Char}
    (hLast : (dropEndWhile p text).getLast? = some c) : p c = false := by
  rw [dropEndWhile, List.getLast?_reverse] at hLast
  exact Token.head?_dropWhile text.reverse hLast

private theorem dropEndWhile_append (hBack : ∀ c ∈ back, p c = true)
    (front : List Char) :
    dropEndWhile p (front ++ back) = dropEndWhile p front := by
  have hReverse : ∀ c ∈ back.reverse, p c = true :=
    fun c hMem => hBack c (List.mem_reverse.1 hMem)
  rw [dropEndWhile, List.reverse_append,
    List.dropWhile_append_of_pos hReverse, dropEndWhile]

private theorem dropEndWhile_eq_self
    (hLast : ∀ c, text.getLast? = some c → p c = false) :
    dropEndWhile p text = text := by
  refine List.rdropWhile_eq_self_iff.2 fun hNonempty => ?_
  simpa using hLast _ (List.getLast?_eq_some_getLast hNonempty)

private theorem dropBlanks_append (hFront : ∀ c ∈ front, isBlank c = true)
    (back : List Char) : dropBlanks (front ++ back) = dropBlanks back :=
  List.dropWhile_append_of_pos hFront

private theorem dropBlanks_eq_self
    (hHead : ∀ c, text.head? = some c → isBlank c = false) :
    dropBlanks text = text := by
  cases text with
  | nil => rfl
  | cons c cs =>
      rw [dropBlanks, List.dropWhile_cons_of_neg (by simp [hHead c rfl])]

/-- A core is all that is left when `dropBlanks` cuts off blanks in front of it,
and `dropEndWhile` what is behind it. -/
theorem dropEndWhile_dropBlanks {core : List Char}
    (hFront : ∀ c ∈ front, isBlank c = true) (hBack : ∀ c ∈ back, p c = true)
    (hHead : ∀ c, core.head? = some c → isBlank c = false) :
    dropEndWhile p (dropBlanks (front ++ core ++ back)) =
      dropEndWhile p core := by
  rw [List.append_assoc, dropBlanks_append hFront]
  cases core with
  | nil =>
      -- Nothing stops the blanks in front, so some of those behind may be gone
      -- already.
      have hRest : ∀ c ∈ dropBlanks back, p c = true := fun c hMem =>
        hBack c ((List.dropWhile_suffix _).subset hMem)
      exact dropEndWhile_append hRest []
  | cons c cs =>
      have hWhole : ∀ d, (c :: cs ++ back).head? = some d →
          isBlank d = false := hHead
      rw [dropBlanks_eq_self hWhole, dropEndWhile_append hBack]

end Text

namespace Settings

/-! ## The name that a text spells -/

/-- The characters that can stand behind the name of a package. -/
def isEdge (c : Char) : Bool := isBlank c || c = '.'

/-- A name of a package without blanks around it and without dots at its end. -/
structure IsBare (name : String) : Prop where
  head : ∀ c, name.toList.head? = some c → isBlank c = false
  last : ∀ c, name.toList.getLast? = some c → isEdge c = false

/-- The name of a package that a text spells: the text without blanks in front
and without the edge (`isEdge`) behind. -/
def bareName (text : String) : String :=
  String.ofList (dropEndWhile isEdge (dropBlanks text.toList))

/-- Blanks in front of a name and blanks and dots behind it are no part of the
`bareName`. -/
theorem bareName_append {text name : String} {front back : List Char}
    (hText : text.toList = front ++ name.toList ++ back)
    (hFront : ∀ c ∈ front, isBlank c = true)
    (hBack : ∀ c ∈ back, isEdge c = true)
    (hHead : ∀ c, name.toList.head? = some c → isBlank c = false) :
    bareName text = String.ofList (dropEndWhile isEdge name.toList) := by
  rw [bareName, hText, dropEndWhile_dropBlanks hFront hBack hHead]

/-- A text spells no other name that is `IsBare`. -/
theorem bareName_eq {text name : String} {front back : List Char}
    (hText : text.toList = front ++ name.toList ++ back)
    (hFront : ∀ c ∈ front, isBlank c = true)
    (hBack : ∀ c ∈ back, isEdge c = true) (hBare : IsBare name) :
    bareName text = name := by
  rw [bareName_append hText hFront hBack hBare.head,
    dropEndWhile_eq_self hBare.last, String.ofList_toList]

private theorem bareName_of_isBare {name : String} (hBare : IsBare name) :
    bareName name = name := by
  have hAlone : name.toList = [] ++ name.toList ++ [] := by simp
  exact bareName_eq hAlone (by simp) (by simp) hBare

private theorem isBare_bareName (text : String) : IsBare (bareName text) := by
  rw [bareName]
  refine ⟨fun c hHead => ?_, fun c hLast => ?_⟩
  · rw [String.toList_ofList] at hHead
    obtain ⟨back, hText, -⟩ :=
      exists_dropEndWhile_append isEdge (dropBlanks text.toList)
    have hFirst : (dropBlanks text.toList).head? = some c := by
      rw [hText, List.head?_append, hHead, Option.some_or]
    exact Token.head?_dropWhile text.toList hFirst
  · rw [String.toList_ofList] at hLast
    exact getLast?_dropEndWhile hLast

/-! ## What is kept of a text -/

/-- A name in a text that has blanks around it, and dots only right behind
it. -/
def IsSetOff (text name : String) : Prop :=
  ∃ front dots back, text.toList = front ++ name.toList ++ (dots ++ back) ∧
    (∀ c ∈ front, isBlank c = true) ∧ (∀ c ∈ dots, c = '.') ∧
    ∀ c ∈ back, isBlank c = true

private theorem isEdge_of_isSetOff {dots back : List Char}
    (hDots : ∀ c ∈ dots, c = '.') (hBack : ∀ c ∈ back, isBlank c = true) :
    ∀ c ∈ dots ++ back, isEdge c = true := by
  intro c hMem
  rw [isEdge, Bool.or_eq_true, decide_eq_true_eq]
  rcases List.mem_append.1 hMem with hDot | hBlank
  · exact .inr (hDots c hDot)
  · exact .inl (hBack c hBlank)

private theorem toList_packageName (text : String) : (packageName text).toList =
    dropEndWhile (· = '.') (dropEndWhile isBlank (dropBlanks text.toList)) := by
  rw [packageName, String.toList_ofList, strip]

/-- The dots behind the `packageName` that is kept, and the blanks behind
these. -/
theorem exists_cut (text : String) :
    ∃ dots back,
      dropEndWhile isBlank (dropBlanks text.toList) =
        (packageName text).toList ++ dots ∧
      dropBlanks text.toList = (packageName text).toList ++ (dots ++ back) ∧
      (∀ c ∈ dots, c = '.') ∧ ∀ c ∈ back, isBlank c = true := by
  obtain ⟨dots, hStrip, hDots⟩ :=
    exists_dropEndWhile_append (· = '.')
      (dropEndWhile isBlank (dropBlanks text.toList))
  obtain ⟨back, hRest, hBack⟩ :=
    exists_dropEndWhile_append isBlank (dropBlanks text.toList)
  rw [← toList_packageName] at hStrip
  refine ⟨dots, back, hStrip, ?_, by simpa using hDots, hBack⟩
  rw [← List.append_assoc, ← hStrip, ← hRest]

/-- The `packageName` that is kept is set off in the text. -/
theorem isSetOff_packageName (text : String) :
    IsSetOff text (packageName text) := by
  obtain ⟨dots, back, -, hRest, hDots, hBack⟩ := exists_cut text
  refine ⟨text.toList.takeWhile isBlank, dots, back, ?_,
    fun c => List.mem_takeWhile_imp, hDots,
    hBack⟩
  rw [List.append_assoc, ← hRest, dropBlanks, List.takeWhile_append_dropWhile]

private theorem head_packageName {text : String} {c : Char}
    (hHead : (packageName text).toList.head? = some c) : isBlank c = false := by
  obtain ⟨dots, back, -, hRest, -⟩ := exists_cut text
  have hFirst : (dropBlanks text.toList).head? = some c := by
    rw [hRest, List.head?_append, hHead, Option.some_or]
  exact Token.head?_dropWhile text.toList hFirst

private theorem last_packageName (text : String) :
    (packageName text).toList.getLast? ≠ some '.' := by
  intro hLast
  rw [toList_packageName] at hLast
  simpa using getLast?_dropEndWhile hLast

/-- The `packageName` that is kept spells the same name as the text. -/
theorem bareName_packageName (text : String) :
    bareName (packageName text) = bareName text := by
  obtain ⟨front, dots, back, hText, hFront, hDots, hBack⟩ :=
    isSetOff_packageName text
  have hAlone : (packageName text).toList = [] ++
      (packageName text).toList ++ [] := by simp
  rw [bareName_append hText hFront (isEdge_of_isSetOff hDots hBack) fun _ =>
    head_packageName]
  exact bareName_append hAlone (by simp) (by simp) fun _ => head_packageName

/-- A name that `IsBare` and is set off is kept by `packageName`. -/
theorem packageName_eq {text name : String} (hSetOff : IsSetOff text name)
    (hBare : IsBare name) : packageName text = name := by
  obtain ⟨front, dots, back, hText, hFront, hDots, hBack⟩ := hSetOff
  have hDot : isBlank '.' = false := by decide
  have hDotted : ∀ c ∈ dots, decide (c = '.') = true := by simpa using hDots
  have hLast : ∀ c, name.toList.getLast? = some c →
      isBlank c = false ∧ c ≠ '.' := by
    intro c hName
    simpa [isEdge] using hBare.last c hName
  have hCoreHead : ∀ c, (name.toList ++ dots).head? = some c →
      isBlank c = false := by
    intro c hHead
    rw [List.head?_append, Option.or_eq_some_iff] at hHead
    rcases hHead with hName | ⟨-, hMem⟩
    · exact hBare.head c hName
    · exact hDots c (List.mem_of_head? hMem) ▸ hDot
  have hCoreLast : ∀ c, (name.toList ++ dots).getLast? = some c →
      isBlank c = false := by
    intro c hEnd
    rw [List.getLast?_append, Option.or_eq_some_iff] at hEnd
    rcases hEnd with hMem | ⟨-, hName⟩
    · exact hDots c (List.mem_of_getLast? hMem) ▸ hDot
    · exact (hLast c hName).1
  refine String.toList_injective ?_
  rw [toList_packageName, hText, ← List.append_assoc, List.append_assoc front,
    dropEndWhile_dropBlanks hFront hBack hCoreHead,
    dropEndWhile_eq_self hCoreLast,
    dropEndWhile_append hDotted, dropEndWhile_eq_self fun c hName => ?_]
  simpa using (hLast c hName).2

/-- A text is kept as its `bareName` exactly if that name is set off in it. -/
theorem packageName_eq_bareName_iff (text : String) :
    packageName text = bareName text ↔ IsSetOff text (bareName text) := by
  constructor
  · intro hKept
    rw [← hKept]
    exact isSetOff_packageName text
  · intro hSetOff
    exact packageName_eq hSetOff (isBare_bareName text)

/-- A text that is not kept as its `bareName` is kept with a blank at the
end. -/
theorem last_packageName_iff (text : String) :
    (∀ c, (packageName text).toList.getLast? = some c → isBlank c = false) ↔
      packageName text = bareName text := by
  constructor
  · intro hLast
    have hBare : IsBare (packageName text) := by
      refine ⟨fun _ => head_packageName, fun c hEnd => ?_⟩
      have hDot : c ≠ '.' := by
        rintro rfl
        exact last_packageName text hEnd
      simp [isEdge, hLast c hEnd, hDot]
    rw [← bareName_packageName]
    exact (bareName_of_isBare hBare).symm
  · intro hKept c hEnd
    rw [hKept] at hEnd
    have hEdge := (isBare_bareName text).last c hEnd
    rw [isEdge, Bool.or_eq_false_iff] at hEdge
    exact hEdge.1

/-- The texts that `packageName` keeps as they are. -/
theorem packageName_eq_self_iff {text : String} :
    packageName text = text ↔ IsBare text := by
  constructor
  · intro hSelf
    -- Nothing is cut off, so the blanks at the end are none either.
    obtain ⟨dots, back, hStrip, -⟩ := exists_cut text
    rw [hSelf] at hStrip
    have hLength : (dropEndWhile isBlank (dropBlanks text.toList)).length ≤
        text.toList.length :=
      (List.rdropWhile_prefix isBlank _).length_le.trans
        (List.dropWhile_suffix isBlank).length_le
    rw [hStrip, List.length_append] at hLength
    obtain rfl : dots = [] := List.eq_nil_of_length_eq_zero (by omega)
    rw [List.append_nil] at hStrip
    refine ⟨fun c hHead => ?_, fun c hLast => ?_⟩
    · rw [← hSelf] at hHead
      exact head_packageName hHead
    · have hDot : c ≠ '.' := by
        rintro rfl
        exact last_packageName text (hSelf.symm ▸ hLast)
      have hBlank : isBlank c = false := by
        rw [← hStrip] at hLast
        exact getLast?_dropEndWhile hLast
      simp [isEdge, hBlank, hDot]
  · intro hBare
    exact packageName_eq ⟨[], [], [], by simp, by simp, by simp, by simp⟩ hBare

/-- What `packageName` keeps is kept again exactly if it is the `bareName` of
the text. -/
theorem packageName_packageName_iff (text : String) :
    packageName (packageName text) = packageName text ↔
    packageName text = bareName text := by
  rw [packageName_eq_self_iff]
  constructor
  · intro hBare
    rw [← bareName_packageName, bareName_of_isBare hBare]
  · intro hKept
    rw [hKept]
    exact isBare_bareName text

/-! ## The classes that are found -/

/-- Where all names are class names by `isClassName`, nothing is found in a
package with a blank in its name. -/
theorem find?_of_blank {catalog : Catalog}
    (hNames : ∀ name ∈ catalog.names, isClassName name.toList = true)
    {package : String} {c : Char} (hMem : c ∈ package.toList)
    (hBlank : isBlank c = true) (name : String) :
    catalog.find? (package ++ "." ++ name) = none := by
  refine List.find?_eq_none.2 fun d hClass hName => ?_
  have hQualified : d.name = package ++ "." ++ name := by simpa using hName
  have hClassName :=
    (isClassName_iff _).1 (hNames d.name (List.mem_map_of_mem hClass))
  have hPart : Token.isInternalPart c = true := by
    refine Token.isInternalPart_of_mem_isClassName hClassName c ?_
    simp [hQualified, hMem]
  rw [(Token.isInternalPart_of_isBlank hBlank).1] at hPart
  cases hPart

private theorem result_resolveClass_of_unfound {catalog : Catalog}
    {package name : String}
    (hUnfound : catalog.find? (package ++ "." ++ name) = none)
    (position : Option Int) :
    ((Scope.mk catalog package).resolveClass name position).result =
      ((Scope.mk catalog "").resolveClass name position).result := by
  unfold Scope.resolveClass
  cases catalog.find? name with
  | some d => rfl
  | none =>
      dsimp only
      rw [hUnfound]
      split <;> simp [Traced.emit, Traced.fail]

/-- Settings that give the default package as a text keep its `packageName`. -/
theorem ofEntries_of_text {entries : List (Document × Document)} {text : String}
    (hText : Document.lookup "default_package" entries = some (.str text))
    (base : Option Path) :
    ∃ source, ofEntries entries base = .ok ⟨packageName text, source⟩ := by
  rw [ofEntries, hText]
  exact ⟨_, rfl⟩

/-- What settings keep of the text of a default package is a part of it, set off
by blanks and dots, that starts with no blank and ends with no dot. If the name
that the text spells is set off in it, this is what is kept, and it is kept
again when it is read again; so classes are looked up in the package of that
name. Otherwise a blank is left at the end. Then something else is kept when
this is read again, and classes are found as if there was no default package. -/
theorem defaultPackage_ofEntries {entries : List (Document × Document)}
    {text : String}
    (hText : Document.lookup "default_package" entries = some (.str text))
    (base : Option Path) :
    ∃ settings, ofEntries entries base = .ok settings ∧
      IsSetOff text settings.defaultPackage ∧
      (∀ c, settings.defaultPackage.toList.head? = some c → isBlank c = false) ∧
      settings.defaultPackage.toList.getLast? ≠ some '.' ∧
      (IsSetOff text (bareName text) →
        settings.defaultPackage = bareName text ∧
        IsBare settings.defaultPackage ∧
        (∀ again base,
          Document.lookup "default_package" again =
            some (.str settings.defaultPackage) →
            ∃ source, ofEntries again base =
              .ok ⟨settings.defaultPackage, source⟩) ∧
        ∀ (catalog : Catalog) (name : String) (position : Option Int),
          (Scope.mk catalog settings.defaultPackage).resolveClass
            name position =
            (Scope.mk catalog (bareName text)).resolveClass name position) ∧
      (¬ IsSetOff text (bareName text) →
        (∃ c, settings.defaultPackage.toList.getLast? = some c ∧
          isBlank c = true) ∧
        (∀ again base,
          Document.lookup "default_package" again =
            some (.str settings.defaultPackage) →
            ∃ other, ofEntries again base = .ok other ∧
              other.defaultPackage ≠ settings.defaultPackage) ∧
        ∀ catalog : Catalog,
          (∀ name ∈ catalog.names, isClassName name.toList = true) →
          ∀ (name : String) (position : Option Int),
            ((Scope.mk catalog settings.defaultPackage).resolveClass name
              position).result =
              ((Scope.mk catalog "").resolveClass name position).result) := by
  obtain ⟨source, hSettings⟩ := ofEntries_of_text hText base
  refine ⟨_, hSettings, isSetOff_packageName text, fun _ => head_packageName,
    last_packageName text, fun hSetOff => ?_, fun hNot => ?_⟩
  · have hKept := (packageName_eq_bareName_iff text).2 hSetOff
    dsimp only
    refine ⟨hKept, hKept ▸ isBare_bareName text, fun again base hAgain => ?_,
      fun catalog name position => by rw [hKept]⟩
    obtain ⟨source, hOther⟩ := ofEntries_of_text hAgain base
    rw [(packageName_packageName_iff text).2 hKept] at hOther
    exact ⟨source, hOther⟩
  · have hKept : packageName text ≠ bareName text := fun hSame =>
      hNot ((packageName_eq_bareName_iff text).1 hSame)
    have hBlank : ∃ c, (packageName text).toList.getLast? = some c ∧
        isBlank c = true := by
      simpa using mt (last_packageName_iff text).1 hKept
    refine ⟨hBlank, fun again base hAgain => ?_,
      fun catalog hNames name position => ?_⟩
    · obtain ⟨source, hOther⟩ := ofEntries_of_text hAgain base
      exact ⟨_, hOther, mt (packageName_packageName_iff text).1 hKept⟩
    · obtain ⟨c, hLast, hBlank⟩ := hBlank
      exact result_resolveClass_of_unfound
        (find?_of_blank hNames (List.mem_of_getLast? hLast) hBlank name)
          position

/-- The mapping that gives a default package and nothing else. -/
def packageEntries (text : String) : List (Document × Document) :=
  [(.str "default_package", .str text)]

private theorem lookup_packageEntries (text : String) :
    Document.lookup "default_package" (packageEntries text) =
      some (.str text) := rfl

/-- A catalog of one class, in the package `a`. -/
def singleClass : Catalog := ⟨[⟨"a.X", []⟩]⟩

private theorem bareName_dotted :
    bareName " a.. " = "a" ∧ packageName " a.. " = "a" := by decide +kernel

private theorem bareName_spaced :
    bareName "a ." = "a" ∧ packageName "a ." = "a " := by decide +kernel

private theorem isClassName_singleClass :
    ∀ name ∈ singleClass.names, isClassName name.toList = true := by
  decide +kernel

/-- Two dots behind `a` are dropped, and so are the blanks around all. A blank
in front of a dot is kept, and `X` is not found in the package. -/
theorem defaultPackage_ofEntries_dots :
    (∃ settings, ofEntries (packageEntries " a.. ") none = .ok settings ∧
      settings.defaultPackage = "a" ∧ IsBare settings.defaultPackage) ∧
    ∃ settings, ofEntries (packageEntries "a .") none = .ok settings ∧
      ((Scope.mk singleClass settings.defaultPackage).resolveClass "X"
        none).result =
        .error (.classNotFound "X" none) := by
  have hDotted : IsSetOff " a.. " (bareName " a.. ") := by
    rw [← packageName_eq_bareName_iff, bareName_dotted.1, bareName_dotted.2]
  have hSpaced : ¬ IsSetOff "a ." (bareName "a .") := by
    rw [← packageName_eq_bareName_iff, bareName_spaced.1, bareName_spaced.2]
    decide
  obtain ⟨dotted, hOfDotted, -, -, -, hKept, -⟩ :=
    defaultPackage_ofEntries (lookup_packageEntries " a.. ") none
  obtain ⟨spaced, hOfSpaced, -, -, -, -, hLeft⟩ :=
    defaultPackage_ofEntries (lookup_packageEntries "a .") none
  obtain ⟨hName, hBare, -⟩ := hKept hDotted
  obtain ⟨-, -, hFinds⟩ := hLeft hSpaced
  exact ⟨⟨dotted, hOfDotted, hName.trans bareName_dotted.1, hBare⟩,
    spaced, hOfSpaced,
    hFinds singleClass isClassName_singleClass "X" none⟩

/-- In `a .` the blank is kept: what is kept ends with a blank, is changed when
it is read again, and makes the class `X` of the package `a` miss. -/
theorem defaultPackage_spaced :
    ofEntries (packageEntries "a .") none = .ok ⟨"a ", .bundled⟩ ∧
    ("a ".toList.getLast? = some ' ' ∧ isBlank ' ' = true) ∧
    ofEntries (packageEntries "a ") none = .ok ⟨"a", .bundled⟩ ∧
    ((Scope.mk singleClass "a ").resolveClass "X" none).result =
      .error (.classNotFound "X" none) ∧
    ((Scope.mk singleClass "a").resolveClass "X" none).result =
      .ok ⟨"a.X", []⟩ := by
  have hAgain : packageName "a " = "a" := by decide +kernel
  refine ⟨?_, by decide, ?_, rfl, rfl⟩
  · show Except.ok (Settings.mk (packageName "a .") .bundled) = _
    rw [bareName_spaced.2]
  · show Except.ok (Settings.mk (packageName "a ") .bundled) = _
    rw [hAgain]

end Settings

end JvmTypes
