import JvmTypes.Proofs.Meaning

/-!
# Adding classes to a catalog

A name without dots can mean a class of the default package, and it stops doing
so once a class of that very name is registered. Nothing else about a catalog
can come between a name and its class: the name itself is tried first, so a new
class of the default package never replaces one that was found, and a class
whose name has a dot is never what a bare name is tried as. Hence classes with
dots in their names can be added without harm to any text that has a value.

## Main results

* `Catalog.ExtendedBy.lookup?`: names keep their meaning.
* `Scope.extends_evaluate`: expressions keep their value, if they have one.
* `Scope.parse_extended`: so do texts.
-/

namespace JvmTypes

/-! ## Computations that yield more -/

namespace Traced

variable {event error α β : Type}

/-- A computation `y` that yields what `x` yields, if that yields anything.
Where `x` fails, it may do as it likes. -/
def Extends (x y : Traced event error α) : Prop :=
  ∀ a, x.value? = some a → y.value? = some a

theorem Extends.refl (x : Traced event error α) : x.Extends x :=
  fun _ hValue => hValue

/-- What comes behind `>>=` is compared only on the value that both yield
first. -/
theorem Extends.bind {x y : Traced event error α}
    {f g : α → Traced event error β} (hFirst : x.Extends y)
    (hNext : ∀ a, (f a).Extends (g a)) : (x >>= f).Extends (y >>= g) := by
  intro b hValue
  rw [value?_bind] at hValue ⊢
  obtain ⟨a, hFound, hRest⟩ := Option.bind_eq_some_iff.1 hValue
  rw [hFirst a hFound, Option.bind_some]
  exact hNext a b hRest

end Traced

/-! ## Extended catalogs -/

namespace Catalog

/-- A catalog that has every class of another unchanged and, besides these, only
classes whose names have a dot. -/
structure ExtendedBy (c c' : Catalog) : Prop where
  keeps : ∀ name d, c.find? name = some d → c'.find? name = some d
  dotted : ∀ name d, c'.find? name = some d → c.find? name = none →
  '.' ∈ name.toList

/-- A catalog is `ExtendedBy` itself with a new class `d` whose name has a
dot. -/
theorem extendedBy_insert {c : Catalog} {d : Declaration}
    (hNew : c.find? d.name = none) (hDot : '.' ∈ d.name.toList) :
    c.ExtendedBy (c.insert d) where
  keeps := by
    intro name known hFind
    have hName : d.name ≠ name := by
      rintro rfl
      rw [hNew] at hFind
      cases hFind
    rw [find?_insert_of_ne c hName]
    exact hFind
  dotted := by
    intro name known hFind hMissing
    by_cases hName : d.name = name
    · exact hName ▸ hDot
    · rw [find?_insert_of_ne c hName, hMissing] at hFind
      cases hFind

variable {c c' : Catalog}

/-- A name without dots that `find?` does not find in a catalog is not found in
an extended one. -/
theorem ExtendedBy.find?_eq_none (hExtended : c.ExtendedBy c') {name : String}
    (hDot : '.' ∉ name.toList) (hMissing : c.find? name = none) :
    c'.find? name = none := by
  rw [Option.eq_none_iff_forall_ne_some]
  intro d hFind
  exact hDot (hExtended.dotted name d hFind hMissing)

/-- A name that `lookup?` finds a class for keeps it. The name itself is tried
first in either catalog; it has no dot if the default package decides, so no
added class can be found before. -/
theorem ExtendedBy.lookup? (hExtended : c.ExtendedBy c') {package name : String}
    {d : Declaration} (hLookup : (Scope.mk c package).lookup? name = some d) :
    (Scope.mk c' package).lookup? name = some d := by
  cases hFind : c.find? name with
  | some known =>
      rw [Scope.lookup?_of_find? _ hFind] at hLookup
      rw [Scope.lookup?_of_find? _ (hExtended.keeps name known hFind)]
      exact hLookup
  | none =>
      rw [Scope.lookup?, hFind, Option.none_or] at hLookup
      by_cases hRetry : name.toList.contains '.' || package = ""
      · rw [if_pos hRetry] at hLookup
        cases hLookup
      · have hDot : '.' ∉ name.toList := by
          intro hMem
          exact hRetry (by simp [hMem])
        rw [if_neg hRetry] at hLookup
        rw [Scope.lookup?, hExtended.find?_eq_none hDot hFind, Option.none_or,
          if_neg hRetry]
        exact hExtended.keeps _ d hLookup

end Catalog

/-! ## Evaluation -/

namespace Scope

variable {c c' : Catalog} {package : String}

private theorem extends_resolveClass (hExtended : c.ExtendedBy c')
    (name : String) (position : Option Int) :
    ((Scope.mk c package).resolveClass name position).Extends
      ((Scope.mk c' package).resolveClass name position) := by
  intro d hValue
  rw [value?_resolveClass] at hValue ⊢
  exact hExtended.lookup? hValue

private theorem extends_evaluateClassArray (hExtended : c.ExtendedBy c')
    (depth : Nat) (descriptor : List Char) (position : Option Int) :
    ((Scope.mk c package).evaluateClassArray depth descriptor position).Extends
      ((Scope.mk c' package).evaluateClassArray depth descriptor position) :=
  (extends_resolveClass hExtended _ _).bind fun _ => .refl _

private theorem extends_evaluateInternal (hExtended : c.ExtendedBy c')
    (encoded : String) (position : Option Int) :
    ((Scope.mk c package).evaluateInternal encoded position).Extends
      ((Scope.mk c' package).evaluateInternal encoded position) := by
  simp only [evaluateInternal]
  split
  · split
    · exact .refl _
    · exact extends_evaluateClassArray hExtended _ _ _
  · exact extends_evaluateClassArray hExtended _ _ _

-- The recursion is that of evaluation. Only the look-ups differ between the two
-- runs.
mutual

/-- An expression that has a value by `evaluate` keeps it. -/
theorem extends_evaluate (hExtended : c.ExtendedBy c') (e : Expression) :
    ((Scope.mk c package).evaluate e).Extends
      ((Scope.mk c' package).evaluate e) := by
  cases e with
  | primitive name span =>
      rw [evaluate, evaluate]
      exact .refl _
  | raw r =>
      rw [evaluate, evaluate]
      exact (extends_resolveClass hExtended _ _).bind fun _ => .refl _
  | internal encoded span =>
      rw [evaluate, evaluate]
      exact extends_evaluateInternal hExtended encoded _
  | array component span =>
      rw [evaluate, evaluate]
      exact (extends_evaluate hExtended component).bind fun _ => .refl _
  | parameterized r arguments span =>
      rw [evaluate, evaluate]
      refine (extends_resolveClass hExtended _ _).bind fun d => ?_
      -- The class is the same in both runs, and so is the number of its
      -- parameters.
      split
      · exact (extends_evaluateAll hExtended arguments).bind fun _ => .refl _
      · exact .refl _
  | wildcard kind bounds span =>
      rw [evaluate, evaluate]
      exact (extends_evaluateAll hExtended bounds).bind fun _ => .refl _

private theorem extends_evaluateAll (hExtended : c.ExtendedBy c')
    (es : List Expression) :
    ((Scope.mk c package).evaluateAll es).Extends
      ((Scope.mk c' package).evaluateAll es) := by
  cases es with
  | nil =>
      rw [evaluateAll, evaluateAll]
      exact .refl _
  | cons e es =>
      rw [evaluateAll, evaluateAll]
      exact (extends_evaluate hExtended e).bind fun _ =>
        (extends_evaluateAll hExtended es).bind fun _ => .refl _

end

/-- A text that denotes a value in a catalog denotes that value in every catalog
that it is `ExtendedBy`: what is added are other classes, and their names have a
dot. -/
theorem parse_extended {c c' : Catalog} (hExtended : c.ExtendedBy c')
    (package text : String) (v : Value)
    (hParse : ((Scope.mk c package).parse text).result = .ok v) :
    ((Scope.mk c' package).parse text).result = .ok v := by
  have hText : ((Scope.mk c package).parse text).Extends
      ((Scope.mk c' package).parse text) :=
    (Traced.Extends.refl _).bind fun e =>
      (extends_evaluate hExtended e).bind fun _ => .refl _
  exact Traced.value?_eq_some_iff.1
    (hText v (Traced.value?_eq_some_iff.2 hParse))

/-- The classes `List<E>` and `app.Item`. -/
def itemCatalog : Catalog := ⟨[⟨"List", ["E"]⟩, ⟨"app.Item", []⟩]⟩

/-- The value of `List<Item>` with `Item` in the package `app`. -/
def listOfItems : Value :=
  .parameterized (.classType (.declared ⟨"List", ["E"]⟩))
    [.classType (.declared ⟨"app.Item", []⟩)]

/-- A new class `app.List` does not take the place of `List`, although `app` is
the default package and `Item` means `app.Item`. -/
theorem parse_extended_list :
    itemCatalog.ExtendedBy (itemCatalog.insert ⟨"app.List", ["K", "V"]⟩) ∧
    ((Scope.mk itemCatalog "app").parse "List<Item>").result = .ok listOfItems ∧
    ((Scope.mk (itemCatalog.insert ⟨"app.List", ["K", "V"]⟩) "app").parse
      "List<Item>").result =
      .ok listOfItems := by
  have hExtended : itemCatalog.ExtendedBy
      (itemCatalog.insert ⟨"app.List", ["K", "V"]⟩) :=
    Catalog.extendedBy_insert (by decide +kernel) (by decide +kernel)
  have hText : Expression.ofText "List<Item>" =
      .ok (.parameterized ⟨"List", some ⟨0, 4⟩⟩
      [.raw ⟨"Item", some ⟨5, 9⟩⟩] (some ⟨0, 10⟩)) := by cbv
  have hParse : ((Scope.mk itemCatalog "app").parse "List<Item>").result =
      .ok listOfItems := by
    rw [result_parse hText]
    rfl
  exact ⟨hExtended, hParse,
    parse_extended hExtended "app" "List<Item>" listOfItems hParse⟩

end Scope

end JvmTypes
