import JvmTypes.InternalName

/-!
# Type expressions

The syntax tree of a type expression. Each node may carry the span of the text
it was read from. Spans serve error reports only: `Expression.erase` forgets
them, and two trees are the same expression when they agree after that.
-/

namespace JvmTypes

/-- The offsets `[start, stop)` of a piece of the source text. -/
structure Span where
  start : Int
  stop : Int
  deriving DecidableEq, Repr

/-- A reference to a class by its dotted name. -/
structure RawName where
  name : String
  span : Option Span
  deriving DecidableEq, Repr

/-- How a wildcard is bounded. -/
inductive BoundKind where
  | unbounded
  | upper
  | lower
  deriving DecidableEq, Repr

/-- A type expression. An unbounded wildcard read from text has no bounds, and
one bounded from below has a single bound. -/
inductive Expression where
  | primitive (name : String) (span : Option Span)
  | raw (name : RawName)
  | internal (encoded : String) (span : Option Span)
  | array (component : Expression) (span : Option Span)
  | parameterized (raw : RawName) (arguments : List Expression)
      (span : Option Span)
  | wildcard (kind : BoundKind) (bounds : List Expression) (span : Option Span)
  deriving Repr

namespace Expression

instance : Inhabited Expression := ⟨raw ⟨"", none⟩⟩

/-- The span of the whole expression. -/
def span : Expression → Option Span
  | primitive _ s => s
  | raw r => r.span
  | internal _ s => s
  | array _ s => s
  | parameterized _ _ s => s
  | wildcard _ _ s => s

/-- The offset where the expression starts, from its `span`. -/
def position (e : Expression) : Option Int := e.span.map Span.start

/-- Whether the expression is the keyword `void`. -/
def isVoid : Expression → Bool
  | primitive name _ => name = Primitive.void.name
  | _ => false

mutual

/-- The expression without its spans. -/
def erase : Expression → Expression
  | primitive name _ => primitive name none
  | raw r => raw { r with span := none }
  | internal encoded _ => internal encoded none
  | array component _ => array component.erase none
  | parameterized r arguments _ =>
      parameterized { r with span := none } (eraseAll arguments) none
  | wildcard kind bounds _ => wildcard kind (eraseAll bounds) none

/-- The expressions without their spans. -/
def eraseAll : List Expression → List Expression
  | [] => []
  | e :: es => e.erase :: eraseAll es

end

mutual

/-- Whether two expressions agree apart from their spans, decided without
`erase`. -/
def same : Expression → Expression → Bool
  | primitive a _, primitive b _ => a = b
  | raw a, raw b => a.name = b.name
  | internal a _, internal b _ => a = b
  | array a _, array b _ => same a b
  | parameterized a as _, parameterized b bs _ =>
      a.name = b.name && sameAll as bs
  | wildcard j as _, wildcard k bs _ => j = k && sameAll as bs
  | _, _ => false

/-- Whether two lists of expressions agree one by one apart from spans. -/
def sameAll : List Expression → List Expression → Bool
  | [], [] => true
  | a :: as, b :: bs => same a b && sameAll as bs
  | _, _ => false

end

mutual

/-- The test `same` decides equality of the trees without spans. -/
theorem same_iff_erase_eq (a b : Expression) :
    same a b = true ↔ a.erase = b.erase := by
  cases a with
  | primitive => cases b <;> simp [same, erase]
  | raw => cases b <;> simp [same, erase]
  | internal => cases b <;> simp [same, erase]
  | array component =>
      cases b <;> simp [same, erase, same_iff_erase_eq component]
  | parameterized _ arguments =>
      cases b <;> simp [same, erase, sameAll_iff_eraseAll_eq arguments]
  | wildcard _ bounds =>
      cases b <;> simp [same, erase, sameAll_iff_eraseAll_eq bounds]

/-- The test `sameAll` decides equality of the lists without spans. -/
theorem sameAll_iff_eraseAll_eq (as bs : List Expression) :
    sameAll as bs = true ↔ eraseAll as = eraseAll bs := by
  cases as with
  | nil => cases bs <;> simp [sameAll, eraseAll]
  | cons a as =>
      cases bs <;>
        simp [sameAll, eraseAll, same_iff_erase_eq a,
          sameAll_iff_eraseAll_eq as]

end

end Expression

end JvmTypes
