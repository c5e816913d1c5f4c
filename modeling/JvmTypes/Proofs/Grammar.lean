import JvmTypes.Expression.Reader
import JvmTypes.Proofs.ClassName

/-!
# The grammar of type expressions

The grammar as a derivation system, independent of any way to read it. It
relates the *lexemes* of a type expression, each a kind with its text, to the
syntax tree that they make; offsets play no part, so every span of a derived
tree is missing.

    Type      := Wildcard | Bare
    Bare      := Base ("[" "]")*            no brackets behind `void`
    Base      := keyword | Name | internal array name
               | Name "<" Argument ("," Argument)* ">"
    Name      := word ("." word)*
    Argument  := Type, but no bare primitive
    Wildcard  := "?" | "?" extends Bound ("&" Bound)* | "?" super Bound
    Bound     := Bare, but no bare primitive

The texts of punctuation do not count, so they are arbitrary in the rules. A
keyword is its own text.

## Main results

* `IsBare.isWildcard` and `IsWildcard.isWildcard`: the two ways to derive a type
  make different trees.
* `IsBare.getLast?`: what the lexemes of a type other than a wildcard can end
  with.
-/

namespace JvmTypes

/-- What the grammar sees of a token: its `kind` and its text, not its place. -/
structure Lexeme where
  kind : Token.Kind
  text : String
  deriving DecidableEq, Repr

/-- What the grammar sees of a token, as a `Lexeme`. -/
def Token.lexeme (token : Token) : Lexeme := ⟨token.kind, token.value⟩

@[simp] theorem Token.lexeme_eq_iff {token : Token} {kind : Token.Kind}
    {text : String} :
    token.lexeme = ⟨kind, text⟩ ↔ token.kind = kind ∧ token.value = text := by
  simp [Token.lexeme]

namespace Expression

/-- Whether an expression is the keyword of a primitive type. -/
def isPrimitive : Expression → Bool
  | primitive .. => true
  | _ => false

/-- Whether an expression is a wildcard. -/
def isWildcard : Expression → Bool
  | wildcard .. => true
  | _ => false

@[simp] theorem isPrimitive_erase (e : Expression) :
    e.erase.isPrimitive = e.isPrimitive := by
  cases e <;> rfl

@[simp] theorem isWildcard_erase (e : Expression) :
    e.erase.isWildcard = e.isWildcard := by
  cases e <;> rfl

@[simp] theorem isVoid_erase (e : Expression) : e.erase.isVoid = e.isVoid := by
  cases e <;> rfl

theorem eraseAll_eq_map (es : List Expression) :
    eraseAll es = es.map erase := by
  induction es with
  | nil => rfl
  | cons e es ih => rw [eraseAll, ih, List.map_cons]

theorem checkArgument_eq_ok {e : Expression} :
    e.checkArgument = .ok () ↔ e.isPrimitive = false := by
  cases e <;> simp [checkArgument, isPrimitive]

theorem checkBound_eq_ok {e : Expression} :
    e.checkBound = .ok () ↔ e.isWildcard = false ∧ e.isPrimitive = false := by
  cases e <;> simp [checkBound, isPrimitive, isWildcard]

end Expression

namespace Grammar

/-- `Name := word ("." word)*` -/
inductive IsName : List Lexeme → String → Prop
  | word (text : String) : IsName [⟨.ident, text⟩] text
  | dotted {ls : List Lexeme} {name : String} (dot text : String)
      (hName : IsName ls name) :
      IsName (ls ++ [⟨.dot, dot⟩, ⟨.ident, text⟩]) (name ++ "." ++ text)

mutual

/-- `Type := Wildcard | Bare` -/
inductive IsType : List Lexeme → Expression → Prop
  | wildcard {ls : List Lexeme} {e : Expression} (hWildcard : IsWildcard ls e) :
      IsType ls e
  | bare {ls : List Lexeme} {e : Expression} (hBare : IsBare ls e) : IsType ls e

/-- `Wildcard := "?" | "?" extends Bound ("&" Bound)* | "?" super Bound` -/
inductive IsWildcard : List Lexeme → Expression → Prop
  | unbounded (mark : String) :
      IsWildcard [⟨.question, mark⟩] (.wildcard .unbounded [] none)
  | upper {ls : List Lexeme} {es : List Expression} (mark word : String)
      (hBounds : IsBounds ls es) :
      IsWildcard (⟨.question, mark⟩ :: ⟨.extendsWord, word⟩ :: ls)
        (.wildcard .upper es none)
  | lower {ls : List Lexeme} {e : Expression} (mark word : String)
      (hBare : IsBare ls e) (hPrimitive : e.isPrimitive = false) :
      IsWildcard (⟨.question, mark⟩ :: ⟨.superWord, word⟩ :: ls)
        (.wildcard .lower [e] none)

/-- `Bare := Base ("[" "]")*`, without brackets behind `void` -/
inductive IsBare : List Lexeme → Expression → Prop
  | base {ls : List Lexeme} {e : Expression} (hBase : IsBase ls e) : IsBare ls e
  | array {ls : List Lexeme} {e : Expression} (opening closing : String)
      (hBare : IsBare ls e) (hVoid : e.isVoid = false) :
      IsBare (ls ++ [⟨.lbracket, opening⟩, ⟨.rbracket, closing⟩])
        (.array e none)

/-- `Base := keyword | Name | internal array name`, or
`Name "<" Argument ("," Argument)* ">"`. -/
inductive IsBase : List Lexeme → Expression → Prop
  | primitive (p : Primitive) :
      IsBase [⟨.primitive p, p.name⟩] (.primitive p.name none)
  | name {ls : List Lexeme} {name : String} (hName : IsName ls name) :
      IsBase ls (.raw ⟨name, none⟩)
  | internal {text : String}
      (hInternal : InternalName.IsInternalName text.toList) :
      IsBase [⟨.internalName, text⟩] (.internal text none)
  | parameterized {ls ms : List Lexeme} {name : String} {es : List Expression}
      (opening closing : String) (hName : IsName ls name)
      (hArguments : IsArguments ms es) :
      IsBase (ls ++ ⟨.lt, opening⟩ :: (ms ++ [⟨.gt, closing⟩]))
        (.parameterized ⟨name, none⟩ es none)

/-- `Argument ("," Argument)*`, where an argument is a type but no bare
primitive -/
inductive IsArguments : List Lexeme → List Expression → Prop
  | one {ls : List Lexeme} {e : Expression} (hType : IsType ls e)
      (hPrimitive : e.isPrimitive = false) : IsArguments ls [e]
  | more {ls ms : List Lexeme} {e : Expression} {es : List Expression}
      (comma : String) (hType : IsType ls e)
      (hPrimitive : e.isPrimitive = false) (hRest : IsArguments ms es) :
      IsArguments (ls ++ ⟨.comma, comma⟩ :: ms) (e :: es)

/-- `Bound ("&" Bound)*`, where a bound is a bare type but no bare primitive -/
inductive IsBounds : List Lexeme → List Expression → Prop
  | one {ls : List Lexeme} {e : Expression} (hBare : IsBare ls e)
      (hPrimitive : e.isPrimitive = false) : IsBounds ls [e]
  | more {ls ms : List Lexeme} {e : Expression} {es : List Expression}
      (amp : String) (hBare : IsBare ls e) (hPrimitive : e.isPrimitive = false)
      (hRest : IsBounds ms es) :
      IsBounds (ls ++ ⟨.amp, amp⟩ :: ms) (e :: es)

end

/-! ## The two ways to derive a type -/

theorem IsWildcard.isWildcard {ls : List Lexeme} {e : Expression}
    (hWildcard : IsWildcard ls e) : e.isWildcard = true := by
  cases hWildcard <;> rfl

theorem IsBare.isWildcard {ls : List Lexeme} {e : Expression}
    (hBare : IsBare ls e) : e.isWildcard = false := by
  cases hBare with
  | base hBase => cases hBase <;> rfl
  | array => rfl

/-- A type that `IsType` derives and whose tree is no wildcard is derived by
`IsBare`. -/
theorem IsType.toBare {ls : List Lexeme} {e : Expression} (hType : IsType ls e)
    (hTree : e.isWildcard = false) : IsBare ls e := by
  cases hType with
  | wildcard hWildcard => exact absurd hWildcard.isWildcard (by simp [hTree])
  | bare hBare => exact hBare

theorem IsArguments.ne_nil {ls : List Lexeme} {es : List Expression}
    (hArguments : IsArguments ls es) : es ≠ [] := by
  cases hArguments <;> simp

/-! ## What a bare type ends with -/

/-- The last lexeme of a dotted name (`IsName`) is a word. -/
theorem IsName.getLast? {ls : List Lexeme} {name : String}
    (hName : IsName ls name) : ∃ text, ls.getLast? = some ⟨.ident, text⟩ := by
  cases hName with
  | word => exact ⟨_, rfl⟩
  | dotted dot text _ => exact ⟨text, by simp⟩

/-- The last lexeme of a bare type (`IsBare`) is no opening bracket, and if it
is an internal array name, that name is complete. -/
theorem IsBare.getLast? {ls : List Lexeme} {e : Expression}
    (hBare : IsBare ls e) :
    ∃ l, ls.getLast? = some l ∧ l.kind ≠ .lbracket ∧
      (l.kind = .internalName → InternalName.IsInternalName l.text.toList) := by
  cases hBare with
  | array opening closing =>
      exact ⟨⟨.rbracket, closing⟩, by simp, by simp, by simp⟩
  | base hBase =>
      cases hBase with
      | primitive p => exact ⟨_, rfl, by simp, by simp⟩
      | name hName =>
          obtain ⟨text, hLast⟩ := hName.getLast?
          exact ⟨⟨.ident, text⟩, hLast, by simp, by simp⟩
      | internal hInternal => exact ⟨_, rfl, by simp, fun _ => hInternal⟩
      | parameterized opening closing hName hArguments =>
          refine ⟨⟨.gt, closing⟩, ?_, by simp, by simp⟩
          rw [← List.cons_append, ← List.append_assoc, List.getLast?_concat]

end Grammar

end JvmTypes
