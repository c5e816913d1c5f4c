/-!
# Primitive types

The eight primitive types, the keyword that names each in source text and the
letter that stands for it in an internal array name.
-/

namespace JvmTypes

/-- A primitive type, `void` included. -/
inductive Primitive where
  | void
  | boolean
  | byte
  | short
  | int
  | long
  | float
  | double
  deriving DecidableEq, Repr

namespace Primitive

/-- The keyword of a primitive type. -/
def name : Primitive → String
  | void => "void"
  | boolean => "boolean"
  | byte => "byte"
  | short => "short"
  | int => "int"
  | long => "long"
  | float => "float"
  | double => "double"

/-- The descriptor letter of a primitive type. -/
def code : Primitive → Char
  | void => 'V'
  | boolean => 'Z'
  | byte => 'B'
  | short => 'S'
  | int => 'I'
  | long => 'J'
  | float => 'F'
  | double => 'D'

/-- The primitive types. -/
def all : List Primitive :=
  [void, boolean, byte, short, int, long, float, double]

/-- The primitive type whose `name` is the keyword `text`. -/
def ofName? (text : String) : Option Primitive :=
  all.find? fun p => p.name = text

/-- The primitive type that a descriptor letter stands for as the element of an
array. There is no array of `void`, so its letter stands for nothing. -/
def ofCode? (c : Char) : Option Primitive :=
  (all.filter (· ≠ void)).find? fun p => p.code = c

@[simp] theorem ofName?_name (p : Primitive) : ofName? p.name = some p := by
  cases p <;> decide

theorem name_of_ofName? {text : String} {p : Primitive}
    (hFind : ofName? text = some p) : p.name = text := by
  simpa using List.find?_some hFind

theorem ofCode?_code {p : Primitive} (hVoid : p ≠ void) :
    ofCode? p.code = some p := by
  cases p with
  | void => exact absurd rfl hVoid
  | _ => decide

theorem code_of_ofCode? {c : Char} {p : Primitive}
    (hFind : ofCode? c = some p) : p.code = c ∧ p ≠ void := by
  refine ⟨by simpa using List.find?_some hFind, ?_⟩
  have hMem := List.mem_of_find?_eq_some hFind
  simpa using (List.mem_filter.1 hMem).2

end Primitive

end JvmTypes
