/-!
# Paths

A path is a root, which is empty for a relative path, and a list of parts.
Empty parts and parts that are a single dot are dropped; a part that leads
upwards is kept, since what it leads to depends on links.
-/

namespace JvmTypes

/-- A path. -/
structure Path where
  root : String
  parts : List String
  deriving DecidableEq, Repr

namespace Path

/-- The root of a path: two slashes at its start are a root of their own, and
any other number of slashes counts as one. -/
def rootOf (text : List Char) : String :=
  match (text.takeWhile (· = '/')).length with
  | 0 => ""
  | 2 => "//"
  | _ => "/"

/-- The path that a text names. -/
def ofString (text : String) : Path :=
  ⟨rootOf text.toList,
    ((text.toList.splitOn '/').map String.ofList).filter fun part => part ≠
      "" && part ≠ "."⟩

/-- The text of a path; a path without root and parts is `.`. -/
def text (p : Path) : String :=
  if p.root = "" ∧ p.parts = [] then "." else p.root ++ "/".intercalate p.parts

/-- Whether a path has a root. -/
def isAbsolute (p : Path) : Bool := p.root ≠ ""

/-- The path `p` as seen from `base`, which does not matter if `p` is
absolute. -/
def under (p base : Path) : Path :=
  if p.isAbsolute then p else ⟨base.root, base.parts ++ p.parts⟩

/-- The path without the last of its `parts`. -/
def parent (p : Path) : Path := { p with parts := p.parts.dropLast }

end Path

end JvmTypes
