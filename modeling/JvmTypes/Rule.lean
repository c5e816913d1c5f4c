import JvmTypes.Text.Quoted

/-!
# Rules bound once

A named place for a rule that is bound after it is first referred to. It can be
used only once it is bound, and bound only once.
-/

namespace JvmTypes

/-- A named place for a rule. -/
structure RuleCell (α : Type) where
  name : String
  rule : Option α

namespace RuleCell

/-- Why a rule cannot be used or bound. -/
inductive Fault where
  | unbound (name : String)
  | alreadyBound (name : String)
  deriving DecidableEq, Repr

/-- The wording of a `Fault`. -/
def Fault.text : Fault → String
  | unbound name =>
      "grammar rule " ++ Text.quoted name ++ " used before being bound"
  | alreadyBound name =>
      "grammar rule " ++ Text.quoted name ++ " is already bound"

variable {α : Type}

/-- A place without a rule. -/
def empty (name : String) : RuleCell α := ⟨name, none⟩

/-- The rule of a place; without one, the place is `unbound`. -/
def get (cell : RuleCell α) : Except Fault α :=
  match cell.rule with
  | some rule => .ok rule
  | none => .error (.unbound cell.name)

/-- The place with a rule put in; it must be free. -/
def bind (cell : RuleCell α) (rule : α) : Except Fault (RuleCell α) :=
  match cell.rule with
  | some _ => .error (.alreadyBound cell.name)
  | none => .ok { cell with rule := some rule }

end RuleCell

end JvmTypes
