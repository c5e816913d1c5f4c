import JvmTypes.Value.Format

/-!
# Events

What the library reports while it works, besides its results.
-/

namespace JvmTypes

/-- How much an event matters. -/
inductive Severity where
  | debug
  | info
  deriving DecidableEq, Repr

/-- What happens while classes are loaded and type expressions are read, so far
as it is logged. -/
inductive Event where
  | retrying (name qualified : String)
  | parsed (text : String) (value : Value)
  | loaded (count : Nat) (source : String)

/-- How much an event matters. -/
def Event.severity : Event → Severity
  | retrying .. => .debug
  | parsed .. => .debug
  | loaded .. => .info

/-- The wording of an event. -/
def Event.text : Event → String
  | retrying name qualified => "retrying " ++ name ++ " as " ++ qualified
  | parsed text value => "parsed " ++ Text.quoted text ++ " as " ++ value.text
  | loaded count source =>
      "loaded " ++ toString count ++ " classes from " ++ source

end JvmTypes
