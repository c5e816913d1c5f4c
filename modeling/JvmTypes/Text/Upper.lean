import JvmTypes.Text.UpperTable

/-!
# Upper case

Each character is capitalised on its own, whatever stands beside it.
-/

namespace JvmTypes.Text

/-- The capital of one character, which can be several characters. -/
def upperChar (c : Char) : List Char :=
  match Range.find? upperExpansions c.toNat with
  | some range => range.tag.map Char.ofNat
  | none =>
      match Range.find? upperShifts c.toNat with
      | some range =>
          if (c.toNat - range.first) % range.tag.step = 0 then
            [Char.ofNat (c.toNat + range.tag.shift).toNat]
          else [c]
      | none => [c]

/-- The text in capitals, each character by `upperChar`. -/
def upper (text : List Char) : List Char := text.flatMap upperChar

end JvmTypes.Text
