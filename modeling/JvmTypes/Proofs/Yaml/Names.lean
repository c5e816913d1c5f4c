import JvmTypes.Proofs.Yaml.Reading

/-!
# Names as words

Class names and identifiers are words (`isPlain`) in YAML: none of their
characters has a meaning there (`isSafe`). So a name stands for itself unless it
is a spelling of nothing or of a truth value (`isText_of_isClassName`,
`isText_of_isIdentifier`).
-/

namespace JvmTypes.Yaml

/-- Whether a character has no meaning of its own anywhere in a plain scalar. -/
def isSafe (c : Char) : Bool :=
  Token.Scanner.startsPlain true c none && Token.isAllowed c && c ≠ '\uFEFF'

/-- The characters from the no-break space on that are not safe by `isSafe`. -/
def highMarks : List Char := ['\u2028', '\u2029', '\uFEFF', '\uFFFE', '\uFFFF']

private theorem isSafe_of_high {c : Char} (hHigh : 160 ≤ c.toNat)
    (hMark : c ∉ highMarks) : isSafe c := by
  have hNe : ∀ d : Char, d.toNat < 160 → c ≠ d := by
    rintro d hLow rfl
    omega
  simp only [highMarks, List.mem_cons, List.not_mem_nil, or_false,
    not_or] at hMark
  have hAllowed : '\xA0' ≤ c := hHigh
  simp [isSafe, Token.Scanner.startsPlain, Token.isAllowed, endsWord, isBreak,
    hMark, hAllowed, hNe]

/-- A class of characters is safe if its members below the no-break space are
and it holds none of the `highMarks`. -/
theorem isSafe_of_class {p : Char → Bool}
    (hLow : ∀ n < 160, p (Char.ofNat n) → isSafe (Char.ofNat n))
    (hHigh : highMarks.all (!p ·)) {c : Char} (hClass : p c) : isSafe c := by
  by_cases hCode : c.toNat < 160
  · have hHere := hLow c.toNat hCode
    rw [Char.ofNat_toNat] at hHere
    exact hHere hClass
  · refine isSafe_of_high (Nat.le_of_not_lt hCode) fun hMark => ?_
    have hOther := List.all_eq_true.1 hHigh c hMark
    simp [hClass] at hOther

private theorem isSafe_of_isNamePart {c : Char} (hPart : isNamePart c) :
    isSafe c :=
  isSafe_of_class (by decide +kernel) (by decide +kernel) hPart

private theorem isSafe_of_isIdentifierPart {c : Char}
    (hPart : Text.isIdentifierPart c) : isSafe c :=
  isSafe_of_class (by decide +kernel) (by decide +kernel) hPart

private theorem isSafe_of_isIdentifierStart {c : Char}
    (hStart : Text.isIdentifierStart c) : isSafe c :=
  isSafe_of_class (by decide +kernel) (by decide +kernel) hStart

/-- A class of characters starts no number, by `startsNumber`, if none of its
members below the no-break space does. -/
theorem startsNumber_of_class {p : Char → Bool}
    (hLow : ∀ n < 160, p (Char.ofNat n) → startsNumber (Char.ofNat n) = false)
    {c : Char} (hClass : p c) : startsNumber c = false := by
  by_cases hCode : c.toNat < 160
  · have hHere := hLow c.toNat hCode
    rw [Char.ofNat_toNat] at hHere
    exact hHere hClass
  · have hNe : ∀ d : Char, d.toNat < 160 → c ≠ d := by
      rintro d hLow rfl
      exact hCode hLow
    have hDigit : c.isDigit = false := by
      refine Bool.eq_false_iff.2 fun hDigit => hCode ?_
      exact Nat.lt_of_le_of_lt (Char.isDigit_iff_toNat.1 hDigit).2 (by decide)
    simp [startsNumber, hDigit, hNe]

/-- A text of characters that are safe by `isSafe` is a word. -/
theorem isPlain_of_isSafe {cs : List Char} (hNe : cs ≠ [])
    (hSafe : ∀ c ∈ cs, isSafe c) : isPlain cs := by
  have hRun : plainRun true (cs ++ [' ']) = cs := by
    clear hNe
    induction cs with
    | nil => rfl
    | cons c cs ih =>
        have hHere := hSafe c (by simp)
        have hGoes : ∀ next, endsPlain true c next = false := by
          intro next
          simp [isSafe, Token.Scanner.startsPlain, endsWord] at hHere
          simp [endsPlain, hHere]
        rw [List.cons_append, plainRun, hGoes,
          ih fun c hMem => hSafe c (by simp [hMem])]
        rfl
  obtain ⟨c, cs, rfl⟩ := List.exists_cons_of_ne_nil hNe
  simp only [isSafe, Bool.and_eq_true] at hSafe
  simp only [isPlain, Bool.and_eq_true, List.all_eq_true]
  exact ⟨⟨by simpa using (hSafe c (by simp)).1.1, by simpa using hRun⟩,
    fun d hMem => ⟨(hSafe d hMem).1.2, (hSafe d hMem).2⟩⟩

/-- A class name that is no keyword stands for itself, by `isText`. -/
theorem isText_of_isClassName {cs : List Char} (hName : IsClassName cs)
    (hKeyword : isKeyword cs = false) : isText cs := by
  have hSafe : ∀ c ∈ cs, isSafe c := by
    intro c hMem
    have hPart := JvmTypes.Token.isInternalPart_of_mem_isClassName hName c hMem
    simp only [JvmTypes.Token.isInternalPart, Bool.or_eq_true,
      decide_eq_true_eq] at hPart
    rcases hPart with (hPart | rfl) | rfl
    · exact isSafe_of_isNamePart hPart
    · decide
    · decide
  have hScan := (isClassName_iff _).2 hName
  rcases cs with _ | ⟨c, cs⟩
  · cases hScan
  · rw [isClassName, completesClassName, Bool.and_eq_true] at hScan
    have hStart : startsNumber c = false :=
      startsNumber_of_class (p := isSegmentStart) (by decide +kernel) hScan.1
    simp [isText, isPlain_of_isSafe (List.cons_ne_nil c cs) hSafe,
      hStart, hKeyword]

/-- An identifier that is no keyword stands for itself, by `isText`. -/
theorem isText_of_isIdentifier {name : String}
    (hIdentifier : Text.isIdentifier name)
    (hKeyword : isKeyword name.toList = false) : isText name.toList := by
  rw [Text.isIdentifier] at hIdentifier
  cases hText : name.toList with
  | nil => simp [hText] at hIdentifier
  | cons c cs =>
      simp only [hText, Bool.and_eq_true,
        List.all_eq_true] at hIdentifier hKeyword
      have hSafe : ∀ d ∈ c :: cs, isSafe d :=
        List.forall_mem_cons.2 ⟨isSafe_of_isIdentifierStart hIdentifier.1,
          fun d hMem => isSafe_of_isIdentifierPart (hIdentifier.2 d hMem)⟩
      have hStart : startsNumber c = false :=
        startsNumber_of_class (p := Text.isIdentifierStart)
          (by decide +kernel) hIdentifier.1
      simp [isText, isPlain_of_isSafe (List.cons_ne_nil c cs) hSafe,
        hStart, hKeyword]

end JvmTypes.Yaml
