import JvmTypes.Proofs.Scanning
import JvmTypes.Yaml.Token

/-!
# Words on their lines

How the readers of scalars go over a text that is known. A word (`isPlain`) is
read as it stands, up to a mark that ends it (`plainParts_mark`) or to the end
of its line (`plainParts_line`); what is in quotes (`isQuotable`) is read up to
the closing quote (`quotedScalar_append`). Behind the end of a line the place
goes on to the first word of the next one (`Cursor.atLine`), which can stand at
a column that is not too deep (`Follows`).
-/

namespace JvmTypes.Yaml

/-! ## Places -/

namespace Cursor

/-- Whether a character takes one column of its line, as `Cursor.next`
counts. -/
def isInline (c : Char) : Bool := !isBreak c && c ≠ '\uFEFF'

private theorem skip_append {cs : List Char} (hInline : ∀ c ∈ cs, isInline c)
    (rest : List Char) (i l k : Nat) :
    skip cs.length ⟨cs ++ rest, i, l, k⟩ =
      ⟨rest, i + cs.length, l, k + cs.length⟩ := by
  induction cs generalizing i k with
  | nil => simp [skip]
  | cons c cs ih =>
      have hHere : isBreak c = false ∧ c ≠ '\uFEFF' := by
        simpa [isInline] using hInline c (by simp)
      have hNext : next ⟨c :: (cs ++ rest), i, l, k⟩ =
          ⟨cs ++ rest, i + 1, l, k + 1⟩ := by
        simp [next, hHere]
      rw [List.length_cons, List.cons_append, skip, hNext,
        ih fun d hMem => hInline d (by simp [hMem])]
      simp only [Nat.add_assoc, Nat.add_comm 1]

/-- A run of characters that satisfy `p`, up to one that does not. -/
theorem span_append {p : Char → Bool} {cs rest : List Char}
    (hInline : ∀ c ∈ cs, isInline c) (hAll : ∀ c ∈ cs, p c)
    (hEnd : ∀ c, rest.head? = some c → p c = false) (i l k : Nat) :
    span p ⟨cs ++ rest, i, l, k⟩ =
      (cs, ⟨rest, i + cs.length, l, k + cs.length⟩) := by
  simp only [span, takeWhile_append_of_all hAll rest hEnd, skip_append hInline]

/-- The place of the first word of a line. -/
def atLine (rest : List Char) (i l : Nat) : Cursor :=
  (⟨rest, i, l, 0⟩ : Cursor).skipWhile (· = ' ')

@[simp] theorem atLine_nil (i l : Nat) : atLine [] i l = ⟨[], i, l, 0⟩ := rfl

theorem skipWhile_spaces (m : Nat) {c : Char} (hWord : c ≠ ' ')
    (rest : List Char) (i l k : Nat) :
    skipWhile (· = ' ') ⟨List.replicate m ' ' ++ c :: rest, i, l, k⟩ =
      ⟨c :: rest, i + m, l, k + m⟩ := by
  rw [skipWhile, span_append] <;> simp_all [isInline, isBreak]

private theorem atLine_spaces (m : Nat) {c : Char} (hWord : c ≠ ' ')
    (rest : List Char) (i l : Nat) :
    atLine (List.replicate m ' ' ++ c :: rest) i l =
      ⟨c :: rest, i + m, l, m⟩ := by
  rw [atLine, skipWhile_spaces m hWord, Nat.zero_add]

end Cursor

/-! ## Words -/

/-- Whether a text is a word: a plain scalar wherever it stands. Its first
character starts one (`Token.Scanner.startsPlain`) whatever comes next, and
nothing in it ends one (`plainRun`), in a flow collection or outside. -/
def isPlain (cs : List Char) : Bool :=
  cs.head?.any (Token.Scanner.startsPlain true · none) &&
    plainRun true (cs ++ [' ']) = cs &&
    cs.all fun c => Token.isAllowed c && c ≠ '\uFEFF'

/-- Whether a character stands for itself inside the quotes that `quotedScalar`
reads. -/
def isQuotable (c : Char) : Bool :=
  (c = ' ' || !isQuotedSpecial c) && Token.isAllowed c && c ≠ '\uFEFF'

private theorem endsPlain_mono {inFlow : Bool} {x : Char} {next : Option Char}
    (hEnds : endsPlain inFlow x next) : endsPlain true x next := by
  cases inFlow with
  | true => exact hEnds
  | false => grind [endsPlain]

/-- Of the next character only a colon makes `endsPlain` take notice. -/
theorem endsPlain_next {x : Char} (hColon : x ≠ ':') (inFlow : Bool)
    (next next' : Option Char) :
    endsPlain inFlow x next = endsPlain inFlow x next' := by
  simp [endsPlain, hColon]

/-- A text that nothing ends is what `plainRun` yields in front of any mark that
ends it. -/
theorem plainRun_append {cs : List Char}
    (hRun : plainRun true (cs ++ [' ']) = cs) (inFlow : Bool) {x : Char}
    {rest : List Char} (hEnd : endsPlain inFlow x rest.head?) :
    plainRun inFlow (cs ++ x :: rest) = cs := by
  induction cs with
  | nil => simp [plainRun, hEnd]
  | cons c cs ih =>
      simp only [List.cons_append, plainRun] at hRun
      split at hRun
      · cases hRun
      · rename_i hGoes
        have hHere : endsPlain true c (cs ++ x :: rest).head? = false := by
          cases cs with
          | cons d cs => simpa using hGoes
          | nil =>
              have hColon : c ≠ ':' := by
                rintro rfl
                exact hGoes (by decide)
              rw [endsPlain_next hColon true _ ([] ++ [' ']).head?]
              simpa using hGoes
        rw [List.cons_append, plainRun, if_neg, ih (List.cons.inj hRun).2]
        exact fun hEnds =>
          Bool.false_ne_true (hHere.symm.trans (endsPlain_mono hEnds))

private theorem endsWord_of_plainRun {cs : List Char}
    (hRun : plainRun true (cs ++ [' ']) = cs) :
    ∀ c ∈ cs, endsWord (some c) = false := by
  induction cs with
  | nil => simp
  | cons c cs ih =>
      simp only [List.cons_append, plainRun] at hRun
      split at hRun
      · cases hRun
      · rename_i hGoes
        simp only [List.mem_cons, forall_eq_or_imp]
        refine ⟨?_, ih (List.cons.inj hRun).2⟩
        simp only [endsPlain, endsWord, Bool.or_eq_true, not_or] at hGoes ⊢
        simp_all

section

variable {cs : List Char} (hPlain : isPlain cs)

include hPlain

private theorem plainRun_of_isPlain : plainRun true (cs ++ [' ']) = cs := by
  simp only [isPlain, Bool.and_eq_true] at hPlain
  simpa using hPlain.1.2

theorem startsPlain_of_isPlain :
    ∃ c rest, cs = c :: rest ∧ Token.Scanner.startsPlain true c none := by
  simp only [isPlain, Bool.and_eq_true] at hPlain
  cases cs with
  | nil => simp at hPlain
  | cons c rest => exact ⟨c, rest, rfl, by simpa using hPlain.1.1⟩

theorem endsWord_of_isPlain : ∀ c ∈ cs, endsWord (some c) = false :=
  endsWord_of_plainRun (plainRun_of_isPlain hPlain)

theorem isAllowed_of_isPlain : ∀ c ∈ cs, Token.isAllowed c ∧ c ≠ '\uFEFF' := by
  simp only [isPlain, Bool.and_eq_true, List.all_eq_true] at hPlain
  simpa using hPlain.2

theorem isInline_of_isPlain : ∀ c ∈ cs, Cursor.isInline c := by
  intro c hMem
  have hWord := endsWord_of_isPlain hPlain c hMem
  have hAllowed := isAllowed_of_isPlain hPlain c hMem
  simp only [endsWord, Bool.or_eq_false_iff] at hWord
  simp [Cursor.isInline, hWord.2, hAllowed.2]

private theorem ne_nil_of_isPlain : cs ≠ [] := by
  obtain ⟨c, rest, rfl, -⟩ := startsPlain_of_isPlain hPlain
  exact List.cons_ne_nil c rest

theorem head?_of_isPlain : cs.head? ≠ some '#' := by
  obtain ⟨c, rest, rfl, hStart⟩ := startsPlain_of_isPlain hPlain
  rintro ⟨⟩
  exact absurd hStart (by decide)

/-- A word with its colon is no mark between documents for `atDocumentMark`,
which a blank ends. -/
theorem atDocumentMark_key (rest : List Char) (i l k : Nat) :
    (⟨cs ++ ':' :: rest, i, l, k⟩ : Cursor).atDocumentMark = false := by
  have hWord := endsWord_of_isPlain hPlain
  have hColon : endsWord (some ':') = false := by decide
  rcases cs with _ | ⟨a, _ | ⟨b, _ | ⟨c, _ | ⟨d, cs⟩⟩⟩⟩ <;>
    simp_all [Cursor.atDocumentMark, Cursor.ahead]

end

/-! ## The next line -/

/-- What can stand behind a line of a block at a column: nothing, or a line that
starts with a key at this column or before it. -/
inductive Follows (column : Nat) : List Char → Prop where
  | nothing : Follows column []
  | line {m : Nat} (hDepth : m ≤ column) {key : List Char} (hKey : isPlain key)
      (rest : List Char) :
      Follows column (List.replicate m ' ' ++ (key ++ ':' :: rest))

theorem Follows.mono {n m : Nat} {rest : List Char} (hFollows : Follows n rest)
    (hLe : n ≤ m) : Follows m rest := by
  cases hFollows with
  | nothing => exact .nothing
  | line hDepth hKey rest => exact .line (Nat.le_trans hDepth hLe) hKey rest

/-- The first word of a line: its key, at its column. -/
theorem atLine_key {key : List Char} (hKey : isPlain key) (m : Nat)
    (rest : List Char) (i l : Nat) :
    Cursor.atLine (List.replicate m ' ' ++ (key ++ ':' :: rest)) i l =
      ⟨key ++ ':' :: rest, i + m, l, m⟩ := by
  obtain ⟨c, key, rfl, -⟩ := startsPlain_of_isPlain hKey
  have hWord := endsWord_of_isPlain hKey c (by simp)
  exact Cursor.atLine_spaces m (by rintro rfl; simp [endsWord] at hWord) _ i l

section

variable {n : Nat} {rest : List Char} (hFollows : Follows n rest)

include hFollows

private theorem atDocumentMark_of_follows (i l k : Nat) :
    (⟨rest, i, l, k⟩ : Cursor).atDocumentMark = false := by
  cases hFollows with
  | nothing => rfl
  | @line m _ key hKey rest =>
      cases m with
      | zero => exact atDocumentMark_key hKey rest i l k
      | succ m => simp [Cursor.atDocumentMark, List.replicate_succ]

theorem column_atLine (i l : Nat) : (Cursor.atLine rest i l).column ≤ n := by
  cases hFollows with
  | nothing => exact Nat.zero_le n
  | line hDepth hKey rest => rwa [atLine_key hKey]

theorem length_atLine (i l : Nat) :
    (Cursor.atLine rest i l).rest.length ≤ rest.length := by
  cases hFollows with
  | nothing => exact Nat.le_refl 0
  | line hDepth hKey rest =>
      rw [atLine_key hKey]
      simp only [List.length_append]
      omega

/-- At the first word of a line, or at the end of the text, `lineBreak?` finds
none. -/
theorem lineBreak?_atLine (i l : Nat) :
    (Cursor.atLine rest i l).lineBreak? = none := by
  cases hFollows with
  | nothing => rfl
  | line hDepth hKey rest =>
      obtain ⟨c, key, rfl, -⟩ := startsPlain_of_isPlain hKey
      have hInline := isInline_of_isPlain hKey c (by simp)
      rw [atLine_key hKey]
      simp_all [Cursor.lineBreak?, Cursor.here, Cursor.isInline]

theorem here_atLine (i l : Nat) : (Cursor.atLine rest i l).here ≠ some '#' := by
  cases hFollows with
  | nothing => simp [Cursor.here]
  | line hDepth hKey rest =>
      have hHash := head?_of_isPlain hKey
      obtain ⟨c, key, rfl, -⟩ := startsPlain_of_isPlain hKey
      rwa [atLine_key hKey]

end

/-! ## Reading words -/

section

variable {cs : List Char} (hPlain : isPlain cs)

include hPlain

/-- The head of `plainParts` on a word: all of it is taken. -/
theorem plainRun_word (inFlow : Bool) {x : Char} {rest : List Char}
    (hEnd : endsPlain inFlow x rest.head?) (i l k : Nat) :
    let c : Cursor := ⟨cs ++ x :: rest, i, l, k⟩
    (if c.here = some '#' then [] else plainRun inFlow c.rest) = cs := by
  have hRun := plainRun_append (plainRun_of_isPlain hPlain) inFlow hEnd
  have hHash := head?_of_isPlain hPlain
  obtain ⟨c, cs, rfl, -⟩ := startsPlain_of_isPlain hPlain
  simpa [Cursor.here, show c ≠ '#' by simpa using hHash] using hRun

/-- A word is read by `plainParts` up to a mark that ends it. -/
theorem plainParts_mark (inFlow : Bool) (indent fuel : Nat) {x : Char}
    {rest : List Char} (hEnd : endsPlain inFlow x rest.head?)
    (hMark : endsWord (some x) = false) (i l k : Nat) :
    plainParts inFlow indent (fuel + 1) ⟨cs ++ x :: rest, i, l, k⟩ =
      (cs, false, ⟨x :: rest, i + cs.length, l, k + cs.length⟩) := by
  have hNe := ne_nil_of_isPlain hPlain
  have hMark : x ≠ ' ' ∧ isBreak x = false := by
    simp only [endsWord, Bool.or_eq_false_iff] at hMark
    exact ⟨by simpa using hMark.1.1, hMark.2⟩
  have hGap : ∀ fuel (c : Cursor), c.rest = x :: rest →
      plainGap fuel c = ([], false, c) := by
    rintro fuel ⟨_, i, l, k⟩ rfl
    simp [plainGap, Cursor.span, Cursor.skip, Cursor.lineBreak?,
      Cursor.here, hMark]
  rw [plainParts, plainRun_word hPlain inFlow hEnd]
  simp only [hNe, if_false, Cursor.skip_append (isInline_of_isPlain hPlain)]
  rw [hGap _ _ rfl]
  rfl

/-- In a block a word is read by `plainParts` up to the end of its line, and the
place goes on to the first word of the next line, which is not indented more. -/
theorem plainParts_line {n : Nat} {rest : List Char} (hFollows : Follows n rest)
    (fuel i l k : Nat) :
    plainParts false (n + 1) (fuel + 2) ⟨cs ++ '\n' :: rest, i, l, k⟩ =
      (cs, true, Cursor.atLine rest (i + cs.length + 1) (l + 1)) := by
  have hNe := ne_nil_of_isPlain hPlain
  have hGap : ∀ i k, plainGap (fuel + 1) ⟨'\n' :: rest, i, l, k⟩ =
      ([' '], true, Cursor.atLine rest (i + 1) (l + 1)) := by
    intro i k
    have hBreaks : plainBreaks (fuel + 1) ⟨rest, i + 1, l + 1, 0⟩ =
        (some [], Cursor.atLine rest (i + 1) (l + 1)) := by
      have hLine : (⟨rest, i + 1, l + 1, 0⟩ : Cursor).skipWhile (· = ' ') =
          Cursor.atLine rest (i + 1) (l + 1) := rfl
      simp only [plainBreaks, atDocumentMark_of_follows hFollows, hLine,
        lineBreak?_atLine hFollows, Bool.false_and,
        Bool.false_eq_true, if_false]
    simp [plainGap, Cursor.span, Cursor.skip, Cursor.lineBreak?,
      Cursor.here, Cursor.next, isBreak, hBreaks, foldBreak]
  have hColumn :=
    Nat.lt_succ_of_le (column_atLine hFollows (i + cs.length + 1) (l + 1))
  rw [plainParts, plainRun_word hPlain false (by simp [endsPlain, isBreak])]
  simp only [hNe, if_false,
    Cursor.skip_append (isInline_of_isPlain hPlain), hGap]
  simp [hColumn]

end

/-! ## Reading quotations -/

/-- What can come next inside a quotation behind a run without blanks. -/
def EndsRun (rest : List Char) : Prop :=
  rest.head? = some '"' ∨ rest.head? = some ' '

private theorem quotedRun_append {run rest : List Char}
    (hRun : ∀ c ∈ run, !isQuotedSpecial c)
    (hInline : ∀ c ∈ run, Cursor.isInline c) (hEnd : EndsRun rest)
    (fuel i l k : Nat) :
    quotedRun true (fuel + 1) ⟨run ++ rest, i, l, k⟩ =
      some (run, ⟨rest, i + run.length, l, k + run.length⟩) := by
  have hSpecial : ∀ c, rest.head? = some c → (!isQuotedSpecial c) = false := by
    rcases hEnd with h | h <;> simp [h, isQuotedSpecial]
  rw [quotedRun, Cursor.span_append hInline hRun hSpecial]
  rcases hEnd with h | h <;> simp [Cursor.here, h]

private theorem exists_taken (p : Char → Bool) (cs : List Char) :
    ∃ taken rest, cs = taken ++ rest ∧ (∀ c ∈ taken, p c) ∧
      ∀ c, rest.head? = some c → p c = false :=
  ⟨cs.takeWhile p, cs.dropWhile p, List.takeWhile_append_dropWhile.symm,
    List.all_eq_true.1 List.all_takeWhile, fun _ =>
      JvmTypes.Token.head?_dropWhile cs⟩

theorem isInline_of_isQuotable {c : Char} (hQuotable : isQuotable c) :
    Cursor.isInline c := by
  simp only [isQuotable, isQuotedSpecial, Bool.and_eq_true,
    Bool.or_eq_true] at hQuotable
  obtain ⟨⟨hHere, -⟩, hMark⟩ := hQuotable
  have hBreak : isBreak c = false := by
    rcases hHere with hSpace | hPlain
    · simp_all [isBreak]
    · simp_all
  simpa [Cursor.isInline, hBreak] using hMark

/-- A quotation starts with a run, which only a space ends. -/
theorem exists_run {cs : List Char} (hQuotable : ∀ c ∈ cs, isQuotable c) :
    ∃ run more, cs = run ++ more ∧ (∀ c ∈ run, !isQuotedSpecial c) ∧
      ∀ c, more.head? = some c → c = ' ' := by
  obtain ⟨run, more, rfl, hRun, hMore⟩ := exists_taken (!isQuotedSpecial ·) cs
  refine ⟨run, more, rfl, hRun, fun c hHead => ?_⟩
  have hHere := hQuotable c (by simp [List.mem_of_head? hHead])
  simp only [isQuotable, hMore c hHead, Bool.and_eq_true,
    Bool.or_false] at hHere
  simpa using hHere.1.1

theorem EndsRun.of_head {more : List Char}
    (hMore : ∀ c, more.head? = some c → c = ' ') (rest : List Char) :
    EndsRun (more ++ '"' :: rest) := by
  cases more with
  | nil => exact .inl rfl
  | cons c more => exact .inr (by simp [hMore c rfl])

/-- `quotedSpaces` passes the spaces in front of a run inside quotes. -/
theorem quotedSpaces_append {spaces tail : List Char}
    (hSpaces : ∀ c ∈ spaces, c = ' ') {x : Char} (hHead : tail.head? = some x)
    (hWord : endsWord (some x) = false) (fuel i l k : Nat) :
    quotedSpaces fuel ⟨spaces ++ tail, i, l, k⟩ =
      some (spaces, ⟨tail, i + spaces.length, l, k + spaces.length⟩) := by
  have hInline : ∀ c ∈ spaces, Cursor.isInline c := by
    rintro c hMem
    rw [hSpaces c hMem]
    decide
  simp only [endsWord, Bool.or_eq_false_iff] at hWord
  rw [quotedSpaces, Cursor.span_append hInline
    (fun c hMem => by simp [hSpaces c hMem])
    (by simp_all)]
  simp [Cursor.here, Cursor.lineBreak?, hHead, hWord.2]

/-- A quotation that is not empty starts with spaces and a run, of which one is
not empty, and the spaces end at the run or at the closing quote. -/
theorem exists_spaces_run {cs : List Char} (hQuotable : ∀ c ∈ cs, isQuotable c)
    (hNe : cs ≠ []) (rest : List Char) :
    ∃ spaces run more, cs = spaces ++ (run ++ more) ∧
      0 < spaces.length + run.length ∧
      (∀ c ∈ spaces, c = ' ') ∧ (∀ c ∈ run, !isQuotedSpecial c) ∧
      (∀ c, more.head? = some c → c = ' ') ∧
      ∃ x, (run ++ (more ++ '"' :: rest)).head? = some x ∧
        endsWord (some x) = false := by
  obtain ⟨spaces, word, rfl, hSpaces, hWord⟩ := exists_taken (· = ' ') cs
  have hTail : ∀ c ∈ word, isQuotable c :=
    fun c hMem => hQuotable c (by simp [hMem])
  obtain ⟨run, more, rfl, hRun, hMore⟩ := exists_run hTail
  refine ⟨spaces, run, more, rfl, ?_, by simpa using hSpaces, hRun, hMore, ?_⟩
  · refine Nat.pos_of_ne_zero fun hEmpty => ?_
    obtain ⟨rfl, rfl⟩ : spaces = [] ∧ run = [] := by simpa using hEmpty
    rcases more with _ | ⟨c, more⟩
    · exact hNe rfl
    · simp [hMore c rfl] at hWord
  · rcases run with _ | ⟨c, run⟩
    · rcases more with _ | ⟨c, more⟩
      · exact ⟨'"', rfl, by decide⟩
      · simp [hMore c rfl] at hWord
    · have hHere := hRun c (by simp)
      exact ⟨c, rfl, by simp_all [isQuotedSpecial, endsWord]⟩

/-- `quotedRest` reads the rest of a quotation up to its closing quote. -/
theorem quotedRest_append {cs : List Char} (hQuotable : ∀ c ∈ cs, isQuotable c)
    (rest : List Char) {fuel : Nat} (hFuel : cs.length < fuel) (i l k : Nat) :
    quotedRest true fuel ⟨cs ++ '"' :: rest, i, l, k⟩ =
      some (cs, ⟨rest, i + cs.length + 1, l, k + cs.length + 1⟩) := by
  induction fuel generalizing cs i k with
  | zero => omega
  | succ fuel ih =>
      by_cases hNe : cs = []
      · subst hNe
        simp [quotedRest, Cursor.here, Cursor.next, isBreak]
      have hOpen : (cs ++ '"' :: rest).head? ≠ some '"' := by
        intro hHead
        obtain ⟨c, cs, rfl⟩ := List.exists_cons_of_ne_nil hNe
        have hHere : c = '"' := by simpa using hHead
        exact absurd (hQuotable c (by simp)) (hHere ▸ by decide)
      obtain ⟨spaces, run, more, rfl, hLong, hSpaces, hRun, hMore, x,
        hHead, hBlank⟩ :=
        exists_spaces_run hQuotable hNe rest
      simp only [List.length_append] at hFuel
      obtain ⟨fuel, rfl⟩ : ∃ n, fuel = n + 1 := ⟨fuel - 1, by omega⟩
      have hTail := fun i k =>
        ih (fun c (hMem : c ∈ more) => hQuotable c (by simp [hMem]))
          (by omega) i k
      have hInline := fun c (hMem : c ∈ run) =>
        isInline_of_isQuotable (hQuotable c (by simp [hMem]))
      simp only [List.append_assoc] at hOpen ⊢
      rw [quotedRest, if_neg (by simpa [Cursor.here] using hOpen),
        quotedSpaces_append hSpaces hHead hBlank]
      simp only [Option.bind_eq_bind, Option.bind_some,
        quotedRun_append hRun hInline (.of_head hMore rest), hTail]
      simp [Nat.add_assoc]

/-- `quotedScalar` reads what is in quotes up to the closing quote. -/
theorem quotedScalar_append {cs : List Char}
    (hQuotable : ∀ c ∈ cs, isQuotable c) (rest : List Char) (i l k : Nat) :
    quotedScalar true ⟨'"' :: (cs ++ '"' :: rest), i, l, k⟩ =
      some (cs, ⟨rest, i + cs.length + 2, l, k + cs.length + 2⟩) := by
  obtain ⟨run, more, rfl, hRun, hMore⟩ := exists_run hQuotable
  have hInline := fun c (hMem : c ∈ run) =>
    isInline_of_isQuotable (hQuotable c (by simp [hMem]))
  have hNext : (⟨'"' :: (run ++ more ++ '"' :: rest), i, l, k⟩ : Cursor).next =
      ⟨run ++ (more ++ '"' :: rest), i + 1, l, k + 1⟩ := by
    simp [Cursor.next, isBreak]
  simp only [quotedScalar, hNext,
    quotedRun_append hRun hInline (.of_head hMore rest), Option.bind_eq_bind,
    Option.bind_some]
  rw [quotedRest_append fun c hMem => hQuotable c (by simp [hMem])]
  · simp only [Option.bind_some, List.length_append]
    grind
  · simp only [List.length_cons, List.length_append]
    omega

end JvmTypes.Yaml
