import JvmTypes.Proofs.Yaml.Items

/-!
# Nodes of block style

The tokens of a document in block style make its node (`ofTokens?_block`), and
the fuel that `Node.ofTokens?` gives to the recursion suffices.
`Builds b ts a rest` says that a step `b` makes `a` of the tokens `ts` up to
`rest`; there is one lemma for a step after another (`Builds.bind`) and one for
each of the small steps.
-/

namespace JvmTypes.Yaml.Node

/-! ## Steps -/

/-- A step `b` makes `a` of the tokens `ts` up to `rest`, whatever nodes anchors
are on. -/
def Builds {α : Type} (b : Builder α) (ts : List Token) (a : α)
    (rest : List Token) : Prop :=
  ∀ anchors, b.run ⟨ts, anchors⟩ = some (a, ⟨rest, anchors⟩)

section

variable {α β : Type} {ts rest rest' : List Token}

theorem Builds.bind {b : Builder α} {f : α → Builder β} {a : α} {a' : β}
    (hFirst : Builds b ts a rest) (hThen : Builds (f a) rest a' rest') :
    Builds (b >>= f) ts a' rest' := by
  intro anchors
  rw [StateT.run_bind, hFirst anchors]
  exact hThen anchors

private theorem builds_pure (a : α) (ts : List Token) :
    Builds (pure a) ts a ts := fun _ => rfl

private theorem builds_peek (ts : List Token) : Builds peek ts ts.head? ts :=
  fun _ => rfl

private theorem builds_advance (t : Token) (ts : List Token) :
    Builds advance (t :: ts) () ts :=
  fun _ => rfl

private theorem builds_nextIn (tokens : List Token) (t : Token)
    (ts : List Token) :
    Builds (nextIn tokens) (t :: ts) (tokens.contains t) (t :: ts) :=
  .bind (builds_peek _) (builds_pure _ _)

private theorem builds_skip_same (t : Token) (ts : List Token) :
    Builds (skip? t) (t :: ts) true ts := by
  refine .bind (builds_nextIn [t] t ts) ?_
  rw [if_pos (by simp)]
  exact .bind (builds_advance t ts) (builds_pure true ts)

private theorem builds_skip_other {t u : Token} (hOther : t ≠ u)
    (ts : List Token) : Builds (skip? u) (t :: ts) false (t :: ts) := by
  refine .bind (builds_nextIn [u] t ts) ?_
  rw [if_neg (by simpa using hOther)]
  exact builds_pure false (t :: ts)

private theorem builds_expect (t : Token) (ts : List Token) :
    Builds (expect t) (t :: ts) () ts := by
  refine .bind (builds_skip_same t ts) ?_
  exact builds_pure () ts

end

/-! ## Nodes -/

/-- Whether a token starts a node without an anchor or a tag. -/
def StartsNode : Token → Prop
  | .scalar _ _ | .flowSequenceStart | .blockMappingStart => True
  | _ => False

private theorem builds_node {t : Token} (hStart : StartsNode t) {fuel : Nat}
    {place : Place} {ts rest : List Token} {n : Node}
    (hContent : Builds (content fuel place none false) (t :: ts) n rest) :
    Builds (node (fuel + 1) place) (t :: ts) n rest := by
  intro anchors
  have hRun := hContent anchors
  cases t <;> first | exact hStart.elim | simpa
    [node, peek, properties] using hRun

/-- `nodeUnless` makes a node if none of the `tokens` stands in its place. -/
theorem builds_nodeUnless {fuel : Nat} {place : Place} {tokens : List Token}
    {t : Token} {ts rest : List Token} {n : Node}
    (hOther : tokens.contains t = false)
    (hNode : Builds (node fuel place) (t :: ts) n rest) :
    Builds (nodeUnless (fuel + 1) place tokens) (t :: ts) n rest := by
  refine .bind (builds_nextIn tokens t ts) ?_
  rw [if_neg (by simpa using hOther)]
  exact hNode

private theorem builds_missing {fuel : Nat} {place : Place}
    {tokens : List Token} {t : Token} (hHere : tokens.contains t)
    (ts : List Token) :
    Builds (nodeUnless (fuel + 1) place tokens) (t :: ts) missing
      (t :: ts) := by
  refine .bind (builds_nextIn tokens t ts) ?_
  rw [if_pos hHere]
  exact builds_pure missing (t :: ts)

private theorem builds_scalar (fuel : Nat) (place : Place) (cs : List Char)
    (b : Bool) (rest : List Token) :
    Builds (node (fuel + 2) place) (.scalar cs b :: rest)
      (.scalar none cs b) rest := by
  have hStart : StartsNode (.scalar cs b) := trivial
  refine builds_node hStart (.bind (builds_peek _) ?_)
  cases place <;> exact .bind (builds_advance _ rest) (builds_pure _ rest)

/-! ## Sequences -/

/-- `flowItems` makes one more word of a sequence, behind a comma unless it is
the first. -/
theorem builds_flowItems_cons (isFirst : Bool) (cs : List Char) {fuel : Nat}
    {ts rest : List Token} {ns : List Node}
    (hRest : Builds (flowItems (fuel + 2) false) ts ns rest) :
    Builds (flowItems (fuel + 3) isFirst)
      ((if isFirst then [] else [.flowEntry]) ++ .scalar cs true :: ts)
      (.scalar none cs true :: ns) rest := by
  have hWord := builds_scalar fuel .flow cs true ts
  cases isFirst with
  | true =>
      refine .bind (builds_skip_other (by simp) _) ?_
      refine .bind (builds_skip_other (by simp) _) ?_
      rw [if_neg Bool.false_ne_true]
      refine .bind (builds_skip_other (by simp) _) ?_
      exact .bind hWord (.bind hRest (builds_pure _ rest))
  | false =>
      refine .bind (builds_skip_other (by simp) _) ?_
      refine .bind (builds_expect .flowEntry _) ?_
      refine .bind (builds_skip_other (by simp) _) ?_
      rw [if_neg Bool.false_ne_true]
      refine .bind (builds_skip_other (by simp) _) ?_
      exact .bind hWord (.bind hRest (builds_pure _ rest))

/-- `flowItems` passes the end of a sequence. -/
theorem builds_flowItems_nil (isFirst : Bool) (fuel : Nat) (rest : List Token) :
    Builds (flowItems (fuel + 1) isFirst) (.flowSequenceEnd :: rest) [] rest :=
  .bind (builds_skip_same _ rest) (builds_pure [] rest)

private theorem builds_flowItems_tail (texts : List (List Char)) {fuel : Nat}
    (hFuel : texts.length + 2 < fuel) (rest : List Token) :
    Builds (flowItems fuel false)
      (texts.flatMap (fun cs => [.flowEntry, .scalar cs true]) ++
        .flowSequenceEnd :: rest)
      (texts.map fun cs => .scalar none cs true) rest := by
  induction texts generalizing fuel with
  | nil =>
      obtain ⟨fuel, rfl⟩ : ∃ m, fuel = m + 1 := ⟨fuel - 1, by omega⟩
      exact builds_flowItems_nil false fuel rest
  | cons cs texts ih =>
      simp only [List.length_cons] at hFuel
      obtain ⟨fuel, rfl⟩ : ∃ m, fuel = m + 3 := ⟨fuel - 3, by omega⟩
      exact builds_flowItems_cons false cs (ih (by omega))

private theorem intersperse_cons_eq {α : Type} (separator x : α) (xs : List α) :
    (x :: xs).intersperse separator = x :: xs.flatMap fun y =>
      [separator, y] := by
  induction xs generalizing x with
  | nil => rfl
  | cons y xs ih => rw [List.intersperse_cons_cons, ih]; rfl

/-- `flowItems` makes the items of a sequence of words. -/
theorem builds_flowItems (texts : List (List Char)) {fuel : Nat}
    (hFuel : texts.length + 2 < fuel) (rest : List Token) :
    Builds (flowItems fuel true)
      ((texts.map fun cs => .scalar cs true).intersperse .flowEntry ++
        .flowSequenceEnd :: rest)
      (texts.map fun cs => .scalar none cs true) rest := by
  cases texts with
  | nil =>
      obtain ⟨fuel, rfl⟩ : ∃ m, fuel = m + 1 := ⟨fuel - 1, by omega⟩
      exact builds_flowItems_nil true fuel rest
  | cons cs texts =>
      simp only [List.length_cons] at hFuel
      obtain ⟨fuel, rfl⟩ : ∃ m, fuel = m + 3 := ⟨fuel - 3, by omega⟩
      rw [List.map_cons, intersperse_cons_eq, List.flatMap_map]
      exact builds_flowItems_cons true cs
        (builds_flowItems_tail texts (by omega) rest)

/-! ## Mappings -/

/-- What stands behind the value of an entry: another key or the end of the
block. -/
def EndsEntry (t : Token) : Prop := t = .key ∨ t = .blockEnd

private theorem builds_blockEntries_cons {fuel : Nat} (cs : List Char)
    {n : Node} {ns : List (Node × Node)} {ts rest rest' : List Token}
    (hValue : Builds (nodeUnless (fuel + 3) .entry [.key, .value, .blockEnd])
      ts n rest)
    (hRest : Builds (blockEntries (fuel + 3)) rest ns rest') :
    Builds (blockEntries (fuel + 4)) (.key :: .scalar cs true :: .value :: ts)
      ((.scalar none cs true, n) :: ns) rest' := by
  refine .bind (builds_nextIn _ _ _) ?_
  rw [if_pos (by simp)]
  refine .bind (builds_skip_same _ _) ?_
  rw [if_pos rfl]
  refine .bind (builds_nodeUnless (by simp)
    (builds_scalar fuel .entry cs true _)) ?_
  refine .bind (builds_skip_same _ _) ?_
  rw [if_pos rfl]
  exact .bind hValue (.bind hRest (builds_pure _ rest'))

private theorem builds_blockEntries_nil (fuel : Nat) (rest : List Token) :
    Builds (blockEntries (fuel + 1)) (.blockEnd :: rest) [] rest := by
  refine .bind (builds_nextIn _ _ _) ?_
  rw [if_neg (by simp)]
  exact .bind (builds_expect _ rest) (builds_pure [] rest)

private theorem builds_block {place : Place} (hPlace : place ≠ .flow)
    {fuel : Nat} {ns : List (Node × Node)} {ts rest : List Token}
    (hEntries : Builds (blockEntries fuel) ts ns rest) :
    Builds (node (fuel + 2) place) (.blockMappingStart :: ts)
      (.mapping none ns) rest := by
  have hStart : StartsNode .blockMappingStart := trivial
  refine builds_node hStart (.bind (builds_peek _) ?_)
  cases place with
  | flow => exact absurd rfl hPlace
  | block => exact .bind (builds_advance _ _) (.bind hEntries (builds_pure _ _))
  | entry => exact .bind (builds_advance _ _) (.bind hEntries (builds_pure _ _))

mutual

/-- `nodeUnless` makes the node of an item as the value of an entry, or leaves
it out. -/
theorem builds_item (item : Item) {fuel : Nat}
    (hFuel : 4 * item.tokens.length + 3 ≤ fuel) {t : Token} (hEnd : EndsEntry t)
    (rest : List Token) :
    Builds (nodeUnless fuel .entry [.key, .value, .blockEnd])
      (item.tokens ++ t :: rest) item.node
      (t :: rest) :=
  match item with
  | .word cs => by
      obtain ⟨fuel, rfl⟩ : ∃ m, fuel = m + 3 := ⟨fuel - 3, by omega⟩
      exact builds_nodeUnless (by simp)
        (builds_scalar fuel .entry cs true (t :: rest))
  | .quoted cs => by
      obtain ⟨fuel, rfl⟩ : ∃ m, fuel = m + 3 := ⟨fuel - 3, by omega⟩
      exact builds_nodeUnless (by simp)
        (builds_scalar fuel .entry cs false (t :: rest))
  | .words texts => by
      obtain ⟨fuel, rfl⟩ : ∃ m, fuel = m + 3 := ⟨fuel - 3, by omega⟩
      have hLess : texts.length + 2 < fuel := by
        simp only [Item.tokens, List.length_cons, List.length_append,
          List.length_intersperse, List.length_map, List.length_nil] at hFuel
        omega
      have hItems := builds_flowItems texts hLess (t :: rest)
      have hStart : StartsNode .flowSequenceStart := trivial
      simp only [Item.tokens, List.cons_append, List.append_assoc,
        List.nil_append]
      refine builds_nodeUnless (by simp)
        (builds_node hStart (.bind (builds_peek _) ?_))
      exact .bind (builds_advance _ _) (.bind hItems (builds_pure _ _))
  | .block [] => by
      obtain ⟨fuel, rfl⟩ : ∃ m, fuel = m + 1 := ⟨fuel - 1, by omega⟩
      refine builds_missing ?_ rest
      rcases hEnd with rfl | rfl <;> simp
  | .block (entry :: entries) => by
      obtain ⟨fuel, rfl⟩ : ∃ m, fuel = m + 3 := ⟨fuel - 3, by omega⟩
      have hLess : 4 * (Item.entriesTokens (entry :: entries)).length +
          1 ≤ fuel := by
        simp only [Item.tokens, List.length_cons, List.length_append,
          List.length_nil] at hFuel
        omega
      have hEntries := builds_entries (entry :: entries) hLess (t :: rest)
      simp only [Item.tokens, List.cons_append, List.append_assoc,
        List.nil_append]
      exact builds_nodeUnless (by simp) (builds_block (by simp) hEntries)

/-- `blockEntries` makes the nodes of the entries of a block. -/
theorem builds_entries (entries : List (List Char × Item)) {fuel : Nat}
    (hFuel : 4 * (Item.entriesTokens entries).length + 1 ≤ fuel)
    (rest : List Token) :
    Builds (blockEntries fuel) (Item.entriesTokens entries ++ .blockEnd :: rest)
      (Item.entryNodes entries) rest :=
  match entries with
  | [] => by
      obtain ⟨fuel, rfl⟩ : ∃ m, fuel = m + 1 := ⟨fuel - 1, by omega⟩
      exact builds_blockEntries_nil fuel rest
  | (name, item) :: entries => by
      simp only [Item.entriesTokens, List.length_cons,
        List.length_append] at hFuel
      obtain ⟨fuel, rfl⟩ : ∃ m, fuel = m + 4 := ⟨fuel - 4, by omega⟩
      have hItemFuel : 4 * item.tokens.length + 3 ≤ fuel + 3 := by omega
      have hRestFuel : 4 * (Item.entriesTokens entries).length +
          1 ≤ fuel + 3 := by omega
      obtain ⟨t, ts, hNext, hEnd⟩ : ∃ t ts,
          Item.entriesTokens entries ++ .blockEnd :: rest = t :: ts ∧
          EndsEntry t := by
        cases entries with
        | nil => exact ⟨_, _, rfl, .inr rfl⟩
        | cons entry entries => exact ⟨_, _, rfl, .inl rfl⟩
      have hValue := builds_item item hItemFuel hEnd ts
      rw [← hNext] at hValue
      simp only [Item.entriesTokens, List.cons_append, List.append_assoc]
      exact builds_blockEntries_cons name hValue
        (builds_entries entries hRestFuel rest)

end

/-- `ofTokens?` makes the node of a block of the tokens of a whole text. -/
theorem ofTokens?_block {entries : List (List Char × Item)}
    (hNe : entries ≠ []) :
    ofTokens? ((Item.block entries).tokens ++ [.streamEnd]) =
      some (some (Item.block entries).node) := by
  obtain ⟨entry, entries, rfl⟩ := List.exists_cons_of_ne_nil hNe
  let ts := Item.entriesTokens (entry :: entries) ++ .blockEnd :: [.streamEnd]
  have hTokens : (Item.block (entry :: entries)).tokens ++ [.streamEnd] =
      .blockMappingStart :: ts := by
    simp [Item.tokens, ts]
  obtain ⟨fuel, hFuel, hEnough⟩ : ∃ fuel,
      8 * (.blockMappingStart :: ts : List Token).length + 8 = fuel + 2 ∧
      4 * (Item.entriesTokens (entry :: entries)).length + 1 ≤ fuel := by
    refine ⟨8 * (.blockMappingStart :: ts : List Token).length + 6, rfl, ?_⟩
    simp only [ts, List.length_cons, List.length_append]
    omega
  have hNode : Builds (node (fuel + 2) .block) (.blockMappingStart :: ts)
      (Item.block (entry :: entries)).node [.streamEnd] :=
    builds_block (by simp)
      (builds_entries (entry :: entries) hEnough [.streamEnd])
  have hDocument : Builds (document (fuel + 2)) (.blockMappingStart :: ts)
      (some (Item.block (entry :: entries)).node) [] := by
    refine .bind (builds_peek _) (.bind hNode ?_)
    refine .bind (.bind (builds_skip_other (by simp) _) (builds_pure _ _)) ?_
    exact .bind (builds_expect _ _) (builds_pure _ _)
  rw [hTokens, ofTokens?, hFuel, hDocument []]
  rfl

end JvmTypes.Yaml.Node
