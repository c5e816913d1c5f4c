import JvmTypes.Yaml.Token

/-!
# The nodes of a YAML text

A text holds one node: a scalar, a sequence or a mapping, with the tag that the
text gives it. An alias stands for a copy of the node that its anchor is on.
`Node.ofTokens?` builds the node from tokens, with a bound on the depth of its
recursion that no list of tokens reaches.
-/

namespace JvmTypes.Yaml

/-- A node with its tag. A scalar also tells whether it is plain, for only then
its text decides what it is. -/
inductive Node where
  | scalar (tag : Option (List Char)) (text : List Char) (plain : Bool)
  | sequence (tag : Option (List Char)) (items : List Node)
  | mapping (tag : Option (List Char)) (entries : List (Node × Node))

namespace Node

/-- The scalar that is left out where a node could stand. -/
def missing : Node := scalar none [] true

/-- The tokens that are left and the nodes that anchors are on. -/
structure Source where
  tokens : List Token
  anchors : List (List Char × Node)

/-- A step of building nodes. -/
abbrev Builder := StateT Source Option

/-- The next token. -/
def peek : Builder (Option Token) := do return (← get).tokens.head?

/-- Passes the next token. -/
def advance : Builder Unit := modify fun s => { s with tokens := s.tokens.tail }

/-- Whether the next token is one of several. -/
def nextIn (tokens : List Token) : Builder Bool := do
  match ← peek with
  | some token => return tokens.contains token
  | none => return false

/-- Passes the next token if it is `token`, and tells whether it was. -/
def skip? (token : Token) : Builder Bool := do
  if ← nextIn [token] then
    advance
    return true
  else return false

/-- Passes the next token, which has to be the given one. -/
def expect (token : Token) : Builder Unit := do
  if ← skip? token then return () else failure

/-- The anchor and the tag in front of a node, in either order. -/
def properties : Builder (Option (List Char) × Option (List Char)) := do
  match ← peek with
  | some (.anchor a) =>
      advance
      match ← peek with
      | some (.tag t) => advance; return (some a, some t)
      | _ => return (some a, none)
  | some (.tag t) =>
      advance
      match ← peek with
      | some (.anchor a) => advance; return (some a, some t)
      | _ => return (none, some t)
  | _ => return (none, none)

/-- Where a node stands. -/
inductive Place where
  /-- Inside a flow collection. -/
  | flow
  /-- In a block. -/
  | block
  /-- In a block, as the value of an entry: a sequence need not be indented. -/
  | entry
  deriving DecidableEq

mutual

/-- A node. -/
def node : Nat → Place → Builder Node
  | 0, _ => failure
  | fuel + 1, place => do
      match ← peek with
      | some (.alias name) =>
          advance
          match (← get).anchors.find? fun known => known.1 = name with
          | some (_, n) => return n
          | none => failure
      | _ =>
          let (anchor, tag) ← properties
          if anchor.isSome &&
              (← get).anchors.any (fun known => some known.1 = anchor) then
            failure
          let n ← content fuel place tag (anchor.isSome || tag.isSome)
          match anchor with
          | some name => modify fun s =>
              { s with anchors := (name, n) :: s.anchors }
          | none => pure ()
          return n

/-- A node behind its anchor and its tag, of which `marked` says whether there
are any. -/
def content : Nat → Place → Option (List Char) → Bool → Builder Node
  | 0, _, _, _ => failure
  | fuel + 1, place, tag, marked => do
      match ← peek, place with
      | some .blockEntry, .entry => return sequence tag (← plainItems fuel)
      | some (.scalar text plain), _ => advance; return scalar tag text plain
      | some .flowSequenceStart, _ =>
          advance; return sequence tag (← flowItems fuel true)
      | some .flowMappingStart, _ =>
          advance; return mapping tag (← flowEntries fuel true)
      | some .blockSequenceStart, .block | some .blockSequenceStart, .entry =>
          advance; return sequence tag (← blockItems fuel)
      | some .blockMappingStart, .block | some .blockMappingStart, .entry =>
          advance; return mapping tag (← blockEntries fuel)
      | _, _ => if marked then return scalar tag [] true else failure

/-- A node, unless one of `tokens` is next and shows that it is left out. -/
def nodeUnless : Nat → Place → List Token → Builder Node
  | 0, _, _ => failure
  | fuel + 1, place, tokens => do
      if ← nextIn tokens then return missing else node fuel place

/-- The items of a sequence that is not indented. -/
def plainItems : Nat → Builder (List Node)
  | 0 => failure
  | fuel + 1 => do
      if ← skip? .blockEntry then
        let item ← nodeUnless fuel .block [.blockEntry, .key, .value, .blockEnd]
        return item :: (← plainItems fuel)
      else return []

/-- The items of a block sequence and its end. -/
def blockItems : Nat → Builder (List Node)
  | 0 => failure
  | fuel + 1 => do
      if ← skip? .blockEntry then
        let item ← nodeUnless fuel .block [.blockEntry, .blockEnd]
        return item :: (← blockItems fuel)
      else
        expect .blockEnd
        return []

/-- The entries of a block mapping and its end. -/
def blockEntries : Nat → Builder (List (Node × Node))
  | 0 => failure
  | fuel + 1 => do
      if ← nextIn [.key, .value] then
        let key ←
          if ← skip? .key then nodeUnless fuel .entry [.key, .value, .blockEnd]
          else failure
        let value ←
          if ← skip? .value then
            nodeUnless fuel .entry [.key, .value, .blockEnd]
          else pure missing
        return (key, value) :: (← blockEntries fuel)
      else
        expect .blockEnd
        return []

/-- The items of a flow sequence and its end. A key makes an item a mapping of
one entry. -/
def flowItems : Nat → Bool → Builder (List Node)
  | 0, _ => failure
  | fuel + 1, isFirst => do
      if ← skip? .flowSequenceEnd then return []
      if !isFirst then expect .flowEntry
      if ← skip? .flowSequenceEnd then return []
      let item ←
        if ← skip? .key then
          let key ← nodeUnless fuel .flow [.value, .flowEntry, .flowSequenceEnd]
          let value ←
            if ← skip? .value then
              nodeUnless fuel .flow [.flowEntry, .flowSequenceEnd]
            else pure missing
          pure (mapping none [(key, value)])
        else node fuel .flow
      return item :: (← flowItems fuel false)

/-- The entries of a flow mapping and its end. -/
def flowEntries : Nat → Bool → Builder (List (Node × Node))
  | 0, _ => failure
  | fuel + 1, isFirst => do
      if ← skip? .flowMappingEnd then return []
      if !isFirst then expect .flowEntry
      if ← skip? .flowMappingEnd then return []
      let entry ←
        if ← skip? .key then
          let key ← nodeUnless fuel .flow [.value, .flowEntry, .flowMappingEnd]
          let value ←
            if ← skip? .value then
              nodeUnless fuel .flow [.flowEntry, .flowMappingEnd]
            else pure missing
          pure (key, value)
        else do pure (← node fuel .flow, missing)
      return entry :: (← flowEntries fuel false)

end

/-- Passes the directives in front of a document. -/
def directives : Nat → Builder Unit
  | 0 => pure ()
  | fuel + 1 => do
      match ← peek with
      | some (.directive _) => advance; directives fuel
      | _ => pure ()

/-- Passes the marks at the end of a document. -/
def documentEnds : Nat → Builder Unit
  | 0 => pure ()
  | fuel + 1 => do if ← skip? .documentEnd then documentEnds fuel

/-- The only document of a text; nothing if the text is empty. -/
def document (fuel : Nat) : Builder (Option Node) := do
  match ← peek with
  | some .streamEnd => return none
  | some (.directive _) | some .documentStart =>
      directives fuel
      expect .documentStart
      let isEmpty ←
        match ← peek with
        | some (.directive _) => pure true
        | _ => nextIn [.documentStart, .documentEnd, .streamEnd]
      let n ← if isEmpty then pure missing else node fuel .block
      documentEnds fuel
      expect .streamEnd
      return some n
  | _ =>
      let n ← node fuel .block
      documentEnds fuel
      expect .streamEnd
      return some n

/-- The node that tokens make by `document`, or nothing if they make none; the
node itself is missing if the text is empty. -/
def ofTokens? (tokens : List Token) : Option (Option Node) :=
  let fuel := 8 * tokens.length + 8
  ((document fuel).run ⟨tokens, []⟩).map Prod.fst

end Node

end JvmTypes.Yaml
