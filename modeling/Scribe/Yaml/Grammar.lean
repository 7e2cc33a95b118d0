import Scribe.Yaml.Node

set_option autoImplicit false

/-! # From tokens to values

A file holds at most one document. A value may have a name, which stands for a number, and a tag.
What is left out inside a collection is the empty scalar. -/

namespace Scribe.Yaml

/-! ## Readings -/

/-- What is left of the tokens, and the names that were given to values. -/
structure Progress where
  tokens : List Token
  /-- What the handles of tags stand for. -/
  handles : List (Text × Text)
  /-- The numbers that names stand for. -/
  names : List (Text × Nat) := []
  /-- The values that bear numbers. -/
  numbered : List (Nat × Node) := []

/-- A reading of tokens, which may fail. -/
abbrev Reading := StateT Progress Option

namespace Reading

/-- The next token. -/
def peek : Reading (Option Token) := return (← get).tokens.head?

/-- Passes over the next token. -/
def skip : Reading Unit := modify fun p => { p with tokens := p.tokens.tail }

/-- Is the next token one of some tokens? -/
def isNext (tokens : List Token) : Reading Bool := return (← peek).any tokens.elem

/-- Passes over a token, if it is the next one. -/
def skip? (token : Token) : Reading Bool := do
  if ← isNext [token] then
    skip
    return true
  return false

/-! ## Names -/

/-- The number that a name stands for. -/
def number (name : Text) : Reading Nat := do
  match (← get).names.lookup name with
  | some n => return n
  | none => failure

/-- Gives a name to the value that begins here. Its number is the count of the names so far. -/
def giveName (name : Text) : Reading Nat := do
  let n := (← get).names.length
  modify fun p => { p with names := (name, n) :: p.names.filter (·.1 != name) }
  return n

/-- Notes the value that bears a number, when `before` values had been noted at its beginning. A
    value inside it that bears the same number keeps it. -/
def note (n before : Nat) (node : Node) : Reading Unit :=
  modify fun p =>
    let inside := p.numbered.take (p.numbered.length - before)
    if inside.any (·.1 == n) then p else { p with numbered := (n, node) :: p.numbered }

/-! ## Properties -/

/-- The name of the value that follows, if it has one. -/
def anchor? : Reading (Option Text) := do
  match ← peek with
  | some (.anchor name) =>
    skip
    return some name
  | _ => return none

/-- The tag of the value that follows, if it has one. -/
def tag? : Reading (Option Tag) := do
  match ← peek with
  | some (.tag tag) =>
    skip
    return some tag
  | _ => return none

/-- The whole of a tag. -/
def tagName (tag : Tag) : Reading Text := do
  match tag.name? (← get).handles with
  | some name => return name
  | none => failure

/-- The name and the tag of the value that follows, in either order. -/
def properties : Reading (Option Text × Option Text) := do
  let first ← anchor?
  let tag ← tag?
  let anchor ← if first.isSome then pure first else anchor?
  return (anchor, ← tag.mapM tagName)

/-! ## Values -/

/-- A value that has been left out, which only one with a name or a tag may be. -/
def omitted (mayLack : Bool) (tag : Option Text) : Reading Node :=
  if mayLack then return .scalar .plain tag [] else failure

mutual

/-- A value. `inBlock` allows collections without brackets, and `hugging` a sequence that is not
    indented. -/
def node (inBlock hugging : Bool) : Nat → Reading Node
  | 0 => failure
  | fuel + 1 => do
    if let some (.alias name) := ← peek then
      let n ← number name
      skip
      return .alias n
    let (anchor, tag) ← properties
    let n ← anchor.mapM giveName
    let before := (← get).numbered.length
    let node ← content inBlock hugging (anchor.isSome || tag.isSome) tag fuel
    if let some n := n then note n before node
    return node

/-- A value behind its properties. -/
def content (inBlock hugging mayLack : Bool) (tag : Option Text) : Nat → Reading Node
  | 0 => failure
  | fuel + 1 => do
    match ← peek, inBlock, hugging with
    | some (.scalar style text), _, _ =>
      skip
      return .scalar style tag text
    | some .flowSequence, _, _ =>
      skip
      return .sequence (← flowItems true fuel)
    | some .flowMapping, _, _ =>
      skip
      return .mapping (← flowEntries true fuel)
    | some .blockSequence, true, _ =>
      skip
      return .sequence (← blockItems fuel)
    | some .blockMapping, true, _ =>
      skip
      return .mapping (← blockEntries fuel)
    | some .item, _, true => return .sequence (← huggingItems fuel)
    | _, _, _ => omitted mayLack tag

/-- A value, or nothing before one of the tokens in `ends`. -/
def optional (inBlock hugging : Bool) (ends : List Token) : Nat → Reading Node
  | 0 => failure
  | fuel + 1 => do
    if ← isNext ends then return .empty
    node inBlock hugging fuel

/-- The items of an indented sequence. -/
def blockItems : Nat → Reading (List Node)
  | 0 => failure
  | fuel + 1 => do
    if ← skip? .blockEnd then return []
    if !(← skip? .item) then failure
    let item ← optional true false [.item, .blockEnd] fuel
    return item :: (← blockItems fuel)

/-- The items of a sequence that is not indented. -/
def huggingItems : Nat → Reading (List Node)
  | 0 => failure
  | fuel + 1 => do
    if !(← skip? .item) then return []
    let item ← optional true false [.item, .key, .value, .blockEnd] fuel
    return item :: (← huggingItems fuel)

/-- The entries of a mapping without brackets. -/
def blockEntries : Nat → Reading (List (Node × Node))
  | 0 => failure
  | fuel + 1 => do
    if ← skip? .blockEnd then return []
    if !(← skip? .key) then failure
    let key ← optional true true [.key, .value, .blockEnd] fuel
    let value ←
      if ← skip? .value then optional true true [.key, .value, .blockEnd] fuel else pure .empty
    return (key, value) :: (← blockEntries fuel)

/-- The items up to a closing bracket; all but the first follow a comma. -/
def flowItems (isFirst : Bool) : Nat → Reading (List Node)
  | 0 => failure
  | fuel + 1 => do
    if ← skip? .flowSequenceEnd then return []
    if !isFirst then
      if !(← skip? .comma) then failure
      if ← skip? .flowSequenceEnd then return []
    let item ← if ← skip? .key then flowPair fuel else node false false fuel
    return item :: (← flowItems false fuel)

/-- A single entry that stands for a mapping between brackets. Behind a key that has been left out
    one token is passed over. -/
def flowPair : Nat → Reading Node
  | 0 => failure
  | fuel + 1 => do
    let lacksKey ← isNext [.value, .comma, .flowSequenceEnd]
    let key ← optional false false [.value, .comma, .flowSequenceEnd] fuel
    if lacksKey then skip
    let value ←
      if ← skip? .value then optional false false [.comma, .flowSequenceEnd] fuel
      else pure .empty
    return .mapping [(key, value)]

/-- The entries up to a closing brace; all but the first follow a comma. -/
def flowEntries (isFirst : Bool) : Nat → Reading (List (Node × Node))
  | 0 => failure
  | fuel + 1 => do
    if ← skip? .flowMappingEnd then return []
    if !isFirst then
      if !(← skip? .comma) then failure
      if ← skip? .flowMappingEnd then return []
    let entry ←
      if ← skip? .key then
        let key ← optional false false [.value, .comma, .flowMappingEnd] fuel
        let value ←
          if ← skip? .value then optional false false [.comma, .flowMappingEnd] fuel
          else pure .empty
        pure (key, value)
      else
        let key ← node false false fuel
        pure (key, .empty)
    return entry :: (← flowEntries false fuel)

end

end Reading

/-! ## Documents -/

/-- What the directives at the head of a document say about handles, and the tokens behind them.
    No handle is explained twice, and the version is 1.1 or 1.2 and given at most once. -/
def heads? (versioned : Bool) (handles : List (Text × Text)) :
    List Token → Option (List (Text × Text) × List Token)
  | .directive (.version major minor) :: tokens =>
    if versioned || major != 1 || (minor != 1 && minor != 2) then none
    else heads? true handles tokens
  | .directive (.handle name meaning) :: tokens =>
    if (handles.lookup name).isSome then none
    else heads? versioned ((name, meaning) :: handles) tokens
  | tokens => some (handles, tokens)

/-- The document whose value begins with the first token, unless it is left out; after it the file
    must end. -/
def body? (mayLack : Bool) (handles : List (Text × Text)) (tokens : List Token) :
    Option Graph := do
  let lacks := mayLack && match tokens with
    | [] | .documentStart :: _ | .documentEnd :: _ | .directive _ :: _ => true
    | _ => false
  let start : Progress := { tokens, handles := handles ++ standardHandles }
  let (root, p) ←
    if lacks then some (.empty, start)
    else (Reading.node true false (4 * tokens.length + 4)).run start
  if p.tokens.all (· == .documentEnd) then return { root, numbered := p.numbered }
  none

/-- The document that tokens describe, empty if they describe none; none where they describe
    several. -/
def Graph.ofTokens? (tokens : List Token) : Option Graph :=
  match tokens with
  | [] => some {}
  | .documentStart :: _ | .directive _ :: _ =>
    match heads? false [] tokens with
    | some (handles, .documentStart :: tokens) => body? true handles tokens
    | _ => none
  | tokens => body? false [] tokens

/-- The document of a settings file. -/
def Graph.ofText? (s : Text) : Option Graph := (Token.ofText? s).bind ofTokens?

end Scribe.Yaml
