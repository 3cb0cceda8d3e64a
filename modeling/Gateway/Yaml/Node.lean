import Gateway.Dict
import Gateway.Yaml.Token

/-!
# Nodes of a YAML document

A `Node` is a part of a document as written: a text, a collection, or a reference to a node that
has a name. `Document.ofTokens?` reads the one document of a text. Names are numbered, and a
reference holds the number: a later node with the number of an earlier one takes its place
everywhere in the document.
-/

namespace Gateway.Yaml

/-- What stands before a node. -/
structure Label where
  /-- The number of the node's name. -/
  anchor : Option Nat := none
  tag : Option String := none
  deriving Repr, Inhabited

/-- A part of a document. -/
inductive Node
  /-- The node whose name has a number. -/
  | reference (anchor : Nat)
  | text (label : Label) (text : String) (plain : Bool)
  | sequence (label : Label) (items : List Node)
  | mapping (label : Label) (entries : List (Node × Node))
  deriving Inhabited

namespace Node

/-- What stands where nothing is written. -/
def empty : Node := text {} "" true

mutual

/-- How many marks the node has: one for a text or a reference, two for the ends of a collection. -/
def marks : Node → Nat
  | reference _ => 1
  | text .. => 1
  | sequence _ items => 2 + itemMarks items
  | mapping _ entries => 2 + entryMarks entries

/-- The marks of the items of a sequence. -/
def itemMarks : List Node → Nat
  | [] => 0
  | n :: rest => marks n + itemMarks rest

/-- The marks of the entries of a mapping. -/
def entryMarks : List (Node × Node) → Nat
  | [] => 0
  | (k, v) :: rest => marks k + marks v + entryMarks rest

end

/-- What stands before the node. -/
def label : Node → Label
  | reference _ => {}
  | text l .. => l
  | sequence l _ => l
  | mapping l _ => l

/-- The node itself with its number, if it has one. -/
def numbered (n : Node) : List (Nat × Node) := (n.label.anchor.map fun a => (a, n)).toList

mutual

/-- The nodes with a number, in the order in which they begin. -/
def anchors (n : Node) : List (Nat × Node) :=
  n.numbered ++ match n with
    | sequence _ items => itemAnchors items
    | mapping _ entries => entryAnchors entries
    | _ => []

/-- The nodes with a number among items. -/
def itemAnchors : List Node → List (Nat × Node)
  | [] => []
  | n :: rest => anchors n ++ itemAnchors rest

/-- The nodes with a number among entries. -/
def entryAnchors : List (Node × Node) → List (Nat × Node)
  | [] => []
  | (k, v) :: rest => anchors k ++ anchors v ++ entryAnchors rest

end

end Node

/-! ### Reading -/

/-- What is known at a place between tokens. -/
structure Reading where
  /-- The tokens that follow. -/
  tokens : List Token
  /-- The meanings of the handles of tags. -/
  handles : Dict String := []
  /-- The numbers of the names seen so far. -/
  names : Dict Nat := []

/-- A reader of a part of a document. -/
abbrev Reader := StateT Reading Option

namespace Reader

/-- The next token. -/
def peek : Reader (Option Token) := return (← get).tokens.head?

/-- Whether the next token is one of some. -/
def nextIs (ts : List Token) : Reader Bool := return (← peek).any ts.contains

/-- Go on behind a token. -/
def skip : Reader Unit := modify fun r => { r with tokens := r.tokens.drop 1 }

/-- Go on behind a token if it is the next one. -/
def accept (t : Token) : Reader Bool := do
  if ← nextIs [t] then
    skip
    return true
  else return false

/-- Go on behind a token, which has to be the next one. -/
def expect (t : Token) : Reader Unit := do
  if !(← accept t) then failure

/-- Whether a token stands between documents. -/
def isOutermost : Token → Bool
  | .version => true
  | .handle .. => true
  | .documentStart => true
  | .documentEnd => true
  | _ => false

/-- A tag with its handle resolved. -/
def resolveTag (handle suffix : String) : Reader String := do
  if handle.isEmpty then return suffix
  else match Dict.get? (← get).handles handle with
    | some meaning => return meaning ++ suffix
    | none => failure

/-- A name before a node. -/
def name? : Reader (Option String) := do
  match ← peek with
  | some (.anchor name) =>
    skip
    return some name
  | _ => return none

/-- A tag before a node. -/
def tag? : Reader (Option String) := do
  match ← peek with
  | some (.tag handle suffix) =>
    skip
    return some (← resolveTag handle suffix)
  | _ => return none

/-- A name and a tag in either order, each at most once. -/
def properties : Reader (Option String × Option String) := do
  match ← name? with
  | some name => return (some name, ← tag?)
  | none =>
    match ← tag? with
    | some tag => return (← name?, some tag)
    | none => return (none, none)

/-- Number the name of a node: the number is how many names there are. -/
def label (name tag : Option String) : Reader Label := do
  match name with
  | none => return ⟨none, tag⟩
  | some name =>
    let r ← get
    let n := r.names.length
    set { r with names := Dict.insert r.names name n }
    return ⟨some n, tag⟩

mutual

/-- A node. A block may begin here only where `block` says so, and a sequence may stand without
indentation of its own only where `flush` says so. -/
def node (block flush : Bool) : Nat → Reader Node
  | 0 => failure
  | fuel + 1 => do
    if let some (.alias name) ← peek then
      skip
      match Dict.get? (← get).names name with
      | some n => return .reference n
      | none => failure
    let (name, tag) ← properties
    match ← peek with
    | some .item =>
      if flush then return .sequence (← label name tag) (← flushItems fuel)
      else if name.isSome || tag.isSome then return .text (← label name tag) "" true
      else failure
    | some (.text text plain) => do
      skip
      return .text (← label name tag) text plain
    | some (.bracketOpen .sequence) => do
      skip
      return .sequence (← label name tag) (← bracketItems true fuel)
    | some (.bracketOpen .mapping) => do
      skip
      return .mapping (← label name tag) (← bracketEntries true fuel)
    | some (.blockStart kind) =>
      if !block then
        if name.isSome || tag.isSome then return .text (← label name tag) "" true else failure
      else do
        skip
        match kind with
        | .sequence => return .sequence (← label name tag) (← blockItems fuel)
        | .mapping => return .mapping (← label name tag) (← blockEntries fuel)
    | _ =>
      if name.isSome || tag.isSome then return .text (← label name tag) "" true else failure

/-- The items of a sequence, up to the end of its block. -/
def blockItems : Nat → Reader (List Node)
  | 0 => failure
  | fuel + 1 => do
    if ← accept .blockEnd then return []
    expect .item
    let item ← if ← nextIs [.item, .blockEnd] then pure Node.empty else node true false fuel
    return item :: (← blockItems fuel)

/-- The items of a sequence without indentation of its own. -/
def flushItems : Nat → Reader (List Node)
  | 0 => failure
  | fuel + 1 => do
    if !(← accept .item) then return []
    let item ← if ← nextIs [.item, .key, .value, .blockEnd] then pure Node.empty
      else node true false fuel
    return item :: (← flushItems fuel)

/-- The entries of a mapping, up to the end of its block. -/
def blockEntries : Nat → Reader (List (Node × Node))
  | 0 => failure
  | fuel + 1 => do
    if ← accept .blockEnd then return []
    expect .key
    let ends := [Token.key, .value, .blockEnd]
    let k ← if ← nextIs ends then pure Node.empty else node true true fuel
    let v ←
      if ← accept .value then
        if ← nextIs ends then pure Node.empty else node true true fuel
      else pure Node.empty
    return (k, v) :: (← blockEntries fuel)

/-- The items of a sequence, up to its closing bracket. An entry of a mapping may stand as an item,
for the mapping that has no other. -/
def bracketItems (first : Bool) : Nat → Reader (List Node)
  | 0 => failure
  | fuel + 1 => do
    if ← accept (.bracketClose .sequence) then return []
    if !first then expect .comma
    if ← accept .key then
      let k ←
        if ← nextIs [.value, .comma, .bracketClose .sequence] then
          -- the token is taken for the key that is missing
          skip
          pure Node.empty
        else node false false fuel
      let v ←
        if ← accept .value then
          if ← nextIs [.comma, .bracketClose .sequence] then pure Node.empty
          else node false false fuel
        else pure Node.empty
      return .mapping {} [(k, v)] :: (← bracketItems false fuel)
    else if ← accept (.bracketClose .sequence) then return []
    else
      let item ← node false false fuel
      return item :: (← bracketItems false fuel)

/-- The entries of a mapping, up to its closing bracket. -/
def bracketEntries (first : Bool) : Nat → Reader (List (Node × Node))
  | 0 => failure
  | fuel + 1 => do
    if ← accept (.bracketClose .mapping) then return []
    if !first then expect .comma
    if ← accept .key then
      let k ← if ← nextIs [.value, .comma, .bracketClose .mapping] then pure Node.empty
        else node false false fuel
      let v ←
        if ← accept .value then
          if ← nextIs [.comma, .bracketClose .mapping] then pure Node.empty
          else node false false fuel
        else pure Node.empty
      return (k, v) :: (← bracketEntries false fuel)
    else if ← accept (.bracketClose .mapping) then return []
    else
      let k ← node false false fuel
      return (k, .empty) :: (← bracketEntries false fuel)

end

/-! ### Documents -/

/-- The handles that have a meaning without a directive. -/
def standardHandles : Dict String := Dict.ofList [("!", "!"), ("!!", "tag:yaml.org,2002:")]

/-- The directives before a document: at most one of the version, and none twice for a handle. -/
def directives (versioned : Bool) : Nat → Dict String → Reader (Dict String)
  | 0, _ => failure
  | fuel + 1, handles => do
    match ← peek with
    | some .version =>
      if versioned then failure
      skip
      directives true fuel handles
    | some (.handle handle meaning) =>
      if (Dict.get? handles handle).isSome then failure
      skip
      directives versioned fuel (Dict.insert handles handle meaning)
    | _ => return handles

/-- The only document of a text; one that is left out is empty. -/
def document : Reader Node := do
  let fuel := 2 * (← get).tokens.length + 4
  match ← peek with
  | none => return .empty
  | some t =>
    let root ←
      if isOutermost t && t != .documentEnd then
        let own ← directives false fuel []
        modify fun r =>
          { r with handles := own.foldl (fun d e => Dict.insert d e.1 e.2) standardHandles }
        expect .documentStart
        if (← peek).all isOutermost then pure Node.empty else node true false fuel
      else
        modify fun r => { r with handles := standardHandles }
        node true false fuel
    modify fun r => { r with tokens := r.tokens.dropWhile (· == .documentEnd) }
    if (← peek).isSome then failure
    return root

end Reader

/-- The document that tokens make up. -/
def Node.ofTokens? (tokens : List Token) : Option Node :=
  (Reader.document.run { tokens := tokens }).map (·.1)

end Gateway.Yaml
