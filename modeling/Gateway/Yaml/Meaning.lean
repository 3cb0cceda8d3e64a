import Gateway.Yaml.Node
import Gateway.Yaml.Plain
import Gateway.Yaml.Tag

/-!
# The meaning of a YAML document

`Node.data?` gives the data of a document: references are followed, plain texts are understood and
tags are applied. A document that follows too many references or nests too deeply has no data, nor
has one in which a key occurs twice.
-/

namespace Gateway.Yaml

/-! ### References -/

/-- The nodes that can be referred to. -/
structure References where
  /-- The nodes by their numbers, the last one first. -/
  nodes : List (Nat × Node)
  /-- How many references may be followed. -/
  limit : Nat

/-- A computation that counts the references it follows. -/
abbrev Expansion := StateT Nat Option

namespace References

/-- The references of a document, which may be followed a hundred times for each of its marks. -/
def ofNode (n : Node) : References := ⟨n.anchors.reverse, 100 * n.marks⟩

/-- The node that a reference leads to. -/
def follow (refs : References) (anchor : Nat) : Expansion Node := do
  modify (· + 1)
  if refs.limit < (← get) then failure
  match refs.nodes.find? (·.1 == anchor) with
  | some (_, n) => return n
  | none => failure

end References

/-! ### Tags -/

/-- What stands before the type in the tags of the format itself. -/
def standardTag : String := "tag:yaml.org,2002:"

/-- What a tag does to the datum behind it. -/
inductive TagEffect
  | nothing
  /-- The datum keeps a tag of the document's own. -/
  | keep (tag : String)
  /-- The datum is of a type. -/
  | cast (type : String)

/-- What a tag does. One of the document's own begins with an exclamation mark, which may be all
of it. -/
def TagEffect.ofTag : Option String → TagEffect
  | none => .nothing
  | some tag =>
    match tag.toList with
    | '!' :: rest => if rest.contains noCharacter then .nothing else .keep (Data.bareTag tag)
    | cs =>
      if standardTag.toList.isPrefixOf cs then
        .cast (String.ofList (cs.drop standardTag.length))
      else .cast ""

/-! ### Data -/

/-- How many collections may stand around a node. -/
def depthLimit : Nat := 128

/-- What a text stands for. -/
def textData? (effect : TagEffect) (plain : Bool) (text : String) : Option Data :=
  match effect with
  | .cast type => Data.ofTagged? type text
  | _ => if plain then Data.ofPlain? text else some (.text text)

/-- The data of a node. `room` is how many further collections may nest. -/
def Node.expand (refs : References) (room : Nat) (n : Node) : Expansion Data := do
  let n ← match n with
    | .reference anchor => refs.follow anchor
    | n => pure n
  let effect := TagEffect.ofTag n.label.tag
  let keep (d : Data) : Data :=
    match effect with
    | .keep tag => .tagged tag d
    | _ => d
  match n, room with
  | .text _ s plain, _ => return keep (← textData? effect plain s)
  | .sequence _ items, room + 1 => return keep (.sequence (← items.mapM (expand refs room)))
  | .mapping _ entries, room + 1 =>
    let entries ← entries.mapM fun (k, v) => do
      let key ← expand refs room k
      return (key, ← expand refs room v)
    if Data.areDistinct (entries.map (·.1)) then return keep (.mapping entries) else failure
  | _, _ => failure

/-- The data of a document. -/
def Node.data? (n : Node) : Option Data :=
  ((n.expand (.ofNode n) depthLimit).run 0).map (·.1)

end Gateway.Yaml
