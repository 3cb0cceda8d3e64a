/-!
# Tokens of YAML

The smallest meaningful parts of a text. Indentation is made visible: a block of lines starts with
`Token.blockStart` and ends with `Token.blockEnd`, so that what follows need not know of columns.
-/

namespace Gateway.Yaml

/-- The two sorts of collections. -/
inductive Collection
  | sequence
  | mapping
  deriving DecidableEq, Repr

/-- A part of a text. -/
inductive Token
  /-- The directive that names the version of the format. -/
  | version
  /-- The directive that gives a handle for tags a meaning. -/
  | handle (handle meaning : String)
  | documentStart
  | documentEnd
  /-- A collection whose members are told by their indentation. -/
  | blockStart (c : Collection)
  | blockEnd
  /-- A collection in brackets. -/
  | bracketOpen (c : Collection)
  | bracketClose (c : Collection)
  /-- The hyphen before a member of a sequence. -/
  | item
  /-- The comma between the members of a collection in brackets. -/
  | comma
  /-- A key of a mapping follows. -/
  | key
  /-- The value of the key before follows. -/
  | value
  /-- A reference to a node that has a name. -/
  | alias (name : String)
  /-- The name of the node that follows. -/
  | anchor (name : String)
  /-- The tag of the node that follows. -/
  | tag (handle suffix : String)
  /-- A text; a plain one may stand for something else than a string. -/
  | text (text : String) (plain : Bool)
  deriving DecidableEq, Repr

end Gateway.Yaml
