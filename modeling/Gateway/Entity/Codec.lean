import Gateway.Entity.Basic

/-!
# The written form of gateway objects

An object is written as a map of its fields, an entity of any kind as that map beside its kind.
`Resource.ofJson?` and `Entity.ofJson?` read these forms; `Entity.body` is the form that is
compared, without id and time stamps.
-/

namespace Gateway

/-! ### Objects of one kind -/

/-- The fields that come behind a kind's own. -/
def Kind.commonFieldNames (k : Kind) : List String :=
  (if k.taggable then ["tags"] else []) ++ ["created_at"] ++
    (if k.recordsUpdate then ["updated_at"] else [])

/-- The names of all fields of a kind, in order of declaration. -/
def Kind.fieldNames (k : Kind) : List String :=
  "id" :: (k.ownFields.map (·.name) ++ k.commonFieldNames)

namespace Resource

/-- Read an object from what stands in the places of its fields. -/
def ofPlaces? (k : Kind) (places : List (Option Json)) : Option (Resource k) := do
  let id ← FieldType.optionalText.read? places.head?.join
  let own ← Record.read? k.ownFields places.tail
  let common := places.tail.drop k.ownFields.length
  let stamps := if k.taggable then common.tail else common
  let tags ← if k.taggable then FieldType.texts.read? common.head?.join else some []
  let createdAt ← FieldType.optionalInt64.read? stamps.head?.join
  let updatedAt ←
    if k.recordsUpdate then FieldType.optionalInt64.read? stamps.tail.head?.join else some none
  some (.make k id (Detail.ofRecord k own) tags createdAt updatedAt)

/-- Read an object of a kind. -/
def ofJson? (k : Kind) (j : Json) : Option (Resource k) :=
  (Json.fields? k.fieldNames j).bind (ofPlaces? k)

/-- The entries that are compared: all but id and time stamps. -/
def bodyEntries {k : Kind} (r : Resource k) : List (String × Value) :=
  Record.entries k.ownFields (Detail.toRecord k r.detail) ++
    (if k.taggable then [("tags", .texts r.tags)] else [])

/-- All entries, in order of declaration. -/
def entries {k : Kind} (r : Resource k) : List (String × Value) :=
  let entry (t : FieldType) (name : String) (x : t.Carrier) : List (String × Value) :=
    (t.write? x).toList.map fun v => (name, v)
  entry .optionalText "id" r.id ++ r.bodyEntries ++
    entry .optionalInt64 "created_at" r.createdAt ++
    entry .optionalInt64 "updated_at" r.updatedAt

/-- The written fields. -/
def toSettings {k : Kind} (r : Resource k) : Settings := Dict.ofList r.entries

/-- The written form. -/
def toValue {k : Kind} (r : Resource k) : Value := .map r.toSettings

end Resource

/-! ### Entities -/

/-- Read a kind. -/
def Kind.ofJson? (j : Json) : Option Kind := Json.enum? Kind.ofWire? j

namespace Entity

/-- The written fields that are compared: all but id and time stamps. -/
def body (e : Entity) : Settings := Dict.ofList e.resource.bodyEntries

/-- The written form: kind and fields. -/
def toValue (e : Entity) : Value :=
  .map [("entity", e.resource.toValue), ("kind", .str e.kind.wire)]

/-- Whether what stands under `entity` comes before the kind. -/
def precedesKind (members : List (String × Json)) : Bool :=
  (members.find? fun m => m.1 == "kind" || m.1 == "entity").any (·.1 == "entity")

/-- Read an entity: an object with a kind and an entity, or an array of the two. An entity that
comes before its kind is kept until the kind is known, so that all of it has to be readable. -/
def ofJson? : Json → Option Entity
  | .obj members => do
    let kind ← Kind.ofJson? (← (← Json.member? members "kind"))
    let body ← (← Json.member? members "entity")
    if precedesKind members && body.toValue?.isNone then failure
    some ⟨kind, ← Resource.ofJson? kind body⟩
  | .arr [kind, entity] => do
    let kind ← Kind.ofJson? kind
    some ⟨kind, ← Resource.ofJson? kind entity⟩
  | _ => none

/-- Read an entity from its written form. -/
def ofValue? (v : Value) : Option Entity := ofJson? (.ofValue v)

end Entity

end Gateway
