import Gateway.Json.Decode
import Gateway.Kind

/-!
# References between objects

A declaration points at another object by id, by name, or by neither (`ForeignKey`). Whatever else
stands in such a place is kept in `extra`: an author who wrote a whole object where only a
reference is legal is told so by name. Once resolved, a reference is a kind and an id
(`Reference`).
-/

namespace Gateway

/-- A reference as declared. -/
structure ForeignKey where
  id : Option String
  name : Option String
  /-- Fields other than `id` and `name`. -/
  extra : Settings
  deriving Inhabited

/-- A resolved reference: this object has to exist. -/
structure Reference where
  kind : Kind
  id : String
  deriving DecidableEq, Repr, Inhabited

/-- Kind and id, for messages. -/
def Reference.describe (r : Reference) : String := r.kind.name ++ " " ++ r.id

namespace ForeignKey

/-- The reference to an id. -/
def byId (id : String) : ForeignKey := ⟨some id, none, []⟩

/-- The reference to a name. -/
def byName (name : String) : ForeignKey := ⟨none, some name, []⟩

/-- Nothing but id and name was declared. -/
def isBare (fk : ForeignKey) : Bool := fk.extra.isEmpty

/-- Neither id nor name was declared. -/
def isUnqualified (fk : ForeignKey) : Bool := fk.id.isNone && fk.name.isNone

/-- Name, else id, for messages. -/
def label (fk : ForeignKey) : String :=
  (fk.name <|> fk.id).getD "<unqualified>"

/-- The resolved reference to an object of the given kind, when the id is known. -/
def toReference? (kind : Kind) (fk : ForeignKey) : Option Reference :=
  fk.id.map fun id => ⟨kind, id⟩

/-- The written form: id and name beside the other fields. -/
def toValue (fk : ForeignKey) : Value :=
  let put (d : Settings) (key : String) : Option String → Settings
    | some s => Dict.insert d key (.str s)
    | none => d
  .map (put (put fk.extra "id" fk.id) "name" fk.name)

/-- Read a reference: an object, all of whose members are readable. -/
def ofJson? : Json → Option ForeignKey
  | .obj members => do
    let id ← Json.optional Json.text? (← Json.member? members "id")
    let name ← Json.optional Json.text? (← Json.member? members "name")
    let extra ← Json.memberValues? (members.filter fun m => m.1 != "id" && m.1 != "name")
    some ⟨id, name, Dict.ofList extra⟩
  | _ => none

end ForeignKey

end Gateway
