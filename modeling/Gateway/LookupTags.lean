import Gateway.Json.Decode
import Gateway.Kind

/-!
# Lookup tags

Tags that mark shared objects: a document may refer to an object of the gateway that carries one of
the lookup tags of its kind without declaring it. Only kinds that commonly act as shared parents
have lookup tags.
-/

namespace Gateway

/-- The lookup tags of each kind that has them. -/
structure LookupTags where
  services : List String := []
  routes : List String := []
  consumers : List String := []
  consumerGroups : List String := []
  partials : List String := []
  deriving DecidableEq, Repr, Inhabited

namespace LookupTags

/-- The lookup tags of a kind. -/
def forKind (tags : LookupTags) : Kind → List String
  | .service => tags.services
  | .route => tags.routes
  | .consumer => tags.consumers
  | .consumerGroup => tags.consumerGroups
  | .partialConfig => tags.partials
  | _ => []

/-- Whether no kind has lookup tags. -/
def isEmpty (tags : LookupTags) : Bool :=
  Kind.creationOrder.all fun kind => (tags.forKind kind).isEmpty

/-- The names of the lists, in order of declaration. -/
def fieldNames : List String := ["services", "routes", "consumers", "consumer_groups", "partials"]

/-- Read lookup tags. Unlike elsewhere, a name that is not known is an error, so that a misspelt
kind cannot go unnoticed. -/
def ofJson? (j : Json) : Option LookupTags := do
  let known := match j with
    | .obj members => members.all fun m => fieldNames.contains m.1
    | _ => true
  if !known then failure
  match ← Json.fields? fieldNames j with
  | [services, routes, consumers, consumerGroups, partials] =>
    let texts := Json.fieldOr [] Json.texts?
    some {
      services := ← texts services
      routes := ← texts routes
      consumers := ← texts consumers
      consumerGroups := ← texts consumerGroups
      partials := ← texts partials
    }
  | _ => failure

/-- The written form. -/
def toValue (tags : LookupTags) : Value :=
  .ofEntries [("services", .texts tags.services), ("routes", .texts tags.routes),
    ("consumers", .texts tags.consumers), ("consumer_groups", .texts tags.consumerGroups),
    ("partials", .texts tags.partials)]

end LookupTags

end Gateway
