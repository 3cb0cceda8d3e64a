import Gateway.State

/-!
# Errors of planning

Why no plan can be made. Each error names the declaration that is at fault.
-/

namespace Gateway

/-- Why declarations cannot be planned. `owner` is kind and label of the entity at fault. -/
inductive PlanError
  /-- A reference to something that does not exist. -/
  | notFound (owner : String) (kind : Kind) (reference : String)
  /-- A reference that several objects answer to. -/
  | ambiguous (owner : String) (kind : Kind) (reference : String) (count : Nat)
  /-- A whole object where only a reference is legal. -/
  | nestedParent (owner : String) (kind : Kind) (parent : String)
  /-- An object declared under one parent that refers to another one. -/
  | exclusiveScope (owner : String) (kind : Kind) (parent declared : String)
  | missingField (kind : Kind) (label field : String)
  /-- Two declarations of one natural key. -/
  | duplicate (kind : Kind) (key label : String)
  /-- Two plugins of one consumer-group and natural key that do not say the same. -/
  | differingPlugin (key label : String)
  /-- The gateway does not know a kind, of which objects are declared. -/
  | unsupported (kind : Kind) (count : Nat)
  /-- The gateway does not know plugins in the scope of a consumer-group. -/
  | groupScope (label : String)
  /-- The gateway does not know shared plugin configuration. -/
  | sharedConfig (label : String)
  /-- An object of a kind without tags, declared under a selection. -/
  | untaggable (kind : Kind)
  /-- An id that belongs to an object outside the selection. -/
  | conflict (kind : Kind) (id : String)
  | state (e : StateError)
  deriving DecidableEq, Repr

namespace PlanError

/-- The text of the error. -/
def message : PlanError → String
  | notFound owner kind reference => owner ++ ": " ++ kind.name ++ " " ++ reference ++ " not found"
  | ambiguous owner kind reference count =>
    owner ++ ": " ++ kind.name ++ " reference " ++ reference ++ " is ambiguous (" ++
      toString count ++ " matches)"
  | nestedParent owner kind parent =>
    owner ++ ": nesting a full " ++ kind.name ++ " object (" ++ parent ++
      ") is not allowed, reference it by id or name"
  | exclusiveScope owner kind parent declared =>
    owner ++ ": declared under " ++ kind.name ++ " " ++ parent ++ " but its " ++ kind.name ++
      " field points at " ++ declared
  | missingField kind label field =>
    kind.name ++ " " ++ label ++ ": missing required field \x60" ++ field ++ "\x60"
  | duplicate kind key label =>
    "duplicate " ++ kind.name ++ " declaration " ++ key ++ ": " ++ label ++
      " is declared more than once"
  | differingPlugin key label =>
    "duplicate " ++ Kind.plugin.name ++ " declaration " ++ key ++ ": " ++ label ++
      " is declared more than once with different configuration"
  | unsupported kind count =>
    kind.name ++ " is not supported by the target gateway: " ++ toString count ++ " " ++
      kind.name ++ " declaration(s) present"
  | groupScope label =>
    Kind.plugin.name ++ " is not supported by the target gateway: " ++ label ++
      " is scoped to a consumer-group"
  | sharedConfig label =>
    Kind.plugin.name ++ " is not supported by the target gateway: " ++ label ++ " links partials"
  | untaggable kind =>
    kind.name ++ " entities carry no tags and cannot be managed with select tags"
  | conflict kind id =>
    "entity with ID " ++ id ++ " already exists (" ++ kind.name ++ " outside the selected tags)"
  | state e => e.message

end PlanError

end Gateway
