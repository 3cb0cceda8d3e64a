import Gateway.Entity.Codec
import Gateway.Value.Difference

/-!
# Plans

A `Plan` is a list of actions, each on one entity. It comes from comparing states
(`State.planTo`), or is read as given.
-/

namespace Gateway

/-- What is to be done with an entity. -/
inductive Action
  | create
  | update
  | delete
  /-- Nothing: the gateway holds the entity as it should be. -/
  | keep
  deriving DecidableEq, Repr

namespace Action

/-- Every action. -/
def all : List Action := [create, update, delete, keep]

/-- The spelling shown to people. -/
def name : Action → String
  | create => "create"
  | update => "update"
  | delete => "delete"
  | keep => "noop"

/-- The spelling in documents. -/
def wire : Action → String
  | create => "create"
  | update => "update"
  | delete => "delete"
  | keep => "no_op"

/-- The action with a given spelling in documents. -/
def ofWire? (s : String) : Option Action := all.find? (·.wire == s)

/-- Whether the gateway has to be told. -/
def isMutation (a : Action) : Bool := a != keep

end Action

/-- An action on an entity. -/
structure PlannedOp where
  action : Action
  /-- What the gateway is to hold afterwards; of a deletion, what it holds now. -/
  entity : Entity
  /-- What an update replaces. -/
  previous : Option Entity := none
  /-- The fields that an update changes. -/
  changes : List FieldChange := []

namespace PlannedOp

/-- The kind of the entity. -/
def kind (op : PlannedOp) : Kind := op.entity.kind

/-- The id of the entity. -/
def id (op : PlannedOp) : String := op.entity.idText

/-- Kind and id of the entity. -/
def key (op : PlannedOp) : Reference := ⟨op.kind, op.id⟩

/-- Whether the gateway has to be told. -/
def isMutation (op : PlannedOp) : Bool := op.action.isMutation

/-- The action and what it is on. -/
def describe (op : PlannedOp) : String := op.action.name ++ " " ++ op.entity.describe

/-- Read an action on an entity. -/
def ofJson? (j : Json) : Option PlannedOp := do
  let required ← Json.fields? ["op", "entity", "previous", "changes"] j
  match required with
  | [action, entity, previous, changes] =>
    some {
      action := ← Json.enum? Action.ofWire? (← action)
      entity := ← Entity.ofJson? (← entity)
      previous := ← Json.optional Entity.ofJson? previous
      changes := ← Json.fieldOr [] (Json.list? FieldChange.ofJson?) changes
    }
  | _ => none

/-- The written form. -/
def toValue (op : PlannedOp) : Value :=
  .ofEntries ([("op", .str op.action.wire), ("entity", op.entity.toValue)] ++
    op.previous.toList.map (fun e => ("previous", e.toValue)) ++
    if op.changes.isEmpty then []
    else [("changes", .list (op.changes.map FieldChange.toValue))])

end PlannedOp

/-- What is to be done, in order. -/
structure Plan where
  ops : List PlannedOp
  deriving Inhabited

namespace Plan

/-- How many operations have an action. -/
def count (p : Plan) (a : Action) : Nat := (p.ops.filter (·.action == a)).length

/-- The operations that the gateway has to be told of. -/
def mutations (p : Plan) : List PlannedOp := p.ops.filter PlannedOp.isMutation

/-- Whether there is anything to do. -/
def hasChanges (p : Plan) : Bool := !p.mutations.isEmpty

/-- The counts, in one line. -/
def summary (p : Plan) : String :=
  "Summary: Created: " ++ toString (p.count .create) ++ ", Updated: " ++
    toString (p.count .update) ++ ", Deleted: " ++ toString (p.count .delete) ++
    ", Unchanged: " ++ toString (p.count .keep)

/-- Read a plan. -/
def ofJson? (j : Json) : Option Plan := do
  match ← Json.fields? ["ops"] j with
  | [some ops] => some ⟨← Json.list? PlannedOp.ofJson? ops⟩
  | _ => none

/-- The written form. -/
def toValue (p : Plan) : Value := .map [("ops", .list (p.ops.map PlannedOp.toValue))]

end Plan

end Gateway
