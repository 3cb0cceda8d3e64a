import Gateway.Plan.Basic
import Gateway.Plan.Error
import Gateway.Selection

/-!
# Plans from states

`State.planTo` compares what a gateway is to hold with what it holds. Entities are matched by kind
and id; what is to be there and is not is created, what is there and is not to be is deleted, and
what is there in another form is updated. Time stamps and the order of tags do not count.
-/

namespace Gateway

namespace Entity

/-- The body with tags in ascending order, which is what two forms of an entity are compared by. -/
def comparable (e : Entity) : Settings := (e.withTags (e.tags.mergeSort (· ≤ ·))).body

end Entity

namespace PlannedOp

/-- The operation on an entity that the gateway holds in some form. -/
def ofMatch (wanted held : Entity) : PlannedOp :=
  let changes := FieldChange.between held.comparable wanted.comparable
  if changes.isEmpty then ⟨.keep, wanted, none, []⟩
  else ⟨.update, wanted.withoutTimestamps, some held, changes⟩

end PlannedOp

namespace State

/-- The operation on a wanted entity. An id that is not visible and taken all the same belongs to
an object of others. -/
def planFor (current visible : State) (wanted : Entity) : Except PlanError PlannedOp :=
  match visible.get? wanted.kind wanted.idText with
  | some held => .ok (.ofMatch wanted held)
  | none =>
    if current.contains wanted.kind wanted.idText then
      .error (.conflict wanted.kind wanted.idText)
    else .ok ⟨.create, wanted, none, []⟩

/-- The operations on entities of one kind: what is wanted, then what is to go. -/
def planKind (desired current visible : State) (kind : Kind) :
    Except PlanError (List PlannedOp) := do
  let wanted ← (desired.ofKind kind).mapM (planFor current visible)
  let gone := (visible.ofKind kind).filter fun e => !desired.contains kind e.idText
  return wanted ++ gone.map fun e => ⟨.delete, e, none, []⟩

/-- The plan that takes what a selection shows of the current state to the desired state. -/
def planTo (desired current : State) (sel : Selection) : Except PlanError Plan := do
  return ⟨(← Kind.creationOrder.mapM (planKind desired current (current.select sel))).flatten⟩

end State

end Gateway
