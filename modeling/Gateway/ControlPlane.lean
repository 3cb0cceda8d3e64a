import Gateway.Run.Report
import Gateway.State

/-!
# A gateway in memory

A `ControlPlane` holds a state and does what it is told (`State.apply`), unless it has been set up
to refuse calls on some objects or to lose them. It remembers the calls it has seen.
-/

namespace Gateway

/-! ### What calls do -/

namespace State

/-- Create an entity under its id, which has to be free. -/
def applyCreate (s : State) (e : Entity) : Except ClientError State :=
  match e.id? with
  | none => .error (.rejected 400 "id is required")
  | some id =>
    if s.contains e.kind id then
      .error (.rejected 409 ("UNIQUE violation detected on id " ++ id))
    else match s.insert e with
      | .ok s' => .ok s'
      | .error err => .error (.rejected 409 err.message)

/-- Replace the entity with the same id. -/
def applyUpdate (s : State) (e : Entity) : Except ClientError State :=
  if s.contains e.kind e.idText then
    match s.upsert e with
    | .ok s' => .ok s'
    | .error err => .error (.rejected 400 err.message)
  else .error (.notFound e.kind e.idText)

/-- Remove the entity with the same id. -/
def applyDelete (s : State) (e : Entity) : Except ClientError State :=
  if s.contains e.kind e.idText then .ok (s.erase e.kind e.idText)
  else .error (.notFound e.kind e.idText)

/-- Do what a call says. -/
def apply (s : State) (a : Action) (e : Entity) : Except ClientError State :=
  match a with
  | .create => s.applyCreate e
  | .update => s.applyUpdate e
  | .delete => s.applyDelete e
  | .keep => .ok s

/-- The state after a call that failed. An update takes the old entity away before it finds that
the new one has no place. -/
def afterRefusal (s : State) (a : Action) (e : Entity) : State :=
  match a with
  | .update => if s.contains e.kind e.idText then s.without e else s
  | _ => s

end State

/-! ### The gateway -/

/-- A call that the gateway has seen. -/
structure Call where
  action : Action
  kind : Kind
  id : String
  label : String
  deriving DecidableEq, Repr

/-- Objects on which every call is refused. -/
structure Refusal where
  kind : Kind
  /-- The id, the label or the name of the object. -/
  key : String
  error : ClientError
  deriving DecidableEq, Repr

namespace Refusal

/-- Whether calls on an entity are refused. -/
def hits (r : Refusal) (e : Entity) : Bool :=
  e.kind == r.kind &&
    (e.id? == some r.key || e.label == r.key || (e.naturalKey?.map (·.head)) == some r.key)

end Refusal

/-- A gateway in memory. -/
structure ControlPlane where
  state : State
  /-- The calls it has seen, in order. -/
  calls : List Call := []
  refusals : List Refusal := []
  /-- Objects on which every call is lost before it is seen. -/
  crashes : List Reference := []
  /-- After how many calls it asks for the run to be cancelled. -/
  cancelAfter : Option Nat := none
  /-- Calls take time, so that calls in flight overlap. -/
  slow : Bool := false
  deriving Inhabited

namespace ControlPlane

/-- A gateway that holds a state. -/
def ofState (s : State) : ControlPlane := { state := s }

/-- The error with which calls on an entity are refused, if they are. -/
def refusal? (cp : ControlPlane) (e : Entity) : Option ClientError :=
  (cp.refusals.find? (·.hits e)).map (·.error)

/-- Whether the run is to be cancelled. -/
def asksToCancel (cp : ControlPlane) : Bool :=
  !cp.calls.isEmpty && cp.cancelAfter.any (· ≤ cp.calls.length)

/-- See a call. -/
def log (cp : ControlPlane) (a : Action) (e : Entity) : ControlPlane :=
  { cp with calls := cp.calls ++ [⟨a, e.kind, e.idText, e.label⟩] }

/-- What the gateway answers when it has done what a call says. -/
def answer (a : Action) (e : Entity) : Option Entity :=
  match a with
  | .create | .update => some e
  | _ => none

/-- Whether every call on an entity is lost; one without an id is no object that could be named. -/
def loses (cp : ControlPlane) (e : Entity) : Bool :=
  e.id?.any fun id => cp.crashes.contains ⟨e.kind, id⟩

/-- A call: how it ends, and the gateway afterwards. Keeping an entity takes no call. -/
def call (cp : ControlPlane) (a : Action) (e : Entity) : Reply × ControlPlane :=
  if a == .keep then (.done none, cp)
  else if cp.loses e then (.crashed, cp)
  else match cp.refusal? e with
    | some err => (.refused err, cp.log a e)
    | none =>
      match cp.state.apply a e with
      | .ok s => (.done (answer a e), { cp with state := s }.log a e)
      | .error err => (.refused err, { cp with state := cp.state.afterRefusal a e }.log a e)

/-- The position of the first call with an action on the object of a kind and label. -/
def position? (cp : ControlPlane) (a : Action) (kind : Kind) (label : String) : Option Nat :=
  cp.calls.findIdx? fun c => c.action == a && c.kind == kind && c.label == label

end ControlPlane

end Gateway
