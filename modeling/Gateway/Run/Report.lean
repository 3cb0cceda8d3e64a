import Gateway.Plan.Basic

/-!
# Reports of runs

What a run of a plan did and what went wrong: counts, the changed entities, and errors. A report
only grows; `Report.record` is the one way to note a success.
-/

namespace Gateway

/-! ### Answers of the gateway -/

/-- Why the gateway did not do what it was told. -/
inductive ClientError
  | rejected (status : UInt16) (message : String)
  | notFound (kind : Kind) (id : String)
  | unavailable (message : String)
  deriving DecidableEq, Repr

/-- The text of the error. -/
def ClientError.message : ClientError → String
  | rejected status message => "HTTP " ++ toString status.toNat ++ ": " ++ message
  | notFound kind id => kind.name ++ " " ++ id ++ " not found"
  | unavailable message => "control plane unavailable: " ++ message

/-- How a call ended. -/
inductive Reply
  /-- The gateway did it; it answers a creation or update with what it has stored. -/
  | done (stored : Option Entity)
  | refused (e : ClientError)
  /-- The call was lost before the gateway saw it. -/
  | crashed

/-- Whether a call was lost. -/
def Reply.isCrash : Reply → Bool
  | crashed => true
  | _ => false

/-! ### Counts -/

/-- How many operations succeeded. -/
structure Stats where
  created : Nat := 0
  updated : Nat := 0
  deleted : Nat := 0
  deriving DecidableEq, Repr, Inhabited

namespace Stats

/-- All operations that succeeded. -/
def total (s : Stats) : Nat := s.created + s.updated + s.deleted

/-- Count an operation. -/
def bump (s : Stats) : Action → Stats
  | .create => { s with created := s.created + 1 }
  | .update => { s with updated := s.updated + 1 }
  | .delete => { s with deleted := s.deleted + 1 }
  | .keep => s

/-- The counts, in one line. -/
def text (s : Stats) : String :=
  "Created: " ++ toString s.created ++ ", Updated: " ++ toString s.updated ++ ", Deleted: " ++
    toString s.deleted

end Stats

/-! ### Changes -/

/-- An entity that was changed, or would have been. -/
structure EntityChange where
  kind : Kind
  label : String
  id : String
  /-- The body before an update or a deletion. -/
  before : Option Settings
  /-- The body after a creation or an update. -/
  after : Option Settings

namespace EntityChange

/-- The change that an operation made. What the gateway has stored counts more than what was
planned. -/
def ofOp (op : PlannedOp) (stored : Option Entity) : EntityChange :=
  let shown := stored.getD op.entity
  { kind := op.kind
    label := shown.label
    id := shown.idText
    before := match op.action with
      | .update => op.previous.map Entity.body
      | .delete => some op.entity.body
      | _ => none
    after := match op.action with
      | .create | .update => some shown.body
      | _ => none }

end EntityChange

/-- The changed entities, in the order in which the successes became known. -/
structure Changes where
  created : List EntityChange := []
  updated : List EntityChange := []
  deleted : List EntityChange := []
  deriving Inhabited

namespace Changes

/-- Note a change. -/
def add (c : Changes) (change : EntityChange) : Action → Changes
  | .create => { c with created := c.created ++ [change] }
  | .update => { c with updated := c.updated ++ [change] }
  | .delete => { c with deleted := c.deleted ++ [change] }
  | .keep => c

/-- How many entities were changed. -/
def size (c : Changes) : Nat := c.created.length + c.updated.length + c.deleted.length

/-- Whether no entity was changed. -/
def isEmpty (c : Changes) : Bool := c.size == 0

end Changes

/-! ### Errors -/

/-- The operation that an error is about. -/
structure OpTag where
  action : Action
  kind : Kind
  label : String
  id : String
  deriving DecidableEq, Repr

namespace OpTag

/-- The tag of an operation. -/
def ofOp (op : PlannedOp) : OpTag := ⟨op.action, op.kind, op.entity.label, op.id⟩

/-- Action, kind, label and id. -/
def text (t : OpTag) : String :=
  t.action.name ++ " " ++ t.kind.name ++ " " ++ t.label ++ " (" ++ t.id ++ ")"

end OpTag

/-- What went wrong in a run. -/
inductive RunError
  /-- The gateway refused an operation. -/
  | refused (op : OpTag) (cause : ClientError)
  /-- An operation was left out because one that it needs did not succeed. -/
  | skipped (op : OpTag) (blocker : Reference)
  /-- The run was cancelled before it came to some operations. -/
  | cancelled (remaining : Nat)
  /-- The run stopped at a failure before it came to some operations. -/
  | halted (remaining : Nat)
  /-- A call was lost. -/
  | crashed
  deriving DecidableEq, Repr

namespace RunError

/-- The text of the error; a lost call says nothing. -/
def message? : RunError → Option String
  | refused op cause => some (op.text ++ ": " ++ cause.message)
  | skipped op blocker => some (op.text ++ ": skipped, depends on failed " ++ blocker.describe)
  | cancelled n => some ("solve cancelled: " ++ toString n ++ " operation(s) not attempted")
  | halted n =>
    some ("solve halted after a failure: " ++ toString n ++ " operation(s) not attempted")
  | crashed => none

/-- Whether an operation was left out for want of another. -/
def isSkip : RunError → Bool
  | skipped .. => true
  | _ => false

/-- How many operations the error accounts for that were never come to. -/
def notAttempted : RunError → Nat
  | cancelled n | halted n => n
  | _ => 0

end RunError

/-! ### Reports -/

/-- What a run did. -/
structure Report where
  stats : Stats := {}
  changes : Changes := {}
  errors : List RunError := []
  deriving Inhabited

namespace Report

/-- Note that an operation succeeded. -/
def record (r : Report) (op : PlannedOp) (stored : Option Entity) : Report where
  stats := r.stats.bump op.action
  changes := r.changes.add (.ofOp op stored) op.action
  errors := r.errors

/-- Note an error. -/
def fail (r : Report) (e : RunError) : Report := { r with errors := r.errors ++ [e] }

/-- Whether nothing went wrong. -/
def isSuccess (r : Report) : Bool := r.errors.isEmpty

end Report

end Gateway
