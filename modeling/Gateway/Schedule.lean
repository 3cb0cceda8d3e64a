import Gateway.Plan.Basic

/-!
# Schedules

The mutations of a plan in the order in which they may run: creations and updates kind by kind in
order of creation, then deletions the other way round. Each kind makes a batch. An operation may
need others to succeed first (`Plan.needs`); where it needs one of its own batch, the batch falls
into waves, each of which waits for the one before (`splitWaves`).
-/

namespace Gateway

namespace Action

/-- Creations and updates. -/
def isUpsert (a : Action) : Bool := a == create || a == update

end Action

/-! ### Prerequisites -/

namespace Plan

/-- What is to be done with an object; of several mutations of one object the last counts. -/
def actionOn? (p : Plan) (key : Reference) : Option Action :=
  (p.mutations.reverse.find? (·.key == key)).map (·.action)

/-- The prerequisites that an operation gives rise to: pairs of an operation and one that has to
succeed before it. What is referred to is created or updated before what refers to it; deletions go
the other way round. -/
def edges (p : Plan) (op : PlannedOp) : List (Reference × Reference) :=
  op.entity.references.filterMap fun target =>
    match p.actionOn? target with
    | some other =>
      if op.action.isUpsert && other.isUpsert then some (op.key, target)
      else if op.action == .delete && other == .delete then some (target, op.key)
      else none
    | none => none

/-- The operations that have to succeed before the one on an object. -/
def needs (p : Plan) (key : Reference) : List Reference :=
  ((p.mutations.flatMap p.edges).filter (·.1 == key)).map (·.2)

end Plan

/-! ### Waves -/

/-- Whether all that an operation needs from `batch` has been `placed`. -/
def isReady (needs : Reference → List Reference) (batch placed : List Reference)
    (op : PlannedOp) : Bool :=
  (needs op.key).all fun r => !batch.contains r || placed.contains r

/-- The operations that are ready. -/
def readyOps (needs : Reference → List Reference) (batch placed : List Reference)
    (ops : List PlannedOp) : List PlannedOp :=
  ops.filter (isReady needs batch placed)

/-- The operations that have to wait. -/
def blockedOps (needs : Reference → List Reference) (batch placed : List Reference)
    (ops : List PlannedOp) : List PlannedOp :=
  ops.filter (!isReady needs batch placed ·)

/-- When some operations are ready, fewer have to wait. -/
theorem length_blockedOps_lt {needs : Reference → List Reference} {batch placed : List Reference}
    {ops : List PlannedOp} (h : ¬(readyOps needs batch placed ops).isEmpty) :
    (blockedOps needs batch placed ops).length < ops.length := by
  rw [List.isEmpty_iff] at h
  obtain ⟨op, hop⟩ := List.exists_mem_of_ne_nil _ h
  rw [readyOps, List.mem_filter] at hop
  exact List.length_filter_lt_length_iff_exists.2 ⟨op, hop.1, by simp [hop.2]⟩

/-- Split operations into waves. An operation comes into the first wave before which all that it
needs from `batch` has been placed. Operations that wait for each other come into the last wave. -/
def splitWaves (needs : Reference → List Reference) (batch placed : List Reference)
    (ops : List PlannedOp) : List (List PlannedOp) :=
  if ops.isEmpty then []
  else if _h : (readyOps needs batch placed ops).isEmpty then [ops]
  else
    let ready := readyOps needs batch placed ops
    ready ::
      splitWaves needs batch (placed ++ ready.map (·.key)) (blockedOps needs batch placed ops)
termination_by ops.length
decreasing_by exact length_blockedOps_lt _h

/-! ### Batches -/

/-- Which operations a batch holds. -/
inductive Phase
  | upsert
  | delete
  deriving DecidableEq, Repr

namespace Phase

/-- The name of a phase. -/
def name : Phase → String
  | upsert => "Upsert"
  | delete => "Delete"

/-- Whether operations with an action belong to this phase. -/
def includes : Phase → Action → Bool
  | upsert, a => a.isUpsert
  | delete, a => a == .delete

end Phase

/-- The operations of one kind and phase. -/
structure Batch where
  kind : Kind
  phase : Phase
  waves : List (List PlannedOp)

namespace Batch

/-- The operations, in order. -/
def ops (b : Batch) : List PlannedOp := b.waves.flatten

/-- How many operations there are. -/
def size (b : Batch) : Nat := b.ops.length

/-- Whether there are no operations. -/
def isEmpty (b : Batch) : Bool := b.ops.isEmpty

end Batch

/-- The order of all mutations of a plan. -/
structure Schedule where
  batches : List Batch
  /-- The operations that have to succeed before the one on an object. -/
  needs : Reference → List Reference

namespace Schedule

/-- Kinds and phases in the order in which they are run. -/
def phases : List (Phase × Kind) :=
  Kind.creationOrder.map (.upsert, ·) ++ Kind.creationOrder.reverse.map (.delete, ·)

/-- The operations of a kind and phase. -/
def select (p : Plan) (phase : Phase) (kind : Kind) : List PlannedOp :=
  p.ops.filter fun op => op.kind == kind && phase.includes op.action

/-- The batch of a kind and phase. -/
def batch (p : Plan) (phase : Phase) (kind : Kind) : Batch :=
  let ops := select p phase kind
  ⟨kind, phase, splitWaves p.needs (ops.map (·.key)) [] ops⟩

/-- The schedule of a plan; batches without operations are left out. -/
def ofPlan (p : Plan) : Schedule where
  batches := (phases.map fun (phase, kind) => batch p phase kind).filter (!·.isEmpty)
  needs := p.needs

/-- All waves, in order. -/
def waves (s : Schedule) : List (List PlannedOp) := s.batches.flatMap (·.waves)

/-- How many operations there are. -/
def size (s : Schedule) : Nat := s.waves.flatten.length

end Schedule

end Gateway
