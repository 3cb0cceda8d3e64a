import Gateway.ControlPlane
import Gateway.Run.Machine

/-!
# Runs by the clock

Of the many histories a run can have, the one in which calls take equally long: operations are
dispatched while there is room, then all calls in flight end in the order of dispatch, and their
results are collected in that order, with new operations dispatched as room comes free. Every move
of the clock is an event of the run (`Run.step?`).
-/

namespace Gateway

/-- A run against a gateway in memory. -/
structure Clock where
  run : Run
  plane : ControlPlane
  /-- How many calls have been under way at a time. -/
  peak : Nat := 0
  deriving Inhabited

namespace Clock

/-- Let an event happen, if it can. -/
def perform (c : Clock) (rules : RunRules) (e : Event) : Clock :=
  { c with run := (c.run.step? rules e).getD c.run }

/-- The position of the first call that has ended and not been collected. -/
def firstEnded? (r : Run) : Option Nat := r.flights.findIdx? (·.reply.isSome)

/-- Let the call at a position end. -/
def finish (rules : RunRules) (c : Clock) (i : Nat) : Clock :=
  match c.run.flights[i]? with
  | some ⟨op, none⟩ =>
    let (reply, plane) := c.plane.call op.action op.entity
    { c with plane := plane }.perform rules (.finish i reply)
  | _ => c

/-- How many calls in flight the gateway has seen. -/
def seen (r : Run) : Nat :=
  (r.flights.filter fun f => f.reply.any (!·.isCrash)).length

/-- Let all calls in flight end, in the order of dispatch. Calls that take no time do not
overlap. -/
def finishAll (c : Clock) (rules : RunRules) : Clock :=
  let c := (List.range c.run.flights.length).foldl (finish rules) c
  let overlap := if c.plane.slow then seen c.run else min 1 (seen c.run)
  let c := { c with peak := max c.peak overlap }
  if c.plane.asksToCancel then c.perform rules .cancel else c

/-- Whether an operation can be dispatched. -/
def canDispatch (r : Run) (rules : RunRules) : Bool :=
  !r.queue.isEmpty && r.flights.length < rules.slots && !r.isStopped

/-- The next move: dispatch, else collect, else let calls end, else go on to the next wave. -/
def advance (c : Clock) (rules : RunRules) : Clock :=
  if canDispatch c.run rules then c.perform rules .dispatch
  else match firstEnded? c.run with
    | some i => c.perform rules (.collect i)
    | none =>
      if c.run.flights.isEmpty then c.perform rules .nextWave else c.finishAll rules

/-- A bound on the moves that are left. -/
def work (r : Run) : Nat :=
  3 * r.waves.flatten.length + r.waves.length + 3 * r.queue.length + 2 * r.flights.length

/-- Move on, at most a number of times. -/
def runFor (rules : RunRules) : Nat → Clock → Clock
  | 0, c => c
  | n + 1, c => if c.run.isOver then c else runFor rules n (c.advance rules)

/-- Move on until the run is over. -/
def runToEnd (c : Clock) (rules : RunRules) : Clock := runFor rules (work c.run + 1) c

end Clock

/-- Run a plan against a gateway in memory. -/
def ControlPlane.solve (cp : ControlPlane) (p : Plan) (settings : RunSettings)
    (cancelled : Bool) : Clock :=
  let schedule := Schedule.ofPlan p
  Clock.runToEnd { run := .start schedule cancelled, plane := cp } ⟨settings, schedule.needs⟩

end Gateway
