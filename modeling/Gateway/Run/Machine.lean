import Gateway.Config.Basic
import Gateway.Run.Report
import Gateway.Schedule

/-!
# Running a schedule

A `Run` is a schedule under way. Operations are dispatched as calls, of which a bounded number is in
flight at a time; calls finish in any order, and their results are collected one by one. A wave
begins when the one before is through. What can happen is an `Event`, and `Run.step?` says what
comes of it, or that it cannot happen. A history of a run is a list of events (`Run.replay?`), so
what holds of every history holds however calls interleave.
-/

namespace Gateway

/-- How an operation that is through ended; lost calls have no outcome. -/
inductive Status
  | done
  | failed
  | skipped
  deriving DecidableEq, Repr

/-- A call in flight. -/
structure Flight where
  op : PlannedOp
  /-- How the call ended, once it has. -/
  reply : Option Reply

/-- A schedule under way. -/
structure Run where
  /-- Waves that have not begun. -/
  waves : List (List PlannedOp)
  /-- Operations of the wave under way that have not been dispatched. -/
  queue : List PlannedOp
  /-- Calls in flight, in the order of dispatch. -/
  flights : List Flight
  /-- How operations ended, the latest first. -/
  statuses : List (Reference × Status)
  report : Report
  /-- No more operations are dispatched because one failed. -/
  halted : Bool
  /-- No more operations are dispatched because somebody said so. -/
  cancelled : Bool
  /-- How many operations of waves that are through were never dispatched. -/
  unattempted : Nat
  deriving Inhabited

/-- What can happen in a run. Whoever dispatches looks whether the run is cancelled and then starts
the call, and waits for nothing in between: so the two are one event, and a cancellation that comes
between them counts as one that comes after it. -/
inductive Event
  /-- The next operation of the wave is dispatched, or dealt with on the spot. -/
  | dispatch
  /-- The call at a position ends. -/
  | finish (i : Nat) (reply : Reply)
  /-- The result of the call at a position is collected. -/
  | collect (i : Nat)
  /-- The wave is through, and the next one begins. -/
  | nextWave
  /-- Somebody cancels the run. -/
  | cancel

/-- What a run is governed by. -/
structure RunRules where
  settings : RunSettings
  /-- The operations that have to succeed before the one on an object. -/
  needs : Reference → List Reference

namespace RunRules

/-- How many calls may be in flight: at least one. -/
def slots (rules : RunRules) : Nat := max 1 rules.settings.concurrency

end RunRules

namespace Run

/-- A run that has not begun. -/
def start (s : Schedule) (cancelled : Bool) : Run where
  waves := s.waves
  queue := []
  flights := []
  statuses := []
  report := {}
  halted := false
  cancelled := cancelled
  unattempted := 0

/-- Whether no more operations are dispatched. -/
def isStopped (r : Run) : Bool := r.halted || r.cancelled

/-- How the last operation on an object ended. -/
def status? (r : Run) (key : Reference) : Option Status :=
  (r.statuses.find? (·.1 == key)).map (·.2)

/-- The first operation that the one on an object needs and that did not succeed. -/
def blocker? (r : Run) (needs : Reference → List Reference) (key : Reference) : Option Reference :=
  (needs key).find? fun n => r.status? n == some .failed || r.status? n == some .skipped

/-! ### Events -/

/-- Note how an operation ended. -/
def note (r : Run) (op : PlannedOp) (s : Status) : Run :=
  { r with statuses := (op.key, s) :: r.statuses }

/-- Stop at a failure, unless failures are to be passed over. -/
def haltUnless (r : Run) (continueOnError : Bool) : Run :=
  { r with halted := r.halted || !continueOnError }

/-- Deal with the next operation: leave it out when something it needs did not succeed, note it as
done in a dry run, else send it. -/
def dispatch (r : Run) (rules : RunRules) (op : PlannedOp) : Run :=
  match r.blocker? rules.needs op.key with
  | some blocker =>
    { r.note op .skipped with report := r.report.fail (.skipped (.ofOp op) blocker) }
  | none =>
    if rules.settings.dryRun then
      { r.note op .done with report := r.report.record op none }
    else { r with flights := r.flights ++ [⟨op, none⟩] }

/-- Take in the result of an operation. -/
def take (r : Run) (rules : RunRules) (op : PlannedOp) : Reply → Run
  | .done stored => { r.note op .done with report := r.report.record op stored }
  | .refused e =>
    { r.note op .failed with report := r.report.fail (.refused (.ofOp op) e) }.haltUnless
      rules.settings.continueOnError
  | .crashed =>
    { r with report := r.report.fail .crashed }.haltUnless rules.settings.continueOnError

/-- Go on to the next wave; when no more is dispatched, all of it counts as not attempted. -/
def beginWave (r : Run) (wave : List PlannedOp) (waves : List (List PlannedOp)) : Run :=
  let left := r.unattempted + r.queue.length
  if r.isStopped then { r with waves := waves, queue := [], unattempted := left + wave.length }
  else { r with waves := waves, queue := wave, unattempted := left }

/-- What comes of an event; none when it cannot happen. -/
def step? (r : Run) (rules : RunRules) : Event → Option Run
  | .dispatch =>
    match r.queue with
    | op :: queue =>
      if r.flights.length < rules.slots && !r.isStopped then
        some ({ r with queue := queue }.dispatch rules op)
      else none
    | [] => none
  | .finish i reply =>
    match r.flights[i]? with
    | some ⟨op, none⟩ => some { r with flights := r.flights.set i ⟨op, some reply⟩ }
    | _ => none
  | .collect i =>
    match r.flights[i]? with
    | some ⟨op, some reply⟩ =>
      some ({ r with flights := r.flights.eraseIdx i }.take rules op reply)
    | _ => none
  | .nextWave =>
    match r.waves with
    | wave :: waves =>
      if r.flights.isEmpty && (r.queue.isEmpty || r.isStopped) then some (r.beginWave wave waves)
      else none
    | [] => none
  | .cancel => some { r with cancelled := true }

/-- What comes of a history; none when it cannot happen. -/
def replay? (r : Run) (rules : RunRules) (events : List Event) : Option Run :=
  events.foldlM (fun r e => r.step? rules e) r

/-! ### The end -/

/-- Whether all waves are through. -/
def isOver (r : Run) : Bool :=
  r.waves.isEmpty && r.flights.isEmpty && (r.queue.isEmpty || r.isStopped)

/-- How many operations have not been dispatched. -/
def remaining (r : Run) : Nat := r.unattempted + r.queue.length

/-- The report of a run that is over: what was not attempted is accounted for by one error. -/
def finalReport (r : Run) : Report :=
  if r.remaining = 0 then r.report
  else if r.cancelled then r.report.fail (.cancelled r.remaining)
  else if r.halted then r.report.fail (.halted r.remaining)
  else r.report

end Run

end Gateway
