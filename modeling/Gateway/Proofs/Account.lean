import Mathlib.Algebra.BigOperators.Group.List.Basic
import Mathlib.Algebra.GroupWithZero.Nat
import Mathlib.Data.List.Induction
import Gateway.Proofs.Outcome
import Gateway.Proofs.Schedule
import Gateway.Sample

/-!
# Accounts

Every operation that a run comes to meets with a `Fate`: it is done, refused, left out or lost. The
report of a run is the list of the fates that are known (`Report.ofFates`), and at every point of a
history the operations with a known fate, those that were given up, those in flight and those to
come are the operations of the schedule, each once (`Trail.Account`). When the run is over, nothing
is in flight or to come, and what was given up is in one error of the final report
(`Trail.Account.finalReport`). So every mutation of a plan is accounted for exactly once, whatever
calls answer, however they interleave and wherever the run is cancelled
(`Trail.every_mutation_accounted`), and the entries of the report tell of those that were done.
-/

namespace Gateway

/-! ### Reports as lists of fates -/

/-- What becomes of an operation that a run comes to. -/
inductive Fate
  | done (stored : Option Entity)
  | refused (cause : ClientError)
  /-- It was left out because one that it needs did not succeed. -/
  | skipped (blocker : Reference)
  /-- Its call was lost. -/
  | lost

namespace Fate

/-- The fate of an operation that was sent. -/
def ofReply : Reply → Fate
  | .done stored => .done stored
  | .refused cause => .refused cause
  | .crashed => .lost

/-- What a report has to say against an operation. -/
def error? (op : PlannedOp) : Fate → Option RunError
  | done _ => none
  | refused cause => some (.refused (.ofOp op) cause)
  | skipped blocker => some (.skipped (.ofOp op) blocker)
  | lost => some .crashed

/-- The change that an operation has made by an action. -/
def change? (op : PlannedOp) (a : Action) : Fate → Option EntityChange
  | done stored => if op.action = a then some (.ofOp op stored) else none
  | _ => none

/-- An operation that was done, beside the entity with which it is shown. -/
def shown? (op : PlannedOp) : Fate → Option (PlannedOp × Entity)
  | done stored => some (op, stored.getD op.entity)
  | _ => none

/-- An operation is shown as it was planned, unless an answer came with another entity. -/
theorem eq_entity_or_done_of_shown? {op : PlannedOp} {fate : Fate} {y : PlannedOp × Entity}
    (h : fate.shown? op = some y) : y.1 = op ∧ (y.2 = op.entity ∨ fate = .done (some y.2)) := by
  cases fate with
  | done stored =>
    cases h
    cases stored with
    | none => exact ⟨rfl, .inl rfl⟩
    | some stored => exact ⟨rfl, .inr rfl⟩
  | refused cause => cases h
  | skipped blocker => cases h
  | lost => cases h

end Fate

/-- Whether the error is about a single operation that the run came to. -/
def RunError.isSingle : RunError → Bool
  | refused .. | skipped .. | crashed => true
  | cancelled _ | halted _ => false

/-- An error against an operation accounts for that operation alone. -/
theorem Fate.isSingle_of_error? {op : PlannedOp} {fate : Fate} {err : RunError}
    (h : fate.error? op = some err) : err.isSingle = true ∧ err.notAttempted = 0 := by
  cases fate <;> cases h <;> exact ⟨rfl, rfl⟩

/-- How many operations with an action succeeded. -/
def Stats.on (s : Stats) : Action → Nat
  | .create => s.created
  | .update => s.updated
  | .delete => s.deleted
  | .keep => 0

/-- The changes made by an action. -/
def Changes.on (c : Changes) : Action → List EntityChange
  | .create => c.created
  | .update => c.updated
  | .delete => c.deleted
  | .keep => []

namespace Report

/-- Note the fate of an operation. -/
def enter (r : Report) (x : PlannedOp × Fate) : Report :=
  match x with
  | (op, .done stored) => r.record op stored
  | (op, .refused cause) => r.fail (.refused (.ofOp op) cause)
  | (op, .skipped blocker) => r.fail (.skipped (.ofOp op) blocker)
  | (_, .lost) => r.fail .crashed

/-- The report of fates that became known one after the other. -/
def ofFates (fates : List (PlannedOp × Fate)) : Report := fates.foldl enter {}

variable {fates : List (PlannedOp × Fate)} {a : Action}

theorem ofFates_concat (fates : List (PlannedOp × Fate)) (x : PlannedOp × Fate) :
    ofFates (fates ++ [x]) = (ofFates fates).enter x := by
  simp [ofFates, List.foldl_append]

theorem errors_enter (r : Report) (x : PlannedOp × Fate) :
    (r.enter x).errors = r.errors ++ (x.2.error? x.1).toList := by
  obtain ⟨op, fate⟩ := x
  cases fate <;> simp [enter, record, fail, Fate.error?]

/-- A fate adds to the list of one action at most. -/
theorem on_enter (r : Report) (x : PlannedOp × Fate) (ha : a ≠ .keep) :
    (r.enter x).changes.on a = r.changes.on a ++ (x.2.change? x.1 a).toList := by
  obtain ⟨op, fate⟩ := x
  cases fate with
  | done stored =>
    cases a <;> cases hop : op.action <;>
      simp_all [enter, record, Changes.on, Changes.add, Fate.change?]
  | refused cause => simp [enter, fail, Fate.change?]
  | skipped blocker => simp [enter, fail, Fate.change?]
  | lost => simp [enter, fail, Fate.change?]

/-- The errors of a report, fate by fate. -/
theorem errors_ofFates (fates : List (PlannedOp × Fate)) :
    (ofFates fates).errors = fates.filterMap fun x => x.2.error? x.1 := by
  induction fates using List.reverseRecOn with
  | nil => rfl
  | append_singleton fates x ih =>
    rw [ofFates_concat, errors_enter, ih, List.filterMap_append]
    cases hx : x.2.error? x.1 <;> simp [hx]

/-- The changes of a report, fate by fate. -/
theorem on_ofFates (fates : List (PlannedOp × Fate)) (ha : a ≠ .keep) :
    (ofFates fates).changes.on a = fates.filterMap fun x => x.2.change? x.1 a := by
  induction fates using List.reverseRecOn with
  | nil => cases a <;> rfl
  | append_singleton fates x ih =>
    rw [ofFates_concat, on_enter _ _ ha, ih, List.filterMap_append]
    cases hx : x.2.change? x.1 a <;> simp [hx]

/-- The entries of a report tell of the operations that were done, fate by fate. -/
theorem tell_ofFates (fates : List (PlannedOp × Fate)) :
    (ofFates fates).changes.Tell (fates.filterMap fun x => x.2.shown? x.1) := by
  induction fates using List.reverseRecOn with
  | nil => exact .nil
  | append_singleton fates x ih =>
    rw [ofFates_concat, List.filterMap_append]
    obtain ⟨op, fate⟩ := x
    cases fate with
    | done stored => exact ih.add (EntityChange.tells_ofOp op stored)
    | refused cause => simpa [enter, fail, Fate.shown?] using ih
    | skipped blocker => simpa [enter, fail, Fate.shown?] using ih
    | lost => simpa [enter, fail, Fate.shown?] using ih

/-- What is shown was done. -/
theorem map_shown?_sublist (fates : List (PlannedOp × Fate)) :
    ((fates.filterMap fun x => x.2.shown? x.1).map (·.1)).Sublist (fates.map (·.1)) := by
  induction fates with
  | nil => exact .slnil
  | cons x rest ih =>
    obtain ⟨op, fate⟩ := x
    cases fate with
    | done stored => exact ih.cons_cons _
    | refused cause => exact ih.cons _
    | skipped blocker => exact ih.cons _
    | lost => exact ih.cons _

/-- A report counts as many operations as it shows changes. -/
theorem stats_on_ofFates (fates : List (PlannedOp × Fate)) (a : Action) :
    (ofFates fates).stats.on a = ((ofFates fates).changes.on a).length := by
  induction fates using List.reverseRecOn with
  | nil => cases a <;> rfl
  | append_singleton fates x ih =>
    rw [ofFates_concat]
    obtain ⟨op, fate⟩ := x
    cases fate with
    | done stored =>
      cases a <;> cases hop : op.action <;>
        simp_all [enter, record, Changes.on, Changes.add, Stats.on, Stats.bump]
    | refused cause => exact ih
    | skipped blocker => exact ih
    | lost => exact ih

/-- The report lists as many entries as it counts. -/
theorem size_ofFates (fates : List (PlannedOp × Fate)) :
    (ofFates fates).changes.size = (ofFates fates).stats.total := by
  have hcreated := stats_on_ofFates fates .create
  have hupdated := stats_on_ofFates fates .update
  have hdeleted := stats_on_ofFates fates .delete
  simp only [Stats.on, Changes.on] at hcreated hupdated hdeleted
  rw [Changes.size, Stats.total, hcreated, hupdated, hdeleted]

/-- Every mutation with a fate is counted as a success or has an error. -/
theorem length_ofFates (fates : List (PlannedOp × Fate)) (h : ∀ x ∈ fates, x.1.action ≠ .keep) :
    (ofFates fates).stats.total + (ofFates fates).errors.length = fates.length := by
  induction fates using List.reverseRecOn with
  | nil => rfl
  | append_singleton fates x ih =>
    have ih := ih fun y hy => h y (List.mem_append_left _ hy)
    have hx := h x (by simp)
    rw [ofFates_concat, List.length_append, List.length_singleton, ← ih]
    obtain ⟨op, fate⟩ := x
    cases fate with
    | done stored =>
      cases hop : op.action <;>
        simp_all [enter, record, Stats.total, Stats.bump] <;> omega
    | refused cause => simp [enter, fail, Nat.add_assoc]
    | skipped blocker => simp [enter, fail, Nat.add_assoc]
    | lost => simp [enter, fail, Nat.add_assoc]

/-- All errors of fates are about single operations. -/
theorem countP_errors_ofFates (fates : List (PlannedOp × Fate)) :
    (ofFates fates).errors.countP RunError.isSingle = (ofFates fates).errors.length := by
  rw [List.countP_eq_length, errors_ofFates]
  intro err herr
  obtain ⟨x, -, hx⟩ := List.mem_filterMap.1 herr
  exact (Fate.isSingle_of_error? hx).1

/-- An error about a single operation leaves no other unattempted. -/
theorem sum_errors_ofFates (fates : List (PlannedOp × Fate)) :
    ((ofFates fates).errors.map RunError.notAttempted).sum = 0 := by
  rw [errors_ofFates]
  refine List.sum_eq_zero fun n hn => ?_
  obtain ⟨err, herr, rfl⟩ := List.mem_map.1 hn
  obtain ⟨x, -, hx⟩ := List.mem_filterMap.1 herr
  exact (Fate.isSingle_of_error? hx).2

/-- The report of operations that were all done. -/
def ofRecords (records : List (PlannedOp × Option Entity)) : Report :=
  ofFates (records.map fun x => (x.1, .done x.2))

/-- What was done leaves no error. -/
theorem errors_ofRecords (records : List (PlannedOp × Option Entity)) :
    (ofRecords records).errors = [] := by
  rw [ofRecords, errors_ofFates, List.filterMap_map]
  exact List.filterMap_eq_nil_iff.2 fun _ _ => rfl

/-- Mutations that were all done are all recorded. -/
theorem size_ofRecords (records : List (PlannedOp × Option Entity))
    (h : ∀ x ∈ records, x.1.action ≠ .keep) :
    (ofRecords records).changes.size = records.length := by
  have hlength := length_ofFates (records.map fun x => (x.1, .done x.2)) fun x hx => by
    obtain ⟨y, hy, rfl⟩ := List.mem_map.1 hx
    exact h y hy
  have herrors := errors_ofRecords records
  rw [ofRecords] at herrors ⊢
  rw [herrors, List.length_map] at hlength
  rw [size_ofFates]
  exact hlength

/-- Fates without errors are records. -/
theorem exists_records (h : (ofFates fates).errors = []) :
    ∃ records, fates.map (·.1) = records.map (·.1) ∧ ofFates fates = ofRecords records := by
  rw [errors_ofFates, List.filterMap_eq_nil_iff] at h
  have hdone : ∀ x ∈ fates, ∃ stored, x = (x.1, .done stored) := by
    intro x hx
    obtain ⟨op, fate⟩ := x
    cases fate with
    | done stored => exact ⟨stored, rfl⟩
    | refused cause => cases h _ hx
    | skipped blocker => cases h _ hx
    | lost => cases h _ hx
  have hrecords : ∃ records : List (PlannedOp × Option Entity),
      fates = records.map fun x => (x.1, .done x.2) := by
    induction fates with
    | nil => exact ⟨[], rfl⟩
    | cons x rest ih =>
      obtain ⟨stored, hx⟩ := hdone x List.mem_cons_self
      obtain ⟨records, hrest⟩ := ih (fun y hy => h y (List.mem_cons_of_mem _ hy))
        fun y hy => hdone y (List.mem_cons_of_mem _ hy)
      exact ⟨(x.1, stored) :: records, by rw [List.map_cons, ← hx, ← hrest]⟩
  obtain ⟨records, rfl⟩ := hrecords
  exact ⟨records, by simp, rfl⟩

end Report

/-! ### The account of a run -/

namespace Run

variable (r : Run)

/-- The result of a call is the fate of its operation. -/
theorem report_take (rules : RunRules) (op : PlannedOp) (reply : Reply) :
    (r.take rules op reply).report = r.report.enter (op, .ofReply reply) := by
  cases reply <;> rfl

theorem unattempted_take (rules : RunRules) (op : PlannedOp) (reply : Reply) :
    (r.take rules op reply).unattempted = r.unattempted := by
  cases reply <;> rfl

theorem report_beginWave (wave : List PlannedOp) (waves : List (List PlannedOp)) :
    (r.beginWave wave waves).report = r.report := by
  unfold beginWave
  split <;> rfl

end Run

namespace Trail

variable {rules : RunRules} {t t' : Trail} {e : Event} {waves : List (List PlannedOp)}
  {fates : List (PlannedOp × Fate)} {left : List PlannedOp}

/-- The fate of an operation becomes known. -/
inductive Learns (rules : RunRules) (t : Trail) : PlannedOp × Fate → Prop
  | skipped {op : PlannedOp} {blocker : Reference} (hqueue : op ∈ t.run.queue)
      (hgo : t.run.isStopped = false) (hblock : t.run.blocker? rules.needs op.key = some blocker) :
      Learns rules t (op, .skipped blocker)
  | pretended {op : PlannedOp} (hqueue : op ∈ t.run.queue) (hgo : t.run.isStopped = false)
      (hblock : t.run.blocker? rules.needs op.key = none)
      (hdry : rules.settings.dryRun = true) : Learns rules t (op, .done none)
  | answered {op : PlannedOp} {reply : Reply} (hflight : ⟨op, some reply⟩ ∈ t.run.flights) :
      Learns rules t (op, .ofReply reply)

/-- The report of a run is the fates that are known, and operations whose fates are known, that were
given up, that are in flight and that are to come are those of the schedule, each once. -/
structure Account (waves : List (List PlannedOp)) (t : Trail) (fates : List (PlannedOp × Fate))
    (left : List PlannedOp) : Prop where
  report : t.run.report = .ofFates fates
  unattempted : t.run.unattempted = left.length
  stopped : left ≠ [] → t.run.isStopped = true
  perm : (fates.map (·.1) ++ (left ++ (t.run.flights.map (·.op) ++
    (t.run.queue ++ t.run.waves.flatten)))).Perm waves.flatten

/-- An operation that leaves its place in a list joins those whose fates are known. -/
theorem perm_of_known (known before after : List PlannedOp) (op : PlannedOp) :
    ((known ++ [op]) ++ (before ++ after)).Perm (known ++ (before ++ op :: after)) := by
  rw [List.append_assoc, List.singleton_append]
  exact List.perm_middle.symm.append_left known

/-- The fate of the first operation in the queue becomes known. -/
theorem Account.note (h : Account waves t fates left) {op : PlannedOp} {queue : List PlannedOp}
    (hqueue : t.run.queue = op :: queue) (fate : Fate) (statuses : List (Reference × Status)) :
    Account waves { t with run := { t.run with
      queue := queue
      statuses := statuses
      report := t.run.report.enter (op, fate) } } (fates ++ [(op, fate)]) left where
  report := by rw [Report.ofFates_concat, ← h.report]
  unattempted := h.unattempted
  stopped := h.stopped
  perm := by
    refine List.Perm.trans ?_ h.perm
    have hmove := perm_of_known (fates.map (·.1)) (left ++ t.run.flights.map (·.op))
      (queue ++ t.run.waves.flatten) op
    simpa [hqueue] using hmove

/-- With every step some fates become known, and when a wave is passed over, its operations are
given up. -/
theorem Account.step (h : Account waves t fates left) (hstep : Step rules t e t') :
    ∃ known given, (∀ x ∈ known, Learns rules t x) ∧
      Account waves t' (fates ++ known) (left ++ given) := by
  have hperm := h.perm
  have hstopped := fun hleft => hstep.isStopped_of_isStopped (h.stopped hleft)
  cases hstep with
  | @skip op queue blocker hqueue _ hgo hblock =>
    refine ⟨[(op, .skipped blocker)], [], ?_, ?_⟩
    · simpa using .skipped (by simp [hqueue]) hgo hblock
    · rw [List.append_nil]
      exact h.note hqueue (.skipped blocker) _
  | @pretend op queue hqueue _ hgo hblock hdry =>
    refine ⟨[(op, .done none)], [], ?_, ?_⟩
    · simpa using .pretended (by simp [hqueue]) hgo hblock hdry
    · rw [List.append_nil]
      exact h.note hqueue (.done none) _
  | send hqueue _ _ _ _ =>
    refine ⟨[], [], by simp, ?_⟩
    rw [List.append_nil, List.append_nil]
    exact ⟨h.report, h.unattempted, hstopped, by simpa [hqueue] using hperm⟩
  | finish hflights =>
    refine ⟨[], [], by simp, ?_⟩
    rw [List.append_nil, List.append_nil]
    exact ⟨h.report, h.unattempted, hstopped, by simpa [hflights] using hperm⟩
  | @collect before after op reply hflights =>
    refine ⟨[(op, .ofReply reply)], [], ?_, ?_⟩
    · simpa using .answered (by simp [hflights])
    · rw [List.append_nil]
      refine ⟨?_, by simpa [Run.unattempted_take] using h.unattempted, hstopped, ?_⟩
      · rw [Report.ofFates_concat, ← h.report, Run.report_take]
      · refine List.Perm.trans ?_ hperm
        have hmove := perm_of_known (fates.map (·.1)) (left ++ before.map (·.op))
          (after.map (·.op) ++ (t.run.queue ++ t.run.waves.flatten)) op
        simpa [hflights] using hmove
  | @next wave waves' hwaves hflights hthrough =>
    by_cases hgo : t.run.isStopped = true
    · -- the wave is passed over, with what is left of the one before
      refine ⟨[], t.run.queue ++ wave, by simp, ?_⟩
      rw [List.append_nil]
      refine ⟨?_, ?_, fun _ => by simpa using hgo, ?_⟩
      · rw [← h.report, Run.report_beginWave]
      · simp [Run.beginWave, hgo, h.unattempted, Nat.add_assoc]
      · simpa [Run.queue_beginWave, hgo, hflights, hwaves] using hperm
    · have hempty := hthrough.resolve_right hgo
      refine ⟨[], [], by simp, ?_⟩
      rw [List.append_nil, List.append_nil]
      refine ⟨?_, ?_, hstopped, ?_⟩
      · rw [← h.report, Run.report_beginWave]
      · simp [Run.beginWave, hgo, hempty, h.unattempted]
      · simpa [Run.queue_beginWave, hgo, hflights, hempty, hwaves] using hperm
  | cancel =>
    refine ⟨[], [], by simp, ?_⟩
    rw [List.append_nil, List.append_nil]
    exact ⟨h.report, h.unattempted, hstopped, hperm⟩

theorem account_start (s : Schedule) (cancelled : Bool) :
    Account s.waves (start s cancelled) [] [] :=
  ⟨rfl, rfl, by simp, by simp [start, Run.start]⟩

/-- When the gateway has told what it has stored, its answer is kept. -/
theorem Learns.answer (hl : Ledger waves t) {op : PlannedOp} {stored : Entity}
    (h : Learns rules t (op, .done (some stored))) : (op, .done (some stored)) ∈ t.ended := by
  generalize hx : (op, Fate.done (some stored)) = x at h
  cases h with
  | skipped _ _ _ => cases hx
  | pretended _ _ _ _ => cases hx
  | @answered op' reply hflight =>
    cases reply with
    | done answer =>
      cases hx
      exact hl.answered _ hflight _ rfl
    | refused cause => cases hx
    | crashed => cases hx

/-- Every history has its account, and what the account knows of stored entities was answered. -/
theorem exists_account_of_replay? {s : Schedule} {cancelled : Bool} {events : List Event}
    (h : (start s cancelled).replay? rules events = some t) :
    ∃ fates left, Account s.waves t fates left ∧
      ∀ op stored, (op, .done (some stored)) ∈ fates → (op, .done (some stored)) ∈ t.ended := by
  have hall := replay?_induction (P := fun t => Ledger s.waves t ∧
      ∃ fates left, Account s.waves t fates left ∧
        ∀ op stored, (op, .done (some stored)) ∈ fates → (op, .done (some stored)) ∈ t.ended)
    (fun t e t' ⟨hl, fates, left, haccount, hanswers⟩ hstep => by
      obtain ⟨known, given, hknown, haccount'⟩ := haccount.step hstep
      refine ⟨hl.step hstep, _, _, haccount', fun op stored hop => hstep.ended_subset ?_⟩
      rcases List.mem_append.1 hop with hop | hop
      · exact hanswers op stored hop
      · exact (hknown _ hop).answer hl)
    ⟨ledger_start s cancelled, [], [], account_start s cancelled, by simp⟩ h
  exact hall.2

/-! ### The end of a run -/

/-- When a run is over, every operation has a fate or was given up. -/
theorem Account.of_isOver (h : Account waves t fates left) (hover : t.run.isOver = true) :
    ∃ given, (fates.map (·.1) ++ given).Perm waves.flatten ∧ t.run.remaining = given.length ∧
      (given ≠ [] → t.run.isStopped = true) := by
  unfold Run.isOver at hover
  simp only [Bool.and_eq_true, Bool.or_eq_true, List.isEmpty_iff] at hover
  obtain ⟨⟨hwaves, hflights⟩, hqueue⟩ := hover
  refine ⟨left ++ t.run.queue, ?_, ?_, fun hgiven => ?_⟩
  · simpa [hwaves, hflights] using h.perm
  · simp [Run.remaining, h.unattempted]
  · by_cases hleft : left = []
    · exact hqueue.resolve_left (by simpa [hleft] using hgiven)
    · exact h.stopped hleft

/-- The final report is that of the fates, with one more error for what was given up. -/
theorem Account.finalReport (h : Account waves t fates left) (hover : t.run.isOver = true) :
    ∃ given, (fates.map (·.1) ++ given).Perm waves.flatten ∧
      (given = [] ∧ t.run.finalReport = .ofFates fates ∨
        given ≠ [] ∧ ∃ err : RunError, err.isSingle = false ∧ err.notAttempted = given.length ∧
          t.run.finalReport = (Report.ofFates fates).fail err) := by
  obtain ⟨given, hperm, hremaining, hstopped⟩ := h.of_isOver hover
  refine ⟨given, hperm, ?_⟩
  unfold Run.finalReport
  rw [hremaining, h.report]
  by_cases hgiven : given = []
  · left
    simp [hgiven]
  · right
    have hstopped := hstopped hgiven
    have hne : given.length ≠ 0 := by simpa using hgiven
    refine ⟨hgiven, ?_⟩
    rw [if_neg hne]
    by_cases hcancelled : t.run.cancelled = true
    · rw [if_pos hcancelled]
      exact ⟨_, rfl, rfl, rfl⟩
    · have hhalted : t.run.halted = true := by simpa [Run.isStopped, hcancelled] using hstopped
      rw [if_neg hcancelled, if_pos hhalted]
      exact ⟨_, rfl, rfl, rfl⟩

/-! ### Calls -/

/-- The operations that were sent are those whose calls have ended or are under way. -/
theorem Step.sent_perm (hstep : Step rules t e t')
    (h : t.sent.Perm (t.ended.map (·.1) ++ underWay t.run.flights)) :
    t'.sent.Perm (t'.ended.map (·.1) ++ underWay t'.run.flights) := by
  cases hstep with
  | skip _ _ _ _ => exact h
  | pretend _ _ _ _ _ => exact h
  | @send op _ _ _ _ _ _ =>
    simpa using h.append_right [op]
  | @finish before after op reply hflights =>
    refine h.trans ?_
    simp only [hflights, underWay_append, underWay_cons_none, underWay_cons_some, List.map_append,
      List.map_cons, List.map_nil, List.append_assoc, List.singleton_append]
    exact List.perm_middle.append_left _
  | collect hflights => simpa [hflights] using h
  | next _ _ _ => simpa using h
  | cancel => exact h

/-- No operation is sent twice. -/
theorem sent_subperm_of_replay? {s : Schedule} {cancelled : Bool} {events : List Event}
    (h : (start s cancelled).replay? rules events = some t) : t.sent.Subperm s.waves.flatten := by
  have hsent : t.sent.Perm (t.ended.map (·.1) ++ underWay t.run.flights) :=
    replay?_induction (P := fun t => t.sent.Perm (t.ended.map (·.1) ++ underWay t.run.flights))
      (fun _ _ _ h hstep => hstep.sent_perm h) (by simp [start, Run.start]) h
  refine hsent.subperm.trans (List.Subperm.trans ?_ (ledger_of_replay? h).accounted)
  unfold accounted
  exact ((List.sublist_append_left _ _).append_left _).subperm

/-- What the final report of a run adds to the report of its fates is one error, which accounts for
all that was given up. -/
theorem Account.finalReport_counts (h : Account waves t fates left)
    (hover : t.run.isOver = true) : ∃ given, (fates.map (·.1) ++ given).Perm waves.flatten ∧
      t.run.finalReport.stats = (Report.ofFates fates).stats ∧
      t.run.finalReport.changes = (Report.ofFates fates).changes ∧
      t.run.finalReport.errors.countP RunError.isSingle = (Report.ofFates fates).errors.length ∧
      (t.run.finalReport.errors.map RunError.notAttempted).sum = given.length ∧
      (t.run.finalReport.errors = [] ↔ (Report.ofFates fates).errors = [] ∧ given = []) := by
  obtain ⟨given, hperm, hfinal⟩ := h.finalReport hover
  refine ⟨given, hperm, ?_⟩
  rcases hfinal with ⟨rfl, hreport⟩ | ⟨hgiven, err, hsingle, hcount, hreport⟩
  · rw [hreport, Report.countP_errors_ofFates, Report.sum_errors_ofFates]
    simp
  · rw [hreport]
    refine ⟨rfl, rfl, ?_, ?_, ?_⟩
    · simp [Report.fail, Report.countP_errors_ofFates, hsingle]
    · simp [Report.fail, Report.sum_errors_ofFates, hcount]
    · simp [Report.fail, hgiven]

/-- In every history of every run that is over, whatever the plan, the settings and the answers and
wherever the run was cancelled: each mutation of the plan succeeded, has an error of its own or was
not attempted; the counts are those of the changes; no mutation was sent twice; there are no errors
exactly when every mutation is recorded; and the entries tell of mutations, each of one, which they
show as it was planned or as the gateway answered. -/
theorem every_mutation_accounted (p : Plan) (settings : RunSettings) (cancelled : Bool)
    (events : List Event) (t : Trail)
    (hreach : (start (Schedule.ofPlan p) cancelled).replay?
      ⟨settings, (Schedule.ofPlan p).needs⟩ events = some t)
    (hover : t.run.isOver = true) :
    let r := t.run.finalReport
    r.stats.total + r.errors.countP RunError.isSingle +
        (r.errors.map RunError.notAttempted).sum = p.mutations.length ∧
      r.stats.created = r.changes.created.length ∧ r.stats.updated = r.changes.updated.length ∧
      r.stats.deleted = r.changes.deleted.length ∧
      t.sent.Subperm p.mutations ∧
      (r.errors = [] ↔ ∃ records, (records.map (·.1)).Perm p.mutations ∧
        r.changes = (Report.ofRecords records).changes) ∧
      ∃ done, (done.map (·.1)).Subperm p.mutations ∧ r.changes.Tell done ∧
        ∀ y ∈ done, y.2 = y.1.entity ∨ (y.1, .done (some y.2)) ∈ t.ended := by
  intro r
  have hmutations := Schedule.flatten_waves_perm p
  obtain ⟨fates, left, haccount, hanswers⟩ := exists_account_of_replay? hreach
  obtain ⟨given, hperm, hstats, hchanges, hsingle, hgiven, hnone⟩ :=
    haccount.finalReport_counts hover
  have hperm := hperm.trans hmutations
  have hlength : fates.length + given.length = p.mutations.length := by
    simpa using hperm.length_eq
  have hfates := Report.length_ofFates fates fun x hx =>
    Plan.ne_keep_of_mem (hperm.subset (by simp [List.mem_map_of_mem hx]))
  have hcounts : ∀ a, r.stats.on a = (r.changes.on a).length := by
    intro a
    rw [hstats, hchanges]
    exact Report.stats_on_ofFates fates a
  refine ⟨?_, hcounts .create, hcounts .update, hcounts .delete, ?_, ?_, ?_⟩
  · rw [hstats, hsingle, hgiven]
    omega
  · exact (sent_subperm_of_replay? hreach).trans hmutations.subperm
  · rw [hnone]
    constructor
    · rintro ⟨herrors, rfl⟩
      obtain ⟨records, hops, hreport⟩ := Report.exists_records herrors
      refine ⟨records, ?_, by rw [hchanges, hreport]⟩
      rw [← hops]
      simpa using hperm
    · rintro ⟨records, hrecords, hsame⟩
      have hall := Report.size_ofRecords records fun x hx =>
        Plan.ne_keep_of_mem (hrecords.subset (List.mem_map_of_mem hx))
      have hlength' : records.length = p.mutations.length := by simpa using hrecords.length_eq
      rw [← hsame, hchanges, Report.size_ofFates] at hall
      exact ⟨List.length_eq_zero_iff.1 (by omega), List.length_eq_zero_iff.1 (by omega)⟩
  · refine ⟨_, ?_, hchanges ▸ Report.tell_ofFates fates, fun y hy => ?_⟩
    · refine (Report.map_shown?_sublist fates).subperm.trans (List.Subperm.trans ?_ hperm.subperm)
      exact (List.sublist_append_left _ _).subperm
    · obtain ⟨⟨op, fate⟩, hx, hshown⟩ := List.mem_filterMap.1 hy
      obtain ⟨rfl, hplanned | rfl⟩ := Fate.eq_entity_or_done_of_shown? hshown
      · exact .inl hplanned
      · exact .inr (hanswers y.1 y.2 hx)

/-! ### A run in which everything happens -/

/-- A plan that creates three services and a route to the second, and deletes an old service. -/
def threeServices : Plan :=
  ⟨[⟨.create, Sample.service "s1" "a", none, []⟩, ⟨.create, Sample.service "s2" "b", none, []⟩,
    ⟨.create, Sample.service "s3" "c", none, []⟩, ⟨.create, Sample.route "r1" "r" "s2", none, []⟩,
    ⟨.delete, Sample.service "s0" "old", none, []⟩]⟩

/-- The first service is created, the second is refused, the call for the third is lost, the route
is left out, and then the run is cancelled. -/
def mixedFortunes : List Event :=
  [.nextWave, .dispatch, .dispatch, .finish 1 (.refused (.unavailable "down")),
    .finish 0 (.done none), .collect 0, .dispatch, .collect 0, .finish 0 .crashed, .collect 0,
    .nextWave, .dispatch, .cancel, .nextWave]

/-- Where that history leads, two calls being in flight at a time. -/
def afterMixedFortunes : Option Trail :=
  (start (Schedule.ofPlan threeServices) false).replay?
    ⟨{ concurrency := 2 }, (Schedule.ofPlan threeServices).needs⟩ mixedFortunes

/-- One mutation is done, three have errors of their own, and one is not attempted. -/
theorem accounted_of_mixedFortunes : ∃ t, afterMixedFortunes = some t ∧
    t.run.isOver = true ∧ t.run.finalReport.stats.total = 1 ∧
      t.run.finalReport.errors.countP RunError.isSingle = 3 ∧
      (t.run.finalReport.errors.map RunError.notAttempted).sum = 1 ∧
      1 + 3 + 1 = threeServices.mutations.length ∧ t.sent.length = 3 ∧
      t.sent.Subperm threeServices.mutations ∧
      (¬∃ records, (records.map (·.1)).Perm threeServices.mutations ∧
        t.run.finalReport.changes = (Report.ofRecords records).changes) ∧
      t.run.finalReport.changes.created.map (fun x => (x.kind, x.label, x.id,
        x.before.isSome, x.after.isSome)) = [(.service, "a", "s1", false, true)] ∧
      ∃ done, (done.map (·.1)).Subperm threeServices.mutations ∧
        t.run.finalReport.changes.Tell done := by
  have heval : afterMixedFortunes.any (fun t => t.run.isOver &&
      t.run.finalReport.stats.total == 1 &&
      t.run.finalReport.errors.countP RunError.isSingle == 3 &&
      (t.run.finalReport.errors.map RunError.notAttempted).sum == 1 && t.sent.length == 3 &&
      t.run.finalReport.changes.created.map (fun x => (x.kind, x.label, x.id,
        x.before.isSome, x.after.isSome)) == [(.service, "a", "s1", false, true)]) = true := by
    decide +kernel
  obtain ⟨t, hreach, hfacts⟩ := (Option.any_eq_true _ _).1 heval
  simp only [Bool.and_eq_true, beq_iff_eq] at hfacts
  obtain ⟨⟨⟨⟨⟨hover, htotal⟩, hsingle⟩, hgiven⟩, hcalls⟩, hcreated⟩ := hfacts
  obtain ⟨hsum, -, -, -, hsent, hnone, done, hdone, htell, -⟩ :=
    every_mutation_accounted threeServices { concurrency := 2 } false mixedFortunes t hreach hover
  rw [htotal, hsingle, hgiven] at hsum
  refine ⟨t, hreach, hover, htotal, hsingle, hgiven, hsum, hcalls, hsent, fun hrecords => ?_,
    hcreated, done, hdone, htell⟩
  rw [hnone.2 hrecords] at hsingle
  cases hsingle

end Trail

end Gateway
