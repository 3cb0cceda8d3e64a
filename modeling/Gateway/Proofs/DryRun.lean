import Gateway.Proofs.Clock
import Gateway.Proofs.Outcome
import Gateway.Proofs.Pool
import Gateway.Proofs.Verdict

/-!
# Dry runs

When a gateway does whatever it is told and answers with what it was sent (`Client.echo`), the
report of a run only depends on the order in which operations are recorded (`Report.ofOps`). At
every point of a history the operations recorded and those that are pending, in flight, in the queue
or in later waves, are those of the schedule, and they stand in its order as long as no operation
can overtake another (`Trail.Foretold`): in a dry run, in which nothing is in flight, and where one
call is in flight at a time. So a dry run reports what the real run will (`Trail.dryRun_foretells`),
and both come to their end (`Trail.exists_completion`).
-/

namespace Gateway

/-! ### Reports of what goes as planned -/

namespace Report

variable {ops ops' : List PlannedOp}

/-- The report of operations that were all done as planned. -/
def ofOps (ops : List PlannedOp) : Report := .ofRecords (ops.map fun op => (op, none))

theorem ofOps_concat (ops : List PlannedOp) (op : PlannedOp) :
    ofOps (ops ++ [op]) = (ofOps ops).record op none := by
  unfold ofOps ofRecords
  rw [List.map_append, List.map_append]
  exact ofFates_concat _ _

theorem errors_ofOps (ops : List PlannedOp) : (ofOps ops).errors = [] := errors_ofRecords _

theorem sameUpToOrder_ofOps (h : ops.Perm ops') : (ofOps ops).SameUpToOrder (ofOps ops') :=
  sameUpToOrder_ofFates ((h.map _).map _)

/-- An answer that repeats what was sent is recorded as if there were none. -/
theorem record_answer (r : Report) (op : PlannedOp) :
    r.record op (ControlPlane.answer op.action op.entity) = r.record op none := by
  unfold record
  rw [EntityChange.ofOp_answer fun e he => ControlPlane.eq_of_mem_answer he]

end Report

/-- A gateway that does whatever it is told, and answers a creation or an update with what it was
sent. -/
def Client.echo : Client := fun op => .ok (ControlPlane.answer op.action op.entity)

variable {p : Plan} {rules : RunRules} {settings : RunSettings} {t t' : Trail} {e : Event}
  {events : List Event} {waves : List (List PlannedOp)} {ops : List PlannedOp}

namespace Trail

/-! ### What is pending -/

/-- The operations that are in flight, in the queue or in later waves, in this order. -/
def pending (t : Trail) : List PlannedOp :=
  t.run.flights.map (·.op) ++ (t.run.queue ++ t.run.waves.flatten)

/-- With every step of a run in which nothing goes wrong an operation that was pending is recorded
as planned, or the report stays as it is and so does what is pending. Before the operation that is
recorded stand fewer operations than there are slots, all of them in flight. -/
theorem Step.records (hl : Ledger waves t) (hanswers : t.AnsweredBy .echo)
    (hroom : t.run.flights.length ≤ rules.slots) (h : t.Smooth) (hstep : Step rules t e t')
    (h' : t'.Smooth) (hne : e ≠ .cancel) :
    (t'.run.report = t.run.report ∧ t'.pending = t.pending) ∨
      ∃ before op after, t.pending = before ++ op :: after ∧ t'.pending = before ++ after ∧
        t'.run.report = t.run.report.record op none ∧ before.length < rules.slots ∧
        before.length ≤ t.run.flights.length := by
  cases hstep with
  | skip _ _ _ _ =>
    have herrors := h'.errors
    simp [Report.fail] at herrors
  | @pretend op queue hqueue hroom' _ _ _ =>
    refine .inr ⟨t.run.flights.map (·.op), op, queue ++ t.run.waves.flatten, ?_, rfl, rfl, ?_, ?_⟩
    · rw [pending, hqueue, List.cons_append]
    · rw [List.length_map]
      exact hroom'
    · rw [List.length_map]
  | send hqueue _ _ _ _ => exact .inl ⟨rfl, by simp [pending, hqueue]⟩
  | finish hflights => exact .inl ⟨rfl, by simp [pending, hflights]⟩
  | @collect before after op reply hflights =>
    have hreply : reply = .done (ControlPlane.answer op.action op.entity) :=
      hanswers _ (hl.answered ⟨op, some reply⟩ (by simp [hflights]) reply rfl)
    subst hreply
    refine .inr ⟨before.map (·.op), op,
      after.map (·.op) ++ (t.run.queue ++ t.run.waves.flatten), ?_, ?_, ?_, ?_, ?_⟩
    · simp [pending, hflights]
    · simp [pending]
    · exact Report.record_answer _ op
    · rw [hflights, List.length_append, List.length_cons] at hroom
      rw [List.length_map]
      omega
    · rw [hflights, List.length_append, List.length_map]
      exact Nat.le_add_right _ _
  | next hwaves hflights hthrough =>
    have hqueue : t.run.queue = [] := hthrough.resolve_right (by simp [h.isStopped])
    refine .inl ⟨Run.report_beginWave _ _ _, ?_⟩
    simp [pending, hflights, hqueue, hwaves, Run.queue_beginWave, h.isStopped]
  | cancel => exact absurd rfl hne

/-- The report records some operations as planned, and these and the pending ones are those of the
schedule. They stand in its order when one call is in flight at a time, and in a dry run. -/
structure Foretold (rules : RunRules) (waves : List (List PlannedOp)) (t : Trail)
    (ops : List PlannedOp) : Prop where
  report : t.run.report = .ofOps ops
  perm : (ops ++ t.pending).Perm waves.flatten
  inTurn : rules.slots = 1 ∨ rules.settings.dryRun = true → ops ++ t.pending = waves.flatten

/-- Where no operation can overtake another, it is the first pending one that is recorded. -/
theorem Foretold.step (hl : Ledger waves t) (hanswers : t.AnsweredBy .echo)
    (hroom : t.run.flights.length ≤ rules.slots)
    (hidle : rules.settings.dryRun = true → t.run.flights = []) (hsmooth : t.Smooth)
    (h : Foretold rules waves t ops) (hstep : Step rules t e t') (hsmooth' : t'.Smooth)
    (hne : e ≠ .cancel) : ∃ ops', Foretold rules waves t' ops' := by
  rcases hstep.records hl hanswers hroom hsmooth hsmooth' hne with
    ⟨hreport, hpending⟩ | ⟨before, op, after, hpending, hpending', hreport, hslots, hflights⟩
  · exact ⟨ops, hreport.trans h.report, hpending ▸ h.perm, hpending ▸ h.inTurn⟩
  · refine ⟨ops ++ [op], ?_, ?_, fun hturn => ?_⟩
    · rw [hreport, h.report, Report.ofOps_concat]
    · rw [hpending']
      refine (perm_of_known ops before after op).trans ?_
      rw [← hpending]
      exact h.perm
    · have hfirst : before = [] := by
        apply List.length_eq_zero_iff.1
        rcases hturn with hone | hdry
        · omega
        · rw [hidle hdry] at hflights
          exact Nat.le_zero.1 hflights
      have hall := h.inTurn hturn
      rw [hpending, hfirst] at hall
      rw [hpending', hfirst, List.append_assoc]
      exact hall

/-! ### Histories that nobody cancels -/

/-- In a dry run nothing is sent. -/
theorem Step.sent_of_dryRun (hdry : rules.settings.dryRun = true) (hstep : Step rules t e t') :
    t'.sent = t.sent := by
  cases hstep with
  | send _ _ _ _ hreal =>
    rw [hdry] at hreal
    cases hreal
  | _ => rfl

/-- If the calls so far were answered with what was sent, then nothing has gone wrong and the report
is foretold; in a dry run there were no calls. -/
structure Charted (rules : RunRules) (waves : List (List PlannedOp)) (t : Trail) : Prop where
  ledger : Ledger waves t
  room : t.run.flights.length ≤ rules.slots
  silent : rules.settings.dryRun = true → t.sent = []
  idle : rules.settings.dryRun = true → t.run.flights = [] ∧ t.ended = []
  smooth : t.AnsweredBy .echo → t.Smooth
  foretold : t.AnsweredBy .echo → ∃ ops, Foretold rules waves t ops

/-- Every event but a cancellation leaves the report as the plan foretells it. -/
theorem Charted.step (h : Charted rules waves t) (hstep : Step rules t e t') (hne : e ≠ .cancel) :
    Charted rules waves t' := by
  have hsmooth : t'.AnsweredBy .echo → t'.Smooth := by
    intro hanswers'
    have hanswers := hanswers'.of_step hstep
    exact (h.smooth hanswers).step h.ledger hstep hne fun x hx => ⟨_, hanswers' x hx⟩
  refine ⟨h.ledger.step hstep, hstep.flights_le h.room, ?_, ?_, hsmooth, ?_⟩
  · intro hdry
    rw [hstep.sent_of_dryRun hdry]
    exact h.silent hdry
  · intro hdry
    exact hstep.idle hdry (h.idle hdry)
  · intro hanswers'
    have hanswers := hanswers'.of_step hstep
    obtain ⟨ops, hops⟩ := h.foretold hanswers
    exact hops.step h.ledger hanswers h.room (fun hdry => (h.idle hdry).1) (h.smooth hanswers)
      hstep (hsmooth hanswers') hne

/-- Before the first event the report is empty, and so is what is foretold. -/
theorem charted_start (rules : RunRules) (s : Schedule) :
    Charted rules s.waves (start s false) where
  ledger := ledger_start s false
  room := Nat.zero_le _
  silent _ := rfl
  idle _ := ⟨rfl, rfl⟩
  smooth _ := ⟨rfl, rfl, rfl, rfl, by simp [start, Run.start]⟩
  foretold _ := ⟨[], rfl, .refl _, fun _ => rfl⟩

/-- A history of a run of a plan that nobody cancels, up to its end. -/
structure Completes (p : Plan) (settings : RunSettings) (events : List Event) (t : Trail) :
    Prop where
  reach : (start (.ofPlan p) false).replay? ⟨settings, (Schedule.ofPlan p).needs⟩ events = some t
  uncancelled : Event.cancel ∉ events
  finished : t.run.isOver = true

/-- A history that nobody cancels is charted at its end. -/
theorem Completes.charted (h : Completes p settings events t) :
    Charted ⟨settings, (Schedule.ofPlan p).needs⟩ (Schedule.ofPlan p).waves t := by
  refine replay?_induction_mem (P := Charted _ _) ?_ (charted_start _ _) h.reach
  intro t e t' he ht hstep
  refine ht.step hstep ?_
  rintro rfl
  exact h.uncancelled he

/-- In a run that is over and in which nothing has gone wrong nothing is pending. -/
theorem Smooth.pending_eq_nil (h : t.Smooth) (hover : t.run.isOver = true) : t.pending = [] := by
  have hqueue := h.queue_eq_nil hover
  unfold Run.isOver at hover
  simp only [Bool.and_eq_true, List.isEmpty_iff] at hover
  obtain ⟨⟨hwaves, hflights⟩, -⟩ := hover
  rw [pending, hwaves, hflights, hqueue]
  rfl

/-- The report of a run that is over records the operations of the schedule as planned. -/
theorem Completes.exists_ops (h : Completes p settings events t) (hanswers : t.AnsweredBy .echo) :
    ∃ ops, t.run.finalReport = .ofOps ops ∧ ops.Perm (Schedule.ofPlan p).waves.flatten ∧
      (max 1 settings.concurrency = 1 ∨ settings.dryRun = true →
        ops = (Schedule.ofPlan p).waves.flatten) := by
  obtain ⟨ops, hops⟩ := h.charted.foretold hanswers
  have hsmooth := h.charted.smooth hanswers
  have hperm := hops.perm
  have hturn := hops.inTurn
  rw [hsmooth.pending_eq_nil h.finished, List.append_nil] at hperm hturn
  exact ⟨ops, (hsmooth.finalReport_eq h.finished).trans hops.report, hperm, hturn⟩

/-- A dry run reports the operations of the schedule in its order. -/
theorem Completes.finalReport_of_dryRun (h : Completes p settings events t)
    (hdry : settings.dryRun = true) :
    t.run.finalReport = .ofOps (Schedule.ofPlan p).waves.flatten := by
  have hanswers : t.AnsweredBy .echo := by
    intro x hx
    rw [(h.charted.idle hdry).2] at hx
    cases hx
  obtain ⟨ops, hreport, -, hturn⟩ := h.exists_ops hanswers
  rw [hreport, hturn (.inr hdry)]

end Trail

/-! ### The gateway -/

/-- A gateway in memory sees nothing of a dry run by the clock. -/
theorem ControlPlane.plane_solve_of_dryRun (plane : ControlPlane) (p : Plan)
    (hdry : settings.dryRun = true) (cancelled : Bool) :
    (plane.solve p settings cancelled).plane = plane := by
  obtain ⟨moves, r, hmoves, -, hplane⟩ := plane.exists_replay_solve p settings cancelled
  have hidle : (r.trail.run.flights = [] ∧ r.trail.ended = []) ∧ r.plane = plane := by
    refine Rollout.replay?_induction (P := fun r =>
      (r.trail.run.flights = [] ∧ r.trail.ended = []) ∧ r.plane = plane) ?_ ⟨⟨rfl, rfl⟩, rfl⟩ hmoves
    intro r m r' _ h hstep
    obtain ⟨e, hevent⟩ := hstep.exists_event
    refine ⟨hevent.idle hdry h.1, ?_⟩
    -- the gateway deals with calls in flight only, and there are none
    cases hstep with
    | answered hflights _ _ => simp [h.1.1] at hflights
    | silent _ _ _ => exact h.2
    | failed _ _ _ _ _ _ => exact h.2
  exact hplane.symm.trans hidle.2

namespace Trail

/-! ### Runs can be completed -/

/-- As long as a run is not over, something can happen other than its cancellation, and if this is
the end of a call, it can end as a gateway answers it. -/
theorem exists_step? (t : Trail) (rules : RunRules) (client : Client)
    (hover : t.run.isOver = false) : ∃ e t', t.step? rules e = some t' ∧ e.isCancel = false ∧
      ∃ new, t'.ended = t.ended ++ new ∧ ∀ x ∈ new, x.2 = client.reply x.1 := by
  have hevent : ∃ e r, t.run.step? rules e = some r ∧ e.isCancel = false ∧
      ∀ x ∈ newlyEnded t.run e, x.2 = client.reply x.1 := by
    by_cases hflights : t.run.flights = []
    · by_cases hthrough : (t.run.queue.isEmpty || t.run.isStopped) = true
      · obtain ⟨r, hr⟩ := Run.exists_nextWave rules hover hflights hthrough
        exact ⟨.nextWave, r, hr, rfl, by simp [newlyEnded]⟩
      · rw [Bool.not_eq_true, Bool.or_eq_false_iff] at hthrough
        have hroom : t.run.flights.length < rules.slots := by
          rw [hflights]
          exact rules.slots_pos
        obtain ⟨r, hr⟩ :=
          Run.exists_dispatch (List.isEmpty_eq_false_iff.1 hthrough.1) hroom hthrough.2
        exact ⟨.dispatch, r, hr, rfl, by simp [newlyEnded]⟩
    · obtain ⟨⟨op, reply⟩, rest, hflights⟩ := List.exists_cons_of_ne_nil hflights
      cases reply with
      | none =>
        refine ⟨.finish 0 (client.reply op), _, by simp only [Run.step?, hflights]; rfl, rfl, ?_⟩
        simp [newlyEnded, hflights]
      | some reply =>
        exact ⟨.collect 0, _, by simp only [Run.step?, hflights]; rfl, rfl, by simp [newlyEnded]⟩
  obtain ⟨e, r, hr, he, hnew⟩ := hevent
  refine ⟨e, ⟨r, t.sent ++ newlySent t.run r, t.ended ++ newlyEnded t.run e⟩, ?_, he, _, rfl, hnew⟩
  rw [step?, hr]
  rfl

/-- From every point of a history the run can be brought to its end without being cancelled, all
calls ending as a gateway answers them. -/
theorem exists_completion (t : Trail) (rules : RunRules) (client : Client)
    (hanswers : t.AnsweredBy client) : ∃ events t', t.replay? rules events = some t' ∧
      Event.cancel ∉ events ∧ t'.run.isOver = true ∧ t'.AnsweredBy client := by
  by_cases hover : t.run.isOver = true
  · exact ⟨[], t, rfl, List.not_mem_nil, hover, hanswers⟩
  · rw [Bool.not_eq_true] at hover
    obtain ⟨e, t₁, hstep, he, new, hended, hnew⟩ := exists_step? t rules client hover
    have hless : t₁.run.due < t.run.due := (step_of_step? hstep).due_lt he
    have hanswers₁ : t₁.AnsweredBy client := by
      intro x hx
      rw [hended] at hx
      rcases List.mem_append.1 hx with hx | hx
      · exact hanswers x hx
      · exact hnew x hx
    obtain ⟨events, t', hrest, hcancel, hover', hanswers'⟩ :=
      exists_completion t₁ rules client hanswers₁
    refine ⟨e :: events, t', replay?_cons_iff.2 ⟨t₁, hstep, hrest⟩, ?_, hover', hanswers'⟩
    intro hmem
    rcases List.mem_cons.1 hmem with rfl | hmem
    · cases he
    · exact hcancel hmem
termination_by t.run.due

/-- Every plan can be run to the end, whatever gateway answers. -/
theorem exists_completes (p : Plan) (settings : RunSettings) (client : Client) :
    ∃ events t, Completes p settings events t ∧ t.AnsweredBy client := by
  have hnone : (start (.ofPlan p) false).AnsweredBy client := fun x hx => by cases hx
  obtain ⟨events, t, hreach, hcancel, hover, hanswers⟩ :=
    exists_completion (start (.ofPlan p) false) ⟨settings, (Schedule.ofPlan p).needs⟩ client hnone
  exact ⟨events, t, ⟨hreach, hcancel, hover⟩, hanswers⟩

/-- For every plan, whatever number of calls may be in flight and whether or not failures are to be
passed over: a dry run that nobody cancels comes to an end, sends nothing and reports no errors, and
a gateway in memory sees nothing of it. It foretells every real run of the plan that nobody cancels
and in which the gateway does what it is told and answers with what it was sent, whatever number of
calls may be in flight there and in whatever order they end: both count the same operations and
report the same changes up to order, and in the same order when one call is in flight at a time.
Such real runs come to an end too. -/
theorem dryRun_foretells (p : Plan) (slots slots' : Nat) (goOn goOn' : Bool) :
    (∃ events t, Completes p ⟨slots, true, goOn⟩ events t) ∧
    (∃ events t, Completes p ⟨slots', false, goOn'⟩ events t ∧ t.AnsweredBy .echo) ∧
    (∀ plane : ControlPlane, (plane.solve p ⟨slots, true, goOn⟩ false).plane = plane) ∧
    ∀ events t, Completes p ⟨slots, true, goOn⟩ events t →
      t.sent = [] ∧ t.run.finalReport.errors = [] ∧
      ∀ events' t', Completes p ⟨slots', false, goOn'⟩ events' t' → t'.AnsweredBy .echo →
        t.run.finalReport.SameUpToOrder t'.run.finalReport ∧
        (slots' ≤ 1 → t.run.finalReport.changes = t'.run.finalReport.changes) := by
  obtain ⟨events₀, t₀, hdry₀, -⟩ := exists_completes p ⟨slots, true, goOn⟩ .echo
  refine ⟨⟨events₀, t₀, hdry₀⟩, exists_completes p _ _,
    fun plane => plane.plane_solve_of_dryRun p rfl false, fun events t h => ?_⟩
  have hreport := h.finalReport_of_dryRun rfl
  refine ⟨h.charted.silent rfl, by rw [hreport]; exact Report.errors_ofOps _,
    fun events' t' h' hanswers => ?_⟩
  obtain ⟨ops, hreport', hperm, hturn⟩ := h'.exists_ops hanswers
  rw [hreport, hreport']
  refine ⟨Report.sameUpToOrder_ofOps hperm.symm, fun hone => ?_⟩
  rw [hturn (.inl (Nat.max_eq_left hone))]

/-- The operations of the plan for three services are dealt with one after the other. -/
def rehearsal : List Event :=
  [.nextWave, .dispatch, .dispatch, .dispatch, .nextWave, .dispatch, .nextWave, .dispatch]

/-- The plan for three services is tried out, and when it is run afterwards, one call after the
other, what it creates is created in the order that was foretold. -/
theorem dryRun_of_threeServices : ∃ t events' t',
    Completes threeServices ⟨2, true, false⟩ rehearsal t ∧
    Completes threeServices ⟨1, false, true⟩ events' t' ∧ t'.AnsweredBy .echo ∧ t.sent = [] ∧
    t'.run.finalReport.changes.created.map (·.id) = ["s1", "s2", "s3", "r1"] ∧
    t'.run.finalReport.stats.deleted = 1 := by
  have heval : ((start (Schedule.ofPlan threeServices) false).replay?
      ⟨⟨2, true, false⟩, (Schedule.ofPlan threeServices).needs⟩ rehearsal).any (fun t =>
        t.run.isOver && t.run.finalReport.stats.deleted == 1 &&
          t.run.finalReport.changes.created.map (·.id) == ["s1", "s2", "s3", "r1"]) = true := by
    decide +kernel
  obtain ⟨t, hreach, hfacts⟩ := (Option.any_eq_true _ _).1 heval
  simp only [Bool.and_eq_true, beq_iff_eq] at hfacts
  obtain ⟨⟨hover, hdeleted⟩, hcreated⟩ := hfacts
  have hdry : Completes threeServices ⟨2, true, false⟩ rehearsal t :=
    ⟨hreach, by simp [rehearsal], hover⟩
  obtain ⟨-, ⟨events', t', hreal, hanswers⟩, -, hall⟩ :=
    dryRun_foretells threeServices 2 1 false true
  obtain ⟨hsent, -, hforetells⟩ := hall rehearsal t hdry
  obtain ⟨hsame, hchanges⟩ := hforetells events' t' hreal hanswers
  refine ⟨t, events', t', hdry, hreal, hanswers, hsent, ?_, ?_⟩
  · rw [← hchanges (Nat.le_refl 1)]
    exact hcreated
  · rw [← hsame.stats]
    exact hdeleted

end Trail

end Gateway
