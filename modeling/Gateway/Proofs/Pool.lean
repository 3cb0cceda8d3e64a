import Gateway.Proofs.Account

/-!
# Calls in flight

A run keeps within its bounds at every point of every history. There are never more calls in flight
than there are slots, and all of them are on operations of one wave (`Trail.Gathered`). Once a run
is stopped nothing is sent any more (`Trail.sent_of_isStopped`): that is so after its cancellation
and, unless failures are to be passed over, after the first result that is a failure. The calls
that were in flight with that one are all that can still fail, so there are no more failures than
slots (`Trail.Curbed`). `Trail.pool_safe` says all of this.
-/

namespace Gateway

/-- Whether a call failed or was lost. -/
def Reply.isFailure : Reply → Bool
  | done _ => false
  | refused _ | crashed => true

/-- Whether the error is that a call failed or was lost. -/
def RunError.isFailure : RunError → Bool
  | refused .. | crashed => true
  | _ => false

namespace Trail

variable {rules : RunRules} {t t' : Trail} {e : Event} {events : List Event}
  {waves : List (List PlannedOp)}

/-! ### One wave at a time -/

/-- No step brings more calls into flight than there are slots. -/
theorem Step.flights_le (hstep : Step rules t e t') (h : t.run.flights.length ≤ rules.slots) :
    t'.run.flights.length ≤ rules.slots := by
  cases hstep with
  | skip _ _ _ _ => exact h
  | pretend _ _ _ _ _ => exact h
  | send _ hroom _ _ _ =>
    rw [List.length_append, List.length_singleton]
    exact hroom
  | finish hflights => simpa [hflights] using h
  | collect hflights =>
    rw [hflights, List.length_append, List.length_cons] at h
    rw [Run.flights_take, List.length_append]
    omega
  | next _ _ _ => simpa using h
  | cancel => exact h

/-- What is in flight or in the queue belongs to one wave, the last of those that have begun. -/
def Gathered (waves : List (List PlannedOp)) (t : Trail) : Prop :=
  ∃ past wave, [] :: waves = past ++ wave :: t.run.waves ∧
    (t.run.flights.map (·.op) ++ t.run.queue).Subperm wave

/-- Until the next wave begins, operations only move from the queue into flight, or out of both. -/
theorem Gathered.of_subperm (h : Gathered waves t) (hwaves : t'.run.waves = t.run.waves)
    (hsub : (t'.run.flights.map (·.op) ++ t'.run.queue).Subperm
      (t.run.flights.map (·.op) ++ t.run.queue)) : Gathered waves t' := by
  obtain ⟨past, wave, hsplit, hwave⟩ := h
  exact ⟨past, wave, hwaves ▸ hsplit, hsub.trans hwave⟩

/-- No event brings together operations of two waves. -/
theorem Gathered.step (h : Gathered waves t) (hstep : Step rules t e t') : Gathered waves t' := by
  cases hstep with
  | skip hqueue _ _ _ =>
    refine h.of_subperm rfl ?_
    rw [hqueue]
    exact ((List.sublist_cons_self _ _).append_left _).subperm
  | pretend hqueue _ _ _ _ =>
    refine h.of_subperm rfl ?_
    rw [hqueue]
    exact ((List.sublist_cons_self _ _).append_left _).subperm
  | send hqueue _ _ _ _ =>
    refine h.of_subperm rfl ?_
    simp [hqueue, List.Subperm.refl]
  | finish hflights =>
    refine h.of_subperm rfl ?_
    simp [hflights, List.Subperm.refl]
  | collect hflights =>
    refine h.of_subperm (by simp) ?_
    simp only [Run.flights_take, Run.queue_take, hflights, List.map_append, List.map_cons]
    exact (((List.sublist_cons_self _ _).append_left _).append_right _).subperm
  | @next wave' waves' hwaves hflights _ =>
    obtain ⟨past, wave, hsplit, -⟩ := h
    refine ⟨past ++ [wave], wave', by simp [hsplit, hwaves], ?_⟩
    rw [Run.flights_beginWave, hflights, Run.queue_beginWave]
    split
    · exact List.nil_subperm
    · exact List.Subperm.refl _
  | cancel => exact h

theorem gathered_of_replay? {s : Schedule} {cancelled : Bool}
    (h : (start s cancelled).replay? rules events = some t) : Gathered s.waves t :=
  replay?_induction (fun _ _ _ h hstep => h.step hstep)
    ⟨[], [], rfl, by simp [start, Run.start]⟩ h

/-- All calls in flight are on operations of one wave of one batch. -/
theorem Gathered.exists_batch {s : Schedule} (h : Gathered s.waves t)
    (hflights : t.run.flights ≠ []) :
    ∃ b ∈ s.batches, ∃ wave ∈ b.waves, (t.run.flights.map (·.op)).Subperm wave := by
  obtain ⟨past, wave, hsplit, hwave⟩ := h
  have hwave : (t.run.flights.map (·.op)).Subperm wave :=
    (List.sublist_append_left _ _).subperm.trans hwave
  cases past with
  | nil =>
    -- before the first wave nothing is in flight
    obtain ⟨rfl, -⟩ := List.cons.inj hsplit
    rw [List.subperm_nil, List.map_eq_nil_iff] at hwave
    exact absurd hwave hflights
  | cons first past =>
    rw [List.cons_append, List.cons.injEq] at hsplit
    have hmem : wave ∈ s.waves := by
      rw [hsplit.2]
      simp
    obtain ⟨b, hb, hwb⟩ := List.mem_flatMap.1 hmem
    exact ⟨b, hb, wave, hwb, hwave⟩

/-! ### A run that is stopped -/

/-- A run that is stopped sends nothing. -/
theorem Step.sent_of_isStopped (hstep : Step rules t e t') (hstopped : t.run.isStopped = true) :
    t'.sent = t.sent := by
  cases hstep with
  | send _ _ hgo _ _ =>
    rw [hstopped] at hgo
    cases hgo
  | _ => rfl

/-- Once a run is stopped, nothing is sent any more. -/
theorem sent_of_isStopped (hstopped : t.run.isStopped = true)
    (h : t.replay? rules events = some t') : t'.sent = t.sent :=
  (replay?_induction (P := fun u => u.run.isStopped = true ∧ u.sent = t.sent)
    (fun _ _ _ h hstep =>
      ⟨hstep.isStopped_of_isStopped h.1, (hstep.sent_of_isStopped h.1).trans h.2⟩)
    ⟨hstopped, rfl⟩ h).2

/-- A cancelled run stays cancelled. -/
theorem Step.cancelled (hstep : Step rules t e t') (h : t.run.cancelled = true) :
    t'.run.cancelled = true := by
  cases hstep with
  | @collect before after op reply _ => cases reply <;> exact h
  | next _ _ _ =>
    unfold Run.beginWave
    split <;> exact h
  | cancel => rfl
  | _ => exact h

/-- A run is cancelled from the moment at which somebody cancels it. -/
theorem cancelled_of_replay? (hcancel : t.run.cancelled = true ∨ Event.cancel ∈ events)
    (h : t.replay? rules events = some t') : t'.run.cancelled = true := by
  induction events generalizing t with
  | nil =>
    cases h
    exact hcancel.resolve_right List.not_mem_nil
  | cons e rest ih =>
    obtain ⟨t₁, h₁, hrest⟩ := replay?_cons_iff.1 h
    have hstep := step_of_step? h₁
    refine ih ?_ hrest
    rcases hcancel with hcancelled | hmem
    · exact .inl (hstep.cancelled hcancelled)
    · rcases List.mem_cons.1 hmem with rfl | hmem
      · cases hstep
        exact .inl rfl
      · exact .inr hmem

/-- A result that is a failure stops the run, unless failures are to be passed over. -/
theorem isStopped_of_collect (hhalt : rules.settings.continueOnError = false) {i : Nat}
    {op : PlannedOp} {reply : Reply} (hflight : t.run.flights[i]? = some ⟨op, some reply⟩)
    (hfail : reply.isFailure = true) (h : t.step? rules (.collect i) = some t') :
    t'.run.isStopped = true := by
  cases step_of_step? h with
  | @collect before after op' reply' hflights =>
    have hsame : op' = op ∧ reply' = reply := by simpa [hflights] using hflight
    obtain ⟨-, rfl⟩ := hsame
    cases reply' with
    | done stored => cases hfail
    | refused cause => simp [Run.take, Run.haltUnless, Run.isStopped, hhalt]
    | crashed => simp [Run.take, Run.haltUnless, Run.isStopped, hhalt]

/-! ### How many calls can fail -/

/-- As long as a run is not halted no call has failed, and the calls that failed and those in flight
are together no more than there are slots. -/
structure Curbed (rules : RunRules) (t : Trail) : Prop where
  spared : t.run.halted = false → t.run.report.errors.countP RunError.isFailure = 0
  few : t.run.report.errors.countP RunError.isFailure + t.run.flights.length ≤ rules.slots

/-- Where failures halt a run, no event lets calls that failed and calls in flight exceed the slots.
-/
theorem Curbed.step (hhalt : rules.settings.continueOnError = false) (h : Curbed rules t)
    (hstep : Step rules t e t') : Curbed rules t' := by
  obtain ⟨hspared, hfew⟩ := h
  cases hstep with
  | skip _ _ _ _ => exact ⟨by simpa [Report.fail, RunError.isFailure] using hspared,
      by simpa [Report.fail, RunError.isFailure] using hfew⟩
  | pretend _ _ _ _ _ => exact ⟨hspared, hfew⟩
  | send _ hroom hgo _ _ =>
    -- a run that still sends has seen no failure
    have hnone := hspared (Bool.or_eq_false_iff.1 hgo).1
    refine ⟨hspared, ?_⟩
    simp only [hnone, List.length_append, List.length_singleton]
    omega
  | finish hflights => exact ⟨hspared, by simpa [hflights] using hfew⟩
  | @collect before after op reply hflights =>
    rw [hflights, List.length_append, List.length_cons] at hfew
    cases reply with
    | done stored =>
      refine ⟨hspared, ?_⟩
      simp only [Run.take, Run.note, Report.record, List.length_append]
      omega
    | refused cause =>
      refine ⟨by simp [Run.take, Run.haltUnless, hhalt], ?_⟩
      simp only [Run.take, Run.note, Run.haltUnless, Report.fail, List.countP_append,
        List.countP_singleton, RunError.isFailure, List.length_append]
      simp only [if_true]
      omega
    | crashed =>
      refine ⟨by simp [Run.take, Run.haltUnless, hhalt], ?_⟩
      simp only [Run.take, Run.haltUnless, Report.fail, List.countP_append,
        List.countP_singleton, RunError.isFailure, List.length_append]
      simp only [if_true]
      omega
  | next _ _ _ =>
    unfold Run.beginWave
    split <;> exact ⟨hspared, hfew⟩
  | cancel => exact ⟨hspared, hfew⟩

theorem curbed_of_replay? (hhalt : rules.settings.continueOnError = false) {s : Schedule}
    {cancelled : Bool} (h : (start s cancelled).replay? rules events = some t) :
    Curbed rules t :=
  replay?_induction (fun _ _ _ h hstep => h.step hhalt hstep)
    ⟨fun _ => rfl, Nat.zero_le _⟩ h

/-- The account of what was not attempted is no failure of a call. -/
theorem countP_finalReport (r : Run) :
    r.finalReport.errors.countP RunError.isFailure =
      r.report.errors.countP RunError.isFailure := by
  unfold Run.finalReport
  split
  · rfl
  · split
    · simp [Report.fail, RunError.isFailure]
    · split
      · simp [Report.fail, RunError.isFailure]
      · rfl

/-! ### The bounds of a run -/

/-- At every point of every history of a run: at most as many calls are in flight as there are
slots, of which there is at least one, all on operations of one wave of one batch; nothing is sent
once the run is cancelled; and unless failures are to be passed over, nothing is sent once the
result of a call that failed or was lost has been collected, and no more such failures are reported
than there are slots. -/
theorem pool_safe (p : Plan) (settings : RunSettings) (cancelled : Bool) (events : List Event)
    (t : Trail) (hreach : (start (Schedule.ofPlan p) cancelled).replay?
      ⟨settings, (Schedule.ofPlan p).needs⟩ events = some t) :
    t.run.flights.length ≤ max 1 settings.concurrency ∧
      (t.run.flights ≠ [] → ∃ b ∈ (Schedule.ofPlan p).batches, ∃ wave ∈ b.waves,
        (t.run.flights.map (·.op)).Subperm wave) ∧
      (cancelled = true ∨ Event.cancel ∈ events → ∀ later t',
        t.replay? ⟨settings, (Schedule.ofPlan p).needs⟩ later = some t' → t'.sent = t.sent) ∧
      (settings.continueOnError = false →
        (∀ i op reply t₁, t.run.flights[i]? = some ⟨op, some reply⟩ → reply.isFailure = true →
          t.step? ⟨settings, (Schedule.ofPlan p).needs⟩ (.collect i) = some t₁ → ∀ later t',
            t₁.replay? ⟨settings, (Schedule.ofPlan p).needs⟩ later = some t' →
              t'.sent = t.sent) ∧
        t.run.finalReport.errors.countP RunError.isFailure ≤ max 1 settings.concurrency) := by
  refine ⟨?_, ?_, ?_, ?_⟩
  · exact replay?_induction (fun _ _ _ h hstep => hstep.flights_le h) (Nat.zero_le _) hreach
  · intro hflights
    exact (gathered_of_replay? hreach).exists_batch hflights
  · intro hcancel later t' hlater
    have hcancelled := cancelled_of_replay? hcancel hreach
    exact sent_of_isStopped (by simp [Run.isStopped, hcancelled]) hlater
  · intro hhalt
    constructor
    · intro i op reply t₁ hflight hfail hstep later t' hlater
      have hstopped := isStopped_of_collect hhalt hflight hfail hstep
      have hsame : t₁.sent = t.sent := by
        cases step_of_step? hstep
        rfl
      exact (sent_of_isStopped hstopped hlater).trans hsame
    · have hfew := (curbed_of_replay? hhalt hreach).few
      rw [countP_finalReport]
      exact Nat.le_trans (Nat.le_add_right _ _) hfew

/-! ### Two failures at a time -/

/-- The rules of a run of the plan for three services that stops at a failure, with two slots. -/
def twoSlots : RunRules :=
  ⟨{ concurrency := 2, continueOnError := false }, (Schedule.ofPlan threeServices).needs⟩

/-- The history in which the call for the first service is refused and that for the second lost,
before and after the first result is collected. -/
def twoFailures : Option (Trail × Trail) := do
  let t ← (start (Schedule.ofPlan threeServices) false).replay? twoSlots
    [.nextWave, .dispatch, .dispatch, .finish 0 (.refused (.unavailable "down")),
      .finish 1 .crashed]
  let t' ← t.step? twoSlots (.collect 0)
  return (t, t')

/-- Both slots are taken, and the third service, which is in the queue, is never sent. -/
theorem pool_safe_of_twoFailures : ∃ t t', twoFailures = some (t, t') ∧
    t.run.flights.length = 2 ∧ t'.run.queue.length = 1 ∧
      (∃ b ∈ (Schedule.ofPlan threeServices).batches, ∃ wave ∈ b.waves,
        (t.run.flights.map (·.op)).Subperm wave) ∧
      ∀ later t'', t'.replay? twoSlots later = some t'' → t''.sent = t.sent := by
  have heval : twoFailures.any (fun x => x.1.run.flights.length == 2 &&
      x.2.run.queue.length == 1 && (x.1.run.flights[0]?.bind (·.reply)).any (·.isFailure)) =
        true := by
    decide +kernel
  obtain ⟨⟨t, t'⟩, hx, hfacts⟩ := (Option.any_eq_true _ _).1 heval
  simp only [Bool.and_eq_true, beq_iff_eq] at hfacts
  obtain ⟨⟨htwo, hqueue⟩, hfail⟩ := hfacts
  obtain ⟨t₁, hreach, hrest⟩ := Option.bind_eq_some_iff.1 hx
  obtain ⟨t₂, hstep, heq⟩ := Option.bind_eq_some_iff.1 hrest
  cases heq
  obtain ⟨reply, hreply, hfail⟩ := (Option.any_eq_true _ _).1 hfail
  obtain ⟨⟨op, reply'⟩, hflight, hreply⟩ := Option.bind_eq_some_iff.1 hreply
  cases hreply
  obtain ⟨-, hwave, -, hstop⟩ := pool_safe threeServices _ false _ t hreach
  have hsome : t.run.flights ≠ [] := by
    intro hnone
    rw [hnone] at htwo
    cases htwo
  exact ⟨t, t', hx, htwo, hqueue, hwave hsome, (hstop rfl).1 0 op reply t' hflight hfail hstep⟩

end Trail

end Gateway
