import Gateway.Proofs.Ledger
import Gateway.Proofs.Schedule
import Gateway.Sample

/-!
# Prerequisites of calls

When an operation is sent, everything it needs has been called and is through
(`Trail.InOrder.settled_of_needs`), and nothing it needs was refused or left out. That leaves two
ways a prerequisite can have ended: it was done, or its call was lost. So an operation is sent after
all its prerequisites succeeded exactly when none of them was lost
(`Trail.needs_succeeded_iff_not_lost`). A lost call leaves no trace among the statuses, and what
needs it is sent all the same (`Trail.not_always_needs_succeeded`).
-/

namespace Gateway

namespace Run

variable {r : Run} {key : Reference} {needs : Reference → List Reference}

/-- An object with a status has a latest one. -/
theorem exists_status? {s : Status} (h : (key, s) ∈ r.statuses) :
    ∃ s', r.status? key = some s' ∧ (key, s') ∈ r.statuses := by
  unfold status?
  cases hfind : r.statuses.find? (·.1 == key) with
  | none =>
    have hno := List.find?_eq_none.1 hfind _ h
    simp at hno
  | some x =>
    have hkey : x.1 = key := by simpa using List.find?_some hfind
    refine ⟨x.2, rfl, ?_⟩
    rw [← hkey]
    exact List.mem_of_find?_eq_some hfind

/-- Nothing that an unblocked operation needs failed or was left out. -/
theorem eq_done_of_not_blocked (h : r.blocker? needs key = none) {n : Reference}
    (hn : n ∈ needs key) {s : Status} (hs : r.status? n = some s) : s = .done := by
  have hno := List.find?_eq_none.1 h n hn
  rw [hs] at hno
  cases s with
  | done => rfl
  | failed => simp at hno
  | skipped => simp at hno

end Run

namespace Trail

variable {p : Plan} {rules : RunRules} {t t' : Trail} {e : Event} {op : PlannedOp}
  {n : Reference}

/-- Only dispatching an operation sends it. -/
theorem Step.send_of_sent (h : Step rules t e t') (hsent : t'.sent = t.sent ++ [op]) :
    ∃ queue, t.run.queue = op :: queue ∧ t.run.isStopped = false ∧
      t.run.blocker? rules.needs op.key = none := by
  cases h with
  | @send o queue hqueue _ hgo hblock _ =>
    have heq : o = op := by simpa using hsent
    subst heq
    exact ⟨queue, hqueue, hgo, hblock⟩
  | skip _ _ _ _ => simp at hsent
  | pretend _ _ _ _ _ => simp at hsent
  | finish _ => simp at hsent
  | collect _ => simp at hsent
  | next _ _ _ => simp at hsent
  | cancel => simp at hsent

/-- Whatever an operation needs is through when the operation comes up. -/
theorem InOrder.settled_of_needs (hnodup : (p.mutations.map (·.key)).Nodup)
    (h : InOrder (Schedule.ofPlan p).waves t) (hgo : t.run.isStopped = false)
    (hop : op ∈ t.run.queue) (hn : n ∈ p.needs op.key) : t.Settled n := by
  obtain ⟨past, wave, hwaves, hpast, hqueue, -⟩ := h hgo
  cases past with
  | nil =>
    -- no wave has begun, so nothing can be in the queue
    obtain ⟨rfl, -⟩ := List.cons.inj hwaves
    cases hqueue hop
  | cons first past =>
    rw [List.cons_append, List.cons.injEq] at hwaves
    obtain ⟨rfl, hwaves⟩ := hwaves
    obtain ⟨o, ho, rfl⟩ := Schedule.needs_earlier hnodup hwaves (hqueue hop) hn
    exact hpast o (by simpa using ho)

/-- When an operation is sent, each of its prerequisites has succeeded, or was lost. -/
theorem Barrier.succeeded_or_lost (hnodup : (p.mutations.map (·.key)).Nodup)
    (h : Barrier (Schedule.ofPlan p).waves t) (hneeds : rules.needs = p.needs)
    (hstep : Step rules t e t') (hsent : t'.sent = t.sent ++ [op]) (hn : n ∈ p.needs op.key) :
    t.Succeeded n ∨ t.Lost n := by
  obtain ⟨queue, hqueue, hgo, hblock⟩ := hstep.send_of_sent hsent
  have hop : op ∈ t.run.queue := by simp [hqueue]
  rcases InOrder.settled_of_needs hnodup h.through hgo hop hn with ⟨s, hs⟩ | hlost
  · obtain ⟨s', hstatus, hmem⟩ := Run.exists_status? hs
    rw [hneeds] at hblock
    rw [Run.eq_done_of_not_blocked hblock hn hstatus] at hmem
    exact .inl (h.done n hmem)
  · exact .inr hlost

/-- In every history of a real run of a plan without two mutations of one object, whatever calls
answer and in whatever order: when an operation is sent, all that it needs has been called and has
succeeded, if and only if none of these calls was lost. -/
theorem needs_succeeded_iff_not_lost (p : Plan) (hnodup : (p.mutations.map (·.key)).Nodup)
    (settings : RunSettings) (hreal : settings.dryRun = false) (cancelled : Bool)
    (events : List Event) (t t' : Trail) (e : Event) (op : PlannedOp)
    (hreach : (start (Schedule.ofPlan p) cancelled).replay?
      ⟨settings, (Schedule.ofPlan p).needs⟩ events = some t)
    (hstep : t.step? ⟨settings, (Schedule.ofPlan p).needs⟩ e = some t')
    (hsent : t'.sent = t.sent ++ [op]) :
    (∀ n ∈ (Schedule.ofPlan p).needs op.key, t.Succeeded n) ↔
      ∀ n ∈ (Schedule.ofPlan p).needs op.key, ¬t.Lost n := by
  have hledger := ledger_of_replay? hreach
  have hbarrier := barrier_of_replay? hreal hreach
  constructor
  · intro h n hn
    exact hledger.not_lost_of_succeeded (Schedule.nodup_waves hnodup) (h n hn)
  · intro h n hn
    have hcase := hbarrier.succeeded_or_lost hnodup rfl (step_of_step? hstep) hsent hn
    exact hcase.resolve_right (h n hn)

/-! ### A service and a route to it -/

/-- The plan that creates a service and a route to it. -/
def serviceThenRoute : Plan :=
  ⟨[⟨.create, Sample.service "s1" "a", none, []⟩, ⟨.create, Sample.route "r1" "r" "s1", none, []⟩]⟩

/-- The rules of a run of this plan. -/
def serviceThenRouteRules : RunRules := ⟨{}, (Schedule.ofPlan serviceThenRoute).needs⟩

/-- The history in which the call that creates the service ends in some way and the route comes
up. -/
def serviceEnds (reply : Reply) : List Event :=
  [.nextWave, .dispatch, .finish 0 reply, .collect 0, .nextWave]

/-- Where that history leads, before and after the route is dealt with. -/
def beforeAndAfterRoute (reply : Reply) : Option (Trail × Trail) := do
  let t ← (start (Schedule.ofPlan serviceThenRoute) false).replay? serviceThenRouteRules
    (serviceEnds reply)
  let t' ← t.step? serviceThenRouteRules .dispatch
  return (t, t')

/-- Where that history leads when the route is sent. -/
theorem exists_route_sent (reply : Reply) (crash : Bool)
    (h : (beforeAndAfterRoute reply).map (fun x => (x.1.ended.map (·.2.isCrash),
      (newlySent x.1.run x.2.run).map (·.key))) = some ([crash], [⟨.route, "r1"⟩])) :
    ∃ t t' op, (start (Schedule.ofPlan serviceThenRoute) false).replay? serviceThenRouteRules
        (serviceEnds reply) = some t ∧ t.step? serviceThenRouteRules .dispatch = some t' ∧
      t'.sent = t.sent ++ [op] ∧ op.key = ⟨.route, "r1"⟩ ∧ t.ended.map (·.2.isCrash) = [crash] := by
  obtain ⟨⟨t, t'⟩, hx, hfacts⟩ := Option.map_eq_some_iff.1 h
  obtain ⟨t₁, hreach, hx⟩ := Option.bind_eq_some_iff.1 hx
  obtain ⟨t₂, hstep, hx⟩ := Option.bind_eq_some_iff.1 hx
  cases hx
  obtain ⟨hended, hsent⟩ := Prod.mk.inj hfacts
  obtain ⟨op, hop, hkey⟩ := List.map_eq_singleton_iff.1 hsent
  refine ⟨t, t', op, hreach, hstep, ?_, hkey, hended⟩
  obtain ⟨r, -, rfl⟩ := Option.map_eq_some_iff.1 hstep
  rw [← hop]

/-- The route is sent after the service has been created. -/
theorem needs_succeeded_of_service_done : ∃ t t' op,
    (start (Schedule.ofPlan serviceThenRoute) false).replay? serviceThenRouteRules
        (serviceEnds (.done none)) = some t ∧ t.step? serviceThenRouteRules .dispatch = some t' ∧
      t'.sent = t.sent ++ [op] ∧ op.key = ⟨.route, "r1"⟩ ∧
      ∀ n ∈ (Schedule.ofPlan serviceThenRoute).needs op.key, t.Succeeded n := by
  obtain ⟨t, t', op, hreach, hstep, hsent, hkey, hended⟩ :=
    exists_route_sent (.done none) false (by decide +kernel)
  refine ⟨t, t', op, hreach, hstep, hsent, hkey, ?_⟩
  refine (needs_succeeded_iff_not_lost serviceThenRoute (by decide +kernel) {} rfl false _ t t' _ op
    hreach hstep hsent).2 fun n _ hlost => ?_
  obtain ⟨o, ho, -⟩ := hlost
  have hcrash : true ∈ t.ended.map (·.2.isCrash) := List.mem_map.2 ⟨_, ho, rfl⟩
  rw [hended] at hcrash
  simp at hcrash

/-- The call that creates the service is lost, and the route is sent all the same: it is not so
that operations are only sent after all that they need has succeeded. -/
theorem not_always_needs_succeeded : ¬∀ (p : Plan), (p.mutations.map (·.key)).Nodup →
    ∀ (settings : RunSettings), settings.dryRun = false → ∀ (cancelled : Bool)
      (events : List Event) (t t' : Trail) (e : Event) (op : PlannedOp),
      (start (Schedule.ofPlan p) cancelled).replay? ⟨settings, (Schedule.ofPlan p).needs⟩ events =
        some t →
      t.step? ⟨settings, (Schedule.ofPlan p).needs⟩ e = some t' → t'.sent = t.sent ++ [op] →
      ∀ n ∈ (Schedule.ofPlan p).needs op.key, t.Succeeded n := by
  intro h
  obtain ⟨t, t', op, hreach, hstep, hsent, hkey, hended⟩ :=
    exists_route_sent .crashed true (by decide +kernel)
  have hneed : ⟨.service, "s1"⟩ ∈ (Schedule.ofPlan serviceThenRoute).needs op.key := by
    rw [hkey]
    decide +kernel
  obtain ⟨o, stored, ho, -⟩ := h serviceThenRoute (by decide +kernel) {} rfl false _ t t' _ op
    hreach hstep hsent _ hneed
  have hdone : false ∈ t.ended.map (·.2.isCrash) := List.mem_map.2 ⟨_, ho, rfl⟩
  rw [hended] at hdone
  simp at hdone

end Trail

end Gateway
