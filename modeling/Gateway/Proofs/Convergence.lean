import Gateway.Proofs.Rollout
import Gateway.Sample

/-!
# What a run reports is what it did

When a plan made from declarations is run against the gateway it was made for, the gateway holds in
the end what it held before with exactly the operations applied that the report records. Each entry
of the report shows what the gateway held of the object before and holds of it now, and when nothing
goes wrong, the entries are those of all mutations of the plan (`Rollout.changes_eq_effect`). This
holds for every way in which calls may interleave, be refused, be lost on the way or be cut off by
cancellation.
-/

namespace Gateway

open Planning

/-- An entry shows what a gateway held of the object before, and what it holds of it now. -/
structure EntityChange.Shows (x : EntityChange) (before now : State) : Prop where
  before : x.before = (before.get? x.kind x.id).map Entity.body
  after : x.after = (now.get? x.kind x.id).map Entity.body

namespace Rollout

variable {rules : RunRules} {r r' : Rollout} {m : Move} {moves : List Move} {p : Plan}
  {plane : ControlPlane} {cancelled : Bool}

/-! ### Runs in which nothing goes wrong -/

/-- Nothing has gone wrong so far, and the gateway neither refuses nor loses calls. -/
structure Untroubled (p : Plan) (held : State) (r : Rollout) : Prop where
  tracks : Tracks p held r
  smooth : r.trail.Smooth
  done : ∀ x ∈ r.trail.ended, ∃ stored, x.2 = .done stored
  refusals : r.plane.refusals = []
  crashes : r.plane.crashes = []

/-- Where nothing is refused or lost, a move makes no trouble unless it is trouble itself. -/
theorem Untroubled.step {held : State} (hfit : p.Fits held) (h : Untroubled p held r)
    (hm : m.isTrouble = false) (hstep : Step rules r m r') : Untroubled p held r' := by
  have htracks := h.tracks.step hfit hstep
  cases hstep with
  | silent htrail hended hcancel =>
    have hdone := h.done
    rw [← hended] at hdone
    refine ⟨htracks, ?_, hdone, h.refusals, h.crashes⟩
    refine h.smooth.step h.tracks.ledger htrail (fun he => ?_) hdone
    rw [hcancel he] at hm
    cases hm
  | @answered before after op t hflights htrail hended =>
    obtain ⟨hop, hnew⟩ := h.tracks.new_of_underWay hfit hflights
    have hact := Plan.ne_keep_of_mem hop
    obtain ⟨s', happly, -⟩ :=
      h.tracks.becomes.apply hfit (h.tracks.performed_subset hfit) hop hnew
    have hreply := ControlPlane.call_of_no_fault hact happly h.refusals h.crashes
    have hdone : ∀ x ∈ t.ended, ∃ stored, x.2 = .done stored := by
      intro x hx
      rw [hended] at hx
      rcases List.mem_append.1 hx with hx | hx
      · exact h.done x hx
      · rw [List.mem_singleton.1 hx, hreply]
        exact ⟨_, rfl⟩
    refine ⟨htracks, ?_, hdone, by simpa using h.refusals, by simpa using h.crashes⟩
    exact h.smooth.step h.tracks.ledger htrail (by simp) hdone
  | failed _ _ _ htrouble _ _ =>
    rw [hm] at htrouble
    cases htrouble

/-- A history of moves that are no trouble goes well throughout. -/
theorem untroubled_of_replay? (hfit : p.Fits plane.state) (hrefusals : plane.refusals = [])
    (hcrashes : plane.crashes = []) (hmoves : ∀ m ∈ moves, m.isTrouble = false)
    (h : (start p plane false).replay? rules moves = some r) : Untroubled p plane.state r := by
  refine replay?_induction (fun _ m _ hm hr hstep => hr.step hfit (hmoves m hm) hstep) ?_ h
  exact ⟨tracks_start p plane false, ⟨rfl, rfl, rfl, rfl, by simp [start, Trail.start, Run.start]⟩,
    by simp [start, Trail.start], hrefusals, hcrashes⟩

/-- A run that went well has performed every mutation of its plan, each of them once. -/
theorem Untroubled.performed_perm {held : State} (hfit : p.Fits held) (h : Untroubled p held r)
    (hbarrier : Trail.Barrier (Schedule.ofPlan p).waves r.trail)
    (hover : r.trail.run.isOver = true) : r.trail.performed.Perm p.mutations := by
  have hnodup : (r.trail.performed.map (·.key)).Nodup :=
    h.tracks.ledger.nodup_performed (Schedule.nodup_waves hfit.nodup)
  have hperformed := h.tracks.performed_subset hfit
  refine (List.perm_ext_iff_of_nodup (List.Nodup.of_map _ hnodup)
    (List.Nodup.of_map _ hfit.nodup)).2 fun op => ⟨fun hop => hperformed hop, fun hop => ?_⟩
  have hsucceeded := h.smooth.succeeded_of_isOver hbarrier h.done hover
    ((Schedule.mem_waves hfit.nodup).2 hop)
  obtain ⟨x, hx, hkey⟩ := Trail.succeeded_iff.1 hsucceeded
  rw [← Plan.eq_of_key hfit.nodup (hperformed hx) hop hkey]
  exact hx

/-! ### Entries and what the gateway holds -/

/-- Where the gateway has done what an entry tells of, the entry shows what it held before and what
it holds now. -/
theorem shows_of_tells {desired current t : State} {sel : Selection} {ops : List PlannedOp}
    {op : PlannedOp} {x : EntityChange} (hto : desired.planTo current sel = .ok p)
    (hbecomes : current.Becomes ops t) (hops : ops ⊆ p.mutations) (hop : op ∈ ops)
    (hx : x.Tells op op.entity) : x.Shows current t := by
  have hkind : x.kind = op.kind := hx.kind
  have hid : x.id = op.id := hx.id
  have hafter := hbecomes.changed op hop
  obtain ⟨hmem, hmut⟩ := Plan.mem_mutations.1 (hops hop)
  suffices x.before = (current.get? op.kind op.id).map Entity.body ∧
      x.after = op.result.map Entity.body by
    rw [← hafter, ← hkind, ← hid] at this
    exact ⟨this.1, this.2⟩
  cases hact : op.action with
  | create =>
    rw [State.get?_of_create hto hmem hact, PlannedOp.result_of_ne_delete (by simp [hact])]
    exact hx.created hact
  | update =>
    rw [State.get?_of_update hto hmem hact, PlannedOp.result_of_ne_delete (by simp [hact])]
    exact hx.updated hact
  | delete =>
    rw [State.get?_of_delete hto hmem hact, PlannedOp.result_of_delete hact]
    exact hx.deleted hact
  | keep => exact absurd hact hmut

/-! ### The end of a run -/

/-- For every plan of declarations and every history of a real run of it against the gateway it was
made for: when the run is over, the gateway holds what it held before with exactly the operations
applied that the report records, and each entry of the report shows the object as it was held before
and as it is held now. When nothing was refused, lost or cancelled, the report has no errors and
records every mutation. -/
theorem changes_eq_effect (c : Content) (o : Options) (plane : ControlPlane) (ids ids' : IdSupply)
    (desired : State) (p : Plan) (hres : Yields (c.resolve plane.state o) ids desired ids')
    (hplan : Yields (c.plan plane.state o) ids p ids')
    (hhidden : Content.HidesNoKey plane.state o.selection desired) (settings : RunSettings)
    (hreal : settings.dryRun = false) (cancelled : Bool) (moves : List Move) (r : Rollout)
    (hreach : (start p plane cancelled).replay? ⟨settings, (Schedule.ofPlan p).needs⟩ moves =
      some r)
    (hover : r.trail.run.isOver = true) :
    let changes := r.trail.run.finalReport.changes
    ∃ ops, ops ⊆ p.mutations ∧ (ops.map (·.key)).Nodup ∧
      changes.Tell (ops.map fun op => (op, op.entity)) ∧
      (∀ x, x ∈ changes.created ∨ x ∈ changes.updated ∨ x ∈ changes.deleted →
        x.Shows plane.state r.plane.state) ∧
      plane.state.Becomes ops r.plane.state ∧
      (plane.refusals = [] → plane.crashes = [] → cancelled = false →
        (∀ m ∈ moves, m.isTrouble = false) →
          r.trail.run.finalReport.errors = [] ∧ ops.Perm p.mutations) := by
  intro changes
  obtain ⟨desired', hres', hto⟩ := Content.yields_plan_iff.1 hplan
  obtain ⟨rfl, -⟩ := hres.unique hres'
  have hfit := Content.fits_of_plan hres hto hhidden
  have htracks := tracks_of_replay? hfit hreach
  obtain ⟨events, hevents⟩ := exists_trail_replay? hreach
  have hbarrier := Trail.barrier_of_replay? hreal hevents
  have hrecorded := Trail.recorded_of_replay? hreal hevents htracks.faithful
  obtain ⟨ops, hchanges, hperm⟩ := hrecorded.of_isOver hover
  have hnodup : (r.trail.performed.map (·.key)).Nodup :=
    htracks.ledger.nodup_performed (Schedule.nodup_waves hfit.nodup)
  have hperformed := htracks.performed_subset hfit
  have hops : ops ⊆ p.mutations := fun op hop => hperformed (hperm.mem_iff.1 hop)
  have hbecomes := htracks.becomes.congr fun op => hperm.mem_iff.symm
  refine ⟨ops, hops, (hperm.map _).nodup_iff.2 hnodup, hchanges, fun x hx => ?_, hbecomes, ?_⟩
  · obtain ⟨y, hy, -, htells⟩ := hchanges.exists_op hx
    obtain ⟨op, hop, rfl⟩ := List.mem_map.1 hy
    exact shows_of_tells hto hbecomes hops hop htells
  rintro hrefusals hcrashes rfl hmoves
  have hclean := untroubled_of_replay? hfit hrefusals hcrashes hmoves hreach
  exact ⟨hclean.smooth.errors_eq_nil hover, hperm.trans (hclean.performed_perm hfit hbarrier hover)⟩

/-! ### A route that moves to another service -/

/-- The plan by which one of two services is left, if it can be made. -/
def oneServicePlan : Except PlanError Plan :=
  ((Sample.oneService.plan Sample.twoServices {}).run .numbered).1

/-- Where a history of a run of this plan leads. -/
def oneServiceRollout (moves : List Move) : Option (Plan × Rollout) :=
  match oneServicePlan with
  | .ok p => ((start p (.ofState Sample.twoServices) false).replay?
      ⟨{}, (Schedule.ofPlan p).needs⟩ moves).map fun r => (p, r)
  | .error _ => none

/-- What it takes for a history to lead somewhere. -/
theorem oneServiceRollout_eq_some {x : Plan × Rollout} (h : oneServiceRollout moves = some x) :
    (∃ ids, Yields (Sample.oneService.plan Sample.twoServices {}) .numbered x.1 ids) ∧
      (start x.1 (.ofState Sample.twoServices) false).replay?
        ⟨{}, (Schedule.ofPlan x.1).needs⟩ moves = some x.2 := by
  unfold oneServiceRollout oneServicePlan at h
  split at h
  · rename_i p hp
    obtain ⟨r, hr, rfl⟩ := Option.map_eq_some_iff.1 h
    exact ⟨⟨_, Prod.ext hp rfl⟩, hr⟩
  · cases h

/-- The history in which each operation is dispatched, answered and collected in turn. -/
def oneByOne : List Move :=
  [.nextWave, .dispatch, .answer 0, .collect 0, .nextWave, .dispatch, .answer 0, .collect 0,
    .nextWave, .dispatch, .answer 0, .collect 0]

/-- What a body says of the host, and of the service that a route leads to. -/
def hostAndService (body : Settings) : Option String × Option String :=
  ((Dict.get? body "host").bind Value.asText?,
    ((Dict.get? body "service").bind Value.asMap?).bind fun fk =>
      (Dict.get? fk "id").bind Value.asText?)

/-- An entry in short. -/
def brief (x : EntityChange) : Kind × String × String ×
    Option (Option String × Option String) × Option (Option String × Option String) :=
  (x.kind, x.label, x.id, x.before.map hostAndService, x.after.map hostAndService)

/-- The newer service loses its host, the route moves to it, and the older service goes. -/
theorem changes_eq_effect_of_oneByOne : ∃ p r ops,
    oneServiceRollout oneByOne = some (p, r) ∧ p.mutations.length = 3 ∧
      r.trail.run.finalReport.changes.created.map brief = [] ∧
      r.trail.run.finalReport.changes.updated.map brief =
        [(.service, "new", "s1", some (some "new.internal", none), some (none, none)),
          (.route, "main", "r1", some (none, some "s0"), some (none, some "s1"))] ∧
      r.trail.run.finalReport.changes.deleted.map brief =
        [(.service, "old", "s0", some (some "old.internal", none), none)] ∧
      r.trail.run.finalReport.changes.Tell (ops.map fun op => (op, op.entity)) ∧
      (∀ x ∈ r.trail.run.finalReport.changes.updated,
        x.Shows Sample.twoServices r.plane.state) ∧
      Sample.twoServices.Becomes ops r.plane.state ∧
      r.trail.run.finalReport.errors = [] ∧ ops.Perm p.mutations := by
  have heval : (oneServiceRollout oneByOne).any (fun x =>
      x.1.mutations.length == 3 && x.2.trail.run.isOver &&
      x.2.trail.run.finalReport.changes.created.map brief == [] &&
      x.2.trail.run.finalReport.changes.updated.map brief ==
        [(.service, "new", "s1", some (some "new.internal", none), some (none, none)),
          (.route, "main", "r1", some (none, some "s0"), some (none, some "s1"))] &&
      x.2.trail.run.finalReport.changes.deleted.map brief ==
        [(.service, "old", "s0", some (some "old.internal", none), none)]) = true := by
    decide +kernel
  obtain ⟨⟨p, r⟩, hx, hfacts⟩ := (Option.any_eq_true _ _).1 heval
  simp only [Bool.and_eq_true, beq_iff_eq] at hfacts
  obtain ⟨⟨⟨⟨hlength, hover⟩, hcreated⟩, hupdated⟩, hdeleted⟩ := hfacts
  obtain ⟨⟨ids, hplan⟩, hreach⟩ := oneServiceRollout_eq_some hx
  obtain ⟨desired, hres, -⟩ := Content.yields_plan_iff.1 hplan
  obtain ⟨ops, -, -, hchanges, hshows, hbecomes, hclean⟩ :=
    changes_eq_effect Sample.oneService {} (.ofState Sample.twoServices) .numbered ids desired p
      hres hplan (Content.hidesNoKey_of_not_isActive rfl) {} rfl false oneByOne r hreach hover
  have hmoves : ∀ m ∈ oneByOne, m.isTrouble = false := by decide +kernel
  obtain ⟨herrors, hperm⟩ := hclean rfl rfl rfl hmoves
  exact ⟨p, r, ops, hx, hlength, hcreated, hupdated, hdeleted, hchanges,
    fun x hx => hshows x (.inr (.inl hx)), hbecomes, herrors, hperm⟩

end Rollout

end Gateway
