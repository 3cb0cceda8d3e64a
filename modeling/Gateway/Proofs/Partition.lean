import Gateway.Proofs.Rollout
import Gateway.Proofs.Successor
import Gateway.Sample

/-!
# The partition of a selection

A run with a selection works on its own part of the gateway. It leaves the rest alone: a call
changes nothing but the object it is about, whatever becomes of it (`ControlPlane.get?_call`), and
no operation of a plan is about a hidden object (`Content.key_ne_of_hidden`), so hidden objects are
held unchanged after every history (`Rollout.mem_of_hidden`).

What the run writes stays within its part, but for memberships: these are seen where their group is,
and the group may be one that is offered to all. What is written is visible afterwards exactly when
it is no membership, or a membership of a group that the plan itself wants
(`Content.mem_select_iff_group_wanted`).
-/

namespace Gateway

open Planning

/-! ### What calls change -/

/-- Whatever is left of the object of a call that failed, every other object is as it was. -/
theorem State.get?_afterRefusal {s : State} {a : Action} {e : Entity} {kind : Kind} {id : String}
    (hne : e.ref ≠ ⟨kind, id⟩) : (s.afterRefusal a e).get? kind id = s.get? kind id := by
  have get?_without : (s.without e).get? kind id = s.get? kind id := by
    unfold without
    split
    · rename_i id' hid
      rw [get?_erase, if_neg]
      rintro ⟨rfl, rfl⟩
      exact hne (by rw [Entity.ref, Entity.idText_of_id? hid])
    · rfl
  unfold afterRefusal
  split
  · split
    · exact get?_without
    · rfl
  · rfl

/-- A call changes nothing but the object it is about, whatever becomes of it. -/
theorem ControlPlane.get?_call {cp : ControlPlane} {a : Action} {e : Entity} {kind : Kind}
    {id : String} (hne : e.ref ≠ ⟨kind, id⟩) :
    (cp.call a e).2.state.get? kind id = cp.state.get? kind id := by
  unfold call
  split
  · rfl
  · rename_i hact
    split
    · rfl
    · split
      · rfl
      · split
        · rename_i s hs
          have hget :=
            @State.get?_apply cp.state s ⟨a, e, none, []⟩ (by simpa using hact) hs kind id
          refine hget.trans (if_neg ?_)
          rintro ⟨rfl, rfl⟩
          exact hne rfl
        · exact State.get?_afterRefusal hne

/-! ### Histories in which answers go astray -/

/-- What can happen in a run when the answers of the gateway, too, may be changed or lost on their
way. -/
inductive Incident
  /-- A move of the run, as it may happen at any time. -/
  | move (m : Move)
  /-- The gateway deals with the call at a position, and the run hears something else of it. -/
  | astray (i : Nat) (heard : Reply)

namespace Rollout

/-- What comes of an incident; none when it cannot happen. -/
def endure? (r : Rollout) (rules : RunRules) : Incident → Option Rollout
  | .move m => r.step? rules m
  | .astray i heard => do
    let f ← r.trail.run.flights[i]?
    r.perform? rules (.finish i heard) (r.plane.call f.op.action f.op.entity).2

/-- What comes of a history of incidents; none when it cannot happen. -/
def endureAll? (r : Rollout) (rules : RunRules) (incidents : List Incident) : Option Rollout :=
  incidents.foldlM (fun r i => r.endure? rules i) r

variable {rules : RunRules} {r r' : Rollout} {i : Incident} {incidents : List Incident} {p : Plan}
  {held : State}

/-- An incident is an event of the run, at which the gateway deals with no call or with one that is
under way. -/
theorem exists_event_of_endure? (h : r.endure? rules i = some r') :
    (∃ e, Trail.Step rules r.trail e r'.trail) ∧
      (r'.plane = r.plane ∨ ∃ op ∈ Trail.underWay r.trail.run.flights,
        r'.plane = (r.plane.call op.action op.entity).2) := by
  cases i with
  | move m =>
    have hstep := step_of_step? h
    refine ⟨hstep.exists_event, ?_⟩
    cases hstep with
    | silent _ _ _ => exact .inl rfl
    | @answered before after op t hflights _ _ => exact .inr ⟨op, by simp [hflights], rfl⟩
    | failed _ _ _ _ _ _ => exact .inl rfl
  | astray i heard =>
    obtain ⟨f, hf, h⟩ := Option.bind_eq_some_iff.1 h
    obtain ⟨hstep, hplane⟩ := perform?_eq_some h
    refine ⟨⟨_, hstep⟩, .inr ⟨f.op, ?_, hplane⟩⟩
    generalize r'.trail = t at hstep
    cases hstep with
    | @finish before after op _ hflights =>
      have hop : f = ⟨op, none⟩ := by
        rw [hflights] at hf
        simpa using hf.symm
      simp [hflights, hop]

/-- Whatever no mutation of the plan is about is held as it was before the run. -/
structure Confined (p : Plan) (held : State) (r : Rollout) : Prop where
  ledger : Trail.Ledger (Schedule.ofPlan p).waves r.trail
  kept : ∀ kind id, (∀ op ∈ p.mutations, op.key ≠ ⟨kind, id⟩) →
    r.plane.state.get? kind id = held.get? kind id

/-- Before the run the gateway holds what it held. -/
theorem confined_start (p : Plan) (plane : ControlPlane) (cancelled : Bool) :
    Confined p plane.state (start p plane cancelled) :=
  ⟨Trail.ledger_start _ _, fun _ _ _ => rfl⟩

/-- Whatever befalls a run, a call changes nothing but the object of its own operation. -/
theorem Confined.endure (hnodup : (p.mutations.map (·.key)).Nodup) (h : Confined p held r)
    (hi : r.endure? rules i = some r') : Confined p held r' := by
  obtain ⟨⟨e, hstep⟩, hplane⟩ := exists_event_of_endure? hi
  refine ⟨h.ledger.step hstep, ?_⟩
  intro kind id hno
  rcases hplane with hplane | ⟨op, hop, hplane⟩
  · rw [hplane]
    exact h.kept kind id hno
  · -- what is under way is a mutation of the plan, so the call is about another object
    have hmem : op ∈ p.mutations := by
      refine (Schedule.mem_waves hnodup).1 (h.ledger.accounted.subset ?_)
      exact List.mem_append_right _ (List.mem_append_left _ hop)
    rw [hplane, ControlPlane.get?_call (hno op hmem)]
    exact h.kept kind id hno

/-- A run confines itself to its plan, whatever befalls it on the way. -/
theorem confined_of_endureAll? (hnodup : (p.mutations.map (·.key)).Nodup)
    (h : Confined p held r) (hall : r.endureAll? rules incidents = some r') :
    Confined p held r' := by
  induction incidents generalizing r with
  | nil =>
    cases hall
    exact h
  | cons i rest ih =>
    unfold endureAll? at hall
    rw [List.foldlM_cons] at hall
    obtain ⟨r₁, h₁, hrest⟩ := Option.bind_eq_some_iff.1 hall
    exact ih (h.endure hnodup h₁) hrest

end Rollout

/-! ### What a run leaves alone -/

namespace Content

variable {c : Content} {o : Options} {current desired next : State} {s s' : IdSupply} {p : Plan}
  {op : PlannedOp} {x : Entity}

/-- No operation of a plan is about a hidden object. -/
theorem key_ne_of_hidden (hto : desired.planTo current o.selection = .ok p) (hx : x ∈ current)
    (hhidden : x ∉ current.select o.selection) (hop : op ∈ p.ops) : op.key ≠ x.ref := by
  intro hkey
  exact hhidden (mem_select_of_op hto hop hx hkey)

end Content

/-- For every plan of declarations, every run of it against the gateway it was made for and every
history of that run, whatever is refused, lost, changed on its way or cancelled: what the selection
hides is held unchanged. -/
theorem Rollout.mem_of_hidden (c : Content) (o : Options) (plane : ControlPlane)
    (ids ids' : IdSupply) (p : Plan) (hplan : Yields (c.plan plane.state o) ids p ids')
    (settings : RunSettings) (cancelled : Bool) (incidents : List Incident) (r : Rollout)
    (hreach : (start p plane cancelled).endureAll? ⟨settings, (Schedule.ofPlan p).needs⟩ incidents =
      some r)
    (x : Entity) (hx : x ∈ plane.state) (hhidden : x ∉ plane.state.select o.selection) :
    x ∈ r.plane.state := by
  obtain ⟨desired, -, hto⟩ := Content.yields_plan_iff.1 hplan
  have hnodup := State.nodup_mutations_of_planTo hto
  have hconfined := confined_of_endureAll? hnodup (confined_start p plane cancelled) hreach
  have hno : ∀ op ∈ p.mutations, op.key ≠ x.ref := fun op hop =>
    Content.key_ne_of_hidden hto hx hhidden (Plan.mem_mutations.1 hop).1
  have hget : plane.state.get? x.kind x.idText = some x := State.get?_of_mem hx
  rw [← hconfined.kept x.kind x.idText hno] at hget
  exact State.mem_of_get? hget

/-! ### A team and what is offered to all -/

/-- The plan of the team, if it can be made. -/
def teamPlan : Option Plan :=
  result? (Sample.teamDocument.plan Sample.sharedGateway Sample.teamOptions) .numbered

/-- Where a history of a run of the plan of the team leads. -/
def teamRollout (incidents : List Incident) : Option (Plan × Rollout) := do
  let p ← teamPlan
  let r ← (Rollout.start p (.ofState Sample.sharedGateway) false).endureAll?
    ⟨{}, (Schedule.ofPlan p).needs⟩ incidents
  return (p, r)

/-- The answer to the first creation is lost, and the creation of the membership is refused. -/
def teamTrouble : List Incident :=
  [.move .nextWave, .move .dispatch, .astray 0 .crashed, .move (.collect 0),
    .move .nextWave, .move .dispatch, .move (.answer 0), .move (.collect 0),
    .move .nextWave, .move .dispatch, .move (.refuse 0 (.unavailable "down")), .move (.collect 0),
    .move .nextWave, .move .dispatch, .move (.answer 0)]

/-- The service that is offered to all is as it was, while three calls have been dealt with. -/
theorem mem_of_hidden_teamTrouble : ∃ p r, teamRollout teamTrouble = some (p, r) ∧
    r.plane.calls.length = 3 ∧
      Sample.tagged (Sample.service "s1" "shared") ["platform"] ∈ r.plane.state := by
  have heval : (teamRollout teamTrouble).any (fun x => x.2.plane.calls.length == 3) = true := by
    decide +kernel
  obtain ⟨⟨p, r⟩, hx, hcalls⟩ := (Option.any_eq_true _ _).1 heval
  have hmem : Sample.tagged (Sample.service "s1" "shared") ["platform"] ∈ Sample.sharedGateway :=
    State.mem_of_get? (show Sample.sharedGateway.get? .service "s1" = some _ from rfl)
  have hhidden : Sample.sharedGateway.visible Sample.teamOptions.selection
      (Sample.tagged (Sample.service "s1" "shared") ["platform"]) = false := by decide +kernel
  refine ⟨p, r, hx, by simpa using hcalls, ?_⟩
  simp only [teamRollout, Option.bind_eq_bind, Option.bind_eq_some_iff] at hx
  obtain ⟨p', hp, r', hreach, heq⟩ := hx
  cases heq
  obtain ⟨ids, hplan⟩ := yields_of_result? hp
  refine Rollout.mem_of_hidden Sample.teamDocument Sample.teamOptions
    (.ofState Sample.sharedGateway) .numbered ids p hplan {} false teamTrouble r hreach _ hmem ?_
  intro hsel
  cases hhidden.symm.trans (State.mem_filter.1 hsel).2

/-! ### What a run writes -/

/-- A membership that an active selection shows names a group that it shows. -/
theorem State.exists_group_of_visible {s : State} {sel : Selection} {e : Entity}
    (hk : e.kind = .membership) (hactive : sel.isActive = true) (h : s.visible sel e = true) :
    ∃ g ∈ s, g.kind = .consumerGroup ∧ g.ref ∈ e.references ∧ sel.admits g = true := by
  obtain ⟨k, r⟩ := e
  cases hk
  simp only [visible, hactive, Bool.not_true, Bool.false_or] at h
  cases hgroup : r.detail.consumerGroup.id.bind (s.get? .consumerGroup ·) with
  | none => simp [hgroup] at h
  | some g =>
    obtain ⟨id, hid, hget⟩ := Option.bind_eq_some_iff.1 hgroup
    have href := ref_of_get? hget
    refine ⟨g, mem_of_get? hget, congrArg Reference.kind href, ?_, by simpa [hgroup] using h⟩
    rw [href]
    exact List.mem_filterMap.2 ⟨(.consumerGroup, r.detail.consumerGroup), List.mem_cons_self,
      Option.map_eq_some_iff.2 ⟨id, hid, rfl⟩⟩

namespace Content

variable {c : Content} {o : Options} {current desired next : State} {s s' : IdSupply} {p : Plan}
  {op g : PlannedOp}

section

variable (hres : Yields (c.resolve current o) s desired s')
  (hto : desired.planTo current o.selection = .ok p) (hnext : current.Becomes p.mutations next)

include hres hto in
/-- What is created or updated is inside the selection, unless it is a membership. -/
theorem admits_of_written (hop : op ∈ p.ops) (hact : op.action ≠ .delete)
    (hne : op.kind ≠ .membership) : o.selection.admits op.entity = true := by
  obtain ⟨d, hd, hplanned⟩ := State.exists_planFor_of_mem_ops hto hop hact
  have hk : op.kind = d.kind := congrArg Reference.kind (State.key_of_planFor hplanned)
  have hadmits := admits_of_desired hres hd (hk ▸ hne)
  rcases State.entity_of_planFor hplanned with heq | heq <;> rw [heq]
  · exact hadmits
  · rwa [Entity.admits_withoutTimestamps]

include hres hto hnext in
/-- A group that the plan wants is held inside the selection. -/
theorem exists_admitted_group (hg : g ∈ p.ops) (hact : g.action ≠ .delete)
    (hk : g.kind = .consumerGroup) :
    ∃ y ∈ next, y.ref = g.key ∧ o.selection.admits y = true := by
  by_cases hkeep : g.action = .keep
  · -- it is held already, and visible
    obtain ⟨d, hd, hplanned⟩ := State.exists_planFor_of_mem_ops hto hg hact
    rcases State.planFor_eq_ok_iff.1 hplanned with ⟨y, hget, -⟩ | ⟨-, -, rfl⟩
    · have href : y.ref = g.key :=
        (State.ref_of_get? hget).trans (State.key_of_planFor hplanned).symm
      obtain ⟨hy, hvisible⟩ := State.mem_filter.1 (State.mem_of_get? hget)
      have hyk : y.kind = .consumerGroup := (congrArg Reference.kind href).trans hk
      rw [State.visible_of_ne (by simp [hyk])] at hvisible
      refine ⟨y, hnext.mem_of_mem hy ?_, href, hvisible⟩
      intro op hop hkey
      obtain ⟨hop, hmut⟩ := Plan.mem_mutations.1 hop
      have hsame := List.inj_on_of_nodup_map (State.nodup_ops_of_planTo hto) hop hg
        (hkey.trans href)
      exact hmut (hsame ▸ hkeep)
    · cases hkeep
  · have hmem := Plan.mem_mutations.2 ⟨hg, hkeep⟩
    exact ⟨g.entity, hnext.mem_of_op hmem hact, rfl,
      admits_of_written hres hto hg hact (by simp [hk])⟩

include hto hnext in
/-- A group that is held inside the selection is one that the plan wants. -/
theorem exists_wanted_group {y : Entity} (hy : y ∈ next) (hk : y.kind = .consumerGroup)
    (hadmits : o.selection.admits y = true) :
    ∃ g ∈ p.ops, g.action ≠ .delete ∧ g.key = y.ref := by
  rcases hnext.mem hy with ⟨hy, hnew⟩ | ⟨g, hg, hact, rfl⟩
  · have hvisible : y ∈ current.select o.selection :=
      State.mem_filter.2 ⟨hy, by rwa [State.visible_of_ne (by simp [hk])]⟩
    rcases State.planned_of_mem hto hvisible with ⟨d, -, hdref, hop⟩ | ⟨-, hop⟩
    · refine ⟨_, hop, ?_, (State.key_ofMatch d y).trans hdref⟩
      intro hact
      rw [(State.ofMatch_of_ne_keep (by simp [hact])).1] at hact
      cases hact
    · exact absurd rfl (hnew _ (Plan.mem_mutations.2 ⟨hop, by simp⟩))
  · exact ⟨g, (Plan.mem_mutations.1 hg).1, hact, rfl⟩

end

/-- For every plan of declarations under an active selection, applied in whatever order: what the
plan creates or updates is visible afterwards exactly when it is no membership, or a membership of
a group that the plan itself wants. -/
theorem mem_select_iff_group_wanted (c : Content) (o : Options)
    (hactive : o.selection.isActive = true) (current : State) (ids ids' : IdSupply) (p : Plan)
    (hplan : Yields (c.plan current o) ids p ids') (ops : List PlannedOp) (hperm : ops.Perm p.ops)
    (next : State) (hall : current.applyAll ops = .ok next) (op : PlannedOp) (hop : op ∈ p.ops)
    (hact : op.action = .create ∨ op.action = .update) :
    op.entity ∈ next.select o.selection ↔
      (op.kind = .membership → ∃ g ∈ p.ops, g.action ≠ .delete ∧ g.kind = .consumerGroup ∧
        g.key ∈ op.entity.references) := by
  obtain ⟨desired, hres, hto⟩ := yields_plan_iff.1 hplan
  have hnext : current.Becomes p.mutations next := by
    refine (State.becomes_of_applyAll ?_ hall).congr fun x => (hperm.filter _).mem_iff
    exact (hperm.map _).nodup_iff.2 (State.nodup_ops_of_planTo hto)
  have hwrite : op.action ≠ .delete := by
    rcases hact with hact | hact <;> simp [hact]
  have hstored : op.entity ∈ next := by
    refine hnext.mem_of_op (Plan.mem_mutations.2 ⟨hop, ?_⟩) hwrite
    rcases hact with hact | hact <;> simp [hact]
  constructor
  · intro hseen hk
    obtain ⟨y, hy, hyk, href, hadmits⟩ :=
      State.exists_group_of_visible hk hactive (State.mem_filter.1 hseen).2
    obtain ⟨g, hg, hgact, hgkey⟩ := exists_wanted_group hto hnext hy hyk hadmits
    exact ⟨g, hg, hgact, (congrArg Reference.kind hgkey).trans hyk, hgkey ▸ href⟩
  · intro hgroup
    refine State.mem_filter.2 ⟨hstored, ?_⟩
    by_cases hk : op.kind = .membership
    · obtain ⟨g, hg, hgact, hgk, href⟩ := hgroup hk
      obtain ⟨y, hy, hyref, hadmits⟩ := exists_admitted_group hres hto hnext hg hgact hgk
      have hyk : y.kind = .consumerGroup := (congrArg Reference.kind hyref).trans hgk
      rw [State.visible_of_group hk hy hyk (hyref ▸ href), hadmits, Bool.or_true]
    · rw [State.visible_of_ne hk]
      exact admits_of_written hres hto hop hwrite hk

end Content

/-! ### What the team writes -/

/-- The plan of the team and the state that it leaves behind. -/
def teamOutcome : Option (Plan × State) := do
  let p ← teamPlan
  let next ← (Sample.sharedGateway.applyAll p.ops).toOption
  return (p, next)

theorem teamOutcome_eq_some {x : Plan × State} (h : teamOutcome = some x) :
    (∃ ids, Yields (Sample.teamDocument.plan Sample.sharedGateway Sample.teamOptions) .numbered
      x.1 ids) ∧ Sample.sharedGateway.applyAll x.1.ops = .ok x.2 := by
  simp only [teamOutcome, Option.bind_eq_bind, Option.bind_eq_some_iff] at h
  obtain ⟨p, hp, next, hnext, heq⟩ := h
  cases heq
  exact ⟨yields_of_result? hp, Except.toOption_eq_some_iff.1 hnext⟩

/-- What the team writes besides its membership is visible afterwards. -/
theorem mem_select_of_teamOutcome : ∃ p next op, teamOutcome = some (p, next) ∧ op ∈ p.ops ∧
    op.key = ⟨.route, "r1"⟩ ∧ op.entity ∈ next.select Sample.teamOptions.selection := by
  have heval : teamOutcome.any (fun x => x.1.ops.any fun op =>
      op.key == ⟨.route, "r1"⟩ && op.action == .create) = true := by decide +kernel
  obtain ⟨⟨p, next⟩, hx, hfacts⟩ := (Option.any_eq_true _ _).1 heval
  obtain ⟨op, hop, hfacts⟩ := List.any_eq_true.1 hfacts
  obtain ⟨hkey, hact⟩ := Bool.and_eq_true_iff.1 hfacts
  have hkey : op.key = ⟨.route, "r1"⟩ := by simpa using hkey
  obtain ⟨⟨ids, hplan⟩, hall⟩ := teamOutcome_eq_some hx
  refine ⟨p, next, op, hx, hop, hkey, ?_⟩
  refine (Content.mem_select_iff_group_wanted Sample.teamDocument Sample.teamOptions
    (by decide +kernel) Sample.sharedGateway .numbered ids p hplan p.ops (.refl _) next hall op hop
    (.inl (by simpa using hact))).2 ?_
  intro hk
  cases (congrArg Reference.kind hkey).symm.trans hk

/-- The membership is created in the group that is offered to all, and not visible afterwards: it
is not so that whatever a plan creates or updates is visible. -/
theorem not_always_mem_select : ¬∀ (c : Content) (o : Options), o.selection.isActive = true →
    ∀ (current : State) (ids ids' : IdSupply) (p : Plan), Yields (c.plan current o) ids p ids' →
      ∀ next, current.applyAll p.ops = .ok next → ∀ op ∈ p.ops,
        op.action = .create ∨ op.action = .update → op.entity ∈ next.select o.selection := by
  intro h
  have heval : teamOutcome.any (fun x => x.1.ops.any fun op =>
      op.action == .create && !x.2.visible Sample.teamOptions.selection op.entity) = true := by
    decide +kernel
  obtain ⟨⟨p, next⟩, hx, hfacts⟩ := (Option.any_eq_true _ _).1 heval
  obtain ⟨op, hop, hfacts⟩ := List.any_eq_true.1 hfacts
  obtain ⟨hact, hno⟩ := Bool.and_eq_true_iff.1 hfacts
  obtain ⟨⟨ids, hplan⟩, hall⟩ := teamOutcome_eq_some hx
  have hseen := h Sample.teamDocument Sample.teamOptions (by decide +kernel) Sample.sharedGateway
    .numbered ids p hplan next hall op hop (.inl (by simpa using hact))
  simp [(State.mem_filter.1 hseen).2] at hno

end Gateway
