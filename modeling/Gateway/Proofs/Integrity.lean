import Gateway.Proofs.Convergence
import Gateway.Proofs.Prerequisite
import Gateway.Proofs.Successor

/-!
# References during a run

A state is closed when whatever its objects refer to is there (`State.Closed`). A gateway that is
closed when a plan of declarations is made stays closed, call by call, as far as creations, updates
and deletions wait for each other (`Rollout.Guarded`). What they do not wait for is an update that
leads an object away from something that is deleted: when it has not taken effect and the deletion
has, the object is stranded. The gateway is closed at a point of a run exactly when no object is
stranded there (`Rollout.closed_iff_not_stranded`), and it can come to that
(`Rollout.not_always_closed`).
-/

namespace Gateway

open Planning

/-- Whatever an object of the state refers to is there. -/
def State.Closed (s : State) : Prop :=
  ∀ e ∈ s, ∀ ref ∈ e.references, s.contains ref.kind ref.id = true

instance (s : State) : Decidable s.Closed :=
  inferInstanceAs (Decidable (∀ e ∈ s.entities, ∀ ref ∈ e.references,
    s.contains ref.kind ref.id = true))

/-- An object still refers to something that has been deleted, because the update that leads it away
has not taken effect. -/
def Trail.Stranded (t : Trail) (p : Plan) : Prop :=
  ∃ u ∈ p.mutations, u.action = .update ∧ ¬t.Succeeded u.key ∧
    ∃ held ∈ u.previous, ∃ o ∈ p.mutations, o.action = .delete ∧ o.key ∈ held.references ∧
      t.Succeeded o.key

/-! ### Calls without losses -/

namespace Trail

variable {p : Plan} {rules : RunRules} {t t' : Trail} {e : Event}

/-- Whatever an operation needs that is under way or through has succeeded. -/
structure Prepared (p : Plan) (t : Trail) : Prop where
  flights : ∀ f ∈ t.run.flights, ∀ n ∈ p.needs f.op.key, t.Succeeded n
  ended : ∀ x ∈ t.ended, ∀ n ∈ p.needs x.1.key, t.Succeeded n

/-- No call has been lost. -/
def Lossless (t : Trail) : Prop := ∀ x ∈ t.ended, x.2 ≠ .crashed

/-- As long as no call is lost, what is sent finds all that it needs in place. -/
theorem Prepared.step (hnodup : (p.mutations.map (·.key)).Nodup)
    (hbarrier : Barrier (Schedule.ofPlan p).waves t) (hneeds : rules.needs = p.needs)
    (hlossless : t.Lossless) (h : Prepared p t) (hstep : Step rules t e t') : Prepared p t' := by
  have hsucceeded : ∀ {key}, t.Succeeded key → t'.Succeeded key := hstep.succeeded
  have hflights : ∀ f ∈ t.run.flights, ∀ n ∈ p.needs f.op.key, t'.Succeeded n :=
    fun f hf n hn => hsucceeded (h.flights f hf n hn)
  have hended : ∀ x ∈ t.ended, ∀ n ∈ p.needs x.1.key, t'.Succeeded n :=
    fun x hx n hn => hsucceeded (h.ended x hx n hn)
  have not_lost : ∀ key, ¬t.Lost key := by
    rintro key ⟨o, ho, -⟩
    exact hlossless _ ho rfl
  have hsent := hstep
  cases hstep with
  | @send op queue _ _ _ _ _ =>
    refine ⟨fun f hf n hn => ?_, hended⟩
    rcases List.mem_append.1 hf with hf | hf
    · exact hflights f hf n hn
    · rw [List.mem_singleton.1 hf] at hn
      exact hsucceeded
        ((hbarrier.succeeded_or_lost hnodup hneeds hsent rfl hn).resolve_right (not_lost n))
  | @finish before after op reply hf =>
    have hop : ⟨op, none⟩ ∈ t.run.flights := by simp [hf]
    refine ⟨fun f hmem n hn => ?_, fun x hx n hn => ?_⟩
    · rcases List.mem_append.1 hmem with hmem | hmem
      · exact hflights f (by simp [hf, hmem]) n hn
      · rcases List.mem_cons.1 hmem with rfl | hmem
        · exact hflights _ hop n hn
        · exact hflights f (by simp [hf, hmem]) n hn
    · rcases List.mem_append.1 hx with hx | hx
      · exact hended x hx n hn
      · rw [List.mem_singleton.1 hx] at hn
        exact hflights _ hop n hn
  | @collect before after op reply hf =>
    refine ⟨fun f hmem n hn => ?_, hended⟩
    rw [Run.flights_take] at hmem
    refine hflights f ?_ n hn
    rcases List.mem_append.1 hmem with hmem | hmem <;> simp [hf, hmem]
  | next _ hf _ =>
    refine ⟨fun f hmem n hn => ?_, hended⟩
    rw [Run.flights_beginWave, hf] at hmem
    cases hmem
  | skip _ _ _ _ => exact ⟨hflights, hended⟩
  | pretend _ _ _ _ _ => exact ⟨hflights, hended⟩
  | cancel => exact ⟨hflights, hended⟩

end Trail

namespace Rollout

variable {p : Plan} {held : State} {rules : RunRules} {r r' : Rollout} {m : Move}
  {moves : List Move} {plane : ControlPlane} {cancelled : Bool}

/-- The gateway tracks the run, no call has been lost, and what was sent found all that it needs in
place. -/
structure Guarded (p : Plan) (held : State) (r : Rollout) : Prop where
  tracks : Tracks p held r
  barrier : Trail.Barrier (Schedule.ofPlan p).waves r.trail
  prepared : Trail.Prepared p r.trail
  lossless : r.trail.Lossless
  crashes : r.plane.crashes = []

/-- A move without a loss leaves what is sent after what it needs, and the gateway on the plan. -/
theorem Guarded.step (hfit : p.Fits held) (hneeds : rules.needs = p.needs)
    (hreal : rules.settings.dryRun = false) (h : Guarded p held r) (hm : m.isLoss = false)
    (hstep : Step rules r m r') : Guarded p held r' := by
  obtain ⟨e, hevent⟩ := hstep.exists_event
  have htracks := h.tracks.step hfit hstep
  have hbarrier := h.barrier.step hreal h.tracks.ledger hevent
  have hprepared := h.prepared.step hfit.nodup h.barrier hneeds h.lossless hevent
  have lossless_of_ended : ∀ {t : Trail} {x : PlannedOp × Reply},
      t.ended = r.trail.ended ++ [x] → x.2 ≠ .crashed → t.Lossless := by
    intro t x hended hx y hy
    rw [hended] at hy
    rcases List.mem_append.1 hy with hy | hy
    · exact h.lossless y hy
    · rwa [List.mem_singleton.1 hy]
  cases hstep with
  | silent _ hended _ =>
    refine ⟨htracks, hbarrier, hprepared, ?_, h.crashes⟩
    unfold Trail.Lossless
    rw [hended]
    exact h.lossless
  | answered _ _ hended =>
    exact ⟨htracks, hbarrier, hprepared,
      lossless_of_ended hended (ControlPlane.call_ne_crashed h.crashes), by simpa using h.crashes⟩
  | failed _ hended _ _ hloss _ =>
    refine ⟨htracks, hbarrier, hprepared, lossless_of_ended hended fun hcrash => ?_, h.crashes⟩
    rw [hloss hcrash] at hm
    cases hm

/-- A history without losses is guarded throughout. -/
theorem guarded_of_replay? (hfit : p.Fits plane.state) (hneeds : rules.needs = p.needs)
    (hreal : rules.settings.dryRun = false) (hcrashes : plane.crashes = [])
    (hmoves : ∀ m ∈ moves, m.isLoss = false)
    (h : (start p plane cancelled).replay? rules moves = some r) : Guarded p plane.state r := by
  refine replay?_induction (fun _ m _ hm hr hstep => hr.step hfit hneeds hreal (hmoves m hm) hstep)
    ?_ h
  exact ⟨tracks_start p plane cancelled, Trail.barrier_start _ _,
    ⟨by simp [start, Trail.start, Run.start], by simp [start, Trail.start]⟩,
    by simp [start, Trail.start, Trail.Lossless], hcrashes⟩

end Rollout

/-! ### Objects of a plan -/

namespace Rollout

variable {p : Plan} {r : Rollout} {current desired : State} {sel : Selection} {d x : Entity}
  {ref : Reference}

/-- What has been deleted is not there. -/
theorem Guarded.not_contains_of_delete (h : Guarded p current r) (hfit : p.Fits current)
    {op : PlannedOp} (hop : op ∈ p.mutations) (hact : op.action = .delete)
    (hdone : r.trail.Succeeded op.key) : r.plane.state.contains op.kind op.id = false := by
  obtain ⟨o, ho, hkey⟩ := Trail.succeeded_iff.1 hdone
  have heq := Plan.eq_of_key hfit.nodup (h.tracks.performed_subset hfit ho) hop hkey
  rw [heq] at ho
  rw [State.contains, h.tracks.becomes.not_contains ho hact]
  rfl

/-- A wanted entity is there, unless it is to be created and has not been. -/
theorem Guarded.contains_of_desired (h : Guarded p current r) (hfit : p.Fits current)
    (hto : desired.planTo current sel = .ok p) (hd : d ∈ desired)
    (hcreated : ∀ op ∈ p.mutations, op.key = d.ref → op.action = .create →
      r.trail.Succeeded op.key) : r.plane.state.contains d.kind d.idText = true := by
  by_cases hdone : ∃ o ∈ r.trail.performed, o.key = d.ref
  · obtain ⟨o, ho, hkey⟩ := hdone
    have hmem := h.tracks.performed_subset hfit ho
    have hact : o.action ≠ .delete := by
      intro hact
      have hno := State.not_contains_of_delete hto (Plan.mem_mutations.1 hmem).1 hact
      cases hno.symm.trans (State.contains_of_ref hd hkey.symm)
    exact State.contains_of_ref (h.tracks.becomes.mem_of_op ho hact) hkey
  · simp only [not_exists, not_and] at hdone
    obtain ⟨op, hop, hplan⟩ := State.exists_planFor_of_planTo hto hd
    rcases State.planFor_eq_ok_iff.1 hplan with ⟨x, hget, -⟩ | ⟨-, -, rfl⟩
    · have hx := State.get?_of_get?_select hget
      have hxref : x.ref = d.ref := State.ref_of_get? hx
      refine State.contains_of_ref (h.tracks.becomes.mem_of_mem (State.mem_of_get? hx)
        fun o ho => ?_) hxref
      rw [hxref]
      exact hdone o ho
    · have hmem : ⟨.create, d, none, []⟩ ∈ p.mutations := Plan.mem_mutations.2 ⟨hop, by simp⟩
      obtain ⟨o, ho, hkey⟩ := Trail.succeeded_iff.1 (hcreated _ hmem rfl rfl)
      exact absurd hkey (hdone o ho)

/-- When what an object refers to that has not been touched has been deleted, the object is
stranded. -/
theorem Guarded.stranded_of_delete (h : Guarded p current r) (hfit : p.Fits current)
    (hto : desired.planTo current sel = .ok p)
    (hkeep : ∀ d ∈ desired, ∀ y ∈ current, y.ref = d.ref →
      (PlannedOp.ofMatch d y).action = .keep → ∀ ref ∈ y.references, ∃ z ∈ desired, z.ref = ref)
    (hx : x ∈ current.select sel) (hnew : ∀ op ∈ r.trail.performed, op.key ≠ x.ref)
    {o : PlannedOp} (ho : o ∈ r.trail.performed) (hact : o.action = .delete)
    (href : o.key ∈ x.references) : r.trail.Stranded p := by
  have homem := h.tracks.performed_subset hfit ho
  rcases State.planned_of_mem hto hx with ⟨d, hd, hdref, hop⟩ | ⟨-, hop⟩
  · have hopkey : (PlannedOp.ofMatch d x).key = x.ref := (State.key_ofMatch d x).trans hdref
    by_cases hkept : (PlannedOp.ofMatch d x).action = .keep
    · -- as it should be, it refers to what is wanted, and that is not deleted
      obtain ⟨z, hz, hzref⟩ := hkeep d hd x (State.mem_of_mem_select hx) hdref.symm hkept _ href
      have hno := State.not_contains_of_delete hto (Plan.mem_mutations.1 homem).1 hact
      cases hno.symm.trans (State.contains_of_ref hz hzref)
    · have hu := Plan.mem_mutations.2 ⟨hop, hkept⟩
      obtain ⟨hupdate, -, hprevious⟩ := State.ofMatch_of_ne_keep hkept
      refine ⟨_, hu, hupdate, fun hsucc => ?_, x, hprevious, o, homem, hact, href,
        Trail.succeeded_iff.2 ⟨o, ho, rfl⟩⟩
      obtain ⟨u, huperf, hukey⟩ := Trail.succeeded_iff.1 hsucc
      exact hnew u huperf (hukey.trans hopkey)
  · -- to be deleted itself, it goes first
    have hxop : ⟨.delete, x, none, []⟩ ∈ p.mutations := Plan.mem_mutations.2 ⟨hop, by simp⟩
    have hneed : x.ref ∈ p.needs o.key :=
      (Plan.mem_needs hfit.nodup homem).2 ⟨_, hxop, rfl, .inr ⟨hact, rfl, href⟩⟩
    obtain ⟨stored, hended⟩ := Trail.mem_performed.1 ho
    obtain ⟨u, huperf, hukey⟩ := Trail.succeeded_iff.1 (h.prepared.ended _ hended _ hneed)
    exact absurd hukey (hnew u huperf)

/-- What an object refers to that has not been touched is there, unless the object is stranded. -/
theorem Guarded.contains_of_untouched (h : Guarded p current r) (hfit : p.Fits current)
    (hto : desired.planTo current sel = .ok p) (hclosed : current.Closed)
    (hkeep : ∀ d ∈ desired, ∀ y ∈ current, y.ref = d.ref →
      (PlannedOp.ofMatch d y).action = .keep → ∀ ref ∈ y.references, ∃ z ∈ desired, z.ref = ref)
    (hstranded : ¬r.trail.Stranded p) (hx : x ∈ current.select sel)
    (hnew : ∀ op ∈ r.trail.performed, op.key ≠ x.ref) (href : ref ∈ x.references) :
    r.plane.state.contains ref.kind ref.id = true := by
  obtain ⟨y, hy, rfl⟩ :=
    State.contains_ref_iff.1 (hclosed x (State.mem_of_mem_select hx) ref href)
  by_cases hdone : ∃ o ∈ r.trail.performed, o.key = y.ref
  · -- something has been done to what is referred to; it can only have been written
    obtain ⟨o, ho, hkey⟩ := hdone
    have hact : o.action ≠ .delete := fun hact =>
      hstranded (h.stranded_of_delete hfit hto hkeep hx hnew ho hact (hkey ▸ href))
    exact State.contains_of_ref (h.tracks.becomes.mem_of_op ho hact) hkey
  · simp only [not_exists, not_and] at hdone
    exact State.contains_of_mem (h.tracks.becomes.mem_of_mem hy hdone)

/-- In every history without losses of a run of a plan of declarations, against a gateway that holds
whatever its objects refer to: the gateway is closed at the end of the history exactly when no
object is stranded, whatever calls are refused and in whatever order they end. -/
theorem closed_iff_not_stranded (c : Content) (o : Options)
    (hall : o.selection.isActive = false) (hlookup : o.lookupTags.isEmpty = true)
    (plane : ControlPlane) (hwf : plane.state.WellFormed) (hclosed : plane.state.Closed)
    (hcrashes : plane.crashes = []) (ids ids' : IdSupply) (p : Plan)
    (hplan : Yields (c.plan plane.state o) ids p ids') (settings : RunSettings)
    (hreal : settings.dryRun = false) (cancelled : Bool) (moves : List Move)
    (hmoves : ∀ m ∈ moves, m.isLoss = false) (r : Rollout)
    (hreach : (start p plane cancelled).replay? ⟨settings, (Schedule.ofPlan p).needs⟩ moves =
      some r) :
    r.plane.state.Closed ↔ ¬r.trail.Stranded p := by
  obtain ⟨desired, hres, hto⟩ := Content.yields_plan_iff.1 hplan
  have hfit := Content.fits_of_plan hres hto (Content.hidesNoKey_of_not_isActive hall)
  have h := guarded_of_replay? hfit rfl hreal hcrashes hmoves hreach
  constructor
  · rintro hend ⟨u, hu, hact, hnot, x, hprev, w, hw, hwact, href, hdone⟩
    obtain ⟨d, -, y, hy, hyref, rfl, hprev'⟩ :=
      State.exists_held_of_update hto (Plan.mem_mutations.1 hu).1 hact
    cases hprev.symm.trans hprev'
    have hstays : x ∈ r.plane.state := by
      refine h.tracks.becomes.mem_of_mem (State.mem_of_mem_select hy) fun op hop hkey => hnot ?_
      exact Trail.succeeded_iff.2 ⟨op, hop, by rw [State.key_ofMatch, hkey, hyref]⟩
    have hthere := hend x hstays _ href
    have hgone := h.not_contains_of_delete hfit hw hwact hdone
    cases hthere.symm.trans hgone
  · intro hstranded x hx ref href
    rcases h.tracks.becomes.mem hx with ⟨hx, hnew⟩ | ⟨op, hop, hact, rfl⟩
    · refine h.contains_of_untouched hfit hto hclosed ?_ hstranded
        (State.mem_select_of_not_isActive hall hx) hnew href
      intro d hd y hy hyref hkept ref href
      rw [(Content.keeps_of_keep hres hd (hwf y hy) hyref hkept).references] at href
      exact Content.contains_of_mem_references hlookup hres hd href
    · have hmem := h.tracks.performed_subset hfit hop
      obtain ⟨d, hd, hplanned⟩ :=
        State.exists_planFor_of_mem_ops hto (Plan.mem_mutations.1 hmem).1 hact
      have hrefs : op.entity.references = d.references := by
        rcases State.entity_of_planFor hplanned with heq | heq <;> rw [heq]
        simp
      obtain ⟨z, hz, rfl⟩ := Content.contains_of_mem_references hlookup hres hd (hrefs ▸ href)
      refine h.contains_of_desired hfit hto hz fun n hn hkey hcreate => ?_
      have hneed : n.key ∈ p.needs op.key := (Plan.mem_needs hfit.nodup hmem).2
        ⟨n, hn, rfl, .inl ⟨hact, by simp [hcreate], hkey ▸ href⟩⟩
      obtain ⟨stored, hended⟩ := Trail.mem_performed.1 hop
      exact h.prepared.ended _ hended _ hneed

/-! ### A route whose update is refused -/

/-- When all goes well, the gateway is closed in the end. -/
theorem closed_of_oneByOne : ∃ p r, oneServiceRollout oneByOne = some (p, r) ∧
    r.trail.performed.length = 3 ∧ r.plane.state.Closed := by
  have heval : (oneServiceRollout oneByOne).any (fun x => x.2.trail.performed.length == 3 &&
      x.1.mutations.all fun op => x.2.trail.performed.any (·.key == op.key)) = true := by
    decide +kernel
  obtain ⟨⟨p, r⟩, hx, hfacts⟩ := (Option.any_eq_true _ _).1 heval
  obtain ⟨hlength, hdone⟩ := Bool.and_eq_true_iff.1 hfacts
  obtain ⟨⟨ids, hplan⟩, hreach⟩ := oneServiceRollout_eq_some hx
  have hwf : Sample.twoServices.WellFormed := by decide +kernel
  have hclosed : Sample.twoServices.Closed := by decide +kernel
  refine ⟨p, r, hx, by simpa using hlength, (closed_iff_not_stranded Sample.oneService {} rfl rfl
    (.ofState Sample.twoServices) hwf hclosed rfl .numbered ids p hplan {} rfl
    false oneByOne (by decide +kernel) r hreach).2 ?_⟩
  rintro ⟨u, hu, -, hnot, -⟩
  obtain ⟨o, ho, hkey⟩ := List.any_eq_true.1 (List.all_eq_true.1 hdone u hu)
  exact hnot (Trail.succeeded_iff.2 ⟨o, ho, by simpa using hkey⟩)

/-- The history in which the update of the route is refused and the older service is deleted. -/
def updateRefused : List Move :=
  [.nextWave, .dispatch, .answer 0, .collect 0, .nextWave, .dispatch,
    .refuse 0 (.unavailable "down"), .collect 0, .nextWave, .dispatch, .answer 0]

/-- The update of the route is refused, and the service that it still refers to is deleted all the
same: it is not so that references are intact at every point of every run without losses. -/
theorem not_always_closed : ¬∀ (c : Content) (o : Options),
    o.selection.isActive = false → o.lookupTags.isEmpty = true → ∀ (plane : ControlPlane),
      plane.state.WellFormed → plane.state.Closed → plane.crashes = [] →
      ∀ (ids ids' : IdSupply) (p : Plan), Yields (c.plan plane.state o) ids p ids' →
      ∀ (settings : RunSettings), settings.dryRun = false → ∀ (cancelled : Bool)
        (moves : List Move), (∀ m ∈ moves, m.isLoss = false) → ∀ (r : Rollout),
        (start p plane cancelled).replay? ⟨settings, (Schedule.ofPlan p).needs⟩ moves = some r →
        r.plane.state.Closed := by
  intro h
  have heval : (oneServiceRollout updateRefused).any
      (fun x => !decide x.2.plane.state.Closed) = true := by decide +kernel
  obtain ⟨⟨p, r⟩, hx, hfacts⟩ := (Option.any_eq_true _ _).1 heval
  obtain ⟨⟨ids, hplan⟩, hreach⟩ := oneServiceRollout_eq_some hx
  have hwf : Sample.twoServices.WellFormed := by decide +kernel
  have hclosed : Sample.twoServices.Closed := by decide +kernel
  have hend := h Sample.oneService {} rfl rfl (.ofState Sample.twoServices) hwf
    hclosed rfl .numbered ids p hplan {} rfl false updateRefused (by decide +kernel) r hreach
  simp [hend] at hfacts

end Rollout

end Gateway
