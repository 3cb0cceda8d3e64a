import Gateway.Proofs.Comparison
import Gateway.Proofs.Outcome
import Gateway.Proofs.Schedule

/-!
# Runs against a gateway in memory

A `Rollout` is a run together with the gateway that it changes. Its moves are those of the run;
a call in flight is dealt with by the gateway, or refused or lost on the way to it. When the plan
fits the state that the gateway held, then after every history the gateway holds that state with
exactly the operations applied that succeeded (`Rollout.Tracks`), and when the run is over, these
are the operations that its report records (`Rollout.changes_eq_effect`).
-/

namespace Gateway

/-! ### Calls -/

namespace ControlPlane

variable {cp : ControlPlane} {a : Action} {e : Entity} {t : State}

/-- A call does not change which operations are refused. -/
@[simp] theorem refusals_call : (cp.call a e).2.refusals = cp.refusals := by
  unfold call
  split
  · rfl
  · split
    · rfl
    · split
      · rfl
      · split <;> rfl

/-- Nor does it change which answers get lost. -/
@[simp] theorem crashes_call : (cp.call a e).2.crashes = cp.crashes := by
  unfold call
  split
  · rfl
  · split
    · rfl
    · split
      · rfl
      · split <;> rfl

/-- A call that can be carried out is carried out, unless the gateway refuses or loses it. -/
theorem call_of_apply (hact : a ≠ .keep) (h : cp.state.apply a e = .ok t) :
    ((cp.call a e).1 = .done (answer a e) ∧ (cp.call a e).2.state = t) ∨
      ((∀ stored, (cp.call a e).1 ≠ .done stored) ∧ (cp.call a e).2.state = cp.state) := by
  unfold call
  rw [if_neg (by simpa using hact)]
  split
  · right
    exact ⟨by simp, rfl⟩
  · split
    · right
      exact ⟨by simp, rfl⟩
    · left
      rw [h]
      exact ⟨rfl, rfl⟩

/-- A gateway that neither refuses nor loses calls carries out what it can. -/
theorem call_of_no_fault (hact : a ≠ .keep) (h : cp.state.apply a e = .ok t)
    (hrefusals : cp.refusals = []) (hcrashes : cp.crashes = []) :
    (cp.call a e).1 = .done (answer a e) := by
  have hlose : cp.loses e = false := by simp [loses, hcrashes]
  have hrefuse : cp.refusal? e = none := by simp [refusal?, hrefusals]
  unfold call
  rw [if_neg (by simpa using hact), hlose, if_neg (by simp), hrefuse, h]

/-- A gateway that loses no call answers every call. -/
theorem call_ne_crashed (hcrashes : cp.crashes = []) : (cp.call a e).1 ≠ .crashed := by
  have hlose : cp.loses e = false := by simp [loses, hcrashes]
  unfold call
  rw [hlose]
  split
  · simp
  · rw [if_neg (by simp)]
    split
    · simp
    · split <;> simp

/-- The gateway answers with what it was sent. -/
theorem eq_of_mem_answer {x : Entity} (h : x ∈ answer a e) : x = e := by
  unfold answer at h
  cases a <;> simp_all

end ControlPlane

/-! ### Moves -/

/-- A run and the gateway that it changes. -/
structure Rollout where
  trail : Trail
  plane : ControlPlane

/-- What can happen when a run changes a gateway. -/
inductive Move
  | dispatch
  /-- The gateway deals with the call at a position. -/
  | answer (i : Nat)
  /-- The call at a position is refused on the way. -/
  | refuse (i : Nat) (cause : ClientError)
  /-- The call at a position is lost on the way. -/
  | lose (i : Nat)
  | collect (i : Nat)
  | nextWave
  | cancel

namespace Move

/-- Whether this is a failure from outside, or somebody cancels the run. -/
def isTrouble : Move → Bool
  | refuse .. | lose _ | cancel => true
  | _ => false

/-- Whether this is the loss of a call. -/
def isLoss : Move → Bool
  | lose _ => true
  | _ => false

end Move

namespace Rollout

/-- Nothing has happened yet. -/
def start (p : Plan) (plane : ControlPlane) (cancelled : Bool) : Rollout :=
  ⟨.start (.ofPlan p) cancelled, plane⟩

/-- The same run after an event, with a gateway. -/
def perform? (r : Rollout) (rules : RunRules) (e : Event) (plane : ControlPlane) :
    Option Rollout :=
  (r.trail.step? rules e).map fun t => ⟨t, plane⟩

/-- What comes of a move; none when it cannot happen. -/
def step? (r : Rollout) (rules : RunRules) : Move → Option Rollout
  | .dispatch => r.perform? rules .dispatch r.plane
  | .answer i => do
    let f ← r.trail.run.flights[i]?
    let (reply, plane) := r.plane.call f.op.action f.op.entity
    r.perform? rules (.finish i reply) plane
  | .refuse i cause => r.perform? rules (.finish i (.refused cause)) r.plane
  | .lose i => r.perform? rules (.finish i .crashed) r.plane
  | .collect i => r.perform? rules (.collect i) r.plane
  | .nextWave => r.perform? rules .nextWave r.plane
  | .cancel => r.perform? rules .cancel r.plane

/-- What comes of a history; none when it cannot happen. -/
def replay? (r : Rollout) (rules : RunRules) (moves : List Move) : Option Rollout :=
  moves.foldlM (fun r m => r.step? rules m) r

/-- What can happen to a rollout. -/
inductive Step (rules : RunRules) (r : Rollout) : Move → Rollout → Prop
  /-- No call ends. -/
  | silent {m : Move} {e : Event} {t : Trail} (hstep : Trail.Step rules r.trail e t)
      (hended : t.ended = r.trail.ended) (hcancel : e = .cancel → m = .cancel) :
      Step rules r m ⟨t, r.plane⟩
  /-- The gateway deals with a call. -/
  | answered {before after : List Flight} {op : PlannedOp} {t : Trail}
      (hflights : r.trail.run.flights = before ++ ⟨op, none⟩ :: after)
      (hstep : Trail.Step rules r.trail
        (.finish before.length (r.plane.call op.action op.entity).1) t)
      (hended : t.ended = r.trail.ended ++ [(op, (r.plane.call op.action op.entity).1)]) :
      Step rules r (.answer before.length) ⟨t, (r.plane.call op.action op.entity).2⟩
  /-- A call does not reach the gateway. -/
  | failed {m : Move} {e : Event} {op : PlannedOp} {reply : Reply} {t : Trail}
      (hstep : Trail.Step rules r.trail e t)
      (hended : t.ended = r.trail.ended ++ [(op, reply)])
      (hreply : ∀ stored, reply ≠ .done stored) (htrouble : m.isTrouble = true)
      (hloss : reply = .crashed → m.isLoss = true) (hcancel : e ≠ .cancel) :
      Step rules r m ⟨t, r.plane⟩

variable {rules : RunRules} {r r' : Rollout} {m : Move} {moves : List Move}

/-- What happens is a step of the trail, and the gateway is as the move leaves it. -/
theorem perform?_eq_some {e : Event} {plane : ControlPlane}
    (h : r.perform? rules e plane = some r') :
    Trail.Step rules r.trail e r'.trail ∧ r'.plane = plane := by
  obtain ⟨t, ht, rfl⟩ := Option.map_eq_some_iff.1 h
  exact ⟨Trail.step_of_step? ht, rfl⟩

/-- A move that ends no call leaves the gateway alone. -/
private theorem silent_of_perform? {e : Event} (h : r.perform? rules e r.plane = some r')
    (hended : ∀ t, Trail.Step rules r.trail e t → t.ended = r.trail.ended)
    (hcancel : e = .cancel → m = .cancel) : Step rules r m r' := by
  obtain ⟨hstep, hplane⟩ := perform?_eq_some h
  obtain ⟨t, plane⟩ := r'
  cases hplane
  exact .silent hstep (hended t hstep) hcancel

/-- A call that is refused or lost ends, and leaves the gateway alone. -/
private theorem failed_of_perform? {i : Nat} {reply : Reply}
    (h : r.perform? rules (.finish i reply) r.plane = some r')
    (hreply : ∀ stored, reply ≠ .done stored) (htrouble : m.isTrouble = true)
    (hloss : reply = .crashed → m.isLoss = true) : Step rules r m r' := by
  obtain ⟨hstep, hplane⟩ := perform?_eq_some h
  obtain ⟨t, plane⟩ := r'
  cases hplane
  cases hstep with
  | finish hflights =>
    exact .failed (Trail.Step.finish hflights) rfl hreply htrouble hloss (by simp)

/-- Nothing else can happen. -/
theorem step_of_step? (h : r.step? rules m = some r') : Step rules r m r' := by
  cases m with
  | dispatch =>
    refine silent_of_perform? h (fun t ht => ?_) (by simp)
    cases ht <;> rfl
  | answer i =>
    obtain ⟨f, hf, h⟩ := Option.bind_eq_some_iff.1 h
    obtain ⟨hstep, hplane⟩ := perform?_eq_some h
    obtain ⟨t, plane⟩ := r'
    cases hplane
    cases hstep with
    | @finish before after op _ hflights =>
      have hop : f = ⟨op, none⟩ := by
        rw [hflights] at hf
        simpa using hf.symm
      subst hop
      exact .answered hflights (.finish hflights) rfl
  | refuse i cause => exact failed_of_perform? h (by simp) rfl (by simp)
  | lose i => exact failed_of_perform? h (by simp) rfl (fun _ => rfl)
  | collect i =>
    refine silent_of_perform? h (fun t ht => ?_) (by simp)
    cases ht
    rfl
  | nextWave =>
    refine silent_of_perform? h (fun t ht => ?_) (by simp)
    cases ht
    rfl
  | cancel =>
    refine silent_of_perform? h (fun t ht => ?_) (fun _ => rfl)
    cases ht
    rfl

/-- Every move is an event of the run. -/
theorem Step.exists_event (h : Step rules r m r') : ∃ e, Trail.Step rules r.trail e r'.trail := by
  cases h with
  | silent hstep _ _ => exact ⟨_, hstep⟩
  | answered _ hstep _ => exact ⟨_, hstep⟩
  | failed hstep _ _ _ _ _ => exact ⟨_, hstep⟩

/-- Every move is an event of the run. -/
theorem exists_event_of_step? (h : r.step? rules m = some r') :
    ∃ e, r.trail.step? rules e = some r'.trail := by
  have of_perform? : ∀ {e plane}, r.perform? rules e plane = some r' →
      ∃ e, r.trail.step? rules e = some r'.trail := by
    intro e plane h
    obtain ⟨t, ht, rfl⟩ := Option.map_eq_some_iff.1 h
    exact ⟨e, ht⟩
  cases m with
  | answer i =>
    obtain ⟨f, -, h⟩ := Option.bind_eq_some_iff.1 h
    exact of_perform? h
  | dispatch | refuse | lose | collect | nextWave | cancel => exact of_perform? h

/-- The trail of a rollout is a trail of the run. -/
theorem exists_trail_replay? (h : r.replay? rules moves = some r') :
    ∃ events, r.trail.replay? rules events = some r'.trail := by
  induction moves generalizing r with
  | nil =>
    cases h
    exact ⟨[], rfl⟩
  | cons m rest ih =>
    unfold replay? at h
    rw [List.foldlM_cons] at h
    obtain ⟨r₁, h₁, hrest⟩ := Option.bind_eq_some_iff.1 h
    obtain ⟨e, he⟩ := exists_event_of_step? h₁
    obtain ⟨events, hevents⟩ := ih hrest
    refine ⟨e :: events, ?_⟩
    unfold Trail.replay?
    rw [List.foldlM_cons, he]
    exact hevents

/-- What every step preserves holds after every history. -/
theorem replay?_induction {P : Rollout → Prop}
    (hstep : ∀ r m r', m ∈ moves → P r → Step rules r m r' → P r') (h₀ : P r)
    (h : r.replay? rules moves = some r') : P r' := by
  induction moves generalizing r with
  | nil =>
    cases h
    exact h₀
  | cons m rest ih =>
    unfold replay? at h
    rw [List.foldlM_cons] at h
    obtain ⟨r₁, h₁, hrest⟩ := Option.bind_eq_some_iff.1 h
    refine ih (fun r m r' hm => hstep r m r' (List.mem_cons_of_mem _ hm)) ?_ hrest
    exact hstep r m r₁ List.mem_cons_self h₀ (step_of_step? h₁)

/-! ### What the gateway holds -/

/-- The gateway holds the state that it held first with the operations applied that succeeded. -/
structure Tracks (p : Plan) (held : State) (r : Rollout) : Prop where
  ledger : Trail.Ledger (Schedule.ofPlan p).waves r.trail
  becomes : held.Becomes r.trail.performed r.plane.state
  faithful : r.trail.Faithful

variable {p : Plan} {held : State}

/-- At the start nothing has been done. -/
theorem tracks_start (p : Plan) (plane : ControlPlane) (cancelled : Bool) :
    Tracks p plane.state (start p plane cancelled) where
  ledger := ⟨List.Subperm.refl _, by simp [start, Trail.start, Run.start]⟩
  becomes := .refl _
  faithful := by simp [start, Trail.start, Trail.Faithful]

/-- Successes are mutations of the plan. -/
theorem Tracks.performed_subset (h : Tracks p held r) (hfit : p.Fits held) :
    r.trail.performed ⊆ p.mutations := fun _ hop =>
  (Schedule.mem_waves hfit.nodup).1 (h.ledger.performed_subperm.subset hop)

/-- An operation under way is a mutation of the plan that has not taken effect. -/
theorem Tracks.new_of_underWay (h : Tracks p held r) (hfit : p.Fits held)
    {before after : List Flight} {op : PlannedOp}
    (hflights : r.trail.run.flights = before ++ ⟨op, none⟩ :: after) :
    op ∈ p.mutations ∧ ∀ o ∈ r.trail.performed, o.key ≠ op.key := by
  have hmem : op ∈ Trail.underWay r.trail.run.flights := by simp [hflights]
  have hacc := h.ledger.accounted
  refine ⟨(Schedule.mem_waves hfit.nodup).1 (hacc.subset ?_), ?_⟩
  · exact List.mem_append_right _ (List.mem_append_left _ hmem)
  · intro o ho heq
    obtain ⟨l, hperm, hsub⟩ := hacc
    have hnodup : (r.trail.accounted.map (·.key)).Nodup :=
      (hperm.map _).nodup_iff.1 ((hsub.map _).nodup (Schedule.nodup_waves hfit.nodup))
    unfold Trail.accounted at hnodup
    rw [List.map_append] at hnodup
    obtain ⟨stored, ho⟩ := Trail.mem_performed.1 ho
    refine List.disjoint_of_nodup_append hnodup (a := op.key) ?_ ?_
    · exact List.mem_map.2 ⟨o, List.mem_map.2 ⟨_, ho, rfl⟩, heq⟩
    · exact List.mem_map.2 ⟨op, List.mem_append_left _ hmem, rfl⟩

/-- Every step keeps track: what succeeds is applied, and nothing else is. -/
theorem Tracks.step (hfit : p.Fits held) (h : Tracks p held r) (hstep : Step rules r m r') :
    Tracks p held r' := by
  obtain ⟨e, hevent⟩ := hstep.exists_event
  have hledger := h.ledger.step hevent
  cases hstep with
  | silent _ hended _ =>
    refine ⟨hledger, ?_, ?_⟩
    · unfold Trail.performed
      rw [hended]
      exact h.becomes
    · unfold Trail.Faithful
      rw [hended]
      exact h.faithful
  | @answered before after op t hflights _ hended =>
    obtain ⟨hop, hnew⟩ := h.new_of_underWay hfit hflights
    have hact := Plan.ne_keep_of_mem hop
    obtain ⟨s', happly, hbecomes⟩ :=
      h.becomes.apply hfit (h.performed_subset hfit) hop hnew
    rcases ControlPlane.call_of_apply hact happly with ⟨hreply, hstate⟩ | ⟨hreply, hstate⟩
    · rw [hreply] at hended
      refine ⟨hledger, ?_, h.faithful.of_ended hended fun stored hdone x hx => ?_⟩
      · simp only [Trail.performed_of_done hended, hstate]
        exact hbecomes.congr fun o => by simp [or_comm]
      · cases hdone
        exact ControlPlane.eq_of_mem_answer hx
    · refine ⟨hledger, ?_, h.faithful.of_ended hended fun stored hdone => ?_⟩
      · simp only [Trail.performed_of_not_done hended hreply, hstate]
        exact h.becomes
      · exact absurd hdone (hreply stored)
  | failed _ hended hreply _ _ _ =>
    refine ⟨hledger, ?_, h.faithful.of_ended hended fun stored hdone => ?_⟩
    · simp only [Trail.performed_of_not_done hended hreply]
      exact h.becomes
    · exact absurd hdone (hreply stored)

/-- So the gateway holds at every point what it held first with the successes applied. -/
theorem tracks_of_replay? {plane : ControlPlane} (hfit : p.Fits plane.state) {cancelled : Bool}
    (h : (start p plane cancelled).replay? rules moves = some r) : Tracks p plane.state r :=
  replay?_induction (fun _ _ _ _ hr hstep => hr.step hfit hstep) (tracks_start p plane cancelled) h

end Rollout

end Gateway
