import Gateway.Proofs.Ending
import Gateway.Proofs.Rollout
import Gateway.Run.Clock

/-!
# The clock goes through a history

A run by the clock is one of the histories that a run against a gateway can have: whatever the clock
does is a move, or several, or nothing (`Clock.leads_advance`). So what holds after every history
holds of every run by the clock (`ControlPlane.exists_replay_solve`). The clock does not stop before
the run is over (`ControlPlane.isOver_solve`), so every history can be brought to an end
(`Rollout.exists_replay_isOver`).
-/

namespace Gateway

/-- The rollout stands where the clock does. -/
structure Rollout.At (r : Rollout) (c : Clock) : Prop where
  run : r.trail.run = c.run
  plane : r.plane = c.plane

namespace Clock

variable {rules : RunRules} {c c₁ c₂ : Clock}

/-- From where one clock stands, a history leads to where the other does. -/
def Leads (rules : RunRules) (c c' : Clock) : Prop :=
  ∀ r : Rollout, r.At c → ∃ moves r', r.replay? rules moves = some r' ∧ r'.At c'

theorem Leads.refl (rules : RunRules) (c : Clock) : Leads rules c c :=
  fun r hr => ⟨[], r, rfl, hr⟩

theorem Leads.trans (h : Leads rules c c₁) (h' : Leads rules c₁ c₂) : Leads rules c c₂ := by
  intro r hr
  obtain ⟨moves, r₁, hmoves, hr₁⟩ := h r hr
  obtain ⟨moves', r₂, hmoves', hr₂⟩ := h' r₁ hr₁
  refine ⟨moves ++ moves', r₂, ?_, hr₂⟩
  unfold Rollout.replay? at hmoves hmoves' ⊢
  rw [List.foldlM_append, hmoves]
  exact hmoves'

/-- A single move. -/
theorem Leads.of_step? (h : ∀ r : Rollout, r.At c → ∃ m r', r.step? rules m = some r' ∧ r'.At c₁) :
    Leads rules c c₁ := by
  intro r hr
  obtain ⟨m, r', hstep, hr'⟩ := h r hr
  refine ⟨[m], r', ?_, hr'⟩
  unfold Rollout.replay?
  rw [List.foldlM_cons, hstep]
  rfl

/-- What can happen to the run of the clock can happen to that of the rollout. -/
theorem exists_perform? {r : Rollout} {e : Event} {run : Run} (hr : r.At c)
    (hrun : c.run.step? rules e = some run) (plane : ControlPlane) :
    ∃ r', r.perform? rules e plane = some r' ∧ r'.trail.run = run ∧ r'.plane = plane := by
  unfold Rollout.perform? Trail.step?
  rw [hr.run, hrun]
  exact ⟨_, rfl, rfl, rfl⟩

/-- An event in which the gateway has no part happens, or nothing does. -/
theorem leads_perform (m : Move) {e : Event}
    (hmove : ∀ r : Rollout, r.step? rules m = r.perform? rules e r.plane) :
    Leads rules c (c.perform rules e) := by
  unfold perform
  cases hrun : c.run.step? rules e with
  | none => exact .refl rules c
  | some run =>
    refine .of_step? fun r hr => ?_
    obtain ⟨r', hr', hrun', hplane⟩ := exists_perform? hr hrun r.plane
    exact ⟨m, r', (hmove r).trans hr', hrun', hplane.trans hr.plane⟩

/-- A call that is under way ends as the gateway answers it. -/
theorem leads_finish (i : Nat) : Leads rules c (finish rules c i) := by
  unfold finish
  split
  · rename_i op hflight
    have hrun : ∃ run, c.run.step? rules (.finish i (c.plane.call op.action op.entity).1) =
        some run := by
      simp only [Run.step?, hflight]
      exact ⟨_, rfl⟩
    obtain ⟨run, hrun⟩ := hrun
    refine .of_step? fun r hr => ?_
    obtain ⟨r', hr', hrun', hplane⟩ :=
      exists_perform? hr hrun (c.plane.call op.action op.entity).2
    refine ⟨.answer i, r', ?_, ?_, hplane⟩
    · unfold Rollout.step?
      simp only [hr.run, hr.plane, hflight]
      exact hr'
    · unfold perform
      simp only [hrun]
      exact hrun'
  · exact .refl rules c

/-- How many calls have been under way at a time is no part of a rollout. -/
theorem leads_peak (n : Nat) : Leads rules c { c with peak := n } :=
  fun r hr => ⟨[], r, rfl, hr.run, hr.plane⟩

/-- Calls end in turn. -/
theorem leads_finishAll : Leads rules c (c.finishAll rules) := by
  have hfold : ∀ (is : List Nat) (c : Clock), Leads rules c (is.foldl (finish rules) c) := by
    intro is
    induction is with
    | nil => exact fun c => .refl rules c
    | cons i rest ih => exact fun c => (leads_finish i).trans (ih _)
  unfold finishAll
  refine (hfold (List.range c.run.flights.length) c).trans ?_
  generalize (List.range c.run.flights.length).foldl (finish rules) c = d
  simp only
  split
  · exact (leads_peak _).trans (leads_perform .cancel fun _ => rfl)
  · exact leads_peak _

/-- Whatever the clock does is a move, or several, or nothing. -/
theorem leads_advance : Leads rules c (c.advance rules) := by
  unfold advance
  split
  · exact leads_perform .dispatch fun _ => rfl
  · split
    · rename_i i _
      exact leads_perform (.collect i) fun _ => rfl
    · split
      · exact leads_perform .nextWave fun _ => rfl
      · exact leads_finishAll

/-- However long the clock runs, it makes moves one after the other. -/
theorem leads_runFor (n : Nat) : Leads rules c (runFor rules n c) := by
  induction n generalizing c with
  | zero => exact .refl rules c
  | succ n ih =>
    unfold runFor
    split
    · exact .refl rules c
    · exact leads_advance.trans ih

/-! ### The clock stops -/

/-- Every event but a cancellation leaves less to do. -/
theorem due_perform_lt {e : Event} {run : Run} (hrun : c.run.step? rules e = some run)
    (he : e.isCancel = false) : (c.perform rules e).run.due < c.run.due := by
  unfold perform
  rw [hrun]
  exact Run.due_lt_of_step? hrun he

/-- A call that ends has less before it. -/
theorem due_finish_lt {i : Nat} {op : PlannedOp} (h : c.run.flights[i]? = some ⟨op, none⟩) :
    (finish rules c i).run.due < c.run.due := by
  have hrun : c.run.step? rules (.finish i (c.plane.call op.action op.entity).1) =
      some { c.run with flights :=
        c.run.flights.set i ⟨op, some (c.plane.call op.action op.entity).1⟩ } := by
    simp only [Run.step?, h]
  unfold finish
  rw [h]
  exact due_perform_lt (c := { c with plane := (c.plane.call op.action op.entity).2 }) hrun rfl

/-- Ending a call never adds work, whether there is a call to end or not. -/
theorem due_finish_le (i : Nat) : (finish rules c i).run.due ≤ c.run.due := by
  cases hflight : c.run.flights[i]? with
  | none =>
    unfold finish
    rw [hflight]
  | some f =>
    obtain ⟨op, reply⟩ := f
    cases reply with
    | none => exact Nat.le_of_lt (due_finish_lt hflight)
    | some reply =>
      unfold finish
      rw [hflight]

/-- When all calls in flight end, and there are some, there is less to be done. -/
theorem due_finishAll_lt (hended : firstEnded? c.run = none) (hsome : c.run.flights ≠ []) :
    (c.finishAll rules).run.due < c.run.due := by
  have hfold : ∀ (is : List Nat) (c : Clock),
      (is.foldl (finish rules) c).run.due ≤ c.run.due := by
    intro is
    induction is with
    | nil => exact fun c => Nat.le_refl _
    | cons i rest ih => exact fun c => (ih _).trans (due_finish_le i)
  have hall : ((List.range c.run.flights.length).foldl (finish rules) c).run.due <
      c.run.due := by
    obtain ⟨f, rest, hflights⟩ := List.exists_cons_of_ne_nil hsome
    have hreply : f.reply = none := by
      have hno := List.findIdx?_eq_none_iff.1 hended f (by simp [hflights])
      simpa using hno
    have hfirst : c.run.flights[0]? = some ⟨f.op, none⟩ := by
      rw [hflights, ← hreply]
      rfl
    rw [show c.run.flights.length = rest.length + 1 by simp [hflights], List.range_succ_eq_map,
      List.foldl_cons]
    exact Nat.lt_of_le_of_lt (hfold _ _) (due_finish_lt hfirst)
  unfold finishAll
  simp only
  split
  · exact hall
  · exact hall

/-- As long as the run is not over, the clock goes on. -/
theorem due_advance_lt (h : c.run.isOver = false) :
    (c.advance rules).run.due < c.run.due := by
  unfold advance
  split
  · rename_i hcan
    unfold canDispatch at hcan
    simp only [Bool.and_eq_true, decide_eq_true_eq, Bool.not_eq_true'] at hcan
    obtain ⟨⟨hqueue, hroom⟩, hgo⟩ := hcan
    obtain ⟨run, hrun⟩ := Run.exists_dispatch (List.isEmpty_eq_false_iff.1 hqueue) hroom hgo
    exact due_perform_lt hrun rfl
  · rename_i hcannot
    split
    · rename_i i hended
      obtain ⟨hi, hreply, -⟩ := List.findIdx?_eq_some_iff_getElem.1 hended
      obtain ⟨reply, hreply⟩ := Option.isSome_iff_exists.1 hreply
      have hflight : c.run.flights[i]? = some ⟨c.run.flights[i].op, some reply⟩ := by
        rw [List.getElem?_eq_getElem hi, ← hreply]
      have hrun : c.run.step? rules (.collect i) = some ({ c.run with
          flights := c.run.flights.eraseIdx i }.take rules c.run.flights[i].op reply) := by
        simp only [Run.step?, hflight]
      exact due_perform_lt hrun rfl
    · rename_i hended
      split
      · rename_i hflights
        have hthrough : (c.run.queue.isEmpty || c.run.isStopped) = true := by
          unfold canDispatch at hcannot
          simp only [List.isEmpty_iff.1 hflights, List.length_nil, RunRules.slots_pos] at hcannot
          revert hcannot
          cases c.run.queue.isEmpty <;> cases c.run.isStopped <;> simp
        obtain ⟨run, hrun⟩ := Run.exists_nextWave rules h (List.isEmpty_iff.1 hflights) hthrough
        exact due_perform_lt hrun rfl
      · rename_i hflights
        exact due_finishAll_lt hended fun hnone => hflights (List.isEmpty_iff.2 hnone)

/-- Given as many moves as there is to be done, the run is over. -/
theorem isOver_runFor {n : Nat} (h : c.run.due < n) : (runFor rules n c).run.isOver = true := by
  induction n generalizing c with
  | zero => omega
  | succ n ih =>
    unfold runFor
    split
    · assumption
    · rename_i hover
      rw [Bool.not_eq_true] at hover
      have hless : (c.advance rules).run.due < c.run.due := due_advance_lt hover
      exact ih (by omega)

/-- Moving on until the run is over, the clock never runs out of moves. -/
theorem isOver_runToEnd (c : Clock) (rules : RunRules) :
    (c.runToEnd rules).run.isOver = true := by
  have hdue : c.run.due ≤ work c.run := by
    have hflights : (Trail.underWay c.run.flights).length ≤ c.run.flights.length := by
      unfold Trail.underWay
      rw [List.length_map]
      exact List.length_filter_le _ _
    unfold Run.due work
    omega
  exact isOver_runFor (Nat.lt_succ_of_le hdue)

end Clock

/-- From every point of a history, the run can be brought to its end. -/
theorem Rollout.exists_replay_isOver (r : Rollout) (rules : RunRules) :
    ∃ moves r', r.replay? rules moves = some r' ∧ r'.trail.run.isOver = true := by
  have hat : r.At { run := r.trail.run, plane := r.plane } := ⟨rfl, rfl⟩
  obtain ⟨moves, r', hmoves, hr'⟩ := Clock.leads_runFor (Clock.work r.trail.run + 1) r hat
  refine ⟨moves, r', hmoves, ?_⟩
  rw [hr'.run]
  exact Clock.isOver_runToEnd _ rules

/-- A run by the clock ends. -/
theorem ControlPlane.isOver_solve (plane : ControlPlane) (p : Plan) (settings : RunSettings)
    (cancelled : Bool) : (plane.solve p settings cancelled).run.isOver = true :=
  Clock.isOver_runToEnd _ _

/-- A run by the clock is one of the histories of the run. -/
theorem ControlPlane.exists_replay_solve (plane : ControlPlane) (p : Plan)
    (settings : RunSettings) (cancelled : Bool) : ∃ moves r,
    (Rollout.start p plane cancelled).replay? ⟨settings, (Schedule.ofPlan p).needs⟩ moves =
        some r ∧
      r.trail.run = (plane.solve p settings cancelled).run ∧
      r.plane = (plane.solve p settings cancelled).plane := by
  have hstart : (Rollout.start p plane cancelled).At
      { run := .start (.ofPlan p) cancelled, plane := plane } := ⟨rfl, rfl⟩
  obtain ⟨moves, r, hmoves, hr⟩ := Clock.leads_runFor _ _ hstart
  exact ⟨moves, r, hmoves, hr.run, hr.plane⟩

end Gateway
