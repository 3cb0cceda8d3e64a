import Gateway.Proofs.Ledger

/-!
# Runs come to an end

Whatever happens in a run, but for its cancellation, leaves less to be done (`Trail.Step.due_lt`).
So no history goes on for ever, whatever calls answer and in whatever order (`Trail.length_le_due`):
apart from cancellations it has at most three events for each operation of the schedule, and one for
each wave (`Trail.length_le_of_replay?`). And as long as a run with nothing in flight is not over,
either its next operation can be dispatched (`Run.exists_dispatch`), or its next wave can begin
(`Run.exists_nextWave`).
-/

namespace Gateway

/-- How much a run has before it: every wave begins, and every operation of it is dispatched, ends
and is collected. -/
def Run.due (r : Run) : Nat :=
  3 * r.waves.flatten.length + r.waves.length + 3 * r.queue.length +
    (r.flights.length + (Trail.underWay r.flights).length)

/-- Whether somebody cancels the run. -/
def Event.isCancel : Event → Bool
  | cancel => true
  | _ => false

namespace Trail

variable {rules : RunRules} {t t' : Trail} {e : Event}

/-- Whatever happens leaves less to be done, unless it is a cancellation. -/
theorem Step.due_lt (h : Step rules t e t') (he : e.isCancel = false) :
    t'.run.due < t.run.due := by
  unfold Run.due
  cases h with
  | skip hqueue _ _ _ =>
    simp only [hqueue, List.length_cons]
    omega
  | pretend hqueue _ _ _ _ =>
    simp only [hqueue, List.length_cons]
    omega
  | send hqueue _ _ _ _ =>
    simp only [hqueue, List.length_cons, List.length_append, List.length_nil, underWay_append,
      underWay_cons_none, underWay_nil]
    omega
  | finish hflights =>
    simp only [hflights, List.length_cons, List.length_append, underWay_append,
      underWay_cons_none, underWay_cons_some]
    omega
  | collect hflights =>
    simp only [Run.flights_take, Run.queue_take, Run.waves_take, hflights, List.length_cons,
      List.length_append, underWay_append, underWay_cons_some]
    omega
  | @next wave waves hwaves hflights _ =>
    have hqueue : (t.run.beginWave wave waves).queue.length ≤ wave.length := by
      rw [Run.queue_beginWave]
      split
      · exact Nat.zero_le _
      · exact Nat.le_refl _
    simp only [Run.waves_beginWave, Run.flights_beginWave, hwaves, List.flatten_cons,
      List.length_append, List.length_cons]
    omega
  | cancel => cases he

/-- No history goes on for ever. -/
theorem length_le_due {events : List Event} (h : t.replay? rules events = some t') :
    events.countP (!·.isCancel) + t'.run.due ≤ t.run.due := by
  induction events generalizing t with
  | nil =>
    cases h
    simp
  | cons e rest ih =>
    obtain ⟨t₁, h₁, hrest⟩ := replay?_cons_iff.1 h
    have hrest := ih hrest
    have hstep := step_of_step? h₁
    rw [List.countP_cons]
    by_cases he : e.isCancel = true
    · have hsame : t₁.run.due = t.run.due := by
        cases hstep with
        | cancel => rfl
        | _ => cases he
      rw [if_neg (by simp [he])]
      omega
    · rw [Bool.not_eq_true] at he
      have hlt := hstep.due_lt he
      rw [if_pos (by simp [he])]
      omega

/-- A run takes at most three events for each operation of its schedule, and one for each wave,
apart from cancellations. -/
theorem length_le_of_replay? {s : Schedule} {cancelled : Bool} {events : List Event}
    (h : (start s cancelled).replay? rules events = some t) :
    events.countP (!·.isCancel) ≤ 3 * s.waves.flatten.length + s.waves.length := by
  have hle := length_le_due h
  simp only [start, Run.due, Run.start, List.length_nil, underWay_nil] at hle
  omega

end Trail

/-- Some call can always be in flight. -/
theorem RunRules.slots_pos (rules : RunRules) : 0 < rules.slots :=
  Nat.lt_of_lt_of_le Nat.zero_lt_one (Nat.le_max_left _ _)

namespace Run

variable {r r' : Run} {rules : RunRules}

/-- What can happen in a run leaves less to be done, unless it is a cancellation. -/
theorem due_lt_of_step? {e : Event} (h : r.step? rules e = some r') (he : e.isCancel = false) :
    r'.due < r.due := by
  have htrail : (Trail.mk r [] []).step? rules e =
      some ⟨r', [] ++ Trail.newlySent r r', [] ++ Trail.newlyEnded r e⟩ := by
    unfold Trail.step?
    rw [h]
    rfl
  exact (Trail.step_of_step? htrail).due_lt he

/-- Where there is room, the next operation can be dispatched. -/
theorem exists_dispatch (hqueue : r.queue ≠ []) (hroom : r.flights.length < rules.slots)
    (hgo : r.isStopped = false) : ∃ r', r.step? rules .dispatch = some r' := by
  obtain ⟨op, queue, hqueue⟩ := List.exists_cons_of_ne_nil hqueue
  refine ⟨{ r with queue := queue }.dispatch rules op, ?_⟩
  simp [step?, hqueue, hroom, hgo]

/-- Where a wave is through and the run is not over, the next wave can begin. -/
theorem exists_nextWave (rules : RunRules) (hover : r.isOver = false) (hflights : r.flights = [])
    (hthrough : (r.queue.isEmpty || r.isStopped) = true) :
    ∃ r', r.step? rules .nextWave = some r' := by
  have hwaves : r.waves ≠ [] := by
    intro hwaves
    unfold isOver at hover
    rw [hwaves, hflights, hthrough] at hover
    cases hover
  obtain ⟨wave, waves, hwaves⟩ := List.exists_cons_of_ne_nil hwaves
  refine ⟨r.beginWave wave waves, ?_⟩
  simp only [step?, hwaves]
  rw [hflights, hthrough]
  rfl

end Run

end Gateway
