import Mathlib.Data.List.Perm.Subperm
import Gateway.Run.Machine

/-!
# Trails

A `Trail` is a run together with the calls it has made: the operations that were sent, and those
whose calls have ended. Every history of a run has its trail (`Trail.run_replay?`). `Trail.Step`
lists what can happen to a trail, case by case, and `Trail.step_of_step?` says that the list is
complete. Whatever every step preserves holds after every history (`Trail.replay?_induction`).
-/

namespace Gateway

/-! ### Events, case by case -/

/-- A run with the calls it has made. -/
structure Trail where
  run : Run
  /-- The operations that were sent, in order. -/
  sent : List PlannedOp := []
  /-- The calls that ended, with how they ended, in order. -/
  ended : List (PlannedOp × Reply) := []

namespace Trail

/-- The operations that go out when a run becomes another. -/
def newlySent (r r' : Run) : List PlannedOp := (r'.flights.drop r.flights.length).map (·.op)

/-- The call that an event ends. -/
def newlyEnded (r : Run) : Event → List (PlannedOp × Reply)
  | .finish i reply => (r.flights[i]?.map fun f => (f.op, reply)).toList
  | _ => []

/-- What comes of an event; none when it cannot happen. -/
def step? (t : Trail) (rules : RunRules) (e : Event) : Option Trail :=
  (t.run.step? rules e).map fun r =>
    ⟨r, t.sent ++ newlySent t.run r, t.ended ++ newlyEnded t.run e⟩

/-- What comes of a history; none when it cannot happen. -/
def replay? (t : Trail) (rules : RunRules) (events : List Event) : Option Trail :=
  events.foldlM (fun t e => t.step? rules e) t

/-- No call has been made. -/
def start (s : Schedule) (cancelled : Bool) : Trail := { run := .start s cancelled }

/-- What can happen to a trail. -/
inductive Step (rules : RunRules) (t : Trail) : Event → Trail → Prop
  /-- An operation is left out because one that it needs did not succeed. -/
  | skip {op : PlannedOp} {queue : List PlannedOp} {blocker : Reference}
      (hqueue : t.run.queue = op :: queue) (hroom : t.run.flights.length < rules.slots)
      (hgo : t.run.isStopped = false) (hblock : t.run.blocker? rules.needs op.key = some blocker) :
      Step rules t .dispatch { t with run := { t.run with
        queue := queue
        statuses := (op.key, .skipped) :: t.run.statuses
        report := t.run.report.fail (.skipped (.ofOp op) blocker) } }
  /-- An operation of a dry run is taken as done. -/
  | pretend {op : PlannedOp} {queue : List PlannedOp}
      (hqueue : t.run.queue = op :: queue) (hroom : t.run.flights.length < rules.slots)
      (hgo : t.run.isStopped = false) (hblock : t.run.blocker? rules.needs op.key = none)
      (hdry : rules.settings.dryRun = true) :
      Step rules t .dispatch { t with run := { t.run with
        queue := queue
        statuses := (op.key, .done) :: t.run.statuses
        report := t.run.report.record op none } }
  /-- An operation is sent. -/
  | send {op : PlannedOp} {queue : List PlannedOp}
      (hqueue : t.run.queue = op :: queue) (hroom : t.run.flights.length < rules.slots)
      (hgo : t.run.isStopped = false) (hblock : t.run.blocker? rules.needs op.key = none)
      (hreal : rules.settings.dryRun = false) :
      Step rules t .dispatch { t with
        run := { t.run with queue := queue, flights := t.run.flights ++ [⟨op, none⟩] }
        sent := t.sent ++ [op] }
  /-- A call ends. -/
  | finish {before after : List Flight} {op : PlannedOp} {reply : Reply}
      (hflights : t.run.flights = before ++ ⟨op, none⟩ :: after) :
      Step rules t (.finish before.length reply) { t with
        run := { t.run with flights := before ++ ⟨op, some reply⟩ :: after }
        ended := t.ended ++ [(op, reply)] }
  /-- The result of a call is collected. -/
  | collect {before after : List Flight} {op : PlannedOp} {reply : Reply}
      (hflights : t.run.flights = before ++ ⟨op, some reply⟩ :: after) :
      Step rules t (.collect before.length) { t with
        run := { t.run with flights := before ++ after }.take rules op reply }
  /-- The next wave begins. -/
  | next {wave : List PlannedOp} {waves : List (List PlannedOp)}
      (hwaves : t.run.waves = wave :: waves) (hflights : t.run.flights = [])
      (hthrough : t.run.queue = [] ∨ t.run.isStopped = true) :
      Step rules t .nextWave { t with run := t.run.beginWave wave waves }
  /-- Somebody cancels the run. -/
  | cancel : Step rules t .cancel { t with run := { t.run with cancelled := true } }

variable {rules : RunRules} {t t' : Trail} {e : Event}

private theorem split_of_getElem? {fs : List Flight} {i : Nat} {f : Flight} (h : fs[i]? = some f) :
    ∃ before after, fs = before ++ f :: after ∧ i = before.length := by
  obtain ⟨hi, rfl⟩ := List.getElem?_eq_some_iff.1 h
  refine ⟨fs.take i, fs.drop (i + 1), ?_, ?_⟩
  · rw [← List.drop_eq_getElem_cons hi, List.take_append_drop]
  · rw [List.length_take, Nat.min_eq_left (Nat.le_of_lt hi)]

/-- Nothing else can happen. -/
theorem step_of_step? (h : t.step? rules e = some t') : Step rules t e t' := by
  obtain ⟨r, hr, rfl⟩ := Option.map_eq_some_iff.1 h
  cases e with
  | dispatch =>
    simp only [Run.step?] at hr
    split at hr
    · rename_i op queue hqueue
      split at hr
      · rename_i hgo
        simp only [Bool.and_eq_true, decide_eq_true_eq, Bool.not_eq_true'] at hgo
        obtain ⟨hroom, hgo⟩ := hgo
        cases hr
        unfold Run.dispatch
        split
        · rename_i blocker hblock
          simpa [newlySent, newlyEnded, Run.note] using
            Step.skip (t := t) hqueue hroom hgo hblock
        · rename_i hblock
          split
          · rename_i hdry
            simpa [newlySent, newlyEnded, Run.note] using
              Step.pretend (t := t) hqueue hroom hgo hblock hdry
          · rename_i hreal
            simpa [newlySent, newlyEnded] using
              Step.send (t := t) hqueue hroom hgo hblock (by simpa using hreal)
      · cases hr
    · cases hr
  | finish i reply =>
    simp only [Run.step?] at hr
    split at hr
    · rename_i op hi
      cases hr
      obtain ⟨before, after, hflights, rfl⟩ := split_of_getElem? hi
      have hfinish : Step rules t (.finish before.length reply) _ := .finish hflights
      simpa [newlySent, newlyEnded, hflights] using hfinish
    · cases hr
  | collect i =>
    simp only [Run.step?] at hr
    split at hr
    · rename_i op reply hi
      cases hr
      obtain ⟨before, after, hflights, rfl⟩ := split_of_getElem? hi
      have hflights' : ∀ r : Run, (r.take rules op reply).flights = r.flights := by
        intro r
        cases reply <;> rfl
      have hdrop : (before ++ after).drop (before.length + (after.length + 1)) = [] :=
        List.drop_eq_nil_iff.2 (by simp)
      have hcollect : Step rules t (.collect before.length) _ := .collect hflights
      simpa [newlySent, newlyEnded, hflights, hflights', hdrop, List.eraseIdx_append_of_length_le]
        using hcollect
    · cases hr
  | nextWave =>
    simp only [Run.step?] at hr
    split at hr
    · rename_i wave waves hwaves
      split at hr
      · rename_i hthrough
        simp only [Bool.and_eq_true, Bool.or_eq_true, List.isEmpty_iff] at hthrough
        obtain ⟨hflights, hthrough⟩ := hthrough
        cases hr
        have hflights' : (t.run.beginWave wave waves).flights = [] := by
          unfold Run.beginWave
          split <;> exact hflights
        have hnext : Step rules t .nextWave _ := .next hwaves hflights hthrough
        simpa [newlySent, newlyEnded, hflights'] using hnext
      · cases hr
    · cases hr
  | cancel =>
    cases hr
    have hcancel : Step rules t .cancel _ := .cancel
    simpa [newlySent, newlyEnded] using hcancel

/-- The run of a trail is the run that its history leads to. -/
theorem run_replay? (t : Trail) (rules : RunRules) (events : List Event) :
    (t.replay? rules events).map (·.run) = t.run.replay? rules events := by
  induction events generalizing t with
  | nil => rfl
  | cons e rest ih =>
    unfold replay? Run.replay? at ih ⊢
    rw [List.foldlM_cons, List.foldlM_cons, step?]
    cases t.run.step? rules e with
    | none => rfl
    | some r => exact ih _

/-- A history goes on from what comes of its first event. -/
theorem replay?_cons_iff {events : List Event} : t.replay? rules (e :: events) = some t' ↔
    ∃ t₁, t.step? rules e = some t₁ ∧ t₁.replay? rules events = some t' := by
  unfold replay?
  rw [List.foldlM_cons]
  exact Option.bind_eq_some_iff

/-- What the events of a history preserve holds after it. -/
theorem replay?_induction_mem {P : Trail → Prop} {events : List Event}
    (hstep : ∀ t e t', e ∈ events → P t → Step rules t e t' → P t') (h₀ : P t)
    (h : t.replay? rules events = some t') : P t' := by
  induction events generalizing t with
  | nil => cases h; exact h₀
  | cons e rest ih =>
    obtain ⟨t₁, h₁, hrest⟩ := replay?_cons_iff.1 h
    have hfirst := hstep t e t₁ List.mem_cons_self h₀ (step_of_step? h₁)
    exact ih (fun t e t' he => hstep t e t' (List.mem_cons_of_mem _ he)) hfirst hrest

/-- What every step preserves holds after every history. -/
theorem replay?_induction {P : Trail → Prop} {events : List Event}
    (hstep : ∀ t e t', P t → Step rules t e t' → P t') (h₀ : P t)
    (h : t.replay? rules events = some t') : P t' :=
  replay?_induction_mem (fun t e t' _ => hstep t e t') h₀ h

end Trail

end Gateway
