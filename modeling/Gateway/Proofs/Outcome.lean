import Gateway.Proofs.Ledger
import Gateway.Proofs.Planning

/-!
# What a report records

An entry of a report tells of an operation when it names its object and shows the body before and
after (`EntityChange.Tells`). The operations that succeeded on a trail are its `Trail.performed`.
When a run is over and every operation was answered with what was sent (`Trail.Faithful`), the
entries of its report tell of exactly these operations (`Trail.Recorded.of_isOver`). When in
addition every call succeeded and nobody cancelled the run (`Trail.Smooth`), the report has no
errors and every operation of the schedule was performed (`Trail.Smooth.errors_eq_nil`,
`Trail.Smooth.succeeded_of_isOver`).
-/

namespace Gateway

/-! ### What the entries of a report say -/

/-- An entry tells of an operation, after which the object is shown as it is said to be: it names
the object, and shows its body as it was before and as it is afterwards. -/
structure EntityChange.Tells (x : EntityChange) (op : PlannedOp) (shown : Entity) : Prop where
  kind : x.kind = op.entity.kind
  label : x.label = shown.label
  /-- An object without id is shown under the empty text. -/
  id : x.id = shown.id?.getD ""
  /-- Before a creation there was nothing. -/
  created : op.action = .create → x.before = none ∧ x.after = some shown.body
  /-- An update shows what it has replaced. -/
  updated : op.action = .update →
    x.before = op.previous.map Entity.body ∧ x.after = some shown.body
  /-- After a deletion there is nothing. -/
  deleted : op.action = .delete → x.before = some op.entity.body ∧ x.after = none

/-- Where the gateway says nothing of what it has stored, the planned entity is shown. -/
theorem EntityChange.tells_ofOp (op : PlannedOp) (stored : Option Entity) :
    (ofOp op stored).Tells op (stored.getD op.entity) where
  kind := rfl
  label := rfl
  id := rfl
  created h := by simp [ofOp, h]
  updated h := by simp [ofOp, h]
  deleted h := by simp [ofOp, h]

/-- An answer that repeats what was sent is shown as no answer is. -/
theorem EntityChange.ofOp_answer {op : PlannedOp} {stored : Option Entity}
    (h : ∀ e ∈ stored, e = op.entity) : ofOp op stored = ofOp op none := by
  cases stored with
  | none => rfl
  | some e =>
    rw [h e rfl]
    rfl

/-- The entries of a report tell of operations that were done, one of each and in their order:
creations, updates and deletions each in a list of their own. -/
structure Changes.Tell (c : Changes) (done : List (PlannedOp × Entity)) : Prop where
  created : List.Forall₂ (fun x y => x.Tells y.1 y.2) c.created
    (done.filter (·.1.action = .create))
  updated : List.Forall₂ (fun x y => x.Tells y.1 y.2) c.updated
    (done.filter (·.1.action = .update))
  deleted : List.Forall₂ (fun x y => x.Tells y.1 y.2) c.deleted
    (done.filter (·.1.action = .delete))

namespace Changes.Tell

variable {c : Changes} {done : List (PlannedOp × Entity)} {op : PlannedOp} {x : EntityChange}

/-- A report that is empty tells of nothing. -/
theorem nil : Tell {} [] := ⟨.nil, .nil, .nil⟩

/-- The list of an action grows by the operations with that action. -/
theorem forall₂_concat {xs : List EntityChange} {a : Action} {shown : Entity}
    (h : List.Forall₂ (fun x y => x.Tells y.1 y.2) xs (done.filter (·.1.action = a)))
    (hx : x.Tells op shown) :
    List.Forall₂ (fun x y => x.Tells y.1 y.2) (if op.action = a then xs ++ [x] else xs)
      ((done ++ [(op, shown)]).filter (·.1.action = a)) := by
  rw [List.filter_append]
  by_cases ha : op.action = a
  · simpa [ha] using List.rel_append h (.cons hx .nil)
  · simpa [ha] using h

/-- An operation that succeeds is told of behind those before it. -/
theorem add (h : c.Tell done) {shown : Entity} (hx : x.Tells op shown) :
    (c.add x op.action).Tell (done ++ [(op, shown)]) := by
  have hcreated := forall₂_concat h.created hx
  have hupdated := forall₂_concat h.updated hx
  have hdeleted := forall₂_concat h.deleted hx
  cases hact : op.action <;> rw [hact] at hcreated hupdated hdeleted <;>
    exact ⟨hcreated, hupdated, hdeleted⟩

/-- Whatever a report shows, an operation was done that the entry tells of. -/
theorem exists_op (h : c.Tell done) (hx : x ∈ c.created ∨ x ∈ c.updated ∨ x ∈ c.deleted) :
    ∃ y ∈ done, y.1.action ≠ .keep ∧ x.Tells y.1 y.2 := by
  have among : ∀ {xs : List EntityChange} {a : Action}, a ≠ .keep →
      List.Forall₂ (fun x y => x.Tells y.1 y.2) xs (done.filter (·.1.action = a)) → x ∈ xs →
        ∃ y ∈ done, y.1.action ≠ .keep ∧ x.Tells y.1 y.2 := by
    intro xs a ha hall hx
    obtain ⟨y, hy, htells⟩ := hall.exists_of_mem_left hx
    obtain ⟨hy, hact⟩ := List.mem_filter.1 hy
    exact ⟨y, hy, by rwa [of_decide_eq_true hact], htells⟩
  rcases hx with hx | hx | hx
  · exact among (by decide) h.created hx
  · exact among (by decide) h.updated hx
  · exact among (by decide) h.deleted hx

end Changes.Tell

namespace Trail

variable {rules : RunRules} {t t' : Trail} {e : Event} {waves : List (List PlannedOp)}

/-! ### Successes -/

/-- The operation of a call that succeeded. -/
def successOf (x : PlannedOp × Reply) : Option PlannedOp :=
  match x.2 with
  | .done _ => some x.1
  | _ => none

/-- The operations that succeeded, in the order in which their calls ended. -/
def performed (t : Trail) : List PlannedOp := t.ended.filterMap successOf

/-- A call succeeded when it was answered as done. -/
theorem successOf_eq_some_iff {x : PlannedOp × Reply} {op : PlannedOp} :
    successOf x = some op ↔ ∃ stored, x = (op, .done stored) := by
  obtain ⟨o, reply⟩ := x
  cases reply with
  | done stored =>
    simp only [successOf, Option.some.injEq, Prod.mk.injEq, Reply.done.injEq]
    constructor
    · rintro rfl
      exact ⟨stored, rfl, rfl⟩
    · rintro ⟨_, rfl, -⟩
      rfl
  | refused err => simp [successOf]
  | crashed => simp [successOf]

/-- What succeeded is what was answered as done. -/
theorem mem_performed {op : PlannedOp} :
    op ∈ t.performed ↔ ∃ stored, (op, .done stored) ∈ t.ended := by
  unfold performed
  rw [List.mem_filterMap]
  constructor
  · rintro ⟨x, hx, hop⟩
    obtain ⟨stored, rfl⟩ := successOf_eq_some_iff.1 hop
    exact ⟨stored, hx⟩
  · rintro ⟨stored, hx⟩
    exact ⟨_, hx, rfl⟩

/-- An operation succeeded when one with its key did. -/
theorem succeeded_iff {key : Reference} :
    t.Succeeded key ↔ ∃ op ∈ t.performed, op.key = key := by
  constructor
  · rintro ⟨op, stored, hop, hkey⟩
    exact ⟨op, mem_performed.2 ⟨stored, hop⟩, hkey⟩
  · rintro ⟨op, hop, hkey⟩
    obtain ⟨stored, hop⟩ := mem_performed.1 hop
    exact ⟨op, stored, hop, hkey⟩

/-- A call that ended well adds its operation to those that succeeded. -/
theorem performed_of_done {op : PlannedOp} {stored : Option Entity}
    (h : t'.ended = t.ended ++ [(op, .done stored)]) : t'.performed = t.performed ++ [op] := by
  unfold performed
  rw [h]
  simp [successOf]

/-- A call that did not end well adds nothing. -/
theorem performed_of_not_done {op : PlannedOp} {reply : Reply}
    (h : t'.ended = t.ended ++ [(op, reply)]) (hreply : ∀ stored, reply ≠ .done stored) :
    t'.performed = t.performed := by
  unfold performed
  rw [h]
  cases reply with
  | done stored => exact absurd rfl (hreply stored)
  | refused err => simp [successOf]
  | crashed => simp [successOf]

/-- Successes are different operations of the schedule. -/
theorem Ledger.performed_subperm (h : Ledger waves t) : t.performed.Subperm waves.flatten := by
  have hsub : t.performed.Sublist (t.ended.map (·.1)) := by
    unfold performed
    induction t.ended with
    | nil => exact .slnil
    | cons x rest ih =>
      rw [List.map_cons, List.filterMap_cons]
      split
      · exact ih.cons _
      · rename_i op hop
        obtain ⟨stored, rfl⟩ := successOf_eq_some_iff.1 hop
        exact ih.cons_cons _
  exact (hsub.trans (List.sublist_append_left _ _)).subperm.trans h.accounted

/-- No operation succeeds twice. -/
theorem Ledger.nodup_performed (h : Ledger waves t) (hnodup : (waves.flatten.map (·.key)).Nodup) :
    (t.performed.map (·.key)).Nodup := by
  obtain ⟨l, hperm, hsub⟩ := h.performed_subperm
  exact (hperm.map _).nodup_iff.1 ((hsub.map _).nodup hnodup)

/-! ### Records -/

/-- Every success was answered with what was sent, or with nothing. -/
def Faithful (t : Trail) : Prop :=
  ∀ op stored, (op, Reply.done stored) ∈ t.ended → ∀ e ∈ stored, e = op.entity

/-- Successes stay what they were. -/
theorem Faithful.of_step (h : Step rules t e t') (hf : t'.Faithful) : t.Faithful :=
  fun op stored hop => hf op stored (h.ended_subset hop)

/-- A call that is answered with what was sent, or not answered, leaves all successes so. -/
theorem Faithful.of_ended (h : t.Faithful) {op : PlannedOp} {reply : Reply}
    (hended : t'.ended = t.ended ++ [(op, reply)])
    (hreply : ∀ stored, reply = .done stored → ∀ e ∈ stored, e = op.entity) : t'.Faithful := by
  intro o stored ho x hx
  rw [hended] at ho
  rcases List.mem_append.1 ho with ho | ho
  · exact h o stored ho x hx
  · cases List.mem_singleton.1 ho
    exact hreply stored rfl x hx

/-- Successes whose results have not been collected. -/
def arrived (fs : List Flight) : List PlannedOp :=
  fs.filterMap fun f => f.reply.bind fun reply => successOf (f.op, reply)

/-- What has arrived has done so call by call. -/
@[simp] theorem arrived_append (fs gs : List Flight) :
    arrived (fs ++ gs) = arrived fs ++ arrived gs := by
  simp [arrived]

/-- Without an answer nothing has arrived. -/
@[simp] theorem arrived_cons_none (op : PlannedOp) (fs : List Flight) :
    arrived (⟨op, none⟩ :: fs) = arrived fs := rfl

/-- With a success as its answer a call has arrived, and with any other it has not. -/
theorem arrived_cons_some (op : PlannedOp) (reply : Reply) (fs : List Flight) :
    arrived (⟨op, some reply⟩ :: fs) = (successOf (op, reply)).toList ++ arrived fs := by
  unfold arrived
  rw [List.filterMap_cons]
  cases reply <;> rfl

/-- The report records the successes whose results have been collected. -/
def Recorded (t : Trail) : Prop :=
  ∃ ops : List PlannedOp, t.run.report.changes.Tell (ops.map fun op => (op, op.entity)) ∧
    (ops ++ arrived t.run.flights).Perm t.performed

/-- Every step keeps the record: what is collected moves from what has arrived to what is recorded.
-/
theorem Recorded.step (hreal : rules.settings.dryRun = false) (hl : Ledger waves t)
    (hf : t'.Faithful) (h : t.Recorded) (hstep : Step rules t e t') : t'.Recorded := by
  have hf' := hf.of_step hstep
  obtain ⟨ops, hchanges, hperm⟩ := h
  cases hstep with
  | skip _ _ _ _ => exact ⟨ops, hchanges, hperm⟩
  | pretend _ _ _ _ hdry => rw [hreal] at hdry; cases hdry
  | send _ _ _ _ _ => exact ⟨ops, hchanges, by simpa [arrived, performed] using hperm⟩
  | @finish before after op reply hflights =>
    refine ⟨ops, hchanges, ?_⟩
    have hnew : performed { t with
        run := { t.run with flights := before ++ ⟨op, some reply⟩ :: after }
        ended := t.ended ++ [(op, reply)] } = t.performed ++ (successOf (op, reply)).toList := by
      unfold performed
      rw [List.filterMap_append, List.filterMap_cons]
      cases successOf (op, reply) <;> rfl
    rw [hnew]
    simp only [hflights, arrived_append, arrived_cons_none] at hperm
    simp only [arrived_append, arrived_cons_some]
    refine List.Perm.trans ?_ (hperm.append_right _)
    rw [List.append_assoc, List.append_assoc]
    exact (List.perm_append_comm.append_left _).append_left _
  | @collect before after op reply hflights =>
    have hmem : (op, reply) ∈ t.ended :=
      hl.answered ⟨op, some reply⟩ (by simp [hflights]) reply rfl
    simp only [hflights, arrived_append, arrived_cons_some] at hperm
    cases reply with
    | done stored =>
      refine ⟨ops ++ [op], ?_, ?_⟩
      · have htells := EntityChange.tells_ofOp op none
        rw [← EntityChange.ofOp_answer (hf' op stored hmem)] at htells
        simpa [Run.take, Report.record] using hchanges.add htells
      · simp only [Run.flights_take, arrived_append]
        refine List.Perm.trans ?_ hperm
        simp only [successOf, Option.toList_some, List.append_assoc, List.cons_append,
          List.nil_append]
        exact List.Perm.append_left _ List.perm_middle.symm
    | refused err => exact ⟨ops, hchanges, by simpa [successOf, performed] using hperm⟩
    | crashed => exact ⟨ops, hchanges, by simpa [successOf, performed] using hperm⟩
  | next _ hflights _ =>
    refine ⟨ops, ?_, by simpa [arrived, performed] using hperm⟩
    unfold Run.beginWave
    split <;> exact hchanges
  | cancel => exact ⟨ops, hchanges, hperm⟩

/-- At the start nothing is recorded. -/
theorem recorded_start (s : Schedule) (cancelled : Bool) : (start s cancelled).Recorded :=
  ⟨[], Changes.Tell.nil, List.Perm.refl _⟩

/-- So the report records at every point the successes that have been collected. -/
theorem recorded_of_replay? (hreal : rules.settings.dryRun = false) {s : Schedule}
    {cancelled : Bool} {events : List Event}
    (h : (start s cancelled).replay? rules events = some t) (hf : t.Faithful) : t.Recorded := by
  have hall := replay?_induction (P := fun t => Ledger s.waves t ∧ (t.Faithful → t.Recorded))
    (fun _ _ _ h hstep => ⟨h.1.step hstep, fun hf =>
      (h.2 (hf.of_step hstep)).step hreal h.1 hf hstep⟩)
    ⟨ledger_start s cancelled, fun _ => recorded_start s cancelled⟩ h
  exact hall.2 hf

/-- The account of what was not attempted changes nothing in what was done. -/
theorem changes_finalReport (r : Run) : r.finalReport.changes = r.report.changes := by
  unfold Run.finalReport
  split
  · rfl
  · split
    · rfl
    · split <;> rfl

/-- A run that is over records every success. -/
theorem Recorded.of_isOver (h : t.Recorded) (hover : t.run.isOver = true) :
    ∃ ops : List PlannedOp, t.run.finalReport.changes.Tell (ops.map fun op => (op, op.entity)) ∧
      ops.Perm t.performed := by
  obtain ⟨ops, hchanges, hperm⟩ := h
  have hflights : t.run.flights = [] := by
    unfold Run.isOver at hover
    simp only [Bool.and_eq_true, List.isEmpty_iff] at hover
    exact hover.1.2
  rw [hflights] at hperm
  refine ⟨ops, ?_, by simpa [arrived] using hperm⟩
  rw [changes_finalReport]
  exact hchanges

/-! ### Runs without failures -/

/-- Every call succeeded, nobody cancelled the run, and nothing was left out. -/
structure Smooth (t : Trail) : Prop where
  cancelled : t.run.cancelled = false
  halted : t.run.halted = false
  errors : t.run.report.errors = []
  attempted : t.run.unattempted = 0
  statuses : ∀ x ∈ t.run.statuses, x.2 = .done

/-- A smooth run goes on. -/
theorem Smooth.isStopped (h : t.Smooth) : t.run.isStopped = false := by
  simp [Run.isStopped, h.cancelled, h.halted]

/-- No step of a run but cancellation and calls that fail makes trouble. -/
theorem Smooth.step (hl : Ledger waves t) (h : t.Smooth) (hstep : Step rules t e t')
    (hcancel : e ≠ .cancel)
    (hdone : ∀ x ∈ t'.ended, ∃ stored, x.2 = .done stored) : t'.Smooth := by
  have hgo : t.run.isStopped = false := h.isStopped
  have unblocked : ∀ key, t.run.blocker? rules.needs key = none := by
    intro key
    refine List.find?_eq_none.2 fun n _ => ?_
    unfold Run.status?
    cases hfind : t.run.statuses.find? (·.1 == n) with
    | none => simp
    | some x => simp [h.statuses x (List.mem_of_find?_eq_some hfind)]
  cases hstep with
  | skip _ _ _ hblock => rw [unblocked] at hblock; cases hblock
  | pretend _ _ _ _ _ =>
    refine ⟨h.cancelled, h.halted, h.errors, h.attempted, fun x hx => ?_⟩
    rcases List.mem_cons.1 hx with rfl | hx
    · rfl
    · exact h.statuses x hx
  | send _ _ _ _ _ => exact ⟨h.cancelled, h.halted, h.errors, h.attempted, h.statuses⟩
  | finish _ => exact ⟨h.cancelled, h.halted, h.errors, h.attempted, h.statuses⟩
  | @collect before after op reply hflights =>
    obtain ⟨stored, hreply⟩ := hdone (op, reply)
      (hl.answered ⟨op, some reply⟩ (by simp [hflights]) reply rfl)
    cases hreply
    refine ⟨h.cancelled, h.halted, h.errors, h.attempted, fun x hx => ?_⟩
    rcases List.mem_cons.1 hx with rfl | hx
    · rfl
    · exact h.statuses x hx
  | next _ _ hthrough =>
    have hempty : t.run.queue = [] := hthrough.resolve_right (by simp [hgo])
    unfold Run.beginWave
    simp only [hgo, Bool.false_eq_true, if_false, hempty, List.length_nil, Nat.add_zero]
    exact ⟨h.cancelled, h.halted, h.errors, h.attempted, h.statuses⟩
  | cancel => exact absurd rfl hcancel

/-- A smooth run that is over has come to all operations. -/
theorem Smooth.queue_eq_nil (h : t.Smooth) (hover : t.run.isOver = true) : t.run.queue = [] := by
  unfold Run.isOver at hover
  simpa [h.isStopped] using (Bool.and_eq_true_iff.1 hover).2

/-- A smooth run that is over has nothing to add to its report. -/
theorem Smooth.finalReport_eq (h : t.Smooth) (hover : t.run.isOver = true) :
    t.run.finalReport = t.run.report := by
  unfold Run.finalReport Run.remaining
  rw [h.attempted, h.queue_eq_nil hover, if_pos (by rfl)]

/-- A smooth run that is over has nothing to complain of. -/
theorem Smooth.errors_eq_nil (h : t.Smooth) (hover : t.run.isOver = true) :
    t.run.finalReport.errors = [] := by
  rw [h.finalReport_eq hover]
  exact h.errors

/-- In a smooth run that is over every operation has succeeded. -/
theorem Smooth.succeeded_of_isOver (h : t.Smooth) (hb : Barrier waves t)
    (hdone : ∀ x ∈ t.ended, ∃ stored, x.2 = .done stored) (hover : t.run.isOver = true)
    {op : PlannedOp} (hop : op ∈ waves.flatten) : t.Succeeded op.key := by
  have hgo : t.run.isStopped = false := h.isStopped
  unfold Run.isOver at hover
  simp only [Bool.and_eq_true, List.isEmpty_iff, hgo, Bool.or_false] at hover
  obtain ⟨⟨hwaves, hflights⟩, hqueue⟩ := hover
  obtain ⟨past, wave, hsplit, hpast, -, hwave⟩ := hb.through hgo
  have hmem : op ∈ past.flatten ∨ op ∈ wave := by
    have hflat := congrArg List.flatten hsplit
    rw [hwaves] at hflat
    have : op ∈ (past ++ [wave]).flatten := by
      rw [← hflat]
      simpa using hop
    simpa using this
  have hsettled : t.Settled op.key := by
    rcases hmem with hop | hop
    · exact hpast op hop
    · rcases hwave op hop with hin | ⟨f, hf, -⟩ | hs
      · rw [hqueue] at hin
        cases hin
      · rw [hflights] at hf
        cases hf
      · exact hs
  rcases hsettled with ⟨s, hs⟩ | ⟨o, ho, -⟩
  · have : s = .done := h.statuses _ hs
    subst this
    exact hb.done _ hs
  · obtain ⟨stored, hno⟩ := hdone _ ho
    cases hno

end Trail

end Gateway
