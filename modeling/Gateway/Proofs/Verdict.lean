import Gateway.Proofs.Account
import Gateway.Proofs.Prerequisite

/-!
# What becomes of an operation

When failures are passed over, nobody cancels the run and the gateway's answers depend on nothing
but the operation, then it is settled beforehand what becomes of every operation of a plan. It
comes to nothing when it is refused, or when one that it needs comes to nothing (`Plan.Fails`); in
the second case it is left out, and the first of those that it needs and that come to nothing is to
blame (`Plan.Verdict`). Every history of a run pronounces these verdicts and no others
(`Trail.exists_verdicts`), because whatever an operation needs is through before it comes up. So
two runs that are over report the same up to order, whatever number of calls may be in flight and
however they interleave (`Trail.outcome_unique`).
-/

namespace Gateway

/-- A gateway that loses no call and whose answer to a call depends on the operation alone. -/
abbrev Client := PlannedOp → Except ClientError (Option Entity)

namespace Client

/-- How a call ends. -/
def reply (client : Client) (op : PlannedOp) : Reply :=
  match client op with
  | .ok stored => .done stored
  | .error cause => .refused cause

/-- What answers operations: in a dry run nothing is sent, and all are taken as done. -/
def under (client : Client) (settings : RunSettings) : Client :=
  if settings.dryRun then fun _ => .ok none else client

variable {client : Client} {op : PlannedOp}

/-- A worker that gets an answer, whatever it says, has not crashed. -/
theorem reply_ne_crashed : client.reply op ≠ .crashed := by
  unfold reply
  cases client op <;> simp

theorem reply_eq_done_iff {stored : Option Entity} :
    client.reply op = .done stored ↔ client op = .ok stored := by
  unfold reply
  cases client op <;> simp

theorem reply_eq_refused_iff {cause : ClientError} :
    client.reply op = .refused cause ↔ client op = .error cause := by
  unfold reply
  cases client op <;> simp

end Client

/-! ### Verdicts -/

namespace Plan

/-- The operation on an object comes to nothing: it is refused, or it needs one that comes to
nothing. -/
inductive Fails (p : Plan) (client : Client) : Reference → Prop
  | refused {op : PlannedOp} {cause : ClientError} (hop : op ∈ p.mutations)
      (hcause : client op = .error cause) : Fails p client op.key
  | dependent {key n : Reference} (hneed : n ∈ p.needs key) (hfails : Fails p client n) :
      Fails p client key

/-- What is to become of an operation: it is left out because of the first of those it needs that
come to nothing, and if there are none it is answered. -/
inductive Verdict (p : Plan) (client : Client) (op : PlannedOp) : Fate → Prop
  | skipped {before after : List Reference} {n : Reference}
      (hneeds : p.needs op.key = before ++ n :: after) (hbefore : ∀ m ∈ before, ¬p.Fails client m)
      (hfails : p.Fails client n) : Verdict p client op (.skipped n)
  | answered (hneeds : ∀ n ∈ p.needs op.key, ¬p.Fails client n) :
      Verdict p client op (.ofReply (client.reply op))

variable {p : Plan} {client : Client} {op : PlannedOp}

/-- A mutation comes to nothing for one of two reasons. -/
theorem fails_iff (hnodup : (p.mutations.map (·.key)).Nodup) (hop : op ∈ p.mutations) :
    p.Fails client op.key ↔
      (∃ cause, client op = .error cause) ∨ ∃ n ∈ p.needs op.key, p.Fails client n := by
  constructor
  · intro h
    generalize hkey : op.key = key at h
    cases h with
    | refused hop' hcause =>
      rw [← eq_of_key hnodup hop hop' hkey] at hcause
      exact .inl ⟨_, hcause⟩
    | dependent hneed hfails => exact .inr ⟨_, hneed, hfails⟩
  · rintro (⟨cause, hcause⟩ | ⟨n, hneed, hfails⟩)
    · exact .refused hop hcause
    · exact .dependent hneed hfails

/-- A mutation that is done and needs none that comes to nothing does not come to nothing. -/
theorem not_fails (hnodup : (p.mutations.map (·.key)).Nodup) (hop : op ∈ p.mutations)
    {stored : Option Entity} (hdone : client op = .ok stored)
    (hneeds : ∀ n ∈ p.needs op.key, ¬p.Fails client n) : ¬p.Fails client op.key := by
  rw [fails_iff hnodup hop, hdone]
  rintro (⟨cause, hcause⟩ | ⟨n, hn, hfails⟩)
  · cases hcause
  · exact hneeds n hn hfails

/-- A list has one first member with a property. -/
theorem first_unique {α : Type} {P : α → Prop} {before before' after after' : List α} {x x' : α}
    (h : before ++ x :: after = before' ++ x' :: after') (hbefore : ∀ y ∈ before, ¬P y) (hx : P x)
    (hbefore' : ∀ y ∈ before', ¬P y) (hx' : P x') : x = x' := by
  induction before generalizing before' with
  | nil =>
    cases before' with
    | nil => exact (List.cons.inj h).1
    | cons y rest =>
      rw [(List.cons.inj h).1] at hx
      exact absurd hx (hbefore' y List.mem_cons_self)
  | cons z rest ih =>
    cases before' with
    | nil =>
      rw [← (List.cons.inj h).1] at hx'
      exact absurd hx' (hbefore z List.mem_cons_self)
    | cons y rest' =>
      exact ih (List.cons.inj h).2 (fun y hy => hbefore y (List.mem_cons_of_mem _ hy))
        fun y hy => hbefore' y (List.mem_cons_of_mem _ hy)

/-- There is one verdict on an operation. -/
theorem Verdict.unique {fate fate' : Fate} (h : p.Verdict client op fate)
    (h' : p.Verdict client op fate') : fate = fate' := by
  cases h with
  | @skipped before after n hneeds hbefore hfails =>
    cases h' with
    | @skipped before' after' n' hneeds' hbefore' hfails' =>
      rw [hneeds] at hneeds'
      rw [first_unique hneeds' hbefore hfails hbefore' hfails']
    | answered hno => exact absurd hfails (hno n (by simp [hneeds]))
  | answered hno =>
    cases h' with
    | @skipped before' after' n' hneeds' hbefore' hfails' =>
      exact absurd hfails' (hno n' (by simp [hneeds']))
    | answered _ => rfl

end Plan

namespace Trail

variable {p : Plan} {client : Client} {rules : RunRules} {t t' : Trail} {e : Event}
  {events : List Event} {op : PlannedOp} {fates : List (PlannedOp × Fate)} {left : List PlannedOp}

/-! ### Answers -/

/-- Every call that has ended was answered by a gateway. -/
def AnsweredBy (client : Client) (t : Trail) : Prop := ∀ x ∈ t.ended, x.2 = client.reply x.1

/-- If all calls so far were answered by a gateway, so were all calls up to any moment before. -/
theorem AnsweredBy.of_step (h : t'.AnsweredBy client) (hstep : Step rules t e t') :
    t.AnsweredBy client := fun x hx => h x (hstep.ended_subset hx)

/-- In a dry run nothing is sent. -/
theorem Step.idle (hdry : rules.settings.dryRun = true) (hstep : Step rules t e t')
    (h : t.run.flights = [] ∧ t.ended = []) : t'.run.flights = [] ∧ t'.ended = [] := by
  obtain ⟨hflights, hended⟩ := h
  cases hstep with
  | send _ _ _ _ hreal =>
    rw [hdry] at hreal
    cases hreal
  | finish hsome => simp [hflights] at hsome
  | collect hsome => simp [hflights] at hsome
  | next _ _ _ => exact ⟨by simpa using hflights, hended⟩
  | _ => exact ⟨hflights, hended⟩

/-- Whatever answers the calls of a run answers its operations. -/
theorem AnsweredBy.under {s : Schedule} {cancelled : Bool} (hanswers : t.AnsweredBy client)
    (h : (start s cancelled).replay? rules events = some t) :
    t.AnsweredBy (client.under rules.settings) := by
  unfold Client.under
  by_cases hdry : rules.settings.dryRun = true
  · have hidle : t.run.flights = [] ∧ t.ended = [] :=
      replay?_induction (P := fun t => t.run.flights = [] ∧ t.ended = [])
        (fun _ _ _ h hstep => hstep.idle hdry h) ⟨rfl, rfl⟩ h
    intro x hx
    rw [hidle.2] at hx
    cases hx
  · rw [if_neg hdry]
    exact hanswers

/-! ### Runs pronounce the verdicts -/

/-- What is noted of an operation agrees with the verdict on it, and no operation in flight needs
one that comes to nothing. -/
structure Judged (p : Plan) (client : Client) (t : Trail) : Prop where
  noted : ∀ key s, (key, s) ∈ t.run.statuses → (s = .done ↔ ¬p.Fails client key)
  free : ∀ f ∈ t.run.flights, ∀ n ∈ p.needs f.op.key, ¬p.Fails client n

section

variable (hnodup : (p.mutations.map (·.key)).Nodup) (horder : InOrder (Schedule.ofPlan p).waves t)
  (hanswers : t.AnsweredBy client) (h : Judged p client t) (hgo : t.run.isStopped = false)
  (hop : op ∈ t.run.queue)

include hnodup horder hanswers h hgo hop

/-- When an operation comes up, it is known of each that it needs whether it came to nothing. -/
theorem Judged.status_of_need {n : Reference} (hn : n ∈ p.needs op.key) :
    ∃ s, t.run.status? n = some s ∧ (s = .done ↔ ¬p.Fails client n) := by
  rcases horder.settled_of_needs hnodup hgo hop hn with ⟨s, hs⟩ | ⟨o, ho, -⟩
  · obtain ⟨s', hstatus, hmem⟩ := Run.exists_status? hs
    exact ⟨s', hstatus, h.noted n s' hmem⟩
  · exact absurd (hanswers _ ho).symm Client.reply_ne_crashed

/-- An operation that nothing stands in the way of needs none that comes to nothing. -/
theorem Judged.free_of_not_blocked (hblock : t.run.blocker? p.needs op.key = none) :
    ∀ n ∈ p.needs op.key, ¬p.Fails client n := by
  intro n hn
  obtain ⟨s, hs, hiff⟩ := h.status_of_need hnodup horder hanswers hgo hop hn
  exact hiff.1 (Run.eq_done_of_not_blocked hblock hn hs)

/-- What an operation is left out for is the first that it needs and that comes to nothing. -/
theorem Judged.exists_first {n : Reference} (hblock : t.run.blocker? p.needs op.key = some n) :
    ∃ before after, p.needs op.key = before ++ n :: after ∧
      (∀ m ∈ before, ¬p.Fails client m) ∧ p.Fails client n := by
  obtain ⟨hn, before, after, hneeds, hbefore⟩ := List.find?_eq_some_iff_append.1 hblock
  refine ⟨before, after, hneeds, fun m hm => ?_, ?_⟩
  · obtain ⟨s, hs, hiff⟩ :=
      h.status_of_need hnodup horder hanswers hgo hop (n := m) (by simp [hneeds, hm])
    have hclear := hbefore m hm
    rw [hs] at hclear
    refine hiff.1 ?_
    cases s <;> simp_all
  · obtain ⟨s, hs, hiff⟩ :=
      h.status_of_need hnodup horder hanswers hgo hop (n := n) (by simp [hneeds])
    rw [hs] at hn
    by_contra hno
    rw [hiff.2 hno] at hn
    simp at hn

end

/-- Operations in the queue and those that have been answered are mutations of the plan. -/
theorem Ledger.mem_mutations (h : Ledger (Schedule.ofPlan p).waves t)
    (hop : op ∈ t.run.queue ∨ op ∈ t.ended.map (·.1)) : op ∈ p.mutations := by
  refine (Schedule.flatten_waves_perm p).subset (h.accounted.subset ?_)
  unfold Trail.accounted
  rcases hop with hop | hop
  · exact List.mem_append_right _ (List.mem_append_right _ (List.mem_append_left _ hop))
  · exact List.mem_append_left _ hop

/-- Whatever happens, what is noted agrees with the verdicts. -/
theorem Judged.step (hnodup : (p.mutations.map (·.key)).Nodup) (hneeds : rules.needs = p.needs)
    (hdry : rules.settings.dryRun = true → ∀ op, client op = .ok none)
    (hl : Ledger (Schedule.ofPlan p).waves t) (horder : InOrder (Schedule.ofPlan p).waves t)
    (hanswers : t.AnsweredBy client) (h : Judged p client t) (hstep : Step rules t e t') :
    Judged p client t' := by
  have hnote : ∀ {op : PlannedOp} {status : Status}, (status = .done ↔ ¬p.Fails client op.key) →
      ∀ key s, (key, s) ∈ (op.key, status) :: t.run.statuses →
        (s = .done ↔ ¬p.Fails client key) := by
    intro op status hop key s hs
    rcases List.mem_cons.1 hs with heq | hs
    · cases heq
      exact hop
    · exact h.noted key s hs
  cases hstep with
  | @skip op queue blocker hqueue _ hgo hblock =>
    have hin : op ∈ t.run.queue := by simp [hqueue]
    rw [hneeds] at hblock
    obtain ⟨before, after, hsplit, -, hfails⟩ :=
      h.exists_first hnodup horder hanswers hgo hin hblock
    have hfails : p.Fails client op.key := .dependent (by simp [hsplit]) hfails
    exact ⟨hnote (by simp [hfails]), h.free⟩
  | @pretend op queue hqueue _ hgo hblock hdry' =>
    have hin : op ∈ t.run.queue := by simp [hqueue]
    rw [hneeds] at hblock
    have hdone : ¬p.Fails client op.key :=
      Plan.not_fails hnodup (hl.mem_mutations (.inl hin)) (hdry hdry' op)
        (h.free_of_not_blocked hnodup horder hanswers hgo hin hblock)
    exact ⟨hnote (by simp [hdone]), h.free⟩
  | @send op queue hqueue _ hgo hblock _ =>
    have hin : op ∈ t.run.queue := by simp [hqueue]
    rw [hneeds] at hblock
    refine ⟨h.noted, fun f hf => ?_⟩
    rcases List.mem_append.1 hf with hf | hf
    · exact h.free f hf
    · rw [List.mem_singleton.1 hf]
      exact h.free_of_not_blocked hnodup horder hanswers hgo hin hblock
  | @finish before after op reply hflights =>
    refine ⟨h.noted, fun f hf => ?_⟩
    rcases List.mem_append.1 hf with hf | hf
    · exact h.free f (by simp [hflights, hf])
    · rcases List.mem_cons.1 hf with rfl | hf
      · exact h.free ⟨op, none⟩ (by simp [hflights])
      · exact h.free f (by simp [hflights, hf])
  | @collect before after op reply hflights =>
    have hended := hl.answered ⟨op, some reply⟩ (by simp [hflights]) reply rfl
    have hop := hl.mem_mutations (.inr (List.mem_map_of_mem hended))
    have hreply := hanswers _ hended
    have hrest := h.free ⟨op, some reply⟩ (by simp [hflights])
    refine ⟨?_, fun f hf => ?_⟩
    · cases reply with
      | done stored =>
        have hdone : ¬p.Fails client op.key :=
          Plan.not_fails hnodup hop (Client.reply_eq_done_iff.1 hreply.symm) hrest
        exact hnote (by simp [hdone])
      | refused cause =>
        have hfails : p.Fails client op.key :=
          .refused hop (Client.reply_eq_refused_iff.1 hreply.symm)
        exact hnote (by simp [hfails])
      | crashed => exact absurd hreply.symm Client.reply_ne_crashed
    · rw [Run.flights_take] at hf
      rcases List.mem_append.1 hf with hf | hf
      · exact h.free f (by simp [hflights, hf])
      · exact h.free f (by simp [hflights, hf])
  | next _ _ _ => exact ⟨by simpa using h.noted, by simpa using h.free⟩
  | cancel => exact ⟨h.noted, h.free⟩

/-- What becomes known of an operation is the verdict on it. -/
theorem Judged.verdict (hnodup : (p.mutations.map (·.key)).Nodup) (hneeds : rules.needs = p.needs)
    (hdry : rules.settings.dryRun = true → ∀ op, client op = .ok none)
    (hl : Ledger (Schedule.ofPlan p).waves t) (horder : InOrder (Schedule.ofPlan p).waves t)
    (hanswers : t.AnsweredBy client) (h : Judged p client t) {x : PlannedOp × Fate}
    (hx : Learns rules t x) : p.Verdict client x.1 x.2 := by
  cases hx with
  | @skipped op blocker hin hgo hblock =>
    rw [hneeds] at hblock
    obtain ⟨before, after, hsplit, hbefore, hfails⟩ :=
      h.exists_first hnodup horder hanswers hgo hin hblock
    exact .skipped hsplit hbefore hfails
  | @pretended op hin hgo hblock hdry' =>
    rw [hneeds] at hblock
    have hverdict : p.Verdict client op (.ofReply (client.reply op)) :=
      .answered (h.free_of_not_blocked hnodup horder hanswers hgo hin hblock)
    rw [Client.reply_eq_done_iff.2 (hdry hdry' op)] at hverdict
    exact hverdict
  | @answered op reply hflight =>
    have hreply := hanswers _ (hl.answered _ hflight reply rfl)
    dsimp only at hreply ⊢
    rw [hreply]
    exact .answered (h.free _ hflight)

/-! ### Runs that are left alone -/

/-- A run that passes failures over goes on until somebody cancels it. -/
theorem Step.goesOn (hpass : rules.settings.continueOnError = true) (hne : e ≠ .cancel)
    (hstep : Step rules t e t') (hgo : t.run.isStopped = false) : t'.run.isStopped = false := by
  cases hstep with
  | @collect before after op reply _ =>
    cases reply <;> simpa [Run.take, Run.note, Run.haltUnless, Run.isStopped, hpass] using hgo
  | next _ _ _ => simpa using hgo
  | cancel => exact absurd rfl hne
  | _ => exact hgo

/-- A run that passes failures over has not stopped at the end of a history without cancellation. -/
theorem goesOn_of_replay? (hpass : rules.settings.continueOnError = true)
    (hcancel : Event.cancel ∉ events) (hgo : t.run.isStopped = false)
    (h : t.replay? rules events = some t') : t'.run.isStopped = false := by
  refine replay?_induction_mem (P := fun t => t.run.isStopped = false) ?_ hgo h
  intro t e t' he hgo hstep
  have hne : e ≠ .cancel := by
    rintro rfl
    exact hcancel he
  exact hstep.goesOn hpass hne hgo

/-- If a client has answered the calls so far, whatever is known agrees with the verdicts. -/
structure Told (p : Plan) (client : Client) (t : Trail) : Prop where
  ledger : Ledger (Schedule.ofPlan p).waves t
  inOrder : InOrder (Schedule.ofPlan p).waves t
  judged : t.AnsweredBy client → Judged p client t
  account : t.AnsweredBy client → ∃ fates left, Account (Schedule.ofPlan p).waves t fates left ∧
    ∀ x ∈ fates, p.Verdict client x.1 x.2

/-- What an event makes known agrees with the verdicts. -/
theorem Told.step (hnodup : (p.mutations.map (·.key)).Nodup) (hneeds : rules.needs = p.needs)
    (hdry : rules.settings.dryRun = true → ∀ op, client op = .ok none) (h : Told p client t)
    (hstep : Step rules t e t') : Told p client t' where
  ledger := h.ledger.step hstep
  inOrder := h.inOrder.step h.ledger hstep
  judged := by
    intro hanswers'
    have hanswers := hanswers'.of_step hstep
    exact (h.judged hanswers).step hnodup hneeds hdry h.ledger h.inOrder hanswers hstep
  account := by
    intro hanswers'
    have hanswers := hanswers'.of_step hstep
    obtain ⟨fates, left, haccount, hverdicts⟩ := h.account hanswers
    obtain ⟨known, given, hknown, haccount'⟩ := haccount.step hstep
    refine ⟨fates ++ known, left ++ given, haccount', fun x hx => ?_⟩
    rcases List.mem_append.1 hx with hx | hx
    · exact hverdicts x hx
    · exact (h.judged hanswers).verdict hnodup hneeds hdry h.ledger h.inOrder hanswers (hknown x hx)

/-- Before the first event nothing is known. -/
theorem told_start (p : Plan) (client : Client) (cancelled : Bool) :
    Told p client (start (Schedule.ofPlan p) cancelled) where
  ledger := ledger_start _ _
  inOrder := inOrder_start _ _
  judged _ := ⟨by simp [start, Run.start], by simp [start, Run.start]⟩
  account _ := ⟨[], [], account_start _ _, by simp⟩

/-- When a run that passes failures over is over and nobody has cancelled it, its report is that of
the verdicts on all mutations of the plan. -/
theorem exists_verdicts (hnodup : (p.mutations.map (·.key)).Nodup) {settings : RunSettings}
    (hpass : settings.continueOnError = true) (hcancel : Event.cancel ∉ events)
    (hreach : (start (Schedule.ofPlan p) false).replay?
      ⟨settings, (Schedule.ofPlan p).needs⟩ events = some t)
    (hanswers : t.AnsweredBy client) (hover : t.run.isOver = true) :
    ∃ fates, (fates.map (·.1)).Perm p.mutations ∧
      (∀ x ∈ fates, p.Verdict (client.under settings) x.1 x.2) ∧
      t.run.finalReport = .ofFates fates := by
  have hdry : settings.dryRun = true → ∀ op, client.under settings op = .ok none := by
    intro hdry op
    rw [Client.under, if_pos hdry]
  have htold : Told p (client.under settings) t :=
    replay?_induction (fun _ _ _ h hstep => h.step hnodup rfl hdry hstep) (told_start _ _ _) hreach
  obtain ⟨fates, left, haccount, hverdicts⟩ := htold.account (hanswers.under hreach)
  obtain ⟨given, hperm, hremaining, hstopped⟩ := haccount.of_isOver hover
  have hgo : t.run.isStopped = false := goesOn_of_replay? hpass hcancel rfl hreach
  have hnone : given = [] := by
    by_contra hgiven
    rw [hstopped hgiven] at hgo
    cases hgo
  subst hnone
  refine ⟨fates, ?_, hverdicts, ?_⟩
  · rw [List.append_nil] at hperm
    exact hperm.trans (Schedule.flatten_waves_perm p)
  · rw [Run.finalReport, hremaining, List.length_nil, if_pos rfl, haccount.report]

end Trail

/-! ### Verdicts determine reports -/

/-- Two reports count and say the same, if not in the same order. -/
structure Report.SameUpToOrder (r r' : Report) : Prop where
  stats : r.stats = r'.stats
  created : r.changes.created.Perm r'.changes.created
  updated : r.changes.updated.Perm r'.changes.updated
  deleted : r.changes.deleted.Perm r'.changes.deleted
  errors : r.errors.Perm r'.errors

theorem Stats.eq_of_on {s s' : Stats} (h : ∀ a, a ≠ .keep → s.on a = s'.on a) : s = s' := by
  have hcreated : s.created = s'.created := h .create (by simp)
  have hupdated : s.updated = s'.updated := h .update (by simp)
  have hdeleted : s.deleted = s'.deleted := h .delete (by simp)
  cases s
  cases s'
  simp_all

/-- The order in which fates become known only shows in the order of what is reported. -/
theorem Report.sameUpToOrder_ofFates {fates fates' : List (PlannedOp × Fate)}
    (h : fates.Perm fates') : (ofFates fates).SameUpToOrder (ofFates fates') := by
  have hchanges : ∀ a, a ≠ .keep →
      ((ofFates fates).changes.on a).Perm ((ofFates fates').changes.on a) := by
    intro a ha
    rw [on_ofFates _ ha, on_ofFates _ ha]
    exact h.filterMap _
  refine ⟨Stats.eq_of_on fun a ha => ?_, hchanges .create (by simp), hchanges .update (by simp),
    hchanges .delete (by simp), ?_⟩
  · rw [stats_on_ofFates, stats_on_ofFates]
    exact (hchanges a ha).length_eq
  · rw [errors_ofFates, errors_ofFates]
    exact h.filterMap _

/-- Operations of distinct objects meet with the same fates whenever each meets with the verdict on
it. -/
theorem Plan.perm_of_verdicts {p : Plan} {client : Client}
    (hnodup : (p.mutations.map (·.key)).Nodup) {fates fates' : List (PlannedOp × Fate)}
    (hops : (fates.map (·.1)).Perm p.mutations) (hops' : (fates'.map (·.1)).Perm p.mutations)
    (h : ∀ x ∈ fates, p.Verdict client x.1 x.2) (h' : ∀ x ∈ fates', p.Verdict client x.1 x.2) :
    fates.Perm fates' := by
  have hmutations : p.mutations.Nodup := hnodup.of_map _
  have hsub : ∀ {l l' : List (PlannedOp × Fate)}, (l.map (·.1)).Perm p.mutations →
      (l'.map (·.1)).Perm p.mutations → (∀ x ∈ l, p.Verdict client x.1 x.2) →
      (∀ x ∈ l', p.Verdict client x.1 x.2) → l ⊆ l' := by
    intro l l' hl hl' hv hv' x hx
    obtain ⟨y, hy, hxy⟩ := List.mem_map.1 (hl'.symm.subset (hl.subset (List.mem_map_of_mem hx)))
    have hfate : y.2 = x.2 := (hxy ▸ hv' y hy).unique (hv x hx)
    rwa [← Prod.ext hxy hfate]
  refine (List.perm_ext_iff_of_nodup ?_ ?_).2 fun x => ⟨?_, ?_⟩
  · exact (hops.nodup_iff.2 hmutations).of_map _
  · exact (hops'.nodup_iff.2 hmutations).of_map _
  · exact fun hx => hsub hops hops' h h' hx
  · exact fun hx => hsub hops' hops h' h hx

namespace Trail

/-- For every plan without two mutations of one object and every gateway that loses no call and
whose answers depend on the operation alone: any two histories of runs of the plan that pass
failures over, that nobody cancels and that are over end in reports that say the same up to order,
whatever number of calls may be in flight and in whatever order they end. -/
theorem outcome_unique (p : Plan) (hnodup : (p.mutations.map (·.key)).Nodup) (client : Client)
    (dryRun : Bool) (slots slots' : Nat) (events events' : List Event) (t t' : Trail)
    (hreach : (start (Schedule.ofPlan p) false).replay?
      ⟨⟨slots, dryRun, true⟩, (Schedule.ofPlan p).needs⟩ events = some t)
    (hreach' : (start (Schedule.ofPlan p) false).replay?
      ⟨⟨slots', dryRun, true⟩, (Schedule.ofPlan p).needs⟩ events' = some t')
    (hcancel : Event.cancel ∉ events) (hcancel' : Event.cancel ∉ events')
    (hanswers : t.AnsweredBy client) (hanswers' : t'.AnsweredBy client)
    (hover : t.run.isOver = true) (hover' : t'.run.isOver = true) :
    t.run.finalReport.SameUpToOrder t'.run.finalReport := by
  obtain ⟨fates, hops, hverdicts, hreport⟩ :=
    exists_verdicts hnodup rfl hcancel hreach hanswers hover
  obtain ⟨fates', hops', hverdicts', hreport'⟩ :=
    exists_verdicts hnodup rfl hcancel' hreach' hanswers' hover'
  rw [hreport, hreport']
  exact Report.sameUpToOrder_ofFates (Plan.perm_of_verdicts hnodup hops hops' hverdicts hverdicts')

/-! ### One call after the other, and all at once -/

/-- A gateway that refuses whatever is about the second service, and answers nothing else. -/
def secondDown : Client := fun op =>
  if op.key = ⟨.service, "s2"⟩ then .error (.unavailable "down") else .ok none

/-- Whether a call has ended as that gateway ends it. -/
def isSecondDown (x : PlannedOp × Reply) : Bool :=
  match x.2 with
  | .done none => x.1.key != ⟨.service, "s2"⟩
  | .refused cause => x.1.key == ⟨.service, "s2"⟩ && cause == .unavailable "down"
  | _ => false

theorem answeredBy_secondDown {t : Trail} (h : t.ended.all isSecondDown = true) :
    t.AnsweredBy secondDown := by
  intro ⟨op, reply⟩ hx
  have hx := List.all_eq_true.1 h _ hx
  unfold isSecondDown at hx
  split at hx <;> simp_all [Client.reply, secondDown]

/-- The three services are called one after the other. -/
def oneByOne : List Event :=
  [.nextWave, .dispatch, .finish 0 (.done none), .collect 0, .dispatch,
    .finish 0 (.refused (.unavailable "down")), .collect 0, .dispatch, .finish 0 (.done none),
    .collect 0, .nextWave, .dispatch, .nextWave, .dispatch, .finish 0 (.done none), .collect 0]

/-- The three services are called at once, and the calls end in the opposite order. -/
def lastComesFirst : List Event :=
  [.nextWave, .dispatch, .dispatch, .dispatch, .finish 2 (.done none), .collect 2,
    .finish 1 (.refused (.unavailable "down")), .finish 0 (.done none), .collect 0, .collect 0,
    .nextWave, .dispatch, .nextWave, .dispatch, .finish 0 (.done none), .collect 0]

/-- Where a history of the plan for three services leads, some number of calls being in flight at a
time. -/
def withSlots (slots : Nat) (events : List Event) : Option Trail :=
  (start (Schedule.ofPlan threeServices) false).replay?
    ⟨⟨slots, false, true⟩, (Schedule.ofPlan threeServices).needs⟩ events

/-- Either way two services are created, in one order or the other, the second is refused and the
route to it left out. -/
theorem outcome_unique_of_secondDown : ∃ t t', withSlots 1 oneByOne = some t ∧
    withSlots 3 lastComesFirst = some t' ∧
      t.run.finalReport.changes.created.map (·.id) = ["s1", "s3"] ∧
      t'.run.finalReport.changes.created.map (·.id) = ["s3", "s1"] ∧
      t.run.finalReport.errors.length = 2 ∧ t'.run.finalReport.errors.length = 2 ∧
      t.run.finalReport.SameUpToOrder t'.run.finalReport := by
  have heval : (withSlots 1 oneByOne).any (fun t => t.run.isOver && t.ended.all isSecondDown &&
      t.run.finalReport.changes.created.map (·.id) == ["s1", "s3"] &&
      t.run.finalReport.errors.length == 2) = true := by
    decide +kernel
  have heval' : (withSlots 3 lastComesFirst).any (fun t => t.run.isOver &&
      t.ended.all isSecondDown &&
      t.run.finalReport.changes.created.map (·.id) == ["s3", "s1"]) = true := by
    decide +kernel
  obtain ⟨t, hreach, hfacts⟩ := (Option.any_eq_true _ _).1 heval
  obtain ⟨t', hreach', hfacts'⟩ := (Option.any_eq_true _ _).1 heval'
  simp only [Bool.and_eq_true, beq_iff_eq] at hfacts hfacts'
  obtain ⟨⟨⟨hover, hended⟩, hcreated⟩, herrors⟩ := hfacts
  obtain ⟨⟨hover', hended'⟩, hcreated'⟩ := hfacts'
  have hsame := outcome_unique threeServices (by decide +kernel) secondDown false 1 3 oneByOne
    lastComesFirst t t' hreach hreach' (by simp [oneByOne]) (by simp [lastComesFirst])
    (answeredBy_secondDown hended) (answeredBy_secondDown hended') hover hover'
  exact ⟨t, t', hreach, hreach', hcreated, hcreated', herrors,
    hsame.errors.length_eq.symm.trans herrors, hsame⟩

end Trail

end Gateway
