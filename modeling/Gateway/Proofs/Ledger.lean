import Mathlib.Data.List.Nodup
import Gateway.Proofs.Trail

/-!
# What becomes of scheduled operations

Invariants of trails. No operation is answered twice: those that are answered, under way or still to
come are different operations of the schedule (`Trail.Ledger`). And a wave only begins when all
operations before it are through, unless nothing is sent any more (`Trail.InOrder`; with it,
`Trail.Barrier` says of a real run that what is noted as done was done). They hold after every
history (`Trail.ledger_of_replay?`, `Trail.inOrder_of_replay?`, `Trail.barrier_of_replay?`).
-/

namespace Gateway

namespace Run

variable (r : Run) (rules : RunRules) (op : PlannedOp) (reply : Reply)

/-! ### What the result of a call does not change -/

/-- An answer is noted and starts no call. -/
@[simp] theorem flights_take : (r.take rules op reply).flights = r.flights := by
  cases reply <;> rfl

/-- An answer changes nothing in the queue. -/
@[simp] theorem queue_take : (r.take rules op reply).queue = r.queue := by
  cases reply <;> rfl

/-- An answer changes nothing in the waves to come. -/
@[simp] theorem waves_take : (r.take rules op reply).waves = r.waves := by
  cases reply <;> rfl

/-- A result never sets a stopped run going. -/
theorem isStopped_of_take (h : (r.take rules op reply).isStopped = false) :
    r.isStopped = false := by
  cases reply <;>
    simp_all [Run.take, Run.isStopped, Run.note, Run.haltUnless]

/-- What a run has noted of operations stays noted. -/
theorem statuses_subset_take : r.statuses ⊆ (r.take rules op reply).statuses := by
  intro s hs
  cases reply with
  | done stored => exact List.mem_cons_of_mem _ hs
  | refused e => exact List.mem_cons_of_mem _ hs
  | crashed => exact hs

/-- A wave begins with no calls of its own. -/
@[simp] theorem flights_beginWave (wave : List PlannedOp) (waves : List (List PlannedOp)) :
    (r.beginWave wave waves).flights = r.flights := by
  unfold beginWave
  split <;> rfl

/-- The waves after it are yet to come. -/
@[simp] theorem waves_beginWave (wave : List PlannedOp) (waves : List (List PlannedOp)) :
    (r.beginWave wave waves).waves = waves := by
  unfold beginWave
  split <;> rfl

/-- Nothing is noted when a wave begins. -/
@[simp] theorem statuses_beginWave (wave : List PlannedOp) (waves : List (List PlannedOp)) :
    (r.beginWave wave waves).statuses = r.statuses := by
  unfold beginWave
  split <;> rfl

/-- A run is not stopped by a wave that begins. -/
@[simp] theorem isStopped_beginWave (wave : List PlannedOp) (waves : List (List PlannedOp)) :
    (r.beginWave wave waves).isStopped = r.isStopped := by
  unfold beginWave
  split <;> rfl

/-- The operations of the wave are in the queue, unless the run has been stopped: then they are
counted as not attempted. -/
theorem queue_beginWave (wave : List PlannedOp) (waves : List (List PlannedOp)) :
    (r.beginWave wave waves).queue = if r.isStopped then [] else wave := by
  unfold beginWave
  split <;> rfl

end Run

namespace Trail

variable {rules : RunRules} {t t' : Trail} {e : Event} {waves : List (List PlannedOp)}

/-! ### No operation is answered twice -/

/-- Operations whose calls are under way. -/
def underWay (fs : List Flight) : List PlannedOp := (fs.filter (·.reply.isNone)).map (·.op)

/-- Without calls nothing is under way. -/
@[simp] theorem underWay_nil : underWay [] = [] := rfl

/-- What is under way is so call by call. -/
@[simp] theorem underWay_append (fs gs : List Flight) :
    underWay (fs ++ gs) = underWay fs ++ underWay gs := by
  simp [underWay]

/-- A call without an answer is under way. -/
@[simp] theorem underWay_cons_none (op : PlannedOp) (fs : List Flight) :
    underWay (⟨op, none⟩ :: fs) = op :: underWay fs := rfl

/-- A call with an answer is not. -/
@[simp] theorem underWay_cons_some (op : PlannedOp) (reply : Reply) (fs : List Flight) :
    underWay (⟨op, some reply⟩ :: fs) = underWay fs := rfl

/-- Operations that have been answered, then those under way, then those to come. -/
def accounted (t : Trail) : List PlannedOp :=
  t.ended.map (·.1) ++ (underWay t.run.flights ++ (t.run.queue ++ t.run.waves.flatten))

/-- Operations that are answered, under way or to come are different operations of the schedule. A
call that has ended and not been collected carries the answer that was given. -/
structure Ledger (waves : List (List PlannedOp)) (t : Trail) : Prop where
  accounted : t.accounted.Subperm waves.flatten
  answered : ∀ f ∈ t.run.flights, ∀ reply, f.reply = some reply → (f.op, reply) ∈ t.ended

/-- A step invents no operation and doubles none. -/
theorem Step.accounted_subperm (h : Step rules t e t') : t'.accounted.Subperm t.accounted := by
  unfold accounted
  cases h with
  | skip hqueue _ _ _ =>
    simp only [hqueue, List.cons_append]
    exact ((List.sublist_cons_self _ _).append_left _).append_left _ |>.subperm
  | pretend hqueue _ _ _ _ =>
    simp only [hqueue, List.cons_append]
    exact ((List.sublist_cons_self _ _).append_left _).append_left _ |>.subperm
  | send hqueue _ _ _ _ =>
    simp only [hqueue, underWay_append, underWay_cons_none, underWay_nil, List.append_assoc,
      List.cons_append, List.nil_append]
    exact List.Subperm.refl _
  | @finish before after op reply hflights =>
    simp only [hflights, underWay_append, underWay_cons_none, underWay_cons_some, List.map_append,
      List.map_cons, List.map_nil, List.append_assoc, List.cons_append, List.nil_append]
    exact (List.Perm.append_left _ List.perm_middle.symm).subperm
  | collect hflights =>
    simp only [hflights, underWay_append, underWay_cons_some, Run.flights_take, Run.queue_take,
      Run.waves_take]
    exact List.Subperm.refl _
  | next hwaves _ hthrough =>
    simp only [Run.flights_beginWave, Run.waves_beginWave, Run.queue_beginWave, hwaves,
      List.flatten_cons]
    refine ((List.Sublist.append_left ?_ _).append_left _).subperm
    split
    · exact (List.sublist_append_right _ _).trans (List.sublist_append_right _ _)
    · exact List.sublist_append_right _ _
  | cancel => exact List.Subperm.refl _

/-- A step only adds answers. -/
theorem Step.ended_subset (h : Step rules t e t') : t.ended ⊆ t'.ended := by
  intro x hx
  cases h <;> first | exact hx | exact List.mem_append_left _ hx

/-- The ledger is kept by every step: an operation moves on from the queue to the calls and from
there to the answers. -/
theorem Ledger.step (h : Ledger waves t) (hstep : Step rules t e t') : Ledger waves t' where
  accounted := hstep.accounted_subperm.trans h.accounted
  answered := by
    intro f hf reply hreply
    cases hstep with
    | send _ _ _ _ _ =>
      rcases List.mem_append.1 hf with hf | hf
      · exact h.answered f hf reply hreply
      · rw [List.mem_singleton.1 hf] at hreply
        cases hreply
    | @finish before after op reply' hflights =>
      rcases List.mem_append.1 hf with hf' | hf'
      · exact List.mem_append_left _ (h.answered f (by simp [hflights, hf']) reply hreply)
      · rcases List.mem_cons.1 hf' with rfl | hf'
        · cases hreply
          simp
        · exact List.mem_append_left _ (h.answered f (by simp [hflights, hf']) reply hreply)
    | collect hflights =>
      rw [Run.flights_take] at hf
      refine h.answered f ?_ reply hreply
      rcases List.mem_append.1 hf with hf | hf <;> simp [hflights, hf]
    | next _ hflights _ =>
      rw [Run.flights_beginWave, hflights] at hf
      cases hf
    | skip _ _ _ _ => exact h.answered f hf reply hreply
    | pretend _ _ _ _ _ => exact h.answered f hf reply hreply
    | cancel => exact h.answered f hf reply hreply

/-- At the start everything is to come. -/
theorem ledger_start (s : Schedule) (cancelled : Bool) : Ledger s.waves (start s cancelled) where
  accounted := List.Subperm.refl _
  answered := by simp [start, Run.start]

/-- So the ledger is right at every point of every run. -/
theorem ledger_of_replay? {s : Schedule} {cancelled : Bool} {events : List Event}
    (h : (start s cancelled).replay? rules events = some t) : Ledger s.waves t :=
  replay?_induction (fun _ _ _ h hstep => h.step hstep) (ledger_start s cancelled) h

/-! ### What is known of an object -/

/-- The operation on an object was called, and done. -/
def Succeeded (t : Trail) (key : Reference) : Prop :=
  ∃ op stored, (op, .done stored) ∈ t.ended ∧ op.key = key

/-- The operation on an object was called, and the call was lost. -/
def Lost (t : Trail) (key : Reference) : Prop := ∃ op, (op, .crashed) ∈ t.ended ∧ op.key = key

/-- The operation on an object is through: how it ended is noted, or the call was lost. -/
def Settled (t : Trail) (key : Reference) : Prop :=
  (∃ s, (key, s) ∈ t.run.statuses) ∨ t.Lost key

/-- Operations of distinct objects are answered in one way. -/
theorem Ledger.reply_unique (h : Ledger waves t) (hnodup : (waves.flatten.map (·.key)).Nodup)
    {o o' : PlannedOp} {reply reply' : Reply} (ho : (o, reply) ∈ t.ended)
    (ho' : (o', reply') ∈ t.ended) (hkey : o.key = o'.key) : reply = reply' := by
  obtain ⟨l, hperm, hsub⟩ : (t.ended.map (·.1)).Subperm waves.flatten :=
    (List.sublist_append_left _ _).subperm.trans h.accounted
  have hkeys : ((t.ended.map (·.1)).map (·.key)).Nodup :=
    (hperm.map _).nodup_iff.1 ((hsub.map _).nodup hnodup)
  rw [List.map_map] at hkeys
  exact congrArg Prod.snd (List.inj_on_of_nodup_map hkeys ho ho' hkey)

/-- A call that was lost did not succeed. -/
theorem Ledger.not_lost_of_succeeded (h : Ledger waves t)
    (hnodup : (waves.flatten.map (·.key)).Nodup) {key : Reference} (hs : t.Succeeded key) :
    ¬t.Lost key := by
  rintro ⟨o, ho, hkey⟩
  obtain ⟨o', stored, ho', hkey'⟩ := hs
  cases h.reply_unique hnodup ho ho' (hkey.trans hkey'.symm)

/-! ### Waves wait for each other -/

/-- While operations are sent, all operations of the waves that are through are settled, and those
of the wave under way are settled, under way or in the queue. -/
def InOrder (waves : List (List PlannedOp)) (t : Trail) : Prop :=
  t.run.isStopped = false → ∃ past wave, [] :: waves = past ++ wave :: t.run.waves ∧
    (∀ op ∈ past.flatten, t.Settled op.key) ∧ t.run.queue ⊆ wave ∧
    ∀ op ∈ wave, op ∈ t.run.queue ∨ (∃ f ∈ t.run.flights, f.op = op) ∨ t.Settled op.key

/-- While operations are sent, all operations of the waves that are through are settled, and those
of the wave under way are settled, under way or in the queue. What is noted as done was done. -/
structure Barrier (waves : List (List PlannedOp)) (t : Trail) : Prop where
  through : t.run.isStopped = false → ∃ past wave, [] :: waves = past ++ wave :: t.run.waves ∧
    (∀ op ∈ past.flatten, t.Settled op.key) ∧ t.run.queue ⊆ wave ∧
    ∀ op ∈ wave, op ∈ t.run.queue ∨ (∃ f ∈ t.run.flights, f.op = op) ∨ t.Settled op.key
  done : ∀ key, (key, .done) ∈ t.run.statuses → t.Succeeded key

/-- What is noted stays noted. -/
theorem Step.statuses_subset (h : Step rules t e t') : t.run.statuses ⊆ t'.run.statuses := by
  intro s hs
  cases h with
  | collect _ => exact Run.statuses_subset_take _ _ _ _ hs
  | next _ _ _ => simpa using hs
  | skip _ _ _ _ => exact List.mem_cons_of_mem _ hs
  | pretend _ _ _ _ _ => exact List.mem_cons_of_mem _ hs
  | send _ _ _ _ _ => exact hs
  | finish _ => exact hs
  | cancel => exact hs

/-- What is settled stays settled. -/
theorem Step.settled (h : Step rules t e t') {key : Reference} (hs : t.Settled key) :
    t'.Settled key := by
  rcases hs with ⟨s, hs⟩ | ⟨op, hop, hkey⟩
  · exact .inl ⟨s, h.statuses_subset hs⟩
  · exact .inr ⟨op, h.ended_subset hop, hkey⟩

/-- What succeeded stays done. -/
theorem Step.succeeded (h : Step rules t e t') {key : Reference} (hs : t.Succeeded key) :
    t'.Succeeded key := by
  obtain ⟨op, stored, hop, hkey⟩ := hs
  exact ⟨op, stored, h.ended_subset hop, hkey⟩

/-- A stopped run is not set going again. -/
theorem Step.isStopped (h : Step rules t e t') (hgo : t'.run.isStopped = false) :
    t.run.isStopped = false := by
  cases h with
  | collect _ =>
    have hgo' := Run.isStopped_of_take _ _ _ _ hgo
    exact hgo'
  | next _ _ _ => simpa using hgo
  | skip _ _ hgo _ => exact hgo
  | pretend _ _ hgo _ _ => exact hgo
  | send _ _ hgo _ _ => exact hgo
  | finish _ => exact hgo
  | cancel => simp [Run.isStopped] at hgo

/-- A run that is stopped stays stopped. -/
theorem Step.isStopped_of_isStopped (h : Step rules t e t') (hstopped : t.run.isStopped = true) :
    t'.run.isStopped = true := by
  by_contra hgo
  rw [Bool.not_eq_true] at hgo
  rw [h.isStopped hgo] at hstopped
  cases hstopped

/-- Once a call has been collected, its operation is settled. -/
theorem settled_take {before after : List Flight} {op : PlannedOp} {reply : Reply}
    (h : Ledger waves t) (hflights : t.run.flights = before ++ ⟨op, some reply⟩ :: after) :
    Settled { t with run := { t.run with flights := before ++ after }.take rules op reply }
      op.key := by
  cases reply with
  | done stored => exact .inl ⟨.done, List.mem_cons_self⟩
  | refused e => exact .inl ⟨.failed, List.mem_cons_self⟩
  | crashed => exact .inr ⟨op, h.answered ⟨op, some .crashed⟩ (by simp [hflights]) _ rfl, rfl⟩

/-- An operation is in the queue, under way or settled. -/
def Handled (t : Trail) (op : PlannedOp) : Prop :=
  op ∈ t.run.queue ∨ (∃ f ∈ t.run.flights, f.op = op) ∨ t.Settled op.key

/-- Until the next wave begins, waves wait and the queue only gets shorter. -/
theorem Step.waves_eq (h : Step rules t e t') (hne : e ≠ .nextWave) :
    t'.run.waves = t.run.waves ∧ t'.run.queue ⊆ t.run.queue := by
  cases h with
  | skip hq _ _ _ => exact ⟨rfl, fun o ho => hq ▸ List.mem_cons_of_mem _ ho⟩
  | pretend hq _ _ _ _ => exact ⟨rfl, fun o ho => hq ▸ List.mem_cons_of_mem _ ho⟩
  | send hq _ _ _ _ => exact ⟨rfl, fun o ho => hq ▸ List.mem_cons_of_mem _ ho⟩
  | finish _ => exact ⟨rfl, List.Subset.refl _⟩
  | collect _ => simp
  | next _ _ _ => exact absurd rfl hne
  | cancel => exact ⟨rfl, List.Subset.refl _⟩

/-- An operation that is taken from the queue is sent or settled, and one under way stays under way
until it is settled. -/
theorem Step.handled (hl : Ledger waves t) (hstep : Step rules t e t') (hne : e ≠ .nextWave)
    {o : PlannedOp} (h : t.Handled o) : t'.Handled o := by
  have hsettled : t.Settled o.key → t'.Settled o.key := hstep.settled
  rcases h with hin | ⟨f, hmem, rfl⟩ | hrest
  · cases hstep with
    | skip hq _ _ _ =>
      rw [hq] at hin
      rcases List.mem_cons.1 hin with rfl | hin
      · exact .inr (.inr (.inl ⟨.skipped, List.mem_cons_self⟩))
      · exact .inl hin
    | pretend hq _ _ _ _ =>
      rw [hq] at hin
      rcases List.mem_cons.1 hin with rfl | hin
      · exact .inr (.inr (.inl ⟨.done, List.mem_cons_self⟩))
      · exact .inl hin
    | send hq _ _ _ _ =>
      rw [hq] at hin
      rcases List.mem_cons.1 hin with rfl | hin
      · exact .inr (.inl ⟨⟨o, none⟩, by simp, rfl⟩)
      · exact .inl hin
    | finish _ => exact .inl hin
    | collect _ => exact .inl (by simpa using hin)
    | next _ _ _ => exact absurd rfl hne
    | cancel => exact .inl hin
  · cases hstep with
    | skip _ _ _ _ => exact .inr (.inl ⟨f, hmem, rfl⟩)
    | pretend _ _ _ _ _ => exact .inr (.inl ⟨f, hmem, rfl⟩)
    | send _ _ _ _ _ => exact .inr (.inl ⟨f, by simp [hmem], rfl⟩)
    | @finish before after op reply hf =>
      rw [hf] at hmem
      rcases List.mem_append.1 hmem with hmem | hmem
      · exact .inr (.inl ⟨f, by simp [hmem], rfl⟩)
      · rcases List.mem_cons.1 hmem with rfl | hmem
        · exact .inr (.inl ⟨⟨op, some reply⟩, by simp, rfl⟩)
        · exact .inr (.inl ⟨f, by simp [hmem], rfl⟩)
    | @collect before after op reply hf =>
      rw [hf] at hmem
      rcases List.mem_append.1 hmem with hmem | hmem
      · exact .inr (.inl ⟨f, by simp [hmem], rfl⟩)
      · rcases List.mem_cons.1 hmem with rfl | hmem
        · exact .inr (.inr (settled_take hl hf))
        · exact .inr (.inl ⟨f, by simp [hmem], rfl⟩)
    | next _ _ _ => exact absurd rfl hne
    | cancel => exact .inr (.inl ⟨f, hmem, rfl⟩)
  · exact .inr (.inr (hsettled hrest))

/-- What a step notes as done was done. -/
theorem Step.done (hreal : rules.settings.dryRun = false) (hl : Ledger waves t)
    (hstep : Step rules t e t') (h : ∀ key, (key, .done) ∈ t.run.statuses → t.Succeeded key)
    {key : Reference} (hkey : (key, .done) ∈ t'.run.statuses) : t'.Succeeded key := by
  cases hstep with
  | skip _ _ _ _ =>
    rcases List.mem_cons.1 hkey with heq | hkey
    · cases heq
    · exact h key hkey
  | pretend _ _ _ _ hdry => rw [hreal] at hdry; cases hdry
  | @collect before after op reply hf =>
    cases reply with
    | done stored =>
      rcases List.mem_cons.1 hkey with heq | hkey
      · cases heq
        exact ⟨op, stored, hl.answered ⟨op, some (.done stored)⟩ (by simp [hf]) _ rfl, rfl⟩
      · exact h key hkey
    | refused err =>
      rcases List.mem_cons.1 hkey with heq | hkey
      · cases heq
      · exact h key hkey
    | crashed => exact h key hkey
  | finish hf =>
    obtain ⟨o, stored, ho, hkey'⟩ := h key hkey
    exact ⟨o, stored, List.mem_append_left _ ho, hkey'⟩
  | next _ _ _ => exact h key (by simpa using hkey)
  | send _ _ _ _ _ => exact h key hkey
  | cancel => exact h key hkey

/-- Waves wait for each other through every step: a wave begins only when no call is left and the
queue is empty. -/
theorem InOrder.step (hl : Ledger waves t) (h : InOrder waves t) (hstep : Step rules t e t') :
    InOrder waves t' := by
  intro hgo
  obtain ⟨past, wave, hwaves, hpast, hqueue, hwave⟩ := h (hstep.isStopped hgo)
  have hpast' : ∀ op ∈ past.flatten, t'.Settled op.key := by
    intro op hop
    exact hstep.settled (hpast op hop)
  by_cases hnext : e = .nextWave
  · subst hnext
    have hsettled : ∀ {key}, t.Settled key → t'.Settled key := hstep.settled
    cases hstep with
    | @next next waves' hw hflights hthrough =>
      have hgo' : t.run.isStopped = false := by simpa using hgo
      have hempty : t.run.queue = [] := hthrough.resolve_right (by simp [hgo'])
      refine ⟨past ++ [wave], next, by simp [hwaves, hw], ?_, ?_, ?_⟩
      · intro o ho
        rw [List.flatten_append, List.mem_append] at ho
        rcases ho with ho | ho
        · exact hpast' o ho
        · have ho' : o ∈ wave := by simpa using ho
          rcases hwave o ho' with hin | ⟨f, hmem, -⟩ | hrest
          · rw [hempty] at hin
            cases hin
          · rw [hflights] at hmem
            cases hmem
          · exact hsettled hrest
      · simp [Run.queue_beginWave, hgo']
      · intro o ho
        exact .inl (by simpa [Run.queue_beginWave, hgo'] using ho)
  · obtain ⟨hsame, hshorter⟩ := hstep.waves_eq hnext
    exact ⟨past, wave, hsame ▸ hwaves, hpast', fun o ho => hqueue (hshorter ho),
      fun o ho => hstep.handled hl hnext (hwave o ho)⟩

/-- At the start the wave under way is an empty one. -/
theorem inOrder_start (s : Schedule) (cancelled : Bool) : InOrder s.waves (start s cancelled) :=
  fun _ => ⟨[], [], rfl, by simp, by simp [start, Run.start], by simp⟩

/-- So waves wait for each other at every point of every run. -/
theorem inOrder_of_replay? {s : Schedule} {cancelled : Bool} {events : List Event}
    (h : (start s cancelled).replay? rules events = some t) : InOrder s.waves t :=
  (replay?_induction (P := fun t => Ledger s.waves t ∧ InOrder s.waves t)
    (fun _ _ _ h hstep => ⟨h.1.step hstep, h.2.step h.1 hstep⟩)
    ⟨ledger_start s cancelled, inOrder_start s cancelled⟩ h).2

/-- The barrier is kept by every step of a run that is not a dry one, in which what is done was
answered. -/
theorem Barrier.step (hreal : rules.settings.dryRun = false) (hl : Ledger waves t)
    (h : Barrier waves t) (hstep : Step rules t e t') : Barrier waves t' where
  done _ hkey := hstep.done hreal hl h.done hkey
  through := InOrder.step hl h.through hstep

/-- At the start nothing is noted. -/
theorem barrier_start (s : Schedule) (cancelled : Bool) :
    Barrier s.waves (start s cancelled) where
  through := inOrder_start s cancelled
  done := by simp [start, Run.start]

/-- So there is a barrier at every point of every run. -/
theorem barrier_of_replay? (hreal : rules.settings.dryRun = false) {s : Schedule}
    {cancelled : Bool} {events : List Event}
    (h : (start s cancelled).replay? rules events = some t) : Barrier s.waves t :=
  (replay?_induction (P := fun t => Ledger s.waves t ∧ Barrier s.waves t)
    (fun _ _ _ h hstep => ⟨h.1.step hstep, h.2.step hreal h.1 hstep⟩)
    ⟨ledger_start s cancelled, barrier_start s cancelled⟩ h).2

end Trail

end Gateway
