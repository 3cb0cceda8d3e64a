import Mathlib.Data.List.Nodup
import Mathlib.Data.List.Perm.Basic
import Gateway.Proofs.Effect
import Gateway.Schedule

/-!
# The order of a schedule

A schedule holds the mutations of its plan, each as often as the plan does
(`Schedule.flatten_waves_perm`): splitting a batch into waves loses none, and every mutation is of
one phase and kind.

When no object is the subject of two mutations of a plan, its schedule holds every mutation once
(`Schedule.mem_waves`, `Schedule.nodup_waves`), and whatever an operation needs stands in an earlier
wave (`Schedule.needs_earlier`). The reason is that references only lead to kinds that are created
earlier (`Entity.rank_lt_of_mem_references`): no operation needs another of its own kind and phase,
so no batch falls into several waves.
-/

namespace Gateway

/-! ### References -/

/-- Whatever an object refers to is of a kind that is created earlier. -/
theorem Detail.rank_lt_of_mem_links {k kind : Kind} {d : Detail k} {fk : ForeignKey}
    (h : (kind, fk) ∈ Detail.links k d) : kind.rank < k.rank := by
  cases k <;>
    simp only [Detail.links, List.mem_append, List.mem_map, List.mem_cons, List.not_mem_nil,
      or_false, Prod.mk.injEq] at h
  case service =>
    rcases h with ⟨_, -, rfl, -⟩ | ⟨_, -, rfl, -⟩ <;> decide
  case plugin =>
    rcases h with (((⟨_, -, rfl, -⟩ | ⟨_, -, rfl, -⟩) | ⟨_, -, rfl, -⟩) | ⟨_, -, rfl, -⟩) |
      ⟨_, -, rfl, -⟩ <;> decide
  case membership =>
    rcases h with ⟨rfl, -⟩ | ⟨rfl, -⟩ <;> decide
  all_goals
    obtain ⟨_, -, rfl, -⟩ := h
    decide

/-- References lead to kinds that are created earlier. -/
theorem Entity.rank_lt_of_mem_references {e : Entity} {r : Reference} (h : r ∈ e.references) :
    r.kind.rank < e.kind.rank := by
  obtain ⟨⟨kind, fk⟩, hl, hr⟩ := List.mem_filterMap.1 h
  obtain ⟨id, -, rfl⟩ := Option.map_eq_some_iff.1 hr
  exact Detail.rank_lt_of_mem_links hl

/-- Every rank is below the number of kinds. -/
theorem Kind.rank_lt (k : Kind) : k.rank < 19 := by
  cases k <;> decide

/-! ### Stages -/

/-- The phase to which operations with an action belong. -/
def Action.phase : Action → Phase
  | delete => .delete
  | _ => .upsert

namespace Schedule

/-- The place of a phase and kind in the order in which they are run. -/
def stage (x : Phase × Kind) : Nat :=
  match x.1 with
  | .upsert => x.2.rank
  | .delete => 37 - x.2.rank

/-- Phases and kinds are run in the order of their stages. -/
theorem pairwise_phases : phases.Pairwise fun x y => stage x < stage y := by
  have hstages : phases.map stage = List.range 38 := by decide
  exact List.pairwise_map.1 (hstages ▸ List.pairwise_lt_range)

/-- Every phase and kind has its turn. -/
theorem mem_phases (x : Phase × Kind) : x ∈ phases := by
  obtain ⟨phase, kind⟩ := x
  unfold phases
  rw [List.mem_append]
  cases phase with
  | upsert => exact .inl (List.mem_map.2 ⟨kind, kind.mem_creationOrder, rfl⟩)
  | delete => exact .inr (List.mem_map.2 ⟨kind, List.mem_reverse.2 kind.mem_creationOrder, rfl⟩)

end Schedule

namespace PlannedOp

/-- The stage at which an operation is run. -/
def stage (op : PlannedOp) : Nat := Schedule.stage (op.action.phase, op.kind)

variable {op o : PlannedOp}

theorem stage_of_delete (h : op.action = .delete) : op.stage = 37 - op.kind.rank := by
  unfold stage Schedule.stage
  rw [h]
  rfl

theorem stage_of_ne_delete (h : op.action ≠ .delete) : op.stage = op.kind.rank := by
  unfold stage Schedule.stage Action.phase
  split <;> simp_all

end PlannedOp

/-! ### What an operation needs -/

namespace Plan

variable {p : Plan} {op o : PlannedOp} {n key : Reference}

/-- Among mutations of distinct objects, the one on an object is found. -/
theorem eq_of_key (h : (p.mutations.map (·.key)).Nodup) (hop : op ∈ p.mutations)
    (ho : o ∈ p.mutations) (hkey : op.key = o.key) : op = o :=
  List.inj_on_of_nodup_map h hop ho hkey

/-- What is found under a key is the action of a mutation with that key. -/
theorem exists_of_actionOn? {a : Action} (h : p.actionOn? key = some a) :
    ∃ o ∈ p.mutations, o.key = key ∧ o.action = a := by
  obtain ⟨o, ho, rfl⟩ := Option.map_eq_some_iff.1 h
  have hkey := List.find?_some ho
  exact ⟨o, List.mem_reverse.1 (List.mem_of_find?_eq_some ho), by simpa using hkey, rfl⟩

/-- Where keys are given once, every mutation is found under its own. -/
theorem actionOn?_of_mem (h : (p.mutations.map (·.key)).Nodup) (ho : o ∈ p.mutations) :
    p.actionOn? o.key = some o.action := by
  unfold actionOn?
  cases hfind : p.mutations.reverse.find? (·.key == o.key) with
  | none =>
    have := List.find?_eq_none.1 hfind o (List.mem_reverse.2 ho)
    simp at this
  | some x =>
    have hkey := List.find?_some hfind
    have hx := List.mem_reverse.1 (List.mem_of_find?_eq_some hfind)
    rw [eq_of_key h hx ho (by simpa using hkey)]
    rfl

/-- What the operation on an object needs: if it writes, whatever else is written of what it refers
to; if it deletes, the deletion of whatever refers to it. -/
theorem mem_needs (h : (p.mutations.map (·.key)).Nodup) (hop : op ∈ p.mutations) :
    n ∈ p.needs op.key ↔ ∃ o ∈ p.mutations, o.key = n ∧
      (op.action ≠ .delete ∧ o.action ≠ .delete ∧ n ∈ op.entity.references ∨
        op.action = .delete ∧ o.action = .delete ∧ op.key ∈ o.entity.references) := by
  have upsert_iff : ∀ {x : PlannedOp}, x ∈ p.mutations →
      (x.action.isUpsert = true ↔ x.action ≠ .delete) := by
    intro x hx
    have hne := ne_keep_of_mem hx
    cases hact : x.action <;> simp_all [Action.isUpsert]
  unfold needs
  simp only [List.mem_map, List.mem_filter, List.mem_flatMap]
  constructor
  · rintro ⟨⟨key, need⟩, ⟨⟨x, hx, hedge⟩, hkey⟩, rfl⟩
    simp only [beq_iff_eq] at hkey
    subst hkey
    obtain ⟨target, htarget, hedge⟩ := List.mem_filterMap.1 hedge
    split at hedge
    · rename_i other hother
      obtain ⟨o, ho, rfl, rfl⟩ := exists_of_actionOn? hother
      split at hedge
      · rename_i hups
        rw [Bool.and_eq_true, upsert_iff hx, upsert_iff ho] at hups
        simp only [Option.some.injEq, Prod.mk.injEq] at hedge
        obtain ⟨hkey, rfl⟩ := hedge
        rw [eq_of_key h hx hop hkey] at htarget hups
        exact ⟨o, ho, rfl, .inl ⟨hups.1, hups.2, htarget⟩⟩
      · split at hedge
        · rename_i hdel
          simp only [Bool.and_eq_true, beq_iff_eq] at hdel
          simp only [Option.some.injEq, Prod.mk.injEq] at hedge
          obtain ⟨hkey, rfl⟩ := hedge
          rw [eq_of_key h ho hop hkey] at htarget hdel
          exact ⟨x, hx, rfl, .inr ⟨hdel.2, hdel.1, htarget⟩⟩
        · cases hedge
    · cases hedge
  · rintro ⟨o, ho, rfl, ⟨hop', ho', hmem⟩ | ⟨hop', ho', hmem⟩⟩
    · refine ⟨(op.key, o.key), ⟨⟨op, hop, List.mem_filterMap.2 ⟨o.key, hmem, ?_⟩⟩, by simp⟩, rfl⟩
      rw [actionOn?_of_mem h ho]
      simp only
      rw [if_pos]
      rw [Bool.and_eq_true, upsert_iff hop, upsert_iff ho]
      exact ⟨hop', ho'⟩
    · refine ⟨(op.key, o.key), ⟨⟨o, ho, List.mem_filterMap.2 ⟨op.key, hmem, ?_⟩⟩, by simp⟩, rfl⟩
      rw [actionOn?_of_mem h hop, hop', ho']
      rfl

/-- What an operation needs is run at an earlier stage. -/
theorem stage_lt_of_mem_needs (h : (p.mutations.map (·.key)).Nodup) (hop : op ∈ p.mutations)
    (ho : o ∈ p.mutations) (hn : o.key ∈ p.needs op.key) : o.stage < op.stage := by
  obtain ⟨x, hx, hkey, hcase⟩ := (mem_needs h hop).1 hn
  rw [eq_of_key h hx ho hkey] at hcase
  rcases hcase with ⟨hop', ho', hmem⟩ | ⟨hop', ho', hmem⟩
  · rw [PlannedOp.stage_of_ne_delete hop', PlannedOp.stage_of_ne_delete ho']
    exact Entity.rank_lt_of_mem_references hmem
  · rw [PlannedOp.stage_of_delete hop', PlannedOp.stage_of_delete ho']
    have hlt : op.kind.rank < o.kind.rank := Entity.rank_lt_of_mem_references hmem
    have := o.kind.rank_lt
    omega

end Plan

/-! ### Waves -/

/-- Splitting operations into waves loses none and doubles none, whatever they need. -/
theorem splitWaves_perm (needs : Reference → List Reference) (batch placed : List Reference)
    (ops : List PlannedOp) : (splitWaves needs batch placed ops).flatten.Perm ops := by
  fun_induction splitWaves needs batch placed ops with
  | case1 placed ops hempty => simp [List.isEmpty_iff.1 hempty]
  | case2 placed ops _ _ => simp
  | case3 placed ops _ _ ready ih =>
    rw [List.flatten_cons]
    exact (ih.append_left ready).trans (List.filter_append_perm _ ops)

/-- Operations that need none of each other make one wave. -/
theorem splitWaves_eq_singleton {needs : Reference → List Reference} {batch : List Reference}
    {ops : List PlannedOp} (hne : ops ≠ [])
    (hfree : ∀ op ∈ ops, ∀ n ∈ needs op.key, n ∉ batch) :
    splitWaves needs batch [] ops = [ops] := by
  have hready : ∀ op ∈ ops, isReady needs batch [] op = true := by
    intro op hop
    unfold isReady
    simpa using hfree op hop
  have hall : readyOps needs batch [] ops = ops := List.filter_eq_self.2 hready
  have hnone : blockedOps needs batch [] ops = [] := by
    refine List.filter_eq_nil_iff.2 fun op hop => ?_
    simp [hready op hop]
  rw [splitWaves, if_neg (by simpa using hne)]
  rw [dif_neg (by rw [hall]; simpa using hne), hall, hnone]
  change ops :: splitWaves needs batch ([] ++ ops.map (·.key)) [] = [ops]
  rw [splitWaves, if_pos (by simp)]

namespace Schedule

variable {p : Plan} {op o : PlannedOp} {phase : Phase} {kind : Kind}

/-- The operations of a phase and kind are the mutations that belong there. -/
theorem select_eq_filter (p : Plan) (x : Phase × Kind) :
    select p x.1 x.2 = p.mutations.filter fun op => (op.action.phase, op.kind) = x := by
  obtain ⟨phase, kind⟩ := x
  unfold select Plan.mutations
  rw [List.filter_filter]
  refine List.filter_congr fun op _ => ?_
  cases phase <;> cases hact : op.action <;>
    simp [Phase.includes, Action.isUpsert, Action.phase, PlannedOp.isMutation,
      Action.isMutation, Bool.beq_eq_decide_eq, hact]

theorem mem_select :
    op ∈ select p phase kind ↔ op ∈ p.mutations ∧ (op.action.phase, op.kind) = (phase, kind) := by
  rw [select_eq_filter p (phase, kind), List.mem_filter, decide_eq_true_eq]

theorem stage_of_mem_select (h : op ∈ select p phase kind) : op.stage = stage (phase, kind) := by
  unfold PlannedOp.stage
  rw [(mem_select.1 h).2]

/-! ### All mutations -/

/-- Sorted by a property whose values are listed, all elements of a list are still there. -/
theorem perm_flatMap_filter {α β : Type} [DecidableEq β] (f : α → β) {values : List β}
    (hnodup : values.Nodup) {xs : List α} (hall : ∀ x ∈ xs, f x ∈ values) :
    (values.flatMap fun b => xs.filter (f · = b)).Perm xs := by
  induction values generalizing xs with
  | nil =>
    cases xs with
    | nil => exact List.Perm.refl _
    | cons x xs => exact absurd (hall x List.mem_cons_self) List.not_mem_nil
  | cons b rest ih =>
    obtain ⟨hb, hrest⟩ := List.nodup_cons.1 hnodup
    -- what has another value is found among the elements without the first one
    have hothers : (rest.flatMap fun b' => xs.filter (f · = b')) =
        rest.flatMap fun b' => (xs.filter fun x => !decide (f x = b)).filter (f · = b') := by
      refine List.flatMap_congr fun b' hb' => ?_
      rw [List.filter_filter]
      refine List.filter_congr fun x _ => ?_
      have hne : b' ≠ b := fun heq => hb (heq ▸ hb')
      by_cases hx : f x = b'
      · simp [hx, hne]
      · simp [hx]
    rw [List.flatMap_cons, hothers]
    refine ((ih hrest ?_).append_left _).trans (List.filter_append_perm _ xs)
    intro x hx
    obtain ⟨hx, hxb⟩ := List.mem_filter.1 hx
    exact (List.mem_cons.1 (hall x hx)).resolve_left (by simpa using hxb)

/-- Batches without operations add nothing to a schedule. -/
theorem flatten_waves_ofPlan (p : Plan) :
    (ofPlan p).waves.flatten = phases.flatMap fun x => (batch p x.1 x.2).ops := by
  have skip_empty : ∀ bs : List Batch,
      ((bs.filter (!·.isEmpty)).flatMap (·.waves)).flatten = bs.flatMap (·.ops) := by
    intro bs
    induction bs with
    | nil => rfl
    | cons b rest ih =>
      rw [List.flatMap_cons, ← ih, List.filter_cons]
      split
      · rw [List.flatMap_cons, List.flatten_append]
        rfl
      · rename_i hempty
        have hnone : b.ops = [] := by simpa [Batch.isEmpty] using hempty
        rw [hnone, List.nil_append]
  exact (skip_empty _).trans (by rw [List.flatMap_map])

/-- A schedule holds the mutations of its plan, each as often as the plan does. -/
theorem flatten_waves_perm (p : Plan) : (ofPlan p).waves.flatten.Perm p.mutations := by
  have hnodup : phases.Nodup := by
    refine pairwise_phases.imp fun hlt heq => ?_
    rw [heq] at hlt
    exact Nat.lt_irrefl _ hlt
  have hselect : (phases.flatMap fun x => (batch p x.1 x.2).ops).Perm
      (phases.flatMap fun x => select p x.1 x.2) :=
    List.Perm.flatMap_left _ fun _ _ => splitWaves_perm _ _ _ _
  rw [flatten_waves_ofPlan]
  refine hselect.trans ?_
  simp only [select_eq_filter]
  exact perm_flatMap_filter _ hnodup fun _ _ => mem_phases _

/-! ### Mutations of distinct objects -/

/-- A batch is one wave. -/
theorem splitWaves_select (h : (p.mutations.map (·.key)).Nodup) (hne : select p phase kind ≠ []) :
    splitWaves p.needs ((select p phase kind).map (·.key)) [] (select p phase kind) =
      [select p phase kind] := by
  refine splitWaves_eq_singleton hne fun op hop n hn hbatch => ?_
  obtain ⟨o, ho, rfl⟩ := List.mem_map.1 hbatch
  have hlt := Plan.stage_lt_of_mem_needs h (mem_select.1 hop).1 (mem_select.1 ho).1 hn
  rw [stage_of_mem_select hop, stage_of_mem_select ho] at hlt
  exact Nat.lt_irrefl _ hlt

/-- The batches of a schedule: one for each phase and kind of which there are mutations, of a single
wave. -/
theorem batches_ofPlan (h : (p.mutations.map (·.key)).Nodup) :
    (ofPlan p).batches = (phases.filter fun x => !(select p x.1 x.2).isEmpty).map
      fun x => ⟨x.2, x.1, [select p x.1 x.2]⟩ := by
  have isEmpty_batch : ∀ x : Phase × Kind,
      (batch p x.1 x.2).isEmpty = (select p x.1 x.2).isEmpty := by
    intro x
    by_cases hempty : select p x.1 x.2 = []
    · simp [batch, hempty, Batch.isEmpty, Batch.ops, splitWaves]
    · have hwaves : (batch p x.1 x.2).waves = [select p x.1 x.2] := splitWaves_select h hempty
      simp [Batch.isEmpty, Batch.ops, hwaves]
  unfold ofPlan
  rw [List.filter_map]
  have hfilter : phases.filter ((fun b : Batch => !b.isEmpty) ∘ fun x => batch p x.1 x.2) =
      phases.filter fun x => !(select p x.1 x.2).isEmpty :=
    List.filter_congr fun x _ => by simp only [Function.comp_apply, isEmpty_batch x]
  refine (congrArg _ hfilter).trans (List.map_congr_left fun x hx => ?_)
  have hsome : select p x.1 x.2 ≠ [] := by simpa using (List.mem_filter.1 hx).2
  exact congrArg (Batch.mk x.2 x.1) (splitWaves_select h hsome)

/-- The waves of a schedule are the mutations of one phase and kind after the other. -/
theorem waves_ofPlan (h : (p.mutations.map (·.key)).Nodup) :
    (ofPlan p).waves = (phases.map fun x => select p x.1 x.2).filter (!·.isEmpty) := by
  unfold waves
  rw [batches_ofPlan h, List.flatMap_map, List.filter_map, List.map_eq_flatMap]
  rfl

/-- A schedule holds the mutations of its plan and nothing else. -/
theorem mem_waves (h : (p.mutations.map (·.key)).Nodup) :
    op ∈ (ofPlan p).waves.flatten ↔ op ∈ p.mutations := by
  rw [waves_ofPlan h, List.mem_flatten]
  constructor
  · rintro ⟨wave, hwave, hop⟩
    obtain ⟨x, -, rfl⟩ := List.mem_map.1 (List.mem_filter.1 hwave).1
    exact (mem_select.1 hop).1
  · intro hop
    have hsel : op ∈ select p op.action.phase op.kind := mem_select.2 ⟨hop, rfl⟩
    have hsome : (!(select p op.action.phase op.kind).isEmpty) = true := by
      simpa using List.ne_nil_of_mem hsel
    exact ⟨_, List.mem_filter.2
      ⟨List.mem_map.2 ⟨(op.action.phase, op.kind), mem_phases _, rfl⟩, hsome⟩, hsel⟩

/-- Operations of a wave are run at an earlier stage than those of a later wave. -/
theorem pairwise_waves (h : (p.mutations.map (·.key)).Nodup) :
    (ofPlan p).waves.Pairwise fun a b => ∀ o ∈ a, ∀ op ∈ b, o.stage < op.stage := by
  rw [waves_ofPlan h]
  refine (List.pairwise_map.2 ?_).filter _
  refine pairwise_phases.imp fun hlt o ho op hop => ?_
  rw [stage_of_mem_select ho, stage_of_mem_select hop]
  exact hlt

/-- Operations of one wave are run at one stage. -/
theorem stage_eq_of_mem_wave (h : (p.mutations.map (·.key)).Nodup) {wave : List PlannedOp}
    (hwave : wave ∈ (ofPlan p).waves) (ho : o ∈ wave) (hop : op ∈ wave) : o.stage = op.stage := by
  rw [waves_ofPlan h] at hwave
  obtain ⟨x, -, rfl⟩ := List.mem_map.1 (List.mem_filter.1 hwave).1
  rw [stage_of_mem_select ho, stage_of_mem_select hop]

/-- No operation is scheduled twice. -/
theorem nodup_waves (h : (p.mutations.map (·.key)).Nodup) :
    ((ofPlan p).waves.flatten.map (·.key)).Nodup :=
  ((flatten_waves_perm p).map _).nodup_iff.2 h

/-- Whatever an operation needs stands in an earlier wave. -/
theorem needs_earlier (h : (p.mutations.map (·.key)).Nodup) {past rest : List (List PlannedOp)}
    {wave : List PlannedOp} (hwaves : (ofPlan p).waves = past ++ wave :: rest) (hop : op ∈ wave)
    {n : Reference} (hn : n ∈ p.needs op.key) : ∃ o ∈ past.flatten, o.key = n := by
  have hwave : wave ∈ (ofPlan p).waves := by rw [hwaves]; simp
  have hop' : op ∈ p.mutations := (mem_waves h).1 (List.mem_flatten.2 ⟨wave, hwave, hop⟩)
  obtain ⟨o, ho, rfl, -⟩ := (Plan.mem_needs h hop').1 hn
  have hlt := Plan.stage_lt_of_mem_needs h hop' ho hn
  refine ⟨o, ?_, rfl⟩
  have hmem := (mem_waves h).2 ho
  have hpair := pairwise_waves h
  rw [hwaves] at hmem hpair
  rw [List.flatten_append, List.flatten_cons, List.mem_append, List.mem_append] at hmem
  rcases hmem with hpast | hwave' | hrest
  · exact hpast
  · exact absurd (stage_eq_of_mem_wave h hwave hwave' hop) (Nat.ne_of_lt hlt)
  · obtain ⟨later, hlater, ho'⟩ := List.mem_flatten.1 hrest
    have := (List.pairwise_cons.1 (List.pairwise_append.1 hpair).2.1).1 later hlater op hop o ho'
    omega

end Schedule

end Gateway
