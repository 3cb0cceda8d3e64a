import Gateway.Proofs.Schedule
import Gateway.Sample

/-!
# Batches

A schedule is the mutations of its plan in another order, and an order in which everything is there
when it is needed (`Schedule.perm_and_needs_earlier`): each batch is a single wave, and what one of
its operations needs has had its turn in an earlier batch. What an operation needs is said without
regard to how prerequisites are collected (`PlannedOp.WaitsFor`).
-/

namespace Gateway

/-- An operation has to wait for another: it writes an object that refers to what the other writes,
or it deletes an object to which the one that the other deletes refers. -/
def PlannedOp.WaitsFor (op o : PlannedOp) : Prop :=
  op.action ≠ .delete ∧ o.action ≠ .delete ∧ o.key ∈ op.entity.references ∨
    op.action = .delete ∧ o.action = .delete ∧ op.key ∈ o.entity.references

/-- The prerequisites of a mutation are the mutations for which it has to wait. -/
theorem Plan.key_mem_needs {p : Plan} {op o : PlannedOp} (h : (p.mutations.map (·.key)).Nodup)
    (hop : op ∈ p.mutations) (ho : o ∈ p.mutations) :
    o.key ∈ p.needs op.key ↔ op.WaitsFor o := by
  rw [mem_needs h hop]
  constructor
  · rintro ⟨x, hx, hkey, hwaits⟩
    rw [eq_of_key h hx ho hkey] at hwaits
    exact hwaits
  · intro hwaits
    exact ⟨o, ho, rfl, hwaits⟩

namespace Schedule

variable {p : Plan} {op o : PlannedOp} {b : Batch}

/-- A batch is a single wave. -/
theorem exists_wave_of_mem_batches (h : (p.mutations.map (·.key)).Nodup)
    (hb : b ∈ (ofPlan p).batches) : b.waves = [b.ops] := by
  rw [batches_ofPlan h] at hb
  obtain ⟨x, -, rfl⟩ := List.mem_map.1 hb
  simp [Batch.ops]

/-- The operations of a batch are run at the stage of its phase and kind. -/
theorem stage_of_mem_batch (h : (p.mutations.map (·.key)).Nodup) (hb : b ∈ (ofPlan p).batches)
    (hop : op ∈ b.ops) : op.stage = stage (b.phase, b.kind) := by
  rw [batches_ofPlan h] at hb
  obtain ⟨x, -, rfl⟩ := List.mem_map.1 hb
  refine stage_of_mem_select (p := p) ?_
  simpa [Batch.ops] using hop

/-- Batches are run in the order of their stages. -/
theorem pairwise_batches (h : (p.mutations.map (·.key)).Nodup) :
    (ofPlan p).batches.Pairwise fun a b => stage (a.phase, a.kind) < stage (b.phase, b.kind) := by
  rw [batches_ofPlan h]
  exact List.pairwise_map.2 (pairwise_phases.filter _)

/-- An operation is scheduled when a batch holds it. -/
theorem mem_waves_iff_exists_batch :
    op ∈ (ofPlan p).waves.flatten ↔ ∃ b ∈ (ofPlan p).batches, op ∈ b.ops := by
  unfold waves
  simp only [List.mem_flatten, List.mem_flatMap, Batch.ops]
  constructor
  · rintro ⟨wave, ⟨b, hb, hwave⟩, hop⟩
    exact ⟨b, hb, wave, hwave, hop⟩
  · rintro ⟨b, hb, wave, hwave, hop⟩
    exact ⟨wave, ⟨b, hb, hwave⟩, hop⟩

/-- A batch of operations at an earlier stage stands earlier. -/
theorem mem_past_of_stage_lt (h : (p.mutations.map (·.key)).Nodup) {past later : List Batch}
    {b' : Batch} (hsplit : (ofPlan p).batches = past ++ b :: later)
    (hb' : b' ∈ (ofPlan p).batches) (hlt : stage (b'.phase, b'.kind) < stage (b.phase, b.kind)) :
    b' ∈ past := by
  have hpair := pairwise_batches h
  rw [hsplit] at hb' hpair
  rcases List.mem_append.1 hb' with hpast | hrest
  · exact hpast
  · have hordered := List.pairwise_cons.1 (List.pairwise_append.1 hpair).2.1
    rcases List.mem_cons.1 hrest with rfl | hlater
    · exact absurd hlt (Nat.lt_irrefl _)
    · exact absurd hlt (Nat.lt_asymm (hordered.1 b' hlater))

/-- A schedule holds the mutations of its plan, each as often as the plan. -/
theorem waves_perm (h : (p.mutations.map (·.key)).Nodup) :
    (ofPlan p).waves.flatten.Perm p.mutations :=
  (List.perm_ext_iff_of_nodup (List.Nodup.of_map _ (nodup_waves h)) (List.Nodup.of_map _ h)).2
    fun _ => mem_waves h

/-- A schedule is the mutations of its plan in an order in which each batch is a single wave and
whatever its operations need, which is what they have to wait for, stands in an earlier batch. -/
theorem perm_and_needs_earlier (p : Plan) (h : (p.mutations.map (·.key)).Nodup) :
    (ofPlan p).waves.flatten.Perm p.mutations ∧
      ∀ past b later, (ofPlan p).batches = past ++ b :: later →
        (∃ wave, b.waves = [wave]) ∧
          ∀ op ∈ b.ops,
            (∀ n ∈ (ofPlan p).needs op.key, ∃ b' ∈ past, ∃ o ∈ b'.ops, o.key = n) ∧
              ∀ o ∈ p.mutations, o.key ∈ (ofPlan p).needs op.key ↔ op.WaitsFor o := by
  refine ⟨waves_perm h, fun past b later hsplit => ?_⟩
  have hb : b ∈ (ofPlan p).batches := by rw [hsplit]; simp
  refine ⟨⟨b.ops, exists_wave_of_mem_batches h hb⟩, fun op hop => ?_⟩
  have hmutation : op ∈ p.mutations :=
    (mem_waves h).1 (mem_waves_iff_exists_batch.2 ⟨b, hb, hop⟩)
  refine ⟨fun n hn => ?_, fun o ho => Plan.key_mem_needs h hmutation ho⟩
  obtain ⟨o, ho, rfl, -⟩ := (Plan.mem_needs h hmutation).1 hn
  obtain ⟨b', hb', ho'⟩ := mem_waves_iff_exists_batch.1 ((mem_waves h).2 ho)
  have hlt := Plan.stage_lt_of_mem_needs h hmutation ho hn
  rw [stage_of_mem_batch h hb' ho', stage_of_mem_batch h hb hop] at hlt
  exact ⟨b', mem_past_of_stage_lt h hsplit hb' hlt, o, ho', rfl⟩

/-- A plan that puts a service and its route in the place of others. -/
def replacement : Plan :=
  ⟨[⟨.delete, Sample.service "s0" "old", none, []⟩, ⟨.create, Sample.service "s1" "new", none, []⟩,
    ⟨.create, Sample.route "r1" "main" "s1", none, []⟩,
    ⟨.delete, Sample.route "r0" "side" "s0", none, []⟩]⟩

/-- The replacement is run in four batches: the new service, its route, then the old route and last
the old service. The new route needs the new service, and the old service cannot go before the old
route. -/
theorem needs_earlier_replacement :
    (ofPlan replacement).batches.map (fun b => b.ops.map (·.key)) =
        [[⟨.service, "s1"⟩], [⟨.route, "r1"⟩], [⟨.route, "r0"⟩], [⟨.service, "s0"⟩]] ∧
      (ofPlan replacement).needs ⟨.route, "r1"⟩ = [⟨.service, "s1"⟩] ∧
      (ofPlan replacement).needs ⟨.service, "s0"⟩ = [⟨.route, "r0"⟩] ∧
      (ofPlan replacement).waves.flatten.Perm replacement.mutations ∧
      ∀ past b later, (ofPlan replacement).batches = past ++ b :: later →
        ∀ op ∈ b.ops, ∀ n ∈ (ofPlan replacement).needs op.key,
          ∃ b' ∈ past, ∃ o ∈ b'.ops, o.key = n := by
  obtain ⟨hperm, hbatches⟩ := perm_and_needs_earlier replacement (by decide +kernel)
  refine ⟨by decide +kernel, by decide +kernel, by decide +kernel, hperm,
    fun past b later hsplit op hop n hn => ?_⟩
  exact ((hbatches past b later hsplit).2 op hop).1 n hn

end Schedule

end Gateway
