import Gateway.Proofs.Comparison
import Gateway.Sample

/-!
# What is deleted under a reference

References find what is declared, and what the gateway offers by a lookup tag. What is declared is
never deleted. What is merely offered is deleted like any other object that the run sees and does
not want, whether or not something refers to it (`Content.deletes_iff_offered`); so plans leave the
targets of references alone exactly as far as the selection hides what is offered.
-/

namespace Gateway

open Planning

/-- The operation on a wanted entity writes or keeps the references of that entity. -/
theorem State.references_of_planFor {current visible : State} {d : Entity} {op : PlannedOp}
    (h : planFor current visible d = .ok op) : op.entity.references = d.references := by
  rcases entity_of_planFor h with heq | heq <;> rw [heq]
  exact Entity.references_withoutTimestamps d

namespace Content

variable {c : Content} {o : Options} {current desired : State} {s s' : IdSupply} {d : Entity}
  {ref : Reference}

/-- A resolved entity refers to resolved entities, and to objects of the gateway that are
offered. -/
theorem wanted_or_offered (hres : Yields (c.resolve current o) s desired s') (hd : d ∈ desired)
    (href : ref ∈ d.references) : desired.contains ref.kind ref.id = true ∨
      ∃ x ∈ current, x.ref = ref ∧ x.hasAnyTag (o.lookupTags.forKind x.kind) = true := by
  obtain ⟨r, hr, rfl⟩ := exists_sound_of_resolve hres
  rcases hr.closed d hd ref href with ⟨x, hx, hxref⟩ | ⟨x, hx, hxref, hshared⟩
  · exact .inl (State.contains_of_ref hx hxref)
  · right
    rw [hr.current] at hx
    rw [Resolution.isShared, hr.options] at hshared
    exact ⟨x, hx, hxref, hshared⟩

/-- For every plan of declarations and every reference of what it creates, updates or keeps: the
plan deletes what the reference leads to exactly when this is an object that the gateway offers by
a lookup tag, that the selection shows, and that is not declared. -/
theorem deletes_iff_offered (c : Content) (o : Options) (current : State) (ids ids' : IdSupply)
    (desired : State) (p : Plan) (hres : Yields (c.resolve current o) ids desired ids')
    (hplan : Yields (c.plan current o) ids p ids') (op : PlannedOp) (hop : op ∈ p.ops)
    (hact : op.action ≠ .delete) (ref : Reference) (href : ref ∈ op.entity.references) :
    (∃ del ∈ p.ops, del.action = .delete ∧ del.key = ref) ↔
      ∃ x ∈ current.select o.selection, x.ref = ref ∧
        x.hasAnyTag (o.lookupTags.forKind x.kind) = true ∧
        desired.contains ref.kind ref.id = false := by
  obtain ⟨desired', hres', hto⟩ := yields_plan_iff.1 hplan
  obtain ⟨rfl, -⟩ := hres.unique hres'
  constructor
  · rintro ⟨del, hdel, hdelete, rfl⟩
    have hgone := State.not_contains_of_delete hto hdel hdelete
    obtain ⟨d, hd, hplanned⟩ := State.exists_planFor_of_mem_ops hto hop hact
    rw [State.references_of_planFor hplanned] at href
    -- what is deleted is not wanted, so the reference can only have found it as an offer
    rcases wanted_or_offered hres hd href with hwanted | ⟨x, hx, hxref, hoffer⟩
    · cases hgone.symm.trans hwanted
    · rcases (State.mem_ops_of_planTo hto).1 hdel with ⟨d', -, hplanned'⟩ | ⟨y, hy, -, rfl⟩
      · exact absurd hdelete (State.action_of_planFor hplanned')
      · have heq : x = y := State.eq_of_ref hx (State.mem_of_mem_select hy) hxref
        exact ⟨y, hy, rfl, heq ▸ hoffer, hgone⟩
  · rintro ⟨x, hx, rfl, -, hno⟩
    exact ⟨_, (State.mem_ops_of_planTo hto).2 (.inr ⟨x, hx, hno, rfl⟩), rfl, rfl⟩

end Content

/-! ### A service that is offered to all -/

/-- The plan for what the team asks for under a selection, if it can be made. -/
def offeredPlan (sel : Selection) : Option Plan :=
  result? (Sample.teamDocument.plan Sample.sharedGateway ⟨sel, Sample.offered, .all⟩) .numbered

/-- The team sees only its own objects, so the service that is offered stays where its route leads
to. -/
theorem deletes_iff_offered_of_team : ∃ p op, offeredPlan (.ofTags ["team"]) = some p ∧
    op ∈ p.ops ∧ ⟨.service, "s1"⟩ ∈ op.entity.references ∧
      ¬∃ del ∈ p.ops, del.action = .delete ∧ del.key = ⟨.service, "s1"⟩ := by
  have heval : (offeredPlan (.ofTags ["team"])).any (fun p => p.ops.any fun op =>
      op.action == .create && op.entity.references.contains ⟨.service, "s1"⟩) = true := by
    decide +kernel
  obtain ⟨p, hp, hfacts⟩ := (Option.any_eq_true _ _).1 heval
  obtain ⟨op, hop, hfacts⟩ := List.any_eq_true.1 hfacts
  obtain ⟨hact, href⟩ := Bool.and_eq_true_iff.1 hfacts
  have hact : op.action = .create := by simpa using hact
  have href : ⟨.service, "s1"⟩ ∈ op.entity.references := by simpa using href
  obtain ⟨ids, hplan⟩ := yields_of_result? hp
  obtain ⟨desired, hres, -⟩ := Content.yields_plan_iff.1 hplan
  refine ⟨p, op, hp, hop, href, fun hdel => ?_⟩
  obtain ⟨x, hx, hxref, -⟩ := (Content.deletes_iff_offered Sample.teamDocument _
    Sample.sharedGateway .numbered ids desired p hres hplan op hop (by simp [hact]) _ href).1 hdel
  have hhidden : (Sample.sharedGateway.select (.ofTags ["team"])).contains .service "s1" = false :=
    by decide +kernel
  cases hhidden.symm.trans (State.contains_of_ref hx hxref)

/-- Where everything is selected, the service that is offered is deleted while the new route leads
to it: it is not so that plans never keep a reference to what they delete. -/
theorem not_always_spared : ¬∀ (c : Content) (o : Options) (current : State) (ids ids' : IdSupply)
    (p : Plan), Yields (c.plan current o) ids p ids' → ∀ op ∈ p.ops, op.action ≠ .delete →
      ∀ ref ∈ op.entity.references, ∀ del ∈ p.ops, del.action = .delete → del.key ≠ ref := by
  intro h
  have heval : (offeredPlan .everything).any (fun p => p.ops.any fun op =>
      op.action == .create && p.ops.any fun del =>
        del.action == .delete && op.entity.references.contains del.key) = true := by
    decide +kernel
  obtain ⟨p, hp, hfacts⟩ := (Option.any_eq_true _ _).1 heval
  obtain ⟨op, hop, hfacts⟩ := List.any_eq_true.1 hfacts
  obtain ⟨hact, hfacts⟩ := Bool.and_eq_true_iff.1 hfacts
  obtain ⟨del, hdel, hfacts⟩ := List.any_eq_true.1 hfacts
  obtain ⟨hdelete, href⟩ := Bool.and_eq_true_iff.1 hfacts
  have hact : op.action = .create := by simpa using hact
  obtain ⟨ids, hplan⟩ := yields_of_result? hp
  exact h Sample.teamDocument _ Sample.sharedGateway .numbered ids p hplan op hop (by simp [hact])
    del.key (by simpa using href) del hdel (by simpa using hdelete) rfl

end Gateway
