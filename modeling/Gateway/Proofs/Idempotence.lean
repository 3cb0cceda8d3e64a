import Gateway.Proofs.Rerun
import Gateway.Sample

/-!
# Planning the same declarations again

When all of a plan has been applied, planning the same declarations against the state that results
succeeds, gives every declaration the id that it ended up with the first time, and leaves nothing to
be done (`Content.keeps_of_replan`). The second run may draw its ids from another supply.
-/

namespace Gateway

open Planning Resolution

/-- Ids that are handed out are pairwise distinct, and none of those that a document mentions or a
state holds. -/
structure IdSupply.Fresh (S : IdSupply) (c : Content) (s : State) : Prop where
  injective : Function.Injective S.nth
  mentioned : ∀ id ∈ c.mentioned, S.Spares id
  held : ∀ x ∈ s, S.Spares x.idText

/-! ### The order of resolution -/

section

variable {S : IdSupply} {es : List Entity}

/-- Entities that have no fresh id in common have none in the order of resolution either. -/
theorem pairwise_inOrder (h : es.Pairwise (IdSupply.Apart S)) :
    (inOrder es).Pairwise (IdSupply.Apart S) := by
  have : Std.Symm (IdSupply.Apart S) := ⟨fun _ _ hab i hb ha => hab i ha hb⟩
  unfold inOrder
  refine List.pairwise_flatMap.2 ⟨fun kind _ => h.sublist List.filter_sublist, ?_⟩
  refine Kind.creationOrder_nodup.imp fun {k l} hne a ha b hb => ?_
  obtain ⟨hmem, rfl⟩ := mem_entitiesOfKind.1 ha
  obtain ⟨hmem', rfl⟩ := mem_entitiesOfKind.1 hb
  exact h.forall hmem hmem' fun heq => hne (congrArg Entity.kind heq)

end

/-! ### What is asked for is well formed -/

namespace Entity.WellFormed

variable {e : Entity}

/-- An id is not looked at. -/
theorem withId (h : e.WellFormed) (id : String) : (e.withId id).WellFormed := h

/-- Nor are tags. -/
theorem apply (h : e.WellFormed) (sel : Selection) : (sel.apply e).WellFormed := h

/-- Nor is an id that is derived. -/
theorem withDerivedId (h : e.WellFormed) : e.withDerivedId.WellFormed := by
  obtain ⟨k, r⟩ := e
  cases k <;> exact h

end Entity.WellFormed

namespace Content

variable {c : Content} {o : Options} {current desired : State} {S S' : IdSupply} {p : Plan}

/-- Well-formed declarations ask for a well-formed state. -/
theorem wellFormed_of_resolve (hS : S.Fresh c current) (hwf : c.WellFormed)
    (hknown : c.Recognisable) (hres : Yields (c.resolve current o) S desired S') :
    desired.WellFormed := by
  obtain ⟨es, t, hes, -, hrun⟩ := yields_resolve_iff.1 hres
  obtain ⟨r, hr, rfl⟩ := yields_run_iff.1 hrun
  obtain ⟨m, es', -, -, -, hflat⟩ := c.parallel_flatten (T := S) hS.injective
    (fun id hid => ⟨hS.mentioned id hid, hS.mentioned id hid⟩) hwf hknown es t hes
  refine foldlM_induction (P := fun r => r.desired.WellFormed) ?_
    (fun d hd => absurd hd State.not_mem_empty) hr
  intro r e s r' s' he hall hstep
  obtain ⟨e', -, htwin⟩ := hflat.twins.exists_of_mem_left (mem_inOrder.1 he)
  cases yields_step_iff.1 hstep with
  | repeated _ _ => exact hall
  | added hlink _ _ _ hadd =>
    intro d hd
    rcases (State.mem_insert hadd).1 hd with rfl | hd
    · exact ((htwin.wellFormed_relink hlink).withDerivedId.apply _).withId _
    · exact hall d hd

/-! ### The second run -/

/-- What is wanted and there as it should be, with nothing else in sight, needs nothing done. -/
theorem exists_planTo_of_kept {next : State} {sel : Selection}
    (hkept : ∀ d ∈ desired, ∃ x ∈ next.select sel, x.Keeps d)
    (hwanted : ∀ x ∈ next.select sel, desired.contains x.kind x.idText = true) :
    ∃ p, desired.planTo next sel = .ok p ∧ ∀ op ∈ p.ops, op.action = .keep := by
  have hplanFor : ∀ d ∈ desired, ∃ op, State.planFor next (next.select sel) d = .ok op ∧
      op.action = .keep := by
    intro d hd
    obtain ⟨x, hx, hkeeps⟩ := hkept d hd
    refine ⟨.ofMatch d x, State.planFor_eq_ok_iff.2 (.inl ⟨x, ?_, rfl⟩), hkeeps.keep⟩
    exact State.get?_eq_some_iff.2
      ⟨hx, congrArg Reference.kind hkeeps.ref, congrArg Reference.id hkeeps.ref⟩
  obtain ⟨p, hp⟩ := State.exists_planTo fun d hd => (hplanFor d hd).imp fun _ h => h.1
  refine ⟨p, hp, fun op hop => ?_⟩
  rcases (State.mem_ops_of_planTo hp).1 hop with ⟨d, hd, hplan⟩ | ⟨x, hx, hno, -⟩
  · obtain ⟨op', hplan', hkeep⟩ := hplanFor d hd
    cases hplan.symm.trans hplan'
    exact hkeep
  · rw [hwanted x hx] at hno
    cases hno

/-- For all declarations that can be recognised, every gateway and all options without lookup tags:
when a plan can be made, no hidden object has the natural key of something wanted, and ids are
fresh, the plan can be applied, every declaration ends up as something wanted of its kind, and then
planning the same declarations succeeds, gives every declaration the id that it ended up with, and
leaves nothing to be done. -/
theorem keeps_of_replan (c : Content) (current : State) (o : Options)
    (hlookup : o.lookupTags.isEmpty = true) (hknown : c.Recognisable)
    (hgroups : current.NamesGroups) (hwf : c.WellFormed) (hheld : current.WellFormed)
    (S S' : IdSupply) (hS : S.Fresh c current) (desired : State)
    (hres : Yields (c.resolve current o) S desired S')
    (hhidden : HidesNoKey current o.selection desired) (p : Plan)
    (hplan : Yields (c.plan current o) S p S') :
    ∃ next refs, current.applyAll p.ops = .ok next ∧ Yields (c.finalIds current o) S refs S' ∧
      (∃ es T, Yields c.flatten S es T ∧
        List.Forall₂ (fun e ref => ref.kind = e.kind ∧ ∃ d ∈ desired, d.ref = ref) (inOrder es)
          refs) ∧
      ∀ T : IdSupply, T.Fresh c next → ∃ p' T', Yields (c.plan next o) T p' T' ∧
        Yields (c.finalIds next o) T refs T' ∧ ∀ op ∈ p'.ops, op.action = .keep := by
  obtain ⟨desired', hres', hto⟩ := yields_plan_iff.1 hplan
  obtain ⟨rfl, -⟩ := hres.unique hres'
  obtain ⟨next, happly, hnext⟩ := (fits_of_plan hres hto hhidden).exists_applyAll
  obtain ⟨refs, hrefs⟩ := exists_finalIds hres
  refine ⟨next, refs, happly, hrefs, exists_forall₂_of_finalIds hres hrefs, fun T hT => ?_⟩
  have hwanted := wellFormed_of_resolve hS hwf hknown hres
  have hkept := fun d hd =>
    exists_kept_of_desired (d := d) hres hto hnext hlookup hheld hwanted hd
  have hrerun : Rerun o current next desired S T :=
    { lookup := hlookup
      kept := hkept
      hidden := fun x hx hno => hidden_of_hidden hres hto hnext hlookup hheld hwanted hx hno
      injective := hS.injective
      injective' := hT.injective
      spares := hS.held
      spares' := hT.held }
  obtain ⟨es, t, hes, -⟩ := yields_resolve_iff.1 hres
  obtain ⟨hcheck, r, rfl, hplace⟩ := (yields_resolve_finalIds_iff hes).1 ⟨hres, hrefs⟩
  obtain ⟨m, es', -, rfl, hes', hflat⟩ := c.parallel_flatten (T := T) hS.injective
    (fun id hid => ⟨hS.mentioned id hid, hT.mentioned id hid⟩) hwf hknown es t hes
  obtain ⟨r', hplace', hdesired⟩ := hrerun.exists_placeAll
    (forall₂_inOrder (fun _ _ htwin => htwin.kind_eq) hflat.twins)
    (pairwise_inOrder hflat.distinct) (Nat.le_refl m)
    Rerun.inStep_start (fun _ _ _ _ => rfl) hplace fun _ hd => hd
  have hcheck' : o.check es' = .ok () := by
    refine Options.check_eq_ok_iff.2 fun e' he' => ?_
    obtain ⟨e, he, htwin⟩ := hflat.twins.exists_of_mem_right he'
    exact htwin.permits (Options.check_eq_ok_iff.1 hcheck e he)
  obtain ⟨hres', hrefs'⟩ := (yields_resolve_finalIds_iff hes').2 ⟨hcheck', r', hdesired, hplace'⟩
  obtain ⟨p', hto', hkeep⟩ := exists_planTo_of_kept hrerun.kept fun x hx =>
    contains_of_visible hto hnext hgroups hx
  exact ⟨p', T.after m, yields_plan_iff.2 ⟨r.desired, hres', hto'⟩, hrefs', hkeep⟩

end Content

/-! ### Two services with a route each -/

/-- The ids that repeat a letter. -/
def IdSupply.repeating (letter : Char) : IdSupply :=
  ⟨fun n => String.ofList (List.replicate (n + 1) letter), 0⟩

/-- Ids that repeat a letter spare every id that begins with another one. -/
theorem IdSupply.spares_repeating {letter : Char} {id : String}
    (h : id.toList.head? ≠ some letter) : (repeating letter).Spares id := by
  rintro n rfl
  refine h ?_
  simp [nth, repeating, List.replicate_succ]

/-- So they are fresh where no id begins with that letter. -/
theorem IdSupply.fresh_repeating {letter : Char} {c : Content} {s : State}
    (hmentioned : ∀ id ∈ c.mentioned, id.toList.head? ≠ some letter)
    (hheld : ∀ x ∈ s.entities, x.idText.toList.head? ≠ some letter) :
    (repeating letter).Fresh c s := by
  refine ⟨fun i j heq => ?_, fun id hid => spares_repeating (hmentioned id hid),
    fun x hx => spares_repeating (hheld x hx)⟩
  have hlength := congrArg (fun s => s.toList.length) heq
  simpa [nth, repeating] using hlength

namespace Content

/-- One of the services and its route are there and updated, the others are created, the older
service goes; the second time nothing is left to be done. -/
theorem keeps_of_replan_nestedRoutes : ∃ p next refs p' T',
    ((Sample.nestedRoutes.plan Sample.twoServices {}).run (.repeating 'a')).1 = .ok p ∧
      p.mutations.length = 5 ∧ Sample.twoServices.applyAll p.ops = .ok next ∧
      Yields (Sample.nestedRoutes.plan next {}) (.repeating 'b') p' T' ∧
      Yields (Sample.nestedRoutes.finalIds next {}) (.repeating 'b') refs T' ∧
      ∀ op ∈ p'.ops, op.action = .keep := by
  have heval : (((Sample.nestedRoutes.plan Sample.twoServices {}).run
      (.repeating 'a')).1.toOption.any fun p => p.mutations.length == 5 &&
        (Sample.twoServices.applyAll p.ops).toOption.all fun next =>
          next.entities.all fun x => x.idText.toList.head? != some 'b') = true := by
    decide +kernel
  obtain ⟨p, hp, hfacts⟩ := (Option.any_eq_true _ _).1 heval
  have hrun := Except.toOption_eq_some_iff.1 hp
  obtain ⟨hlength, hheld⟩ := Bool.and_eq_true_iff.1 hfacts
  have hplan : Yields (Sample.nestedRoutes.plan Sample.twoServices {}) (.repeating 'a') p _ :=
    Prod.ext hrun rfl
  obtain ⟨desired, hres, -⟩ := yields_plan_iff.1 hplan
  obtain ⟨next, refs, hnext, -, -, hsecond⟩ := keeps_of_replan Sample.nestedRoutes
    Sample.twoServices {} rfl (by decide +kernel) (by decide +kernel) (by decide +kernel)
    (by decide +kernel) _ _
    (IdSupply.fresh_repeating (by decide +kernel) (by decide +kernel)) desired hres
    (hidesNoKey_of_not_isActive rfl) p hplan
  have hspared : ∀ x ∈ next.entities, x.idText.toList.head? ≠ some 'b' := by
    intro x hx
    rw [hnext] at hheld
    simpa using List.all_eq_true.1 hheld x hx
  obtain ⟨p', T', hplan', hrefs', hkeep⟩ :=
    hsecond (.repeating 'b') (IdSupply.fresh_repeating (by decide +kernel) hspared)
  exact ⟨p, next, refs, p', T', hrun, by simpa using hlength, hnext, hplan', hrefs', hkeep⟩

end Content

end Gateway
