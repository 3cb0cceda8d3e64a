import Gateway.Proofs.Idempotence
import Gateway.Proofs.Provenance

/-!
# Two declarations under one id

Resolution fails when two entities of one kind end up with one id, and says then that the id is
declared more than once. Nothing else leads to this failure: not flattening, not the checks, and no
reference (`PlanError.OfDeclarations`). But an id may also be adopted or derived, so the failure is
true to its words as long as neither of the two declarations that clash gets the id in such a way
(`Content.twice_of_duplicateId`).
-/

namespace Gateway

open Planning Resolution

/-! ### Failures that lie in the declarations -/

/-- An error in which the state that is built has no part. -/
def PlanError.OfDeclarations (err : PlanError) : Prop := ∀ e, err ≠ .state e

section

variable {err : PlanError} {k kind : Kind} {r : Resource k} {rs : List (Resource kind)}
  {p : Enclosing}

/-- What a parent does not accept is the fault of the child that says so. -/
theorem Enclosing.ofDeclarations_accept {owner : String} {fk : Option ForeignKey}
    (h : p.accept owner fk = .error err) : err.OfDeclarations := by
  unfold accept at h
  split at h
  · cases h
  · split at h
    · cases h
      rintro _ ⟨⟩
    · split at h
      · cases h
        rintro _ ⟨⟩
      · cases h

/-- So is what keeps an object from being attached to its parent. -/
theorem Enclosing.ofDeclarations_attach {r : Resource kind} (h : p.attach r = .error err) :
    err.OfDeclarations := by
  rcases Except.bind_eq_error_iff.1 h with h | ⟨_, -, h⟩
  · exact ofDeclarations_accept h
  · cases h

/-- The same of all children of one kind. -/
theorem Enclosing.failsOnly_attachAll :
    FailsOnly PlanError.OfDeclarations (liftM (p.attachAll rs)) := by
  refine .lift fun err h => ?_
  obtain ⟨r, -, hr⟩ := Except.exists_error_of_mapM h
  rcases Except.bind_eq_error_iff.1 hr with hr | ⟨_, -, hr⟩
  · exact ofDeclarations_attach hr
  · cases hr

/-- What is nested in an object can fail, and getting an id for the object cannot. -/
theorem Resource.failsOnly_flattenNested {P : PlanError → Prop} {empty : Bool}
    {nested : Enclosing → Planning (List Entity)} (hnested : ∀ p, FailsOnly P (nested p)) :
    FailsOnly P (r.flattenNested empty nested) := by
  have henclose : FailsOnly P r.enclose := by
    unfold enclose
    cases r.id with
    | some id => exact .pure _
    | none => exact FailsOnly.freshId.bind fun _ => .pure _
  unfold flattenNested
  cases empty with
  | true => exact .pure _
  | false => exact henclose.bind fun q => (hnested q.1).bind fun _ => .pure _

/-- The same of an object with children of one kind. -/
theorem Resource.failsOnly_flatten :
    FailsOnly PlanError.OfDeclarations (r.flattenNested rs.isEmpty fun p => p.attachAll rs) :=
  failsOnly_flattenNested fun _ => Enclosing.failsOnly_attachAll

/-- Routes fail by their plugins only. -/
theorem RouteDecl.failsOnly_flatten {p : Option Enclosing} {d : RouteDecl} :
    FailsOnly PlanError.OfDeclarations (d.flatten p) := by
  unfold flatten
  cases p with
  | none => exact (FailsOnly.pure d.route).bind fun _ => Resource.failsOnly_flatten
  | some p =>
    exact (FailsOnly.lift fun _ => Enclosing.ofDeclarations_attach).bind fun _ =>
      Resource.failsOnly_flatten

/-- Flattening fails by declarations under the wrong parent only. -/
theorem Content.failsOnly_flatten {c : Content} : FailsOnly PlanError.OfDeclarations c.flatten := by
  have hservices : ∀ d : ServiceDecl, FailsOnly PlanError.OfDeclarations d.flatten := fun d =>
    Resource.failsOnly_flattenNested fun _ =>
      (FailsOnly.mapM fun _ _ => RouteDecl.failsOnly_flatten).bind fun _ =>
        Enclosing.failsOnly_attachAll.bind fun _ => .pure _
  have hconsumers : ∀ d : ConsumerDecl, FailsOnly PlanError.OfDeclarations d.flatten := fun d =>
    Resource.failsOnly_flattenNested fun _ => Enclosing.failsOnly_attachAll.bind fun _ => .pure _
  have hgroups : ∀ d : ConsumerGroupDecl, FailsOnly PlanError.OfDeclarations d.flatten := fun d =>
    Resource.failsOnly_flattenNested fun _ => Enclosing.failsOnly_attachAll.bind fun _ => .pure _
  unfold flatten
  exact (FailsOnly.mapM fun d _ => hservices d).bind fun _ =>
    (FailsOnly.mapM fun _ _ => RouteDecl.failsOnly_flatten).bind fun _ =>
    (FailsOnly.mapM fun d _ => hconsumers d).bind fun _ =>
    (FailsOnly.mapM fun d _ => hgroups d).bind fun _ =>
    (FailsOnly.mapM fun _ _ => Resource.failsOnly_flatten).bind fun _ =>
    (FailsOnly.mapM fun _ _ => Resource.failsOnly_flatten).bind fun _ =>
    (FailsOnly.mapM fun _ _ => Resource.failsOnly_flatten).bind fun _ =>
    (FailsOnly.mapM fun _ _ => Resource.failsOnly_flatten).bind fun _ => .pure _

/-- Every fault of flat declarations lies in them. -/
theorem Options.ofDeclarations_check {o : Options} {es : List Entity}
    (h : o.check es = .error err) : err.OfDeclarations := by
  have hmem : err ∈ o.faults es := by
    unfold check at h
    split at h
    · rename_i heq
      cases h
      rw [heq]
      exact List.mem_cons_self
    · cases h
  rintro e rfl
  unfold faults Capabilities.faults Selection.faults fieldFaults at hmem
  simp only [List.mem_append, List.mem_map, List.mem_filterMap, Option.map_eq_some_iff,
    reduceCtorEq, and_false, exists_false, false_or, or_false] at hmem
  split at hmem <;> simp at hmem

end

/-! ### Failures of one declaration -/

namespace Detail

variable {find : Kind → ForeignKey → Except PlanError String} {err : PlanError}

/-- A reference that may be missing fails by being looked up. -/
theorem exists_error_of_relinkOption {kind : Kind} {fk : Option ForeignKey}
    (h : relinkOption find kind fk = .error err) : ∃ kind fk, find kind fk = .error err := by
  cases fk with
  | none => cases h
  | some fk =>
    rcases Except.bind_eq_error_iff.1 h with h | ⟨_, -, h⟩
    · exact ⟨kind, fk, h⟩
    · cases h

/-- References cannot be replaced when no id is found for one of them. -/
theorem exists_error_of_relink {k : Kind} {d : Detail k} (h : relink find k d = .error err) :
    ∃ kind fk, find kind fk = .error err := by
  cases k <;> simp only [relink, Except.bind_eq_error_iff] at h
  case service =>
    rcases h with h | ⟨_, -, h | ⟨_, -, h⟩⟩
    · exact exists_error_of_relinkOption h
    · obtain ⟨id, -, hid⟩ := Except.exists_error_of_mapM h
      exact ⟨_, _, hid⟩
    · cases h
  case plugin =>
    rcases h with h | ⟨_, -, h | ⟨_, -, h | ⟨_, -, h | ⟨_, -, h | ⟨_, -, h⟩⟩⟩⟩⟩
    iterate 4 exact exists_error_of_relinkOption h
    · obtain ⟨l, -, hl⟩ := Except.exists_error_of_mapM h
      rcases Except.bind_eq_error_iff.1 hl with hl | ⟨_, -, hl⟩
      · exact ⟨_, _, hl⟩
      · cases hl
    · cases h
  case membership =>
    rcases h with h | ⟨_, -, h | ⟨_, -, h⟩⟩
    · exact ⟨_, _, h⟩
    · exact ⟨_, _, h⟩
    · cases h
  case route | target | sni | key | permission | custom =>
    rcases h with h | ⟨_, -, h⟩
    · exact exists_error_of_relinkOption h
    · cases h
  all_goals cases h

end Detail

namespace Resolution

variable {r : Resolution} {e x : Entity} {err : PlanError}

/-- Finding none or several objects is the fault of the reference. -/
theorem ofDeclarations_only {owner reference : String} {kind : Kind} {es : List Entity}
    (h : only owner kind reference es = .error err) : err.OfDeclarations := by
  unfold only at h
  split at h <;> cases h <;> rintro _ ⟨⟩

/-- So is every other way in which a reference cannot be looked up. -/
theorem ofDeclarations_lookUp {owner : String} {kind : Kind} {fk : ForeignKey}
    (h : r.lookUp owner kind fk = .error err) : err.OfDeclarations := by
  unfold lookUp at h
  split at h
  · cases h
    rintro _ ⟨⟩
  · split at h
    · simp only at h
      split at h <;> cases h
      rintro _ ⟨⟩
    · exact ofDeclarations_only h
    · simp only at h
      split at h
      · cases h
        rintro _ ⟨⟩
      · exact ofDeclarations_only h

/-- Replacing the references of an entity fails by looking one of them up. -/
theorem ofDeclarations_link (h : r.link e = .error err) : err.OfDeclarations := by
  rcases Except.bind_eq_error_iff.1 h with h | ⟨_, -, h⟩
  · obtain ⟨kind, fk, hfk⟩ := Detail.exists_error_of_relink h
    exact ofDeclarations_lookUp hfk
  · cases h

/-- A plugin of a group that differs from an earlier one with its key is at fault itself. -/
theorem ofDeclarations_repeats (h : r.repeats e = .error err) : err.OfDeclarations := by
  unfold repeats at h
  split at h
  · cases h
  · split at h
    · simp only at h
      split at h
      · split at h <;> cases h
        rintro _ ⟨⟩
      · cases h
    · cases h
  · cases h

/-- So is a declaration whose key has been declared before, or whose id belongs to something hidden.
-/
theorem ofDeclarations_refuse (h : r.refuse e = .error err) : err.OfDeclarations := by
  unfold refuse at h
  split at h
  · cases h
    rintro _ ⟨⟩
  · split at h
    · split at h <;> cases h
      rintro _ ⟨⟩
    · cases h

/-- Getting an id does not fail. -/
theorem not_fails_settle {s s' : IdSupply} : ¬Fails (r.settle e) s err s' := by
  unfold settle
  split
  · split <;> exact not_fails_pure
  · exact not_fails_pure
  · exact not_fails_pure
  · intro h
    rcases fails_bind.1 h with h | ⟨_, _, -, h⟩
    · exact not_fails_freshId h
    · exact not_fails_pure h

end Resolution

/-- An id that is refused as a duplicate is that of an entity of the same kind. -/
theorem State.exists_of_duplicateId {s : State} {e : Entity} {kind : Kind} {id : String}
    (h : s.insert e = .error (.duplicateId kind id)) :
    e.kind = kind ∧ e.id? = some id ∧ ∃ x ∈ s, x.ref = ⟨kind, id⟩ := by
  unfold insert at h
  split at h
  · cases h
  · rename_i a hid
    split at h
    · rename_i x hget
      cases h
      exact ⟨rfl, hid, x, mem_of_get? hget, ref_of_get? hget⟩
    · split at h <;> cases h

namespace Resolution

variable {r : Resolution} {e x : Entity} {S s' : IdSupply} {n : Nat} {o : Options}
  {current : State} {kind : Kind} {id : String}

/-- A declaration fails with a duplicate id when what it becomes has the id of an entity of its kind
that has been resolved. -/
theorem exists_of_duplicateId
    (h : Fails (r.step e) (S.after n) (.state (.duplicateId kind id)) s') (hr : Sound o current r) :
    ∃ x m, x.ref = ⟨kind, id⟩ ∧ e.Becomes o x ∧
      Entity.Sourced (current.select o.selection) S n m e x ∧
      ∃ y ∈ r.desired, y.ref = ⟨kind, id⟩ := by
  unfold step at h
  rcases fails_bind.1 h with h | ⟨linked, t, hyields, h⟩
  · exact absurd rfl (ofDeclarations_link (fails_lift.1 h).1 _)
  obtain ⟨hlink, rfl⟩ := yields_lift.1 hyields
  rcases fails_bind.1 h with h | ⟨again, t, hagain, h⟩
  · exact absurd rfl (ofDeclarations_repeats (fails_lift.1 h).1 _)
  obtain ⟨-, rfl⟩ := yields_lift.1 hagain
  split at h
  · exact absurd h not_fails_pure
  unfold accept at h
  rcases fails_bind.1 h with h | ⟨_, t, hrefuse, h⟩
  · exact absurd rfl (ofDeclarations_refuse (fails_lift.1 h).1 _)
  obtain ⟨-, rfl⟩ := yields_lift.1 hrefuse
  rcases fails_bind.1 h with h | ⟨⟨b, moves⟩, t, hsettle, h⟩
  · exact absurd h not_fails_settle
  obtain ⟨a, rfl, hident⟩ := yields_settle_iff.1 hsettle
  have hinsert : r.desired.insert ((r.candidate linked).withId a) =
      .error (.duplicateId kind id) := by
    have hadd := (fails_lift.1 h).1
    unfold add at hadd
    split at hadd
    · cases hadd
    · rename_i herr
      cases hadd
      exact herr
  obtain ⟨hk, hid, y, hy, href⟩ := State.exists_of_duplicateId hinsert
  obtain ⟨m, -, rfl⟩ := hident.exists_after
  refine ⟨_, m, ?_, ⟨r, linked, a, hr.options, hlink, rfl⟩, hr.visible ▸ hident.sourced hlink, y,
    hy, href⟩
  rw [Entity.ref, hk, Entity.idText_of_id? hid]

end Resolution

/-! ### Entities that clash -/

namespace Entity

variable {e e' x y : Entity} {o : Options} {v : State} {S : IdSupply} {k i n n' m m' : Nat}

/-- An entity has its id otherwise than by being handed out one. -/
def Claims (v : State) (e x : Entity) : Prop :=
  e.id? = some x.idText ∨ x.Adopts v ∨ x.derivedId? = some x.idText

/-- An id that is handed out to one entity is not that of another of a kind without derived ids. -/
theorem Sourced.idText_ne_nth (hy : Sourced v S n m e y) (hinj : Function.Injective S.nth)
    (hheld : ∀ z ∈ v, S.Spares z.idText)
    (hgiven : ∀ id, e.id? = some id → S.Spares id ∨ ∃ j < k, id = S.nth j)
    (hplain : ¬(y.kind = .membership ∨ y.kind = .permission)) (hlow : k ≤ i)
    (hout : i < n ∨ m ≤ i) : y.idText ≠ S.nth i := by
  intro heq
  cases hy with
  | declared h =>
    rcases hgiven _ h with hspare | ⟨j, hj, hid⟩
    · exact hspare i heq.symm
    · exact absurd (hinj (hid.symm.trans heq)) (by omega)
  | adopted h =>
    obtain ⟨z, hz, href, -⟩ := h
    exact hheld z hz i (heq.symm.trans (congrArg Reference.id href).symm)
  | derived h => exact hplain (kind_of_derivedId? h)
  | fresh hlow' hhigh h _ => exact absurd (hinj (h.symm.trans heq)) (by omega)

/-- Of two entities under one id, neither has been handed out the id. -/
theorem Sourced.claims (hx : Sourced v S n m e x) (hy : Sourced v S n' m' e' y)
    (hinj : Function.Injective S.nth) (hheld : ∀ z ∈ v, S.Spares z.idText)
    (hgiven : ∀ id, e'.id? = some id → S.Spares id ∨ ∃ j < k, id = S.nth j)
    (hbecomes : e.Becomes o x) (hcomplete : e.missingField? = none) (href : x.ref = y.ref)
    (hlow : k ≤ n) (hout : m ≤ n' ∨ m' ≤ n) : e.Claims v x := by
  cases hx with
  | declared h => exact .inl h
  | adopted h => exact .inr (.inl h)
  | derived h => exact .inr (.inr h)
  | @fresh i hi hhigh h hnone =>
    have hplain : ¬(x.kind = .membership ∨ x.kind = .permission) := by
      intro hk
      have hsome := hbecomes.isSome_derivedId? hcomplete hk
      rw [hnone] at hsome
      cases hsome
    have hkind : x.kind = y.kind := congrArg Reference.kind href
    have hid : x.idText = y.idText := congrArg Reference.id href
    exact absurd (hid.symm.trans h)
      (hy.idText_ne_nth hinj hheld hgiven (hkind ▸ hplain) (Nat.le_trans hlow hi) (by omega))

end Entity

namespace Resolution

/-- In the order of resolution, entities of one kind stand as they are declared. -/
theorem entitiesOfKind_inOrder (es : List Entity) (kind : Kind) :
    entitiesOfKind (inOrder es) kind = entitiesOfKind es kind := by
  have hkind : ∀ k, entitiesOfKind (entitiesOfKind es k) kind =
      if k = kind then entitiesOfKind es kind else [] := by
    intro k
    unfold entitiesOfKind
    rw [List.filter_filter]
    split
    · rename_i heq
      simp [heq]
    · rename_i hne
      simp only [List.filter_eq_nil_iff, Bool.and_eq_true, beq_iff_eq]
      rintro e - ⟨h, h'⟩
      exact hne (h'.symm.trans h)
  have hflat : entitiesOfKind (inOrder es) kind =
      Kind.creationOrder.flatMap fun k => entitiesOfKind (entitiesOfKind es k) kind :=
    List.filter_flatMap
  rw [hflat]
  simp only [hkind]
  cases kind <;> simp [Kind.creationOrder]

end Resolution

namespace Content

variable {c : Content} {o : Options} {current : State} {S s' : IdSupply} {es : List Entity}
  {k : Nat} {kind : Kind} {id : String}

/-- The id of a flat declaration is spared, or has been handed out by flattening. -/
theorem spares_of_flatten (hS : S.Fresh c current) (hes : Yields c.flatten S es (S.after k))
    {e : Entity} (he : e ∈ es) (hid : e.id? = some id) : S.Spares id ∨ ∃ j < k, id = S.nth j := by
  refine ((numbered_flatten hes).id_cases he hid).imp_left fun ⟨d, hd, hid⟩ => ?_
  exact hS.mentioned id (mem_mentioned_of_declared hd hid)

/-- A document fails with a duplicate id when two of its flat declarations, one before the other,
become entities with the id. -/
theorem exists_of_duplicateId
    (h : Fails (c.resolve current o) S (.state (.duplicateId kind id)) s') :
    ∃ es k n m first second x y, Yields c.flatten S es (S.after k) ∧ o.check es = .ok () ∧
      [first, second].Sublist (inOrder es) ∧ k ≤ n ∧
      (x.ref = ⟨kind, id⟩ ∧ first.Becomes o x ∧
        Entity.Sourced (current.select o.selection) S k n first x) ∧
      (y.ref = ⟨kind, id⟩ ∧ second.Becomes o y ∧
        Entity.Sourced (current.select o.selection) S n m second y) := by
  rcases fails_bind.1 h with h | ⟨es, t, hes, h⟩
  · exact absurd rfl (failsOnly_flatten _ _ _ h _)
  rcases fails_bind.1 h with h | ⟨⟨⟩, t', hpass, h⟩
  · exact absurd rfl (Options.ofDeclarations_check (fails_lift.1 h).1 _)
  obtain ⟨hcheck, rfl⟩ := yields_lift.1 hpass
  rcases fails_bind.1 h with h | ⟨_, _, -, h⟩
  swap
  · exact absurd h not_fails_pure
  obtain ⟨before, second, after, r, t', horder, hbefore, hstep⟩ := exists_of_fails_foldlM h
  obtain ⟨k, rfl⟩ := exists_after_of_flatten hes
  obtain ⟨ps, rfl, hall⟩ := exists_placedAll_of_foldlM hbefore
  obtain ⟨n, rfl⟩ := hall.exists_eq_after
  rw [IdSupply.after_after] at hall hstep
  have hsound := hall.sound (sound_start o current)
  obtain ⟨y, m, hyref, hybecomes, hysourced, x, hx, hxref⟩ :=
    Resolution.exists_of_duplicateId hstep hsound
  obtain ⟨p, hp, -, hxbecomes, hxsourced⟩ :=
    (hall.exists_sourced (sound_start o current) hx).resolve_left State.not_mem_empty
  have hpair : [p.1, second].Sublist (inOrder es) := by
    rw [horder]
    exact (List.singleton_sublist.2 (List.mem_map_of_mem hp)).append
      (List.singleton_sublist.2 List.mem_cons_self)
  exact ⟨es, k, k + n, m, p.1, second, x, y, hes, hcheck, hpair, Nat.le_add_right k n,
    ⟨hxref, hxbecomes, hxsourced⟩, ⟨hyref, hybecomes, hysourced⟩⟩

/-- For every document, gateway and all options: when resolution fails with a duplicate id, two flat
declarations of the kind become entities with the id, each of which is declared with it, adopts the
one of a visible object with its natural or fallback key, or derives it from its references. When
both are declared with it, the document really declares two objects of the kind with the id. -/
theorem twice_of_duplicateId (c : Content) (current : State) (o : Options) (ids ids' : IdSupply)
    (kind : Kind) (id : String) (hfresh : ids.Fresh c current)
    (h : Fails (c.resolve current o) ids (.state (.duplicateId kind id)) ids') :
    ∃ es t first second x y, Yields c.flatten ids es t ∧
      [first, second].Sublist (entitiesOfKind es kind) ∧
      (x.ref = ⟨kind, id⟩ ∧ first.Becomes o x ∧ first.Claims (current.select o.selection) x) ∧
      (y.ref = ⟨kind, id⟩ ∧ second.Becomes o y ∧ second.Claims (current.select o.selection) y) ∧
      (first.id? = some id → second.id? = some id →
        List.Duplicate ⟨kind, id⟩ (c.declared.filterMap Entity.ref?)) := by
  obtain ⟨es, k, n, m, first, second, x, y, hes, hcheck, hpair, hkn, ⟨hxref, hxbecomes, hxsourced⟩,
    ⟨hyref, hybecomes, hysourced⟩⟩ := exists_of_duplicateId h
  have hheld : ∀ z ∈ current.select o.selection, ids.Spares z.idText := fun z hz =>
    hfresh.held z (State.mem_of_mem_select hz)
  have hmem : ∀ e ∈ [first, second], e ∈ es := fun e he => mem_inOrder.1 (hpair.mem he)
  have hgiven : ∀ e ∈ [first, second], ∀ id, e.id? = some id →
      ids.Spares id ∨ ∃ j < k, id = ids.nth j := fun e he _ =>
    spares_of_flatten hfresh hes (hmem e he)
  have hcomplete : ∀ e ∈ [first, second], e.missingField? = none := fun e he =>
    (Options.check_eq_ok_iff.1 hcheck e (hmem e he)).complete
  have hboth : x.ref = y.ref := hxref.trans hyref.symm
  have hfirst : first.kind = kind :=
    hxbecomes.kind_eq.symm.trans (congrArg Reference.kind hxref)
  have hsecond : second.kind = kind :=
    hybecomes.kind_eq.symm.trans (congrArg Reference.kind hyref)
  have hsub : [first, second].Sublist (entitiesOfKind es kind) := by
    rw [← entitiesOfKind_inOrder]
    have hfilter := hpair.filter (·.kind == kind)
    rwa [List.filter_eq_self.2 (by simp [hfirst, hsecond])] at hfilter
  refine ⟨es, _, first, second, x, y, hes, hsub, ⟨hxref, hxbecomes, ?_⟩, ⟨hyref, hybecomes, ?_⟩, ?_⟩
  · exact hxsourced.claims hysourced hfresh.injective hheld (hgiven second (by simp)) hxbecomes
      (hcomplete first (by simp)) hboth (Nat.le_refl k) (.inl (Nat.le_refl n))
  · exact hysourced.claims hxsourced hfresh.injective hheld (hgiven first (by simp)) hybecomes
      (hcomplete second (by simp)) hboth.symm hkn (.inr (Nat.le_refl n))
  · intro hid hid'
    refine (numbered_flatten hes).duplicate hfresh.injective
      (fun d hd id hid => hfresh.mentioned id (mem_mentioned_of_declared hd hid)) ?_
    have href : first.ref? = some ⟨kind, id⟩ := Entity.ref?_eq_some_iff.2 ⟨hfirst, hid⟩
    have href' : second.ref? = some ⟨kind, id⟩ := Entity.ref?_eq_some_iff.2 ⟨hsecond, hid'⟩
    have hrefs := (hsub.trans List.filter_sublist).filterMap Entity.ref?
    rw [List.filterMap_cons, href, List.filterMap_cons, href'] at hrefs
    exact List.duplicate_iff_sublist.2 hrefs

end Content

/-! ### A name that is given to another service -/

/-- A document in which the service `s0` gets a new name, and another service the old one. -/
def handedOn : Content where
  services := [⟨Resource.ofDetail .service (some "s0")
      { (default : Service) with name := some "new" }, [], []⟩,
    ⟨Resource.ofDetail .service none { (default : Service) with name := some "old" }, [], []⟩]

/-- A gateway with the service `s0` under its old name. -/
def beforeHandedOn : State := .collect [Sample.service "s0" "old"]

/-- The document cannot be resolved, and is said to have two services under one id. -/
theorem fails_handedOn : ∃ ids', Fails (handedOn.resolve beforeHandedOn {}) (.repeating 'a')
    (.state (.duplicateId .service "s0")) ids' :=
  fails_of_error? (by decide +kernel)

/-- The ids that are handed out occur nowhere. -/
theorem fresh_handedOn : (IdSupply.repeating 'a').Fresh handedOn beforeHandedOn :=
  IdSupply.fresh_repeating (by decide +kernel) (by decide +kernel)

/-- The service with the old name does not declare the id that it gets. -/
theorem claims_of_handedOn : ∃ ids', Fails (handedOn.resolve beforeHandedOn {}) (.repeating 'a')
      (.state (.duplicateId .service "s0")) ids' ∧
    ∃ es t first second x y, Yields handedOn.flatten (.repeating 'a') es t ∧
      [first, second].Sublist (entitiesOfKind es .service) ∧
      (x.ref = ⟨.service, "s0"⟩ ∧ first.Becomes {} x ∧
        first.Claims (beforeHandedOn.select ({} : Options).selection) x) ∧
      (y.ref = ⟨.service, "s0"⟩ ∧ second.Becomes {} y ∧
        second.Claims (beforeHandedOn.select ({} : Options).selection) y) ∧
      (first.id? ≠ some "s0" ∨ second.id? ≠ some "s0") := by
  obtain ⟨ids', hfails⟩ := fails_handedOn
  obtain ⟨es, t, first, second, x, y, hes, hsub, hx, hy, hdup⟩ := Content.twice_of_duplicateId
    handedOn beforeHandedOn {} (.repeating 'a') ids' .service "s0" fresh_handedOn hfails
  refine ⟨ids', hfails, es, t, first, second, x, y, hes, hsub, hx, hy, ?_⟩
  have hnodup : (handedOn.declared.filterMap Entity.ref?).Nodup := by decide
  by_contra! hboth
  exact (hdup hboth.1 hboth.2).not_nodup hnodup

/-- It is not so that a duplicate id has always been declared twice, nor even that resolution never
fails with one where ids and natural keys are declared once. -/
theorem not_always_declared_twice :
    (¬∀ (c : Content) (current : State) (o : Options) (ids ids' : IdSupply) (kind : Kind)
      (id : String), ids.Fresh c current →
        Fails (c.resolve current o) ids (.state (.duplicateId kind id)) ids' →
          List.Duplicate ⟨kind, id⟩ (c.declared.filterMap Entity.ref?)) ∧
    ¬∀ (c : Content) (current : State) (o : Options) (ids ids' : IdSupply) (kind : Kind)
      (id : String), ids.Fresh c current → (c.declared.filterMap Entity.ref?).Nodup →
        (c.declared.filterMap fun e => e.naturalKey?.map (e.kind, ·)).Nodup →
          ¬Fails (c.resolve current o) ids (.state (.duplicateId kind id)) ids' := by
  obtain ⟨ids', hfails⟩ := fails_handedOn
  refine ⟨fun h => ?_, fun h => ?_⟩
  · have hdup := h _ _ _ _ _ _ _ fresh_handedOn hfails
    revert hdup
    decide
  · exact h _ _ _ _ _ _ _ fresh_handedOn (by decide) (by decide) hfails

end Gateway
