import Gateway.Proofs.Comparison
import Gateway.Proofs.Correspondence

/-!
# The order of tags

Tags are compared as sets everywhere but in one place: a plugin of a consumer-group that repeats an
earlier one has to say the same, tags in their order included. So when the tags of declarations are
put into another order, planning goes on as before exactly as long as declarations that end up as
one object still carry their tags in one order, and the plan is the same up to the order of tags
(`Content.plans_iff_tagsAgree`). Where they do not, a document that can be planned becomes one that
cannot (`not_always_planned`).
-/

namespace Gateway

open Planning

namespace Entity

/-- The same entity, its tags in any order. -/
def SameUpToTagOrder (a b : Entity) : Prop := b = a.withTags b.tags ∧ b.tags.Perm a.tags

variable {a b : Entity}

/-- What looks alike when tags may be reordered is the same entity with its tags in some order. -/
theorem sameUpToTagOrder_of_image (h : a.Image .tagOrder b) : a.SameUpToTagOrder b := by
  cases h with
  | @mk k r r' h =>
    have htags : (r.toEntity.withTags r'.tags).resource.tags = r'.tags := by
      show (if k.taggable then r'.tags else []) = r'.tags
      cases htag : k.taggable with
      | true => rfl
      | false => exact (r'.tags_eq_nil htag).symm
    have hid : r'.id = r.id := h.id.trans Option.map_id_apply
    have hdetail : r'.detail = r.detail :=
      h.detail.trans (Detail.rename_eq_self (fun _ _ _ _ => rfl) fun _ _ => rfl)
    refine ⟨congrArg (Entity.mk k) ?_, h.tags.symm⟩
    exact Resource.ext_of hid hdetail htags.symm h.createdAt h.updatedAt

/-- What is compared of two forms of an entity is the same when they differ in the order of tags
alone. -/
theorem SameUpToTagOrder.comparable (h : a.SameUpToTagOrder b) : b.comparable = a.comparable := by
  obtain ⟨heq, hperm⟩ := h
  unfold Entity.comparable
  rw [mergeSort_eq_iff.2 hperm, heq]
  rfl

/-- Nothing looks different when tags may stand in another order. -/
theorem image_tagOrder_self (e : Entity) : e.Image .tagOrder e := image_self fun _ _ => rfl

theorem Image.withoutTimestamps {φ : Relabelling} (h : a.Image φ b) :
    a.withoutTimestamps.Image φ b.withoutTimestamps := by
  cases h with
  | mk h => exact .mk { h with createdAt := rfl, updatedAt := rfl }

end Entity

/-! ### Plans from states -/

/-- The same operation, the tags of its entity in any order. -/
structure PlannedOp.SameUpToTagOrder (op op' : PlannedOp) : Prop where
  action : op'.action = op.action
  key : op'.key = op.key
  entity : op.entity.SameUpToTagOrder op'.entity
  previous : op'.previous = op.previous
  changes : op'.changes = op.changes

namespace State

variable {desired desired' current visible : State} {d d' : Entity} {op : PlannedOp}
  {sel : Selection} {p : Plan} {kind : Kind}

/-- States with objects of the same kinds and ids list them in the same order. -/
theorem map_ref_eq {s t : State} (h : ∀ ref, (∃ x ∈ s, x.ref = ref) ↔ ∃ x ∈ t, x.ref = ref) :
    s.entities.map Entity.ref = t.entities.map Entity.ref := by
  let Before (a b : Reference) : Prop :=
    a.kind.rank < b.kind.rank ∨ (a.kind = b.kind ∧ a.id < b.id)
  have hordered : ∀ u : State, (u.entities.map Entity.ref).Pairwise Before :=
    fun u => List.pairwise_map.2 u.ordered
  have hirrefl : ∀ a, ¬Before a a := by
    rintro a (h | ⟨-, h⟩)
    · exact Nat.lt_irrefl _ h
    · exact String.lt_irrefl _ h
  have : Std.Irrefl Before := ⟨hirrefl⟩
  have : Std.Antisymm Before := by
    refine ⟨fun a b hab hba => ?_⟩
    rcases hab with hab | ⟨hk, hab⟩ <;> rcases hba with hba | ⟨hk', hba⟩
    · exact absurd hba (Nat.not_lt.2 (Nat.le_of_lt hab))
    · exact absurd hab (by rw [hk']; exact Nat.lt_irrefl _)
    · exact absurd hba (by rw [hk]; exact Nat.lt_irrefl _)
    · exact absurd hba (String.lt_asymm hab)
  refine (hordered s).eq_of_mem_iff (hordered t) fun {ref} => ?_
  rw [List.mem_map, List.mem_map]
  exact h ref

/-- The members of two states that differ in the order of tags stand in the same places. -/
theorem Image.forall₂_entities (h : desired.Image .tagOrder desired') :
    List.Forall₂ (Entity.Image .tagOrder) desired.entities desired'.entities := by
  have hrefs : desired.entities.map Entity.ref = desired'.entities.map Entity.ref := by
    refine map_ref_eq fun ref => ⟨?_, ?_⟩
    · rintro ⟨x, hx, rfl⟩
      obtain ⟨y, hy, hxy⟩ := h.forth x hx
      exact ⟨y, hy, hxy.ref⟩
    · rintro ⟨y, hy, rfl⟩
      obtain ⟨x, hx, hxy⟩ := h.back y hy
      exact ⟨x, hx, hxy.ref.symm⟩
  have hsame : List.Forall₂ (fun a b => a.ref = b.ref) desired.entities desired'.entities := by
    rw [← List.forall₂_eq_eq_eq, List.forall₂_map_left_iff, List.forall₂_map_right_iff] at hrefs
    exact hrefs
  refine hsame.imp_of_mem fun a ha b hb href => ?_
  obtain ⟨y, hy, hay⟩ := h.forth a ha
  rwa [eq_of_ref hb hy (href.symm.trans hay.ref.symm)]

/-- Kind by kind, two images list what looks alike in the same order. -/
theorem Image.forall₂_ofKind (h : desired.Image .tagOrder desired') (kind : Kind) :
    List.Forall₂ (Entity.Image .tagOrder) (desired.ofKind kind) (desired'.ofKind kind) := by
  refine List.rel_filter (fun d d' hd => ?_) h.forall₂_entities
  show (d.kind == kind) = true ↔ (d'.kind == kind) = true
  rw [hd.kind]

/-- The operations on two forms of an entity that differ in the order of tags do. -/
theorem exists_planFor_of_image (h : d.Image .tagOrder d')
    (hplan : planFor current visible d = .ok op) :
    ∃ op', planFor current visible d' = .ok op' ∧ op.SameUpToTagOrder op' := by
  have hk : d'.kind = d.kind := h.kind
  have hid : d'.idText = d.idText := h.idText
  have hcomparable := (Entity.sameUpToTagOrder_of_image h).comparable
  rcases planFor_eq_ok_iff.1 hplan with ⟨held, hget, rfl⟩ | ⟨hget, hfree, rfl⟩
  · refine ⟨.ofMatch d' held, planFor_eq_ok_iff.2 (.inl ⟨held, ?_, rfl⟩), ?_⟩
    · rw [hk, hid, hget]
    · have hkey : (PlannedOp.ofMatch d' held).key = (PlannedOp.ofMatch d held).key := by
        rw [key_ofMatch, key_ofMatch]
        exact h.ref
      unfold PlannedOp.ofMatch at hkey ⊢
      simp only [hcomparable] at hkey ⊢
      split
      · exact ⟨rfl, h.ref, Entity.sameUpToTagOrder_of_image h, rfl, rfl⟩
      · exact ⟨rfl, h.ref, Entity.sameUpToTagOrder_of_image h.withoutTimestamps, rfl, rfl⟩
  · refine ⟨_, planFor_eq_ok_iff.2 (.inr ⟨?_, ?_, rfl⟩), rfl, h.ref,
      Entity.sameUpToTagOrder_of_image h, rfl, rfl⟩
    · rw [hk, hid, hget]
    · rw [hk, hid, hfree]

/-- Plans of two states that differ in the order of tags do. -/
theorem Image.exists_planTo (h : desired.Image .tagOrder desired')
    (hplan : desired.planTo current sel = .ok p) : ∃ p', desired'.planTo current sel = .ok p' ∧
      List.Forall₂ PlannedOp.SameUpToTagOrder p.ops p'.ops := by
  have hkind : ∀ kind ops, planKind desired current (current.select sel) kind = .ok ops →
      ∃ ops', planKind desired' current (current.select sel) kind = .ok ops' ∧
        List.Forall₂ PlannedOp.SameUpToTagOrder ops ops' := by
    intro kind ops hops
    obtain ⟨wanted, hwanted, rfl⟩ := planKind_eq_ok_iff.1 hops
    obtain ⟨wanted', hwanted', hsame⟩ := List.Forall₂.exists_beside
      ((h.forall₂_ofKind kind).imp fun d d' hd op => exists_planFor_of_image hd) hwanted
    have hgone : gone desired' (current.select sel) kind =
        gone desired (current.select sel) kind := by
      unfold gone
      refine List.filter_congr fun e _ => ?_
      exact congrArg (!·) (h.contains kind e.idText)
    refine ⟨_, planKind_eq_ok_iff.2 ⟨wanted', hwanted', rfl⟩, List.rel_append hsame ?_⟩
    rw [hgone]
    refine List.forall₂_same.2 fun op _ => ⟨rfl, rfl, ?_, rfl, rfl⟩
    exact Entity.sameUpToTagOrder_of_image op.entity.image_tagOrder_self
  obtain ⟨groups, hgroups, rfl⟩ := planTo_eq_ok_iff.1 hplan
  obtain ⟨groups', hgroups', hsame⟩ :=
    List.Forall₂.exists_beside (List.forall₂_same.2 fun kind _ ops => hkind kind ops) hgroups
  exact ⟨_, planTo_eq_ok_iff.2 ⟨groups', hgroups', rfl⟩, List.rel_flatten hsame⟩

end State

/-! ### Plans from documents -/

namespace Content

open Resolution

variable {c c' : Content} {o : Options} {current : State} {ids ids' t : IdSupply} {p p' : Plan}

/-- For every two documents that differ in the order of the tags of their declarations, the first of
which can be planned: the second can be planned as well exactly when its declarations that end up as
one object carry their tags in one order, with those that the selection adds. The plan then takes
the same fresh ids and has the same operations in the same order, with the same changes, but for the
order of tags. -/
theorem plans_iff_tagsAgree (c c' : Content) (o : Options) (current : State) (ids ids' : IdSupply)
    (p : Plan) (hsame : c.Image .tagOrder c') (hplan : Yields (c.plan current o) ids p ids') :
    ∃ refs es t, Yields (c.finalIds current o) ids refs ids' ∧ Yields c'.flatten ids es t ∧
      ((∃ p' u, Yields (c'.plan current o) ids p' u) ↔
        TagsAgree o.selection ((inOrder es).zip refs)) ∧
      ∀ p' u, Yields (c'.plan current o) ids p' u →
        u = ids' ∧ List.Forall₂ PlannedOp.SameUpToTagOrder p.ops p'.ops := by
  obtain ⟨desired, hres, hp⟩ := yields_plan_iff.1 hplan
  obtain ⟨refs, hrefs⟩ := exists_finalIds hres
  have hheld : ∀ x ∈ current, x.Image .tagOrder x := fun x _ => x.image_tagOrder_self
  -- Both runs take the same ids, and no id has another name.
  obtain ⟨n, rfl⟩ := hsame.exists_eq_after hrefs
  have hechoes : ids.Echoes (Relabelling.rename .tagOrder) ids n := fun _ _ => rfl
  have hrename : refs.map (.rename (Relabelling.rename .tagOrder)) = refs := List.map_id refs
  obtain ⟨es₀, s₁, -, hes₀, -, -⟩ := yields_finalIds_iff.1 hrefs
  obtain ⟨k, -, hflat⟩ := hsame.follows_flatten ids es₀ s₁ hes₀
  obtain ⟨es, hes, -⟩ := hflat ids fun _ _ => rfl
  have hagree : ∀ {p' u}, Yields (c'.plan current o) ids p' u →
      TagsAgree o.selection ((inOrder es).zip refs) := by
    intro p' u hplan'
    obtain ⟨desired', hres', -⟩ := yields_plan_iff.1 hplan'
    obtain ⟨refs', hrefs'⟩ := exists_finalIds hres'
    obtain rfl : refs' = refs :=
      (hsame.finalIds_eq hheld hrefs hrefs' hechoes).trans hrename
    exact tagsAgree_of_finalIds hes hrefs'
  have hplans : TagsAgree o.selection ((inOrder es).zip refs) → ∃ p',
      Yields (c'.plan current o) ids p' (ids.after n) ∧
        List.Forall₂ PlannedOp.SameUpToTagOrder p.ops p'.ops := by
    intro htags
    obtain ⟨desired', hres', -, himage⟩ :=
      hsame.exists_resolve hheld hres hrefs hechoes (fun es' u hes' => by
        obtain ⟨rfl, -⟩ := hes.unique hes'
        rwa [hrename])
    obtain ⟨p', hp', hops⟩ := himage.exists_planTo hp
    exact ⟨p', yields_plan_iff.2 ⟨desired', hres', hp'⟩, hops⟩
  refine ⟨refs, es, _, hrefs, hes, ⟨fun ⟨p', u, h⟩ => hagree h, fun htags => ?_⟩, ?_⟩
  · obtain ⟨p', hp', -⟩ := hplans htags
    exact ⟨p', _, hp'⟩
  · intro p' u hplan'
    obtain ⟨p'', hp'', hops⟩ := hplans (hagree hplan')
    obtain ⟨rfl, rfl⟩ := hplan'.unique hp''
    exact ⟨rfl, hops⟩

end Content

/-! ### A plugin that is written twice -/

/-- A plugin that is written twice may carry its tags in any order. -/
theorem image_repeatedPlugin {ts ts' us us' : List String} (ht : ts.Perm ts') (hu : us.Perm us') :
    (Sample.repeatedPlugin ts us).Image .tagOrder (Sample.repeatedPlugin ts' us') := by
  have hresource : ∀ {k : Kind} {id : Option String} {d : Detail k} {ts ts' : List String},
      ts.Perm ts' → (Resource.make k id d ts none none).Image .tagOrder
        (Resource.make k id d ts' none none) := by
    intro k id d ts ts' h
    refine ⟨Option.map_id_apply.symm, ?_, ?_, rfl, rfl⟩
    · exact (Detail.rename_eq_self (fun _ _ _ _ => rfl) fun _ _ => rfl).symm
    · show (if k.taggable then ts else []).Perm (if k.taggable then ts' else [])
      split
      · exact h
      · exact .nil
  refine ⟨.nil, .nil, .nil, .nil, .cons ⟨hresource .nil, rfl, ?_⟩ .nil, .nil, .nil, .nil, .nil,
    .nil, .nil, .nil, .nil, .nil, .nil, .nil, .nil, .nil⟩
  exact .cons (hresource ht) (.cons (hresource hu) .nil)

/-- The plan for a plugin that is written twice, if it can be made. -/
def repeatedPluginPlan (first second : List String) : Option Plan :=
  result? ((Sample.repeatedPlugin first second).plan .empty {}) .numbered

/-- The plugin is written twice with its tags in one order, and the plan is the same in the other
order of tags. -/
theorem plans_iff_tagsAgree_of_repeatedPlugin :
    ∃ p p', repeatedPluginPlan ["a", "b"] ["a", "b"] = some p ∧
      repeatedPluginPlan ["b", "a"] ["b", "a"] = some p' ∧ p.ops.length = 2 ∧
      List.Forall₂ PlannedOp.SameUpToTagOrder p.ops p'.ops := by
  have heval : (repeatedPluginPlan ["a", "b"] ["a", "b"]).any (·.ops.length == 2) = true := by
    decide +kernel
  have heval' : (repeatedPluginPlan ["b", "a"] ["b", "a"]).isSome = true := by decide +kernel
  obtain ⟨p, hp, hlength⟩ := (Option.any_eq_true _ _).1 heval
  obtain ⟨p', hp'⟩ := Option.isSome_iff_exists.1 heval'
  obtain ⟨ids, hplan⟩ := yields_of_result? hp
  obtain ⟨ids', hplan'⟩ := yields_of_result? hp'
  obtain ⟨-, -, -, -, -, -, hsame⟩ := Content.plans_iff_tagsAgree _ _ {} .empty .numbered ids p
    (image_repeatedPlugin (.swap "b" "a" []) (.swap "b" "a" [])) hplan
  exact ⟨p, p', hp, hp', by simpa using hlength, (hsame p' ids' hplan').2⟩

/-- The plugin is written twice with its tags in one order, and cannot be planned once one of the
two is put into another: it is not so that the order of tags never matters. -/
theorem not_always_planned : ¬∀ (c c' : Content) (o : Options) (current : State) (ids : IdSupply),
    c.Image .tagOrder c' →
      ((∃ p ids', Yields (c.plan current o) ids p ids') ↔
        ∃ p' ids', Yields (c'.plan current o) ids p' ids') := by
  intro h
  have heval : (repeatedPluginPlan ["a", "b"] ["a", "b"]).isSome = true := by decide +kernel
  have heval' : repeatedPluginPlan ["a", "b"] ["b", "a"] = none := by decide +kernel
  obtain ⟨p, hp⟩ := Option.isSome_iff_exists.1 heval
  obtain ⟨ids, hplan⟩ := yields_of_result? hp
  obtain ⟨p', ids', hplan'⟩ := (h _ _ {} .empty .numbered
    (image_repeatedPlugin (.refl ["a", "b"]) (.swap "b" "a" []))).1 ⟨p, ids, hplan⟩
  have hsome : repeatedPluginPlan ["a", "b"] ["b", "a"] = some p' :=
    congrArg (fun x => x.1.toOption) hplan'
  cases heval'.symm.trans hsome

end Gateway
