import Gateway.Proofs.Body
import Gateway.Proofs.Check
import Gateway.Proofs.Comparison

/-!
# What a plan leaves behind

When all of a plan has taken effect, every wanted entity is visible in a form that needs no further
change (`Content.exists_kept_of_desired`), nothing else is visible (`Content.contains_of_visible`),
and what is hidden was there and hidden before (`Content.hidden_of_hidden`).
-/

namespace Gateway

open Planning

/-! ### What a selection shows -/

/-- Every membership names a group that the state holds. -/
def State.NamesGroups (s : State) : Prop :=
  ∀ m ∈ s, m.kind = .membership → ∃ g ∈ s, g.kind = .consumerGroup ∧ g.ref ∈ m.references

instance (s : State) : Decidable s.NamesGroups :=
  inferInstanceAs (Decidable (∀ m ∈ s.entities, m.kind = .membership →
    ∃ g ∈ s.entities, g.kind = .consumerGroup ∧ g.ref ∈ m.references))

namespace State

variable {s : State} {sel : Selection} {e g : Entity}

/-- Objects other than memberships are seen for their own tags. -/
theorem visible_of_ne (h : e.kind ≠ .membership) : s.visible sel e = sel.admits e := by
  obtain ⟨k, r⟩ := e
  cases k <;> first | rfl | exact absurd rfl h

/-- A membership is seen where its group is. -/
theorem visible_of_group (h : e.kind = .membership) (hg : g ∈ s) (hk : g.kind = .consumerGroup)
    (href : g.ref ∈ e.references) :
    s.visible sel e = (!sel.isActive || sel.admits g) := by
  obtain ⟨k, r⟩ := e
  cases h
  have hid : r.detail.consumerGroup.id = some g.idText := by
    simp only [Entity.references, Entity.links, Detail.links, List.mem_filterMap, List.mem_cons,
      List.not_mem_nil, or_false] at href
    obtain ⟨l, hl, href⟩ := href
    obtain ⟨id, hid, heq⟩ := Option.map_eq_some_iff.1 href
    rcases hl with rfl | rfl
    · rw [hid]
      exact congrArg (fun x => some x.id) heq
    · have hkind := congrArg Reference.kind heq
      rw [Entity.ref_kind, hk] at hkind
      cases hkind
  have hget : s.get? .consumerGroup g.idText = some g := hk ▸ get?_of_mem hg
  simp only [visible, hid, Option.bind_some, hget, Option.map_some, Option.getD_some]

end State

/-! ### Wanted entities under a selection -/

namespace Content

variable {c : Content} {o : Options} {current desired next : State} {s s' : IdSupply} {p : Plan}
  {d x : Entity}

/-- A wanted entity other than a membership is inside the selection. -/
theorem admits_of_desired (hres : Yields (c.resolve current o) s desired s') (hd : d ∈ desired)
    (hne : d.kind ≠ .membership) : o.selection.admits d = true := by
  unfold Selection.admits
  cases hact : o.selection.isActive with
  | false => rfl
  | true =>
    obtain ⟨es, t, -, hcheck, hkinds⟩ := exists_kind_of_resolve hres
    obtain ⟨e, he, hk⟩ := hkinds d hd
    have htag : e.kind.taggable = true :=
      (Options.check_eq_ok_iff.1 hcheck e he).taggable hact (hk ▸ hne)
    obtain ⟨t, ht⟩ : ∃ t, t ∈ o.selection.tags := by
      refine List.exists_mem_of_ne_nil _ fun hnil => ?_
      simp [Selection.isActive, hnil] at hact
    have hcarried : d.hasAnyTag o.selection.tags = true :=
      List.any_eq_true.2 ⟨t, tags_subset_of_resolve hres hd (hk ▸ htag) ht, by simpa using ht⟩
    simp [← hk, htag, hcarried]

/-- A wanted membership refers to a wanted group. -/
theorem exists_group_of_desired (hlookup : o.lookupTags.isEmpty = true)
    (hres : Yields (c.resolve current o) s desired s') (hd : d ∈ desired)
    (hk : d.kind = .membership) :
    ∃ g ∈ desired, g.kind = .consumerGroup ∧ g.ref ∈ d.references := by
  obtain ⟨k, r⟩ := d
  cases hk
  have hlink : (Kind.consumerGroup, r.detail.consumerGroup) ∈ Entity.links ⟨.membership, r⟩ :=
    List.mem_cons_self
  obtain ⟨id, hid⟩ := exists_byId_of_mem_links hres hd hlink
  have hid : r.detail.consumerGroup = .byId id := hid
  have href : ⟨.consumerGroup, id⟩ ∈ Entity.references ⟨.membership, r⟩ :=
    List.mem_filterMap.2 ⟨_, hlink, by rw [hid]; rfl⟩
  obtain ⟨g, hg, hgref⟩ := contains_of_mem_references hlookup hres hd href
  exact ⟨g, hg, congrArg Reference.kind hgref, hgref ▸ href⟩

end Content

/-! ### The state that a plan leaves behind -/

/-- An object needs no change to be as a wanted entity. -/
structure Entity.Keeps (x d : Entity) : Prop where
  ref : x.ref = d.ref
  naturalKey? : x.naturalKey? = d.naturalKey?
  references : x.references = d.references
  keep : (PlannedOp.ofMatch d x).action = .keep

namespace Entity

variable {x d : Entity}

/-- A match is kept exactly when nothing that is compared differs. -/
theorem action_ofMatch_eq_keep_iff :
    (PlannedOp.ofMatch d x).action = .keep ↔ Value.differences x.comparable d.comparable = [] := by
  unfold PlannedOp.ofMatch FieldChange.between
  simp only [List.isEmpty_map, List.isEmpty_iff]
  split <;> simp_all

/-- A well-formed entity that is stored is as it should be. -/
theorem keeps_self (h : d.WellFormed) : d.Keeps d :=
  ⟨rfl, rfl, rfl, action_ofMatch_eq_keep_iff.2 (differences_self h)⟩

/-- A well-formed entity that is stored without time stamps is as it should be, too. -/
theorem keeps_withoutTimestamps (h : d.WellFormed) : d.withoutTimestamps.Keeps d :=
  ⟨rfl, rfl, rfl, action_ofMatch_eq_keep_iff.2 (differences_self h)⟩

end Entity

namespace Content

variable {c : Content} {o : Options} {current desired next : State} {s s' : IdSupply} {p : Plan}
  {d x : Entity}

/-- What the gateway holds as it should be has the natural key and the references of the wanted
entity. -/
theorem keeps_of_keep (hres : Yields (c.resolve current o) s desired s') (hd : d ∈ desired)
    (hwf : x.WellFormed) (href : x.ref = d.ref) (hkeep : (PlannedOp.ofMatch d x).action = .keep) :
    x.Keeps d := by
  have hk : x.kind = d.kind := congrArg Reference.kind href
  have hlinks : ∀ l ∈ d.links, l.2.WellFormed := by
    intro l hl
    obtain ⟨id, hid⟩ := exists_byId_of_mem_links hres hd hl
    rw [hid]
    exact ForeignKey.wellFormed_byId id
  have hsame := Entity.action_ofMatch_eq_keep_iff.1 hkeep
  exact ⟨href, Entity.naturalKey?_of_differences hk hwf hlinks hsame,
    Entity.references_of_differences hk hwf hlinks hsame, hkeep⟩

section

variable (hres : Yields (c.resolve current o) s desired s')
  (hto : desired.planTo current o.selection = .ok p) (hnext : current.Becomes p.mutations next)

include hto in
/-- An object that a plan is about is visible. -/
theorem mem_select_of_op {op : PlannedOp} (hop : op ∈ p.ops) (hx : x ∈ current)
    (hkey : op.key = x.ref) : x ∈ current.select o.selection := by
  rcases (State.mem_ops_of_planTo hto).1 hop with ⟨d, -, hplan⟩ | ⟨y, hy, -, rfl⟩
  · have hdref := (State.key_of_planFor hplan).symm.trans hkey
    rcases State.planFor_eq_ok_iff.1 hplan with ⟨y, hget, -⟩ | ⟨-, hfree, -⟩
    · have hyref := (State.ref_of_get? hget).trans hdref
      have hy := State.mem_of_get? hget
      rwa [State.eq_of_ref hx (State.mem_of_mem_select hy) hyref.symm]
    · have hheld := State.contains_of_ref hx hdref.symm
      cases hfree.symm.trans hheld
  · rwa [State.eq_of_ref hx (State.mem_of_mem_select hy) hkey.symm]

include hres hto hnext in
/-- Every wanted entity is there and needs no change. -/
theorem exists_keeps (hwf : current.WellFormed) (hwf' : desired.WellFormed) (hd : d ∈ desired) :
    ∃ x ∈ next, x.Keeps d ∧ (d.kind ≠ .membership → o.selection.admits x = true) := by
  obtain ⟨op, hop, hplan⟩ := State.exists_planFor_of_planTo hto hd
  have hkey := State.key_of_planFor hplan
  rcases State.planFor_eq_ok_iff.1 hplan with ⟨x, hget, rfl⟩ | ⟨-, -, rfl⟩
  · have href := State.ref_of_get? hget
    obtain ⟨hx, hvisible⟩ := State.mem_filter.1 (State.mem_of_get? hget)
    by_cases hkeep : (PlannedOp.ofMatch d x).action = .keep
    · have hkeeps := keeps_of_keep hres hd (hwf x hx) href hkeep
      refine ⟨x, hnext.mem_of_mem hx fun o ho heq => ?_, hkeeps, fun hne => ?_⟩
      · obtain ⟨ho, hact⟩ := Plan.mem_mutations.1 ho
        have hsame : o.key = (PlannedOp.ofMatch d x).key := heq.trans (href.trans hkey.symm)
        rw [List.inj_on_of_nodup_map (State.nodup_ops_of_planTo hto) ho hop hsame] at hact
        exact hact hkeep
      · have hk : x.kind = d.kind := congrArg Reference.kind href
        rwa [State.visible_of_ne (hk ▸ hne)] at hvisible
    · have hmem := Plan.mem_mutations.2 ⟨hop, hkeep⟩
      have hstored := hnext.mem_of_op hmem (State.action_of_planFor hplan)
      rw [(State.ofMatch_of_ne_keep hkeep).2.1] at hstored
      refine ⟨_, hstored, Entity.keeps_withoutTimestamps (hwf' d hd), fun hne => ?_⟩
      rw [Entity.admits_withoutTimestamps]
      exact admits_of_desired hres hd hne
  · have hmem : ⟨.create, d, none, []⟩ ∈ p.mutations := Plan.mem_mutations.2 ⟨hop, by simp⟩
    exact ⟨d, hnext.mem_of_op hmem (by simp), Entity.keeps_self (hwf' d hd),
      fun hne => admits_of_desired hres hd hne⟩

include hres hto hnext in
/-- Every wanted entity is visible in a form that needs no change. -/
theorem exists_kept_of_desired (hlookup : o.lookupTags.isEmpty = true)
    (hwf : current.WellFormed) (hwf' : desired.WellFormed) (hd : d ∈ desired) :
    ∃ x ∈ next.select o.selection, x.Keeps d := by
  obtain ⟨x, hx, hkeeps, hadmits⟩ := exists_keeps hres hto hnext hwf hwf' hd
  refine ⟨x, State.mem_filter.2 ⟨hx, ?_⟩, hkeeps⟩
  have hk : x.kind = d.kind := congrArg Reference.kind hkeeps.ref
  by_cases hmember : d.kind = .membership
  · obtain ⟨g, hg, hgk, hgref⟩ := exists_group_of_desired hlookup hres hd hmember
    obtain ⟨y, hy, hykeeps, hyadmits⟩ := exists_keeps hres hto hnext hwf hwf' hg
    have hyk : y.kind = .consumerGroup := (congrArg Reference.kind hykeeps.ref).trans hgk
    rw [State.visible_of_group (hk.trans hmember) hy hyk, hyadmits (by simp [hgk]), Bool.or_true]
    rw [hykeeps.ref, hkeeps.references]
    exact hgref
  · rw [State.visible_of_ne (hk ▸ hmember)]
    exact hadmits hmember

include hto hnext in
/-- What is hidden stays hidden. -/
theorem visible_eq_false_of_hidden (hgroups : current.NamesGroups) (hx : x ∈ current)
    (hhidden : current.visible o.selection x = false) : next.visible o.selection x = false := by
  by_cases hmember : x.kind = .membership
  · obtain ⟨g, hg, hgk, hgref⟩ := hgroups x hx hmember
    rw [State.visible_of_group hmember hg hgk hgref] at hhidden
    have hgnext : g ∈ next := by
      refine hnext.mem_of_mem hg fun op hop hkey => ?_
      have hsel := mem_select_of_op hto (Plan.mem_mutations.1 hop).1 hg hkey
      have hvisible := (State.mem_filter.1 hsel).2
      rw [State.visible_of_ne (by simp [hgk])] at hvisible
      simp [hvisible] at hhidden
    rw [State.visible_of_group hmember hgnext hgk hgref]
    exact hhidden
  · rw [State.visible_of_ne hmember] at hhidden ⊢
    exact hhidden

include hto hnext in
/-- Nothing is visible but what is wanted. -/
theorem contains_of_visible (hgroups : current.NamesGroups)
    (hx : x ∈ next.select o.selection) : desired.contains x.kind x.idText = true := by
  obtain ⟨hx, hvisible⟩ := State.mem_filter.1 hx
  rcases hnext.mem hx with ⟨hx, hnew⟩ | ⟨op, hop, hact, rfl⟩
  · by_cases hheld : current.visible o.selection x = true
    · rcases State.planned_of_mem hto (State.mem_filter.2 ⟨hx, hheld⟩) with
        ⟨d, hd, hdref, -⟩ | ⟨-, hgone⟩
      · exact State.contains_of_ref hd hdref
      · exact absurd rfl (hnew _ (Plan.mem_mutations.2 ⟨hgone, by simp⟩))
    · rw [visible_eq_false_of_hidden hto hnext hgroups hx (by simpa using hheld)] at hvisible
      cases hvisible
  · obtain ⟨d, hd, hplan⟩ :=
      State.exists_planFor_of_mem_ops hto (Plan.mem_mutations.1 hop).1 hact
    have hdref := State.key_of_planFor hplan
    exact State.contains_of_ref hd hdref.symm

include hres hto hnext in
/-- What is hidden was there, and was hidden before. -/
theorem hidden_of_hidden (hlookup : o.lookupTags.isEmpty = true)
    (hwf : current.WellFormed) (hwf' : desired.WellFormed) (hx : x ∈ next)
    (hhidden : next.visible o.selection x = false) :
    x ∈ current ∧ current.visible o.selection x = false := by
  have not_wanted : ∀ d ∈ desired, d.ref ≠ x.ref := by
    intro d hd href
    obtain ⟨y, hy, hkeeps⟩ := exists_kept_of_desired hres hto hnext hlookup hwf hwf' hd
    obtain ⟨hy, hvisible⟩ := State.mem_filter.1 hy
    rw [State.eq_of_ref hy hx (hkeeps.ref.trans href), hhidden] at hvisible
    cases hvisible
  rcases hnext.mem hx with ⟨hx, hnew⟩ | ⟨op, hop, hact, rfl⟩
  · refine ⟨hx, ?_⟩
    by_contra hheld
    rcases State.planned_of_mem hto (State.mem_filter.2 ⟨hx, by simpa using hheld⟩) with
      ⟨d, hd, hdref, -⟩ | ⟨-, hgone⟩
    · exact not_wanted d hd hdref
    · exact hnew _ (Plan.mem_mutations.2 ⟨hgone, by simp⟩) rfl
  · obtain ⟨d, hd, hplan⟩ :=
      State.exists_planFor_of_mem_ops hto (Plan.mem_mutations.1 hop).1 hact
    exact absurd (State.key_of_planFor hplan).symm (not_wanted d hd)

end

end Content

end Gateway
