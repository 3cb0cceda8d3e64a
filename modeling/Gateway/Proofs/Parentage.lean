import Gateway.Proofs.Check
import Gateway.Proofs.Nesting
import Gateway.Proofs.Recognition
import Gateway.Proofs.Sameness
import Gateway.Proofs.Schedule
import Gateway.Sample

/-!
# Nested declarations and their parents

What is nested under a declaration refers to it by the id of that declaration, and resolution
replaces the id by the one to which it gave way (`Moves.resolve`). Ids that gave way are noted by
kind and declared id. So where several declarations of one kind have one declared id, the note of
the last that gave its id up is the one that counts, and what is nested under the others is led
there as well: a nested object ends up under its own parent exactly when no later declaration with
the id of the parent gives that id up, and, should the parent keep its id, no earlier one either
(`Content.under_own_parent_iff`).
-/

namespace Gateway

open Planning

/-! ### References of one kind -/

namespace Entity

variable {find : Kind → ForeignKey → Except PlanError String} {e e' : Entity} {kind : Kind}
  {fk : ForeignKey} {id : String}

/-- The one reference of a kind is replaced by the one to the id that is found for it. -/
theorem filter_links_relink (h : e.relink find = .ok e')
    (hlink : e.links.filter (·.1 = kind) = [(kind, fk)]) :
    ∃ id, find kind fk = .ok id ∧ e'.links.filter (·.1 = kind) = [(kind, .byId id)] := by
  have hfilter : List.Forall₂ (Detail.Relinked find) (e.links.filter (·.1 = kind))
      (e'.links.filter (·.1 = kind)) := by
    refine List.rel_filter (fun l l' hl => ?_) (forall₂_links_relink h)
    show decide (l.1 = kind) = true ↔ decide (l'.1 = kind) = true
    rw [hl.1]
  rw [hlink, List.forall₂_cons_left_iff] at hfilter
  obtain ⟨⟨k, fk'⟩, rest, ⟨rfl, id, hid, rfl⟩, hnil, hlinks⟩ := hfilter
  rw [List.forall₂_nil_left_iff.1 hnil] at hlinks
  exact ⟨id, hid, hlinks⟩

/-- References of a kind come from links of the kind. -/
theorem filter_references (hlink : e.links.filter (·.1 = kind) = [(kind, .byId id)]) :
    e.references.filter (·.kind = kind) = [⟨kind, id⟩] := by
  have hcomm : e.references.filter (·.kind = kind) =
      (e.links.filter (·.1 = kind)).filterMap fun l => l.2.toReference? l.1 := by
    unfold references
    rw [List.filter_filterMap, List.filterMap_filter]
    refine List.filterMap_congr fun l _ => ?_
    unfold ForeignKey.toReference?
    cases hid : l.2.id with
    | none => simp [hid]
    | some id => by_cases hk : l.1 = kind <;> simp [hid, hk]
  rw [hcomm, hlink]
  rfl

/-- Memberships that join the same by id are made of the same references. -/
theorem references_of_membership {a b : Entity} (ha : a.kind = .membership) (hsame : a.SameKey b)
    (hlinks : ∀ l ∈ a.links, ∃ id, l.2 = .byId id) (hlinks' : ∀ l ∈ b.links, ∃ id, l.2 = .byId id) :
    a.references = b.references := by
  obtain ⟨k, r⟩ := a
  obtain ⟨k', r'⟩ := b
  obtain ⟨rfl, hkey, -⟩ := hsame
  cases ha
  obtain ⟨g, hgroup⟩ := hlinks _ List.mem_cons_self
  obtain ⟨c, hconsumer⟩ := hlinks _ (List.mem_cons_of_mem _ List.mem_cons_self)
  obtain ⟨g', hgroup'⟩ := hlinks' _ List.mem_cons_self
  obtain ⟨c', hconsumer'⟩ := hlinks' _ (List.mem_cons_of_mem _ List.mem_cons_self)
  simp_all [naturalKey?, Detail.naturalKey?, references, links, Detail.links, ForeignKey.byId]

end Entity

namespace Resolution

variable {r r' : Resolution} {e : Entity}

/-- References that are resolved are well formed. -/
theorem wellFormed_of_byId (h : ∀ l ∈ e.links, ∃ id, l.2 = .byId id) :
    ∀ l ∈ e.links, l.2.WellFormed := by
  intro l hl
  obtain ⟨id, hid⟩ := h l hl
  rw [hid]
  exact ForeignKey.wellFormed_byId id

/-- What a declaration repeats has the references of the declaration. -/
theorem references_of_repeats (h : r.repeats e = .ok true)
    (he : ∀ l ∈ e.links, ∃ id, l.2 = .byId id)
    (hr : ∀ d ∈ r.desired, ∀ l ∈ d.links, ∃ id, l.2 = .byId id) :
    ∃ x ∈ r.desired, e.SameKey x ∧ x.references = e.references := by
  obtain ⟨x, hmem, hkey, hagain⟩ := repeats_iff.1 h
  have hsame : e.SameKey x := hkey
  refine ⟨x, hmem, hsame, ?_⟩
  rcases hagain with hk | ⟨-, -, hbody⟩
  · exact (Entity.references_of_membership hk hsame he (hr x hmem)).symm
  · have hrefs : x.references = (r.options.selection.apply e).references :=
      Entity.references_of_sameBody hkey.1.symm (wellFormed_of_byId (hr x hmem))
        (fun l hl => wellFormed_of_byId he l hl) hbody
    rwa [Entity.references_apply] at hrefs

/-- The id that a reference to an id means. -/
theorem resolve_of_lookUp {owner : String} {kind : Kind} {a id : String}
    (h : r.lookUp owner kind (.byId a) = .ok id) : r.moves.resolve kind a = id := by
  unfold lookUp at h
  rw [if_neg (by simp [ForeignKey.isBare, ForeignKey.byId])] at h
  simp only [ForeignKey.byId] at h
  split at h
  · exact Except.ok.inj h
  · cases h

/-- What becomes of a declaration refers, in the place of the one reference of a kind that it makes,
to the id that is found for the reference. -/
theorem Placed.exists_lookUp {o : Options} {current : State} {ref : Reference} {s s' : IdSupply}
    {kind : Kind} {fk : ForeignKey} (h : Placed r e s ref r' s') (hr : Sound o current r)
    (hlink : e.links.filter (·.1 = kind) = [(kind, fk)]) :
    ∃ id, r.lookUp e.describe kind fk = .ok id ∧
      ∃ d ∈ r'.desired, d.ref = ref ∧ d.references.filter (·.kind = kind) = [⟨kind, id⟩] := by
  have of_link : ∀ linked, r.link e = .ok linked → ∃ id, r.lookUp e.describe kind fk = .ok id ∧
      linked.references.filter (·.kind = kind) = [⟨kind, id⟩] := by
    intro linked hlinked
    obtain ⟨id, hid, hlinks⟩ := Entity.filter_links_relink hlinked hlink
    exact ⟨id, hid, Entity.filter_references hlinks⟩
  cases h with
  | @repeated linked hlinked hrepeats =>
    obtain ⟨id, hid, hrefs⟩ := of_link linked hlinked
    have hbyId : ∀ l ∈ linked.withDerivedId.links, ∃ id, l.2 = .byId id := by
      intro l hl
      rw [Entity.links_withDerivedId] at hl
      exact Entity.exists_byId_of_mem_links hlinked hl
    obtain ⟨x, hx, hsame, hsameRefs⟩ := references_of_repeats hrepeats hbyId hr.linked
    have hkey : linked.SameKey x := by simpa [Entity.SameKey] using hsame
    refine ⟨id, hid, x, hx, ref_eq_heldId hx hkey, ?_⟩
    rw [hsameRefs, Entity.references_withDerivedId]
    exact hrefs
  | @added linked id moves desired _ hlinked _ _ _ hadd =>
    obtain ⟨target, htarget, hrefs⟩ := of_link linked hlinked
    refine ⟨target, htarget, _, State.mem_insert_self hadd, ?_, ?_⟩
    · rw [Entity.ref, Entity.kind_withId, kind_candidate, Entity.idText_withId]
    · rw [Entity.references_withId, references_candidate]
      exact hrefs

/-- What becomes of a declaration refers, in the place of an id that it refers to, to the one to
which that id gave way. -/
theorem Placed.exists_references {o : Options} {current : State} {ref : Reference} {s s' : IdSupply}
    {kind : Kind} {a : String} (h : Placed r e s ref r' s') (hr : Sound o current r)
    (hlink : e.links.filter (·.1 = kind) = [(kind, .byId a)]) :
    ∃ d ∈ r'.desired, d.ref = ref ∧
      d.references.filter (·.kind = kind) = [⟨kind, r.moves.resolve kind a⟩] := by
  obtain ⟨id, hid, hd⟩ := h.exists_lookUp hr hlink
  rwa [resolve_of_lookUp hid]

/-! ### Ids that gave way -/

/-- A declaration of a kind gives up the id that it is declared with. -/
def GivesUp (kind : Kind) (a : String) (x : Entity × Reference) : Prop :=
  x.1.kind = kind ∧ x.1.id? = some a ∧ x.2.id ≠ a

instance (kind : Kind) (a : String) (x : Entity × Reference) : Decidable (GivesUp kind a x) :=
  inferInstanceAs (Decidable (x.1.kind = kind ∧ x.1.id? = some a ∧ x.2.id ≠ a))

/-- Declarations are resolved one after the other, and end up as told. -/
inductive PlacedAll : Resolution → IdSupply → List (Entity × Reference) → Resolution → IdSupply →
    Prop
  | nil (r : Resolution) (s : IdSupply) : PlacedAll r s [] r s
  | cons {r r₁ r' : Resolution} {e : Entity} {ref : Reference} {s t s' : IdSupply}
      {rest : List (Entity × Reference)} (h : Placed r e s ref r₁ t)
      (hrest : PlacedAll r₁ t rest r' s') : PlacedAll r s ((e, ref) :: rest) r' s'

section

variable {o : Options} {current : State} {s s' t : IdSupply} {r₁ : Resolution}
  {ref pref : Reference} {parent : Entity} {xs ys before after : List (Entity × Reference)}
  {kind : Kind} {a : String}

/-- What is resolved one after the other ends up as the references that are returned. -/
theorem placedAll_of_placeAll {es : List Entity} {refs : List Reference}
    (h : Yields (r.placeAll es) s (refs, r') s') : PlacedAll r s (es.zip refs) r' s' := by
  induction es generalizing r s refs with
  | nil =>
    obtain ⟨rfl, rfl, rfl⟩ := yields_placeAll_nil.1 h
    exact .nil _ _
  | cons e rest ih =>
    obtain ⟨ref, r₁, t, refs, hplaced, hrest, rfl⟩ := yields_placeAll_cons.1 h
    exact .cons hplaced (ih hrest)

/-- A declaration settles what its own id means, and leaves alone what other ids mean. -/
theorem Placed.resolve_eq_ite (h : Placed r e s ref r' s')
    (hkind : Entity.isReferable kind = true) :
    r'.moves.resolve kind a =
      if GivesUp kind a (e, ref) then ref.id else r.moves.resolve kind a := by
  by_cases hk : e.kind = kind
  · subst hk
    cases h with
    | @repeated linked hlinked hrepeats =>
      have hk' : linked.withDerivedId.kind = e.kind := by
        rw [Entity.kind_withDerivedId, Entity.kind_relink hlinked]
      rw [repeats_of_isReferable (hk' ▸ hkind)] at hrepeats
      cases hrepeats
    | @added linked id moves desired _ hlinked _ _ hident _ =>
      have hk' : linked.kind = e.kind := Entity.kind_relink hlinked
      have hid : (r.candidate linked).id? = e.id? := by
        rw [id?_candidate (hk' ▸ hkind), Entity.id?_relink hlinked]
      rw [hident.moves_eq, Moves.resolve_settle, kind_candidate, hid]
      unfold GivesUp
      congr 1
      simp only [hk', true_and, ne_eq, eq_iff_iff, and_congr_right_iff]
      intro _
      exact not_congr eq_comm
  · rw [if_neg fun hgives => hk hgives.1]
    exact h.resolve_eq hkind fun heq => absurd heq hk

/-- The id that a declaration of what others refer to ends up with was free. -/
theorem Placed.ref_ne (h : Placed r e s ref r' s') (hkind : Entity.isReferable e.kind = true) :
    ∀ y ∈ r.desired, y.ref ≠ ref := by
  intro y hy href
  cases h with
  | @repeated linked hlinked hrepeats =>
    have hk : linked.withDerivedId.kind = e.kind := by
      rw [Entity.kind_withDerivedId, Entity.kind_relink hlinked]
    rw [repeats_of_isReferable (hk ▸ hkind)] at hrepeats
    cases hrepeats
  | @added linked id moves desired _ hlinked _ _ _ hadd =>
    obtain ⟨-, hfree, -⟩ := State.insert_eq_ok_iff.1 ⟨_, hadd⟩
    refine State.contains_eq_false_iff.1 hfree y hy ?_ ?_
    · rw [Entity.kind_withId, kind_candidate]
      exact congrArg Reference.kind href
    · rw [Entity.idText_withId]
      exact congrArg Reference.id href

namespace PlacedAll

/-- Between two parts of a list stands the resolution that the first of them leads to. -/
theorem split (h : PlacedAll r s (xs ++ ys) r' s') :
    ∃ r₁ t, PlacedAll r s xs r₁ t ∧ PlacedAll r₁ t ys r' s' := by
  induction xs generalizing r s with
  | nil => exact ⟨r, s, .nil r s, h⟩
  | cons x rest ih =>
    cases h with
    | cons hx hrest =>
      obtain ⟨r₁, t, h₁, h₂⟩ := ih hrest
      exact ⟨r₁, t, .cons hx h₁, h₂⟩

/-- Resolving declarations only adds to what is desired. -/
theorem desired_subset (h : PlacedAll r s xs r' s') {y : Entity} (hy : y ∈ r.desired) :
    y ∈ r'.desired := by
  induction h with
  | nil => exact hy
  | cons hx _ ih => exact ih (hx.step.desired_subset hy)

theorem sound (h : PlacedAll r s xs r' s') (hr : Sound o current r) : Sound o current r' := by
  induction h with
  | nil => exact hr
  | cons hx _ ih => exact ih (hr.step hx.step)

/-- Declarations end up as entities of their kinds. -/
theorem kind_eq (h : PlacedAll r s xs r' s') {x : Entity × Reference} (hx : x ∈ xs) :
    x.2.kind = x.1.kind := by
  induction h with
  | nil => cases hx
  | cons hfirst _ ih =>
    rcases List.mem_cons.1 hx with rfl | hx
    · exact hfirst.exists_mem.1
    · exact ih hx

/-- No declaration of what others refer to ends up with an id that was taken before. -/
theorem ref_ne (h : PlacedAll r s xs r' s') {x : Entity × Reference} (hx : x ∈ xs)
    (hkind : Entity.isReferable x.1.kind = true) : ∀ y ∈ r.desired, y.ref ≠ x.2 := by
  induction h with
  | nil => cases hx
  | cons hfirst _ ih =>
    intro y hy
    rcases List.mem_cons.1 hx with rfl | hx
    · exact hfirst.ref_ne hkind y hy
    · exact ih hx y (hfirst.step.desired_subset hy)

/-- What an id means in the end was settled by a declaration that gave it up, if there is any. -/
theorem resolve_cases (h : PlacedAll r s xs r' s') (hkind : Entity.isReferable kind = true) :
    (∀ x ∈ xs, ¬GivesUp kind a x) ∧ r'.moves.resolve kind a = r.moves.resolve kind a ∨
      ∃ x ∈ xs, GivesUp kind a x ∧ r'.moves.resolve kind a = x.2.id := by
  induction h with
  | nil => exact .inl ⟨by simp, rfl⟩
  | @cons r r₁ _ e ref _ _ _ rest hfirst _ ih =>
    have hstep := hfirst.resolve_eq_ite (a := a) hkind
    rcases ih with ⟨hnone, hrest⟩ | ⟨x, hx, hgives, hrest⟩
    · rw [hstep] at hrest
      by_cases hgives : GivesUp kind a (e, ref)
      · right
        rw [if_pos hgives] at hrest
        exact ⟨(e, ref), List.mem_cons_self, hgives, hrest⟩
      · left
        rw [if_neg hgives] at hrest
        exact ⟨List.forall_mem_cons.2 ⟨hgives, hnone⟩, hrest⟩
    · exact .inr ⟨x, List.mem_cons_of_mem _ hx, hgives, hrest⟩

/-- The id of a declaration leads to the declaration in the end exactly when no later declaration
gives that id up, and no earlier one either where the declaration keeps it. -/
theorem resolve_eq_iff (h : PlacedAll r s (before ++ (parent, pref) :: after) r' s')
    (hkind : Entity.isReferable parent.kind = true) (hid : parent.id? = some a)
    (hstart : r.moves.resolve parent.kind a = a) :
    r'.moves.resolve parent.kind a = pref.id ↔
      (∀ x ∈ after, ¬GivesUp parent.kind a x) ∧
        (pref.id = a → ∀ x ∈ before, ¬GivesUp parent.kind a x) := by
  obtain ⟨r₁, t, hbefore, hrest⟩ := h.split
  cases hrest with
  | @cons _ r₂ _ _ _ _ _ _ _ hparent hafter =>
    have hown := hparent.resolve_eq_ite (a := a) hkind
    have hmoved : GivesUp parent.kind a (parent, pref) ↔ pref.id ≠ a := by simp [GivesUp, hid]
    simp only [hmoved] at hown
    constructor
    · intro hend
      rcases hafter.resolve_cases (a := a) hkind with ⟨hnone, heq⟩ | ⟨x, hx, hgives, heq⟩
      · refine ⟨hnone, fun hkept => ?_⟩
        -- the parent keeps its id, so the meaning of the id has not changed since
        rw [heq, hown, if_neg (not_not.2 hkept)] at hend
        rcases hbefore.resolve_cases (a := a) hkind with ⟨hnone', -⟩ | ⟨y, -, hgives, heq'⟩
        · exact hnone'
        · exact absurd ((heq'.symm.trans hend).trans hkept) hgives.2.2
      · -- the later declaration would have the final id of the parent
        obtain ⟨hk, d, hd, hdref⟩ := hparent.exists_mem
        have hxk : x.2.kind = pref.kind := (hafter.kind_eq hx).trans (hgives.1.trans hk.symm)
        have hsame : x.2 = pref := by
          rw [Reference.mk.injEq]
          exact ⟨hxk, heq.symm.trans hend⟩
        exact absurd (hdref.trans hsame.symm) (hafter.ref_ne hx (hgives.1 ▸ hkind) d hd)
    · rintro ⟨hlater, hearlier⟩
      rcases hafter.resolve_cases (a := a) hkind with ⟨-, heq⟩ | ⟨x, hx, hgives, -⟩
      · rw [heq, hown]
        by_cases hkept : pref.id = a
        · rw [if_neg (not_not.2 hkept), hkept]
          rcases hbefore.resolve_cases (a := a) hkind with ⟨-, heq'⟩ | ⟨y, hy, hgives, -⟩
          · exact heq'.trans hstart
          · exact absurd hgives (hearlier hkept y hy)
        · rw [if_pos hkept]
      · exact absurd hgives (hlater x hx)

/-- What becomes of a declaration refers to what an id means in the end, where no declaration of
the kind that the id is of follows. -/
theorem exists_references (h : PlacedAll r s (before ++ (e, ref) :: after) r' s')
    (hr : Sound o current r) (hkind : Entity.isReferable kind = true)
    (hlink : e.links.filter (·.1 = kind) = [(kind, .byId a)])
    (hlater : ∀ x ∈ (e, ref) :: after, x.1.kind ≠ kind) :
    ∃ d ∈ r'.desired, d.ref = ref ∧
      d.references.filter (·.kind = kind) = [⟨kind, r'.moves.resolve kind a⟩] := by
  obtain ⟨r₁, t, hbefore, hrest⟩ := h.split
  have hlast : r'.moves.resolve kind a = r₁.moves.resolve kind a := by
    refine ((hrest.resolve_cases hkind).resolve_right ?_).2
    rintro ⟨x, hx, hgives, -⟩
    exact hlater x hx hgives.1
  cases hrest with
  | cons hplaced hafter =>
    obtain ⟨d, hd, hdref, hrefs⟩ := hplaced.exists_references (hbefore.sound hr) hlink
    refine ⟨d, hafter.desired_subset hd, hdref, ?_⟩
    rw [hlast]
    exact hrefs

end PlacedAll

end

/-! ### The order of resolution -/

/-- Kinds are resolved in the order in which they are created. -/
theorem pairwise_rank_inOrder (es : List Entity) :
    (inOrder es).Pairwise fun a b => a.kind.rank ≤ b.kind.rank := by
  have hkinds : Kind.creationOrder.Pairwise fun j k => j.rank ≤ k.rank := by decide
  unfold inOrder
  refine List.pairwise_flatMap.2 ⟨fun kind _ => ?_, hkinds.imp fun {j k} hjk a ha b hb => ?_⟩
  · refine List.pairwise_of_forall_mem_list fun a ha b hb => ?_
    rw [(mem_entitiesOfKind.1 ha).2, (mem_entitiesOfKind.1 hb).2]
  · rw [(mem_entitiesOfKind.1 ha).2, (mem_entitiesOfKind.1 hb).2]
    exact hjk

end Resolution

open Resolution

/-- What each declaration ends up as, in the order of resolution. -/
def Nested.outcomes (ns : List Nested) (refs : List Reference) : List (Entity × Reference) :=
  (inOrder (entities ns)).zip refs

/-- From a declaration on, no more declarations of the kinds follow that come before its kind. -/
theorem kind_ne_of_rank_lt {es : List Entity} {before after : List (Entity × Reference)}
    {x : Entity × Reference} {kind : Kind} (h : (before ++ x :: after).map Prod.fst = inOrder es)
    (hrank : kind.rank < x.1.kind.rank) : ∀ y ∈ x :: after, y.1.kind ≠ kind := by
  have hsorted := pairwise_rank_inOrder es
  rw [← h, List.pairwise_map, List.pairwise_append, List.pairwise_cons] at hsorted
  intro y hy hk
  subst hk
  rcases List.mem_cons.1 hy with rfl | hy
  · omega
  · have hle : x.1.kind.rank ≤ y.1.kind.rank := hsorted.2.1.1 y hy
    omega

namespace Content

variable {c : Content} {o : Options} {current desired : State} {s t s' : IdSupply}
  {ns : List Nested} {refs : List Reference}

/-- Declarations are resolved one after the other, up to the state that they ask for. -/
theorem exists_placedAll (hres : Yields (c.resolve current o) s desired s')
    (hns : Yields c.nestings s ns t) (hrefs : Yields (c.finalIds current o) s refs s') :
    ∃ r, PlacedAll (start o current) t (Nested.outcomes ns refs) r s' ∧ r.desired = desired ∧
      (Nested.outcomes ns refs).map Prod.fst = inOrder (Nested.entities ns) := by
  obtain ⟨-, r, rfl, hplace⟩ :=
    (yields_resolve_finalIds_iff (yields_flatten_iff.2 ⟨ns, hns, rfl⟩)).1 ⟨hres, hrefs⟩
  refine ⟨r, placedAll_of_placeAll hplace, rfl, List.map_fst_zip ?_⟩
  exact (forall₂_of_placeAll hplace).length_eq.le

/-- Every declaration ends up as something. -/
theorem exists_outcome {n : Nested}
    (h : (Nested.outcomes ns refs).map Prod.fst = inOrder (Nested.entities ns)) (hn : n ∈ ns) :
    ∃ ref, (n.entity, ref) ∈ Nested.outcomes ns refs := by
  have hmem : n.entity ∈ (Nested.outcomes ns refs).map Prod.fst := by
    rw [h]
    exact mem_inOrder.2 (List.mem_map.2 ⟨n, hn, rfl⟩)
  obtain ⟨⟨e, ref⟩, hmem, rfl⟩ := List.mem_map.1 hmem
  exact ⟨ref, hmem⟩

/-- For every document that can be resolved, and every declaration in it that is nested under
another one: it ends up with a reference to what its own parent ends up as, and to nothing else of
that kind, exactly when no declaration that is resolved after its parent gives up the id of the
parent, and, where the parent keeps its id, none that is resolved before it. -/
theorem under_own_parent_iff (c : Content) (o : Options) (current desired : State)
    (ids ids' : IdSupply) (hres : Yields (c.resolve current o) ids desired ids') :
    ∃ ns t refs, Yields c.nestings ids ns t ∧ Yields (c.finalIds current o) ids refs ids' ∧
      ∀ n ∈ ns, ∀ parent, n.under = some parent →
        (∃ cref, (n.entity, cref) ∈ Nested.outcomes ns refs) ∧
        (∃ pref, (parent, pref) ∈ Nested.outcomes ns refs) ∧
        ∀ cref, (n.entity, cref) ∈ Nested.outcomes ns refs → ∃ d ∈ desired, d.ref = cref ∧
          ∀ before pref after, Nested.outcomes ns refs = before ++ (parent, pref) :: after →
            (d.references.filter (·.kind = parent.kind) = [pref] ↔
              (∀ x ∈ after, ¬GivesUp parent.kind parent.idText x) ∧
              (pref.id = parent.idText → ∀ x ∈ before, ¬GivesUp parent.kind parent.idText x)) := by
  obtain ⟨refs, hrefs⟩ := exists_finalIds hres
  obtain ⟨es, t, hes, -⟩ := yields_resolve_iff.1 hres
  obtain ⟨ns, hns, -⟩ := yields_flatten_iff.1 hes
  refine ⟨ns, t, refs, hns, hrefs, ?_⟩
  intro n hn parent hunder
  obtain ⟨r, hall, rfl, hfst⟩ := exists_placedAll hres hns hrefs
  have hsited := sited_nestings hns
  obtain ⟨hencloses, a, hid, hlink⟩ := hsited.declared n hn parent hunder
  obtain ⟨hkind, hrank, -⟩ := Kind.of_encloses hencloses
  have htext : parent.idText = a := Entity.idText_of_id? hid
  refine ⟨exists_outcome hfst hn, ?_, ?_⟩
  · obtain ⟨m, hm, hmunder⟩ := (hsited.sited n hn).resolve_left (by rw [hunder]; simp)
    cases hunder.symm.trans hmunder
    exact exists_outcome hfst hm
  · intro cref hchild
    obtain ⟨pre, post, hsplit⟩ := List.append_of_mem hchild
    rw [hsplit] at hall hfst
    obtain ⟨d, hd, hdref, hrefsOf⟩ := hall.exists_references (sound_start o current) hkind hlink
      (kind_ne_of_rank_lt hfst hrank)
    refine ⟨d, hd, hdref, ?_⟩
    intro before pref after houtcomes
    rw [← hsplit, houtcomes] at hall
    have hpk : pref.kind = parent.kind :=
      hall.kind_eq (List.mem_append_right before List.mem_cons_self)
    rw [hrefsOf, htext, ← hall.resolve_eq_iff hkind hid rfl, ← hpk]
    constructor
    · intro heq
      exact congrArg Reference.id (List.singleton_inj.1 heq)
    · intro heq
      rw [heq]

/-- What a document asks for, and what its declarations end up as, if it can be resolved. -/
def outcome? (c : Content) (current : State) (o : Options) (ids : IdSupply) :
    Option (State × List Reference) := do
  let desired ← result? (c.resolve current o) ids
  let refs ← result? (c.finalIds current o) ids
  return (desired, refs)

/-- A document with an outcome is resolved by one supply, which gives the final ids too. -/
theorem yields_of_outcome? {c : Content} {current : State} {o : Options} {ids : IdSupply}
    {x : State × List Reference} (h : c.outcome? current o ids = some x) :
    ∃ ids', Yields (c.resolve current o) ids x.1 ids' ∧
      Yields (c.finalIds current o) ids x.2 ids' := by
  obtain ⟨desired, hdesired, h⟩ := Option.bind_eq_some_iff.1 h
  obtain ⟨refs, hrefs, h⟩ := Option.bind_eq_some_iff.1 h
  cases h
  obtain ⟨ids', hres⟩ := yields_of_result? hdesired
  obtain ⟨t, hfinal⟩ := yields_of_result? hrefs
  obtain ⟨refs', hrefs'⟩ := exists_finalIds hres
  obtain ⟨rfl, rfl⟩ := hfinal.unique hrefs'
  exact ⟨_, hres, hfinal⟩

end Content

/-! ### Routes under services with ids of their own -/

/-- A service as the document declares it, without what is nested under it. -/
def siblingService (id name : String) : Entity :=
  (Resource.ofDetail .service (some id) { (default : Service) with name := some name }).toEntity

/-- A route under a service with an id. -/
def siblingRoute (path id : String) : Entity :=
  (Resource.ofDetail .route none
    { (default : Route) with name := some path, service := some (.byId id) }).toEntity

/-- What the document declares, each with what it is nested under. -/
def siblingNests (first second : String) : List Nested :=
  [⟨siblingRoute "left" first, some (siblingService first "old")⟩,
    ⟨siblingService first "old", none⟩,
    ⟨siblingRoute "right" second, some (siblingService second "new")⟩,
    ⟨siblingService second "new", none⟩]

theorem yields_siblings (first second : String) (s : IdSupply) :
    Yields (Sample.siblings first second).nestings s (siblingNests first second) s := rfl

/-- What the services and the routes end up as: the ids of the services are known to the gateway. -/
def siblingRefs : List Reference :=
  [⟨.service, "s0"⟩, ⟨.service, "s1"⟩, ⟨.route, IdSupply.numberedId 1⟩,
    ⟨.route, IdSupply.numberedId 2⟩]

theorem outcomes_siblingNests (first second : String) :
    Nested.outcomes (siblingNests first second) siblingRefs =
      [(siblingService first "old", ⟨.service, "s0"⟩),
        (siblingService second "new", ⟨.service, "s1"⟩),
        (siblingRoute "left" first, ⟨.route, IdSupply.numberedId 1⟩),
        (siblingRoute "right" second, ⟨.route, IdSupply.numberedId 2⟩)] := rfl

/-- Under different ids each service keeps its route. -/
theorem under_own_parent_of_distinct : ∃ desired,
    (Sample.siblings "a" "b").outcome? Sample.twoServices {} .numbered =
      some (desired, siblingRefs) ∧
      ∃ d ∈ desired, d.ref = ⟨.route, IdSupply.numberedId 1⟩ ∧
        d.references.filter (·.kind = .service) = [⟨.service, "s0"⟩] := by
  have heval : ((Sample.siblings "a" "b").outcome? Sample.twoServices {} .numbered).any
      (fun x => x.2 == siblingRefs) = true := by
    decide +kernel
  obtain ⟨⟨desired, refs⟩, hx, hrefs⟩ := (Option.any_eq_true _ _).1 heval
  obtain rfl : refs = siblingRefs := by simpa using hrefs
  obtain ⟨ids, hres, hfinal⟩ := Content.yields_of_outcome? hx
  obtain ⟨ns, t, refs, hns, hrefs, hnested⟩ := Content.under_own_parent_iff
    (Sample.siblings "a" "b") {} Sample.twoServices desired .numbered ids hres
  obtain ⟨rfl, -⟩ := hns.unique (yields_siblings _ _ _)
  obtain ⟨rfl, -⟩ := hrefs.unique hfinal
  obtain ⟨-, -, hplaced⟩ := hnested _ List.mem_cons_self (siblingService "a" "old") rfl
  obtain ⟨d, hd, hdref, hiff⟩ := hplaced ⟨.route, IdSupply.numberedId 1⟩
    (by rw [outcomes_siblingNests]; simp)
  refine ⟨desired, hx, d, hd, hdref,
    (hiff [] ⟨.service, "s0"⟩ _ (outcomes_siblingNests _ _)).2 ⟨?_, by simp⟩⟩
  decide +kernel

/-- Two services are declared under one id, and the route of the first ends up under the second: it
is not so that whatever is nested under a declaration stays with it. -/
theorem not_always_under_own_parent : ¬∀ (c : Content) (o : Options) (current desired : State)
    (ids ids' t : IdSupply) (ns : List Nested) (refs : List Reference),
      Yields (c.resolve current o) ids desired ids' → Yields c.nestings ids ns t →
      Yields (c.finalIds current o) ids refs ids' → ∀ n ∈ ns, ∀ parent, n.under = some parent →
        ∀ cref, (n.entity, cref) ∈ Nested.outcomes ns refs →
        ∀ pref, (parent, pref) ∈ Nested.outcomes ns refs →
          ∃ d ∈ desired, d.ref = cref ∧
            d.references.filter (·.kind = parent.kind) = [pref] := by
  intro h
  have heval : ((Sample.siblings "a" "a").outcome? Sample.twoServices {} .numbered).any
      (fun x => x.2 == siblingRefs && (x.1.get? .route (IdSupply.numberedId 1)).any fun d =>
        d.references.filter (·.kind = .service) == [⟨.service, "s1"⟩]) = true := by
    decide +kernel
  obtain ⟨⟨desired, refs⟩, hx, hfacts⟩ := (Option.any_eq_true _ _).1 heval
  obtain ⟨hrefs, hfacts⟩ := Bool.and_eq_true_iff.1 hfacts
  obtain ⟨x, hget, hservice⟩ := (Option.any_eq_true _ _).1 hfacts
  obtain rfl : refs = siblingRefs := by simpa using hrefs
  obtain ⟨ids, hres, hfinal⟩ := Content.yields_of_outcome? hx
  obtain ⟨d, hd, hdref, hown⟩ := h (Sample.siblings "a" "a") {} Sample.twoServices desired .numbered
    ids .numbered (siblingNests "a" "a") siblingRefs hres (yields_siblings _ _ _) hfinal _
    List.mem_cons_self (siblingService "a" "old") rfl ⟨.route, IdSupply.numberedId 1⟩
    (by rw [outcomes_siblingNests]; simp) ⟨.service, "s0"⟩ (by rw [outcomes_siblingNests]; simp)
  have heq : d = x := State.eq_of_ref hd (State.mem_of_get? hget)
    (hdref.trans (State.ref_of_get? hget).symm)
  rw [← heq] at hservice
  have hclash := hown.symm.trans (eq_of_beq hservice)
  simp at hclash

end Gateway
