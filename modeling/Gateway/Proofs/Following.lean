import Gateway.Proofs.Flattening
import Gateway.Proofs.Relabelling

/-!
# Flattening under a relabelling

One computation of planning follows another (`Planning.Follows`) when it takes as many fresh ids as
the other and, whenever these are those of the other under other names, has a related result. There
is one law for each way of putting computations together. Flattening the image of a document follows
flattening the document (`Content.Image.follows_flatten`).
-/

/-- What stands beside the members of one list has its counterpart beside those of another. -/
theorem List.Forall₂.exists_beside {α β γ δ : Type} {P : α → γ → Prop} {Q : β → δ → Prop}
    {R : γ → δ → Prop} {xs : List α} {ys : List β} {zs : List γ}
    (h : List.Forall₂ (fun x y => ∀ z, P x z → ∃ w, Q y w ∧ R z w) xs ys)
    (hzs : List.Forall₂ P xs zs) : ∃ ws, List.Forall₂ Q ys ws ∧ List.Forall₂ R zs ws := by
  induction h generalizing zs with
  | nil =>
    cases hzs
    exact ⟨[], .nil, .nil⟩
  | cons hfirst _ ih =>
    cases hzs with
    | cons hz hrest =>
      obtain ⟨w, hw, hzw⟩ := hfirst _ hz
      obtain ⟨ws, hws, hzws⟩ := ih hrest
      exact ⟨w :: ws, .cons hw hws, .cons hzw hzws⟩

/-- Lists that are related member by member are empty together. -/
theorem List.Forall₂.isEmpty_eq {α β : Type} {R : α → β → Prop} {xs : List α} {ys : List β}
    (h : List.Forall₂ R xs ys) : ys.isEmpty = xs.isEmpty := by
  cases h <;> rfl

namespace Gateway

open Planning

/-! ### One computation after another -/

namespace IdSupply

/-- The next `n` ids are those of another supply under other names. -/
def Echoes (f : String → String) (s t : IdSupply) (n : Nat) : Prop := ∀ i < n, t.nth i = f (s.nth i)

variable {f : String → String} {s t : IdSupply} {n m : Nat}

/-- The supply with all ids under other names. -/
def rename (f : String → String) (s : IdSupply) : IdSupply := ⟨f ∘ s.issue, s.taken⟩

/-- The supply under other names is one that the other run may have. -/
theorem echoes_rename (f : String → String) (s : IdSupply) (n : Nat) :
    s.Echoes f (s.rename f) n := fun _ _ => rfl

/-- Ids are taken one after the other. -/
theorem after_after (s : IdSupply) (n m : Nat) : (s.after n).after m = s.after (n + m) :=
  congrArg (IdSupply.mk s.issue) (Nat.add_assoc _ _ _)

/-- How many ids were taken can be told from what is left. -/
theorem after_inj (h : s.after n = s.after m) : n = m :=
  Nat.add_left_cancel (congrArg IdSupply.taken h)

/-- The ids that are left are those further on. -/
theorem nth_after (s : IdSupply) (n i : Nat) : (s.after n).nth i = s.nth (n + i) :=
  congrArg s.issue (Nat.add_assoc _ _ _)

/-- Where the next ids go together, so do the first ones of them. -/
theorem Echoes.left (h : s.Echoes f t (n + m)) : s.Echoes f t n :=
  fun i hi => h i (Nat.lt_add_right m hi)

/-- Where the next ids go together, so do those that are left after the first ones. -/
theorem Echoes.right (h : s.Echoes f t (n + m)) : (s.after n).Echoes f (t.after n) m := by
  intro i hi
  rw [nth_after, nth_after]
  exact h (n + i) (Nat.add_lt_add_left hi n)

end IdSupply

namespace Planning

variable {f : String → String} {α β γ δ : Type}

/-- Whenever the first computation succeeds, the second does after as many fresh ids, which are
those of the first under other names, and the results are related. -/
def Follows (f : String → String) (R : α → β → Prop) (x : Planning α) (y : Planning β) : Prop :=
  ∀ s a s', Yields x s a s' → ∃ n, s' = s.after n ∧
    ∀ t, s.Echoes f t n → ∃ b, Yields y t b (t.after n) ∧ R a b

namespace Follows

variable {R : α → β → Prop} {Q : γ → δ → Prop}

/-- What only returns something is followed by what returns something related. -/
theorem pure {a : α} {b : β} (h : R a b) : Follows f R (Pure.pure a) (Pure.pure b) := by
  intro s a' s' ha
  obtain ⟨rfl, rfl⟩ := yields_pure.1 ha
  exact ⟨0, rfl, fun t _ => ⟨b, yields_pure.2 ⟨rfl, rfl⟩, h⟩⟩

/-- What takes no ids is followed where its result is. -/
theorem lift {x : Except PlanError α} {y : Except PlanError β}
    (h : ∀ a, x = .ok a → ∃ b, y = .ok b ∧ R a b) : Follows f R (liftM x) (liftM y) := by
  intro s a s' ha
  obtain ⟨hx, rfl⟩ := yields_lift.1 ha
  obtain ⟨b, hy, hR⟩ := h a hx
  exact ⟨0, rfl, fun t _ => ⟨b, yields_lift.2 ⟨hy, rfl⟩, hR⟩⟩

/-- A fresh id is followed by the id under its other name. -/
theorem freshId {P : String → String → Prop} (h : ∀ id, P id (f id)) :
    Follows f P freshId freshId := by
  intro s a s' ha
  obtain ⟨rfl, rfl⟩ := yields_freshId.1 ha
  refine ⟨1, rfl, fun t ht => ⟨t.issue t.taken, yields_freshId.2 ⟨rfl, rfl⟩, ?_⟩⟩
  have hfirst : t.issue t.taken = f (s.issue s.taken) := ht 0 Nat.one_pos
  rw [hfirst]
  exact h _

/-- One computation after another is followed step by step. -/
theorem bind {x : Planning γ} {y : Planning δ} {g : γ → Planning α} {g' : δ → Planning β}
    (h : Follows f Q x y) (hg : ∀ c d, Q c d → Follows f R (g c) (g' d)) :
    Follows f R (x >>= g) (y >>= g') := by
  intro s a s' ha
  obtain ⟨c, s₁, hc, ha⟩ := yields_bind.1 ha
  obtain ⟨n, rfl, hy⟩ := h s c s₁ hc
  -- the counterpart under renamed ids tells how many ids the rest takes
  obtain ⟨d₀, -, hQ₀⟩ := hy (s.rename f) (s.echoes_rename f n)
  obtain ⟨m, rfl, -⟩ := hg c d₀ hQ₀ _ a s' ha
  refine ⟨n + m, s.after_after n m, fun t ht => ?_⟩
  obtain ⟨d, hd, hQ⟩ := hy t ht.left
  obtain ⟨k, hk, hrest⟩ := hg c d hQ _ a _ ha
  obtain rfl := IdSupply.after_inj hk
  obtain ⟨b, hb, hR⟩ := hrest (t.after n) ht.right
  rw [t.after_after] at hb
  exact ⟨b, yields_bind.2 ⟨d, _, hd, hb⟩, hR⟩

/-- Lists are followed member by member. -/
theorem mapM {g : γ → Planning α} {g' : δ → Planning β} {xs : List γ} {ys : List δ}
    (h : List.Forall₂ (fun c d => Follows f R (g c) (g' d)) xs ys) :
    Follows f (List.Forall₂ R) (xs.mapM g) (ys.mapM g') := by
  induction h with
  | nil =>
    rw [List.mapM_nil, List.mapM_nil]
    exact .pure .nil
  | cons hfirst _ ih =>
    rw [List.mapM_cons, List.mapM_cons]
    exact hfirst.bind fun a b hR => ih.bind fun as bs hRs => .pure (.cons hR hRs)

end Follows

end Planning

/-! ### Nested objects -/

namespace Detail

variable {f : String → String} {parent k : Kind} {d : Detail k} {fk : ForeignKey}

/-- Names are not ids, so renaming leaves them alone. -/
theorem names_rename : names k (rename f k d) = names k d := by
  cases k <;> rfl

/-- What stands in the parent's slot is renamed like any reference. -/
theorem parent?_rename :
    parent? parent k (rename f k d) = (parent? parent k d).map (.rename f) := by
  cases parent <;> cases k <;> rfl

/-- It does not matter whether a parent is filled in before or after renaming. -/
theorem withParent_rename :
    withParent (fk.rename f) parent k (rename f k d) = rename f k (withParent fk parent k d) := by
  cases parent <;> cases k <;> rfl

end Detail

variable (φ : Relabelling)

/-- An enclosing object as it is seen in the other run. -/
structure Enclosing.Image (p p' : Enclosing) : Prop where
  kind : p'.kind = p.kind
  id : p'.id = φ.rename p.id
  names : p'.names = p.names

variable {φ}

namespace Enclosing.Image

variable {p p' : Enclosing} {k : Kind} {r r' x : Resource k} {rs rs' : List (Resource k)}

/-- The reference to a parent is seen as that to its image. -/
theorem reference (h : p.Image φ p') : p'.reference = p.reference.rename φ.rename := by
  unfold Enclosing.reference
  rw [h.id]
  rfl

/-- What a parent accepts in its slot its image accepts under the other names: it compares ids with
its own id, and names with its names. -/
theorem accept (h : p.Image φ p') {owner owner' : String} {fk : Option ForeignKey}
    (hok : p.accept owner fk = .ok ()) :
    p'.accept owner' (fk.map (.rename φ.rename)) = .ok () := by
  cases fk with
  | none => rfl
  | some fk =>
    have hmeant : p'.isMeantBy (fk.rename φ.rename) = p.isMeantBy fk := by
      obtain ⟨id, name, extra⟩ := fk
      unfold isMeantBy
      cases id with
      | none => cases name <;> simp [ForeignKey.rename, h.names]
      | some id => simp [ForeignKey.rename, h.id, φ.injective.eq_iff]
    have hbare : (fk.rename φ.rename).isBare = fk.isBare := rfl
    unfold Enclosing.accept at hok ⊢
    simp only [Option.map_some, hmeant, hbare] at hok ⊢
    split at hok
    · cases hok
    · rename_i hno
      rw [if_neg hno]
      split at hok
      · cases hok
      · rename_i hno
        rw [if_neg hno]

/-- What is attached to an enclosing object in one run is in the other. -/
theorem attach (h : p.Image φ p') (hr : r.Image φ r') (hx : p.attach r = .ok x) :
    ∃ x', p'.attach r' = .ok x' ∧ x.Image φ x' := by
  obtain ⟨⟨⟩, haccept, hx⟩ := Except.bind_eq_ok_iff.1 hx
  cases hx
  refine ⟨_, Except.bind_eq_ok_iff.2 ⟨(), ?_, rfl⟩, { hr with detail := ?_ }⟩
  · rw [h.kind, hr.detail, Detail.parent?_rename]
    exact h.accept haccept
  · show Detail.withParent p'.reference p'.kind k r'.detail = _
    rw [h.kind, h.reference, hr.detail, Detail.withParent_rename]

/-- Where children can be attached to a parent, their images can be to its image. -/
theorem attachAll (h : p.Image φ p') (hrs : List.Forall₂ (Resource.Image φ) rs rs')
    {es : List Entity} (hes : p.attachAll rs = .ok es) :
    ∃ es', p'.attachAll rs' = .ok es' ∧ List.Forall₂ (Entity.Image φ) es es' := by
  unfold Enclosing.attachAll at hes ⊢
  simp only [Except.mapM_eq_ok_iff] at hes ⊢
  refine List.Forall₂.exists_beside (hrs.imp fun r r' hr e he => ?_) hes
  obtain ⟨x, hx, he⟩ := Except.bind_eq_ok_iff.1 he
  cases he
  obtain ⟨x', hx', himage⟩ := h.attach hr hx
  exact ⟨x'.toEntity, Except.bind_eq_ok_iff.2 ⟨x', hx', rfl⟩, .mk himage⟩

/-- The same of the computation that attaches them. -/
theorem follows_attachAll (h : p.Image φ p') (hrs : List.Forall₂ (Resource.Image φ) rs rs') :
    Follows φ.rename (List.Forall₂ (Entity.Image φ)) (liftM (p.attachAll rs))
      (liftM (p'.attachAll rs')) :=
  .lift fun _ hes => h.attachAll hrs hes

end Enclosing.Image

namespace Resource.Image

variable {k : Kind} {r r' : Resource k}

/-- What encloses others takes a fresh id in both runs, or in none. -/
theorem follows_enclose (h : r.Image φ r') :
    Follows φ.rename (fun x y => x.1.Image φ y.1 ∧ x.2.Image φ y.2) r.enclose r'.enclose := by
  have hnames : Detail.names k r'.detail = Detail.names k r.detail := by
    rw [h.detail, Detail.names_rename]
  have henclosed : ∀ id, Follows φ.rename
      (fun x y : Enclosing × Resource k => x.1.Image φ y.1 ∧ x.2.Image φ y.2)
      (Pure.pure (⟨k, id, Detail.names k r.detail⟩, { r with id := some id }))
      (Pure.pure (⟨k, φ.rename id, Detail.names k r'.detail⟩,
        { r' with id := some (φ.rename id) })) :=
    fun id => .pure ⟨⟨rfl, rfl, hnames⟩, { h with id := rfl }⟩
  unfold enclose
  rw [h.id]
  cases r.id with
  | some id => exact henclosed id
  | none =>
    refine .bind (Q := fun a b => b = φ.rename a) (.freshId fun _ => rfl) ?_
    rintro id _ rfl
    exact henclosed id

/-- An object with something nested in it is followed by its image: both get an id or neither does,
for their images are empty together. -/
theorem follows_flattenNested (h : r.Image φ r') {empty empty' : Bool} (hempty : empty' = empty)
    {nested nested' : Enclosing → Planning (List Entity)}
    (hnested : ∀ p p' : Enclosing, p.Image φ p' →
      Follows φ.rename (List.Forall₂ (Entity.Image φ)) (nested p) (nested' p')) :
    Follows φ.rename (List.Forall₂ (Entity.Image φ)) (r.flattenNested empty nested)
      (r'.flattenNested empty' nested') := by
  subst hempty
  unfold flattenNested
  cases empty' with
  | true => exact .pure (.cons (.mk h) .nil)
  | false =>
    refine h.follows_enclose.bind ?_
    rintro ⟨p, x⟩ ⟨p', x'⟩ ⟨hp, hx⟩
    refine (hnested p p' hp).bind fun es es' hes => .pure ?_
    exact List.rel_append hes (.cons (.mk hx) .nil)

end Resource.Image

/-! ### Declarations -/

section declarations

variable (φ)

/-- The declaration of a route as it is seen in the other run. -/
structure RouteDecl.Image (d d' : RouteDecl) : Prop where
  route : d.route.Image φ d'.route
  plugins : List.Forall₂ (Resource.Image φ) d.plugins d'.plugins

/-- The declaration of a service as it is seen in the other run. -/
structure ServiceDecl.Image (d d' : ServiceDecl) : Prop where
  service : d.service.Image φ d'.service
  routes : List.Forall₂ (RouteDecl.Image φ) d.routes d'.routes
  plugins : List.Forall₂ (Resource.Image φ) d.plugins d'.plugins

/-- The declaration of a consumer as it is seen in the other run. -/
structure ConsumerDecl.Image (d d' : ConsumerDecl) : Prop where
  consumer : d.consumer.Image φ d'.consumer
  plugins : List.Forall₂ (Resource.Image φ) d.plugins d'.plugins
  groups : d'.groups = d.groups.map (.rename φ.rename)

/-- The declaration of a consumer-group as it is seen in the other run. -/
structure ConsumerGroupDecl.Image (d d' : ConsumerGroupDecl) : Prop where
  group : d.group.Image φ d'.group
  consumers : d'.consumers = d.consumers.map (.rename φ.rename)
  plugins : List.Forall₂ (Resource.Image φ) d.plugins d'.plugins

/-- The declaration of an upstream as it is seen in the other run. -/
structure UpstreamDecl.Image (d d' : UpstreamDecl) : Prop where
  upstream : d.upstream.Image φ d'.upstream
  targets : List.Forall₂ (Resource.Image φ) d.targets d'.targets

/-- The declaration of a certificate as it is seen in the other run. -/
structure CertificateDecl.Image (d d' : CertificateDecl) : Prop where
  certificate : d.certificate.Image φ d'.certificate
  snis : List.Forall₂ (Resource.Image φ) d.snis d'.snis

/-- The declaration of a set of keys as it is seen in the other run. -/
structure KeySetDecl.Image (d d' : KeySetDecl) : Prop where
  keySet : d.keySet.Image φ d'.keySet
  keys : List.Forall₂ (Resource.Image φ) d.keys d'.keys

/-- The declaration of a role as it is seen in the other run. -/
structure RoleDecl.Image (d d' : RoleDecl) : Prop where
  role : d.role.Image φ d'.role
  permissions : List.Forall₂ (Resource.Image φ) d.permissions d'.permissions

/-- A document as it is seen in the other run. -/
structure Content.Image (c c' : Content) : Prop where
  services : List.Forall₂ (ServiceDecl.Image φ) c.services c'.services
  routes : List.Forall₂ (RouteDecl.Image φ) c.routes c'.routes
  plugins : List.Forall₂ (Resource.Image φ) c.plugins c'.plugins
  consumers : List.Forall₂ (ConsumerDecl.Image φ) c.consumers c'.consumers
  consumerGroups : List.Forall₂ (ConsumerGroupDecl.Image φ) c.consumerGroups c'.consumerGroups
  upstreams : List.Forall₂ (UpstreamDecl.Image φ) c.upstreams c'.upstreams
  targets : List.Forall₂ (Resource.Image φ) c.targets c'.targets
  certificates : List.Forall₂ (CertificateDecl.Image φ) c.certificates c'.certificates
  snis : List.Forall₂ (Resource.Image φ) c.snis c'.snis
  caCertificates : List.Forall₂ (Resource.Image φ) c.caCertificates c'.caCertificates
  vaults : List.Forall₂ (Resource.Image φ) c.vaults c'.vaults
  keySets : List.Forall₂ (KeySetDecl.Image φ) c.keySets c'.keySets
  keys : List.Forall₂ (Resource.Image φ) c.keys c'.keys
  partials : List.Forall₂ (Resource.Image φ) c.partials c'.partials
  licenses : List.Forall₂ (Resource.Image φ) c.licenses c'.licenses
  roles : List.Forall₂ (RoleDecl.Image φ) c.roles c'.roles
  permissions : List.Forall₂ (Resource.Image φ) c.permissions c'.permissions
  customObjects : List.Forall₂ (Resource.Image φ) c.customObjects c'.customObjects

end declarations

section flatten

/-- Routes are followed, under a service and on their own. -/
theorem RouteDecl.Image.follows_flatten {d d' : RouteDecl} (h : d.Image φ d')
    {p p' : Option Enclosing} (hp : Option.Rel (Enclosing.Image φ) p p') :
    Follows φ.rename (List.Forall₂ (Entity.Image φ)) (d.flatten p) (d'.flatten p') := by
  have hnested : ∀ r r' : Resource .route, r.Image φ r' →
      Follows φ.rename (List.Forall₂ (Entity.Image φ))
        (r.flattenNested d.plugins.isEmpty fun q => liftM (q.attachAll d.plugins))
        (r'.flattenNested d'.plugins.isEmpty fun q => liftM (q.attachAll d'.plugins)) :=
    fun r r' hr => hr.follows_flattenNested h.plugins.isEmpty_eq fun q q' hq =>
      hq.follows_attachAll h.plugins
  unfold RouteDecl.flatten
  cases hp with
  | none => exact hnested _ _ h.route
  | some hp => exact .bind (.lift fun _ hx => hp.attach h.route hx) hnested

/-- Services are followed, with the routes and plugins nested in them. -/
theorem ServiceDecl.Image.follows_flatten {d d' : ServiceDecl} (h : d.Image φ d') :
    Follows φ.rename (List.Forall₂ (Entity.Image φ)) d.flatten d'.flatten := by
  have hempty : (d'.routes.isEmpty && d'.plugins.isEmpty) =
      (d.routes.isEmpty && d.plugins.isEmpty) := by
    rw [h.routes.isEmpty_eq, h.plugins.isEmpty_eq]
  refine h.service.follows_flattenNested hempty fun p p' hp => ?_
  refine (Follows.mapM (h.routes.imp fun _ _ hr => hr.follows_flatten (.some hp))).bind ?_
  intro ess ess' hess
  refine (hp.follows_attachAll h.plugins).bind fun es es' hes => .pure ?_
  exact List.rel_append (List.rel_flatten hess) hes

/-- Memberships are written in the order of the references that they stand for. -/
theorem forall₂_memberships {fks : List ForeignKey} {declare declare' : ForeignKey → Entity}
    (h : ∀ fk ∈ fks, (declare fk).Image φ (declare' (fk.rename φ.rename))) :
    List.Forall₂ (Entity.Image φ) (fks.map declare)
      ((fks.map (.rename φ.rename)).map declare') := by
  rw [List.forall₂_map_left_iff, List.forall₂_map_right_iff, List.forall₂_map_right_iff]
  exact List.forall₂_same.2 h

/-- A membership is seen as that of the images of its group and its consumer. -/
theorem Membership.image_declared (group consumer : ForeignKey) :
    (declared group consumer).Image φ
      (declared (group.rename φ.rename) (consumer.rename φ.rename)) :=
  .mk ⟨rfl, rfl, φ.retag_nil, rfl, rfl⟩

/-- How a member is listed depends on which parts of a reference are there, not on the id. -/
theorem ForeignKey.ofMember_rename (fk : ForeignKey) :
    (fk.rename φ.rename).ofMember = fk.ofMember.rename φ.rename := by
  obtain ⟨id, name, extra⟩ := fk
  unfold ofMember rename
  simp only
  split
  · split <;> rfl
  · rfl

/-- Consumers are followed, with their plugins and memberships. -/
theorem ConsumerDecl.Image.follows_flatten {d d' : ConsumerDecl} (h : d.Image φ d') :
    Follows φ.rename (List.Forall₂ (Entity.Image φ)) d.flatten d'.flatten := by
  have hempty : (d'.plugins.isEmpty && d'.groups.isEmpty) =
      (d.plugins.isEmpty && d.groups.isEmpty) := by
    rw [h.plugins.isEmpty_eq, h.groups, List.isEmpty_map]
  refine h.consumer.follows_flattenNested hempty fun p p' hp => ?_
  refine (hp.follows_attachAll h.plugins).bind fun es es' hes => .pure (List.rel_append hes ?_)
  rw [h.groups]
  refine forall₂_memberships fun fk _ => ?_
  rw [hp.reference]
  exact Membership.image_declared fk p.reference

/-- Groups are followed, with their plugins and members. -/
theorem ConsumerGroupDecl.Image.follows_flatten {d d' : ConsumerGroupDecl} (h : d.Image φ d') :
    Follows φ.rename (List.Forall₂ (Entity.Image φ)) d.flatten d'.flatten := by
  have hempty : (d'.plugins.isEmpty && d'.consumers.isEmpty) =
      (d.plugins.isEmpty && d.consumers.isEmpty) := by
    rw [h.plugins.isEmpty_eq, h.consumers, List.isEmpty_map]
  refine h.group.follows_flattenNested hempty fun p p' hp => ?_
  refine (hp.follows_attachAll h.plugins).bind fun es es' hes => .pure (List.rel_append hes ?_)
  rw [h.consumers]
  refine forall₂_memberships fun fk _ => ?_
  rw [hp.reference, ForeignKey.ofMember_rename]
  exact Membership.image_declared p.reference fk.ofMember

/-- Upstreams are followed, with their targets. -/
theorem UpstreamDecl.Image.follows_flatten {d d' : UpstreamDecl} (h : d.Image φ d') :
    Follows φ.rename (List.Forall₂ (Entity.Image φ)) d.flatten d'.flatten :=
  h.upstream.follows_flattenNested h.targets.isEmpty_eq fun _ _ hp =>
    hp.follows_attachAll h.targets

/-- Certificates are followed, with their server names. -/
theorem CertificateDecl.Image.follows_flatten {d d' : CertificateDecl} (h : d.Image φ d') :
    Follows φ.rename (List.Forall₂ (Entity.Image φ)) d.flatten d'.flatten :=
  h.certificate.follows_flattenNested h.snis.isEmpty_eq fun _ _ hp => hp.follows_attachAll h.snis

/-- Sets are followed, with their keys. -/
theorem KeySetDecl.Image.follows_flatten {d d' : KeySetDecl} (h : d.Image φ d') :
    Follows φ.rename (List.Forall₂ (Entity.Image φ)) d.flatten d'.flatten :=
  h.keySet.follows_flattenNested h.keys.isEmpty_eq fun _ _ hp => hp.follows_attachAll h.keys

/-- Roles are followed, with their permissions. -/
theorem RoleDecl.Image.follows_flatten {d d' : RoleDecl} (h : d.Image φ d') :
    Follows φ.rename (List.Forall₂ (Entity.Image φ)) d.flatten d'.flatten :=
  h.role.follows_flattenNested h.permissions.isEmpty_eq fun _ _ hp =>
    hp.follows_attachAll h.permissions

end flatten

/-! ### What is seen as itself -/

/-- The texts of an entity in which ids stand: its id, the ids that it refers to, and whatever else
its id is made of. -/
def Entity.idTexts (e : Entity) : List String :=
  e.mentioned ++ Detail.ownIdParts e.kind e.resource.detail

/-- An entity in which no id has another name is seen as itself. -/
theorem Entity.image_self {e : Entity} (h : ∀ id ∈ e.idTexts, φ.rename id = id) :
    e.Image φ e := by
  obtain ⟨hmentioned, hparts⟩ := List.forall_mem_append.1 h
  obtain ⟨hid, hlinks⟩ := List.forall_mem_append.1 hmentioned
  obtain ⟨k, r⟩ := e
  refine .mk ⟨?_, (Detail.rename_eq_self (fun l hl id hlid => ?_) hparts).symm,
    φ.append φ.retag_nil r.tags, rfl, rfl⟩
  · cases hrid : r.id with
    | none => rfl
    | some id => exact congrArg some (hid id (Option.mem_toList.2 hrid)).symm
  · exact hlinks id (List.mem_filterMap.2 ⟨l, hl, hlid⟩)

/-- Where nothing is renamed and tags stay in order, every entity is seen as itself. -/
theorem Entity.image_unchanged_iff {a b : Entity} : a.Image .unchanged b ↔ b = a := by
  constructor
  · intro h
    cases h with
    | @mk k r r' h =>
      have hid : r'.id = r.id := h.id.trans Option.map_id_apply
      have hdetail : r'.detail = r.detail :=
        h.detail.trans (Detail.rename_eq_self (fun _ _ _ _ => rfl) fun _ _ => rfl)
      exact congrArg (Entity.mk k) (Resource.ext_of hid hdetail h.tags.symm h.createdAt h.updatedAt)
  · rintro rfl
    exact image_self fun _ _ => rfl

section declared

/-- Objects that are declared one after the other and seen as themselves. -/
theorem forall₂_image_self {k : Kind} {rs : List (Resource k)}
    (h : ∀ e ∈ rs.map Resource.toEntity, e.Image φ e) :
    List.Forall₂ (Resource.Image φ) rs rs :=
  List.forall₂_same.2 fun _ hr => (h _ (List.mem_map_of_mem hr)).resource

/-- A route is seen as itself where all that it declares is. -/
theorem RouteDecl.image_self {d : RouteDecl} (h : ∀ e ∈ d.declared, e.Image φ e) :
    d.Image φ d := by
  obtain ⟨hroute, hplugins⟩ := List.forall_mem_cons.1 h
  exact ⟨hroute.resource, forall₂_image_self hplugins⟩

/-- A service is seen as itself where all that it declares is. -/
theorem ServiceDecl.image_self {d : ServiceDecl} (h : ∀ e ∈ d.declared, e.Image φ e) :
    d.Image φ d := by
  obtain ⟨hservice, hrest⟩ := List.forall_mem_cons.1 h
  obtain ⟨hroutes, hplugins⟩ := List.forall_mem_append.1 hrest
  refine ⟨hservice.resource, List.forall₂_same.2 fun r hr => ?_, forall₂_image_self hplugins⟩
  exact RouteDecl.image_self fun e he => hroutes e (List.mem_flatMap_of_mem hr he)

/-- A consumer is seen as itself where all that it declares is, and no group that it lists by id has
another name. -/
theorem ConsumerDecl.image_self {d : ConsumerDecl} (h : ∀ e ∈ d.declared, e.Image φ e)
    (hgroups : ∀ fk ∈ d.groups, ∀ id ∈ fk.id, φ.rename id = id) : d.Image φ d := by
  obtain ⟨hconsumer, hplugins⟩ := List.forall_mem_cons.1 h
  refine ⟨hconsumer.resource, forall₂_image_self hplugins, (List.map_eq_self fun fk hfk => ?_).symm⟩
  exact ForeignKey.rename_eq_self (hgroups fk hfk)

/-- A group is seen as itself where all that it declares is, and no consumer that it lists by id has
another name. -/
theorem ConsumerGroupDecl.image_self {d : ConsumerGroupDecl} (h : ∀ e ∈ d.declared, e.Image φ e)
    (hconsumers : ∀ fk ∈ d.consumers, ∀ id ∈ fk.id, φ.rename id = id) : d.Image φ d := by
  obtain ⟨hgroup, hplugins⟩ := List.forall_mem_cons.1 h
  refine ⟨hgroup.resource, (List.map_eq_self fun fk hfk => ?_).symm, forall₂_image_self hplugins⟩
  exact ForeignKey.rename_eq_self (hconsumers fk hfk)

/-- An upstream is seen as itself where all that it declares is. -/
theorem UpstreamDecl.image_self {d : UpstreamDecl} (h : ∀ e ∈ d.declared, e.Image φ e) :
    d.Image φ d := by
  obtain ⟨hupstream, htargets⟩ := List.forall_mem_cons.1 h
  exact ⟨hupstream.resource, forall₂_image_self htargets⟩

/-- A certificate is seen as itself where all that it declares is. -/
theorem CertificateDecl.image_self {d : CertificateDecl} (h : ∀ e ∈ d.declared, e.Image φ e) :
    d.Image φ d := by
  obtain ⟨hcertificate, hsnis⟩ := List.forall_mem_cons.1 h
  exact ⟨hcertificate.resource, forall₂_image_self hsnis⟩

/-- A set is seen as itself where all that it declares is. -/
theorem KeySetDecl.image_self {d : KeySetDecl} (h : ∀ e ∈ d.declared, e.Image φ e) :
    d.Image φ d := by
  obtain ⟨hkeySet, hkeys⟩ := List.forall_mem_cons.1 h
  exact ⟨hkeySet.resource, forall₂_image_self hkeys⟩

/-- A role is seen as itself where all that it declares is. -/
theorem RoleDecl.image_self {d : RoleDecl} (h : ∀ e ∈ d.declared, e.Image φ e) :
    d.Image φ d := by
  obtain ⟨hrole, hpermissions⟩ := List.forall_mem_cons.1 h
  exact ⟨hrole.resource, forall₂_image_self hpermissions⟩

end declared

/-- The texts of a document in which ids stand. -/
def Content.idTexts (c : Content) : List String :=
  c.declared.flatMap Entity.idTexts ++ (c.consumers.flatMap (·.groups)).filterMap (·.id) ++
    (c.consumerGroups.flatMap (·.consumers)).filterMap (·.id)

/-- A document in which no id has another name is seen as itself. -/
theorem Content.image_self {c : Content} (h : ∀ id ∈ c.idTexts, φ.rename id = id) :
    c.Image φ c := by
  obtain ⟨hrest, hconsumers⟩ := List.forall_mem_append.1 h
  obtain ⟨htexts, hgroups⟩ := List.forall_mem_append.1 hrest
  have hdeclared : ∀ e ∈ c.declared, e.Image φ e := fun e he =>
    Entity.image_self fun id hid => htexts id (List.mem_flatMap_of_mem he hid)
  unfold declared plainEntities at hdeclared
  simp only [List.forall_mem_append] at hdeclared
  obtain ⟨⟨⟨⟨⟨⟨⟨⟨hservices, hroutes⟩, hconsumerDecls⟩, hgroupDecls⟩, hupstreams⟩, hcertificates⟩,
    hkeySets⟩, hroles⟩, ⟨⟨⟨⟨⟨⟨⟨⟨hplugins, htargets⟩, hsnis⟩, hcas⟩, hvaults⟩, hkeys⟩, hpartials⟩,
    hlicenses⟩, hpermissions⟩, hcustom⟩ := hdeclared
  have of_flatMap : ∀ {α : Type} {ds : List α} {declared : α → List Entity},
      (∀ e ∈ ds.flatMap declared, e.Image φ e) → ∀ d ∈ ds, ∀ e ∈ declared d, e.Image φ e :=
    fun hds d hd e he => hds e (List.mem_flatMap_of_mem hd he)
  exact {
    services := List.forall₂_same.2 fun d hd => ServiceDecl.image_self (of_flatMap hservices d hd)
    routes := List.forall₂_same.2 fun d hd => RouteDecl.image_self (of_flatMap hroutes d hd)
    plugins := forall₂_image_self hplugins
    consumers := List.forall₂_same.2 fun d hd =>
      ConsumerDecl.image_self (of_flatMap hconsumerDecls d hd) fun fk hfk id hid =>
        hgroups id (List.mem_filterMap.2 ⟨fk, List.mem_flatMap_of_mem hd hfk, hid⟩)
    consumerGroups := List.forall₂_same.2 fun d hd =>
      ConsumerGroupDecl.image_self (of_flatMap hgroupDecls d hd) fun fk hfk id hid =>
        hconsumers id (List.mem_filterMap.2 ⟨fk, List.mem_flatMap_of_mem hd hfk, hid⟩)
    upstreams := List.forall₂_same.2 fun d hd =>
      UpstreamDecl.image_self (of_flatMap hupstreams d hd)
    targets := forall₂_image_self htargets
    certificates := List.forall₂_same.2 fun d hd =>
      CertificateDecl.image_self (of_flatMap hcertificates d hd)
    snis := forall₂_image_self hsnis
    caCertificates := forall₂_image_self hcas
    vaults := forall₂_image_self hvaults
    keySets := List.forall₂_same.2 fun d hd => KeySetDecl.image_self (of_flatMap hkeySets d hd)
    keys := forall₂_image_self hkeys
    partials := forall₂_image_self hpartials
    licenses := forall₂_image_self hlicenses
    roles := List.forall₂_same.2 fun d hd => RoleDecl.image_self (of_flatMap hroles d hd)
    permissions := forall₂_image_self hpermissions
    customObjects := forall₂_image_self hcustom }

/-! ### Documents -/

namespace Content.Image

variable {c c' : Content}

/-- What is declared on its own is seen object by object. -/
theorem plainEntities (h : c.Image φ c') :
    List.Forall₂ (Entity.Image φ) c.plainEntities c'.plainEntities := by
  have entities : ∀ {k : Kind} {rs rs' : List (Resource k)},
      List.Forall₂ (Resource.Image φ) rs rs' →
        List.Forall₂ (Entity.Image φ) (rs.map Resource.toEntity) (rs'.map Resource.toEntity) := by
    intro k rs rs' hrs
    rw [List.forall₂_map_left_iff, List.forall₂_map_right_iff]
    exact hrs.imp fun _ _ hr => .mk hr
  unfold Content.plainEntities
  exact List.rel_append (List.rel_append (List.rel_append (List.rel_append (List.rel_append
    (List.rel_append (List.rel_append (List.rel_append (List.rel_append
    (entities h.plugins) (entities h.targets)) (entities h.snis)) (entities h.caCertificates))
    (entities h.vaults)) (entities h.keys)) (entities h.partials)) (entities h.licenses))
    (entities h.permissions)) (entities h.customObjects)

/-- The entities of a document are seen as those of its image. -/
theorem follows_flatten (h : c.Image φ c') :
    Follows φ.rename (List.Forall₂ (Entity.Image φ)) c.flatten c'.flatten := by
  unfold Content.flatten
  refine (Follows.mapM (h.services.imp fun _ _ hd => hd.follows_flatten)).bind fun _ _ h₁ => ?_
  refine (Follows.mapM (h.routes.imp fun _ _ hd => hd.follows_flatten .none)).bind fun _ _ h₂ => ?_
  refine (Follows.mapM (h.consumers.imp fun _ _ hd => hd.follows_flatten)).bind fun _ _ h₃ => ?_
  refine (Follows.mapM (h.consumerGroups.imp fun _ _ hd => hd.follows_flatten)).bind
    fun _ _ h₄ => ?_
  refine (Follows.mapM (h.upstreams.imp fun _ _ hd => hd.follows_flatten)).bind fun _ _ h₅ => ?_
  refine (Follows.mapM (h.certificates.imp fun _ _ hd => hd.follows_flatten)).bind
    fun _ _ h₆ => ?_
  refine (Follows.mapM (h.keySets.imp fun _ _ hd => hd.follows_flatten)).bind fun _ _ h₇ => ?_
  refine (Follows.mapM (h.roles.imp fun _ _ hd => hd.follows_flatten)).bind fun _ _ h₈ => ?_
  refine .pure (List.rel_append (List.rel_flatten ?_) h.plainEntities)
  exact List.rel_append (List.rel_append (List.rel_append (List.rel_append (List.rel_append
    (List.rel_append (List.rel_append h₁ h₂) h₃) h₄) h₅) h₆) h₇) h₈

end Content.Image

/-- Flattening takes fresh ids one after the other. -/
theorem Content.exists_after_of_flatten {c : Content} {es : List Entity} {s t : IdSupply}
    (h : Yields c.flatten s es t) : ∃ n, t = s.after n := by
  have hself : c.Image .unchanged c := Content.image_self fun _ _ => rfl
  obtain ⟨n, hn, -⟩ := hself.follows_flatten s es t h
  exact ⟨n, hn⟩

end Gateway
