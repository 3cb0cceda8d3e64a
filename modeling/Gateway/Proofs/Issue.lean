import Gateway.Proofs.Listing
import Gateway.Proofs.Numbering

/-!
# Ids for what encloses others

Before anything is nested under it, an object needs an id. `Content.identified` is the document with
these ids, in the order in which flattening takes them. It always comes about
(`Content.total_identified`), and it is the document itself, but that what encloses others and has
no id has one that was handed out in the meantime (`Content.issued_identified`).
-/

namespace Gateway

open Planning Nested

/-! ### Documents with ids -/

/-- The object as it is when others are nested under it: with an id, a fresh one where it has none.
Otherwise it stays as it is. -/
def Resource.identified {k : Kind} (r : Resource k) (encloses : Bool) : Planning (Resource k) :=
  if encloses then Prod.snd <$> r.enclose else pure r

/-- A route, with an id if plugins are nested in it. -/
def RouteDecl.identified (d : RouteDecl) : Planning RouteDecl := do
  return { d with route := ← d.route.identified !d.plugins.isEmpty }

/-- A service, with an id if routes or plugins are nested in it, and the routes likewise. -/
def ServiceDecl.identified (d : ServiceDecl) : Planning ServiceDecl := do
  let service ← d.service.identified !(d.routes.isEmpty && d.plugins.isEmpty)
  let routes ← d.routes.mapM RouteDecl.identified
  return { d with service := service, routes := routes }

/-- A consumer, with an id if plugins are nested in it or groups are listed under it. -/
def ConsumerDecl.identified (d : ConsumerDecl) : Planning ConsumerDecl := do
  return { d with consumer := ← d.consumer.identified !(d.plugins.isEmpty && d.groups.isEmpty) }

/-- A group, with an id if plugins are nested in it or consumers are listed under it. -/
def ConsumerGroupDecl.identified (d : ConsumerGroupDecl) : Planning ConsumerGroupDecl := do
  return { d with group := ← d.group.identified !(d.plugins.isEmpty && d.consumers.isEmpty) }

/-- An upstream, with an id if targets are nested in it. -/
def UpstreamDecl.identified (d : UpstreamDecl) : Planning UpstreamDecl := do
  return { d with upstream := ← d.upstream.identified !d.targets.isEmpty }

/-- A certificate, with an id if server names are nested in it. -/
def CertificateDecl.identified (d : CertificateDecl) : Planning CertificateDecl := do
  return { d with certificate := ← d.certificate.identified !d.snis.isEmpty }

/-- A set, with an id if keys are nested in it. -/
def KeySetDecl.identified (d : KeySetDecl) : Planning KeySetDecl := do
  return { d with keySet := ← d.keySet.identified !d.keys.isEmpty }

/-- A role, with an id if permissions are nested in it. -/
def RoleDecl.identified (d : RoleDecl) : Planning RoleDecl := do
  return { d with role := ← d.role.identified !d.permissions.isEmpty }

/-- The document in which everything that encloses others has an id. -/
def Content.identified (c : Content) : Planning Content := do
  let services ← c.services.mapM ServiceDecl.identified
  let routes ← c.routes.mapM RouteDecl.identified
  let consumers ← c.consumers.mapM ConsumerDecl.identified
  let groups ← c.consumerGroups.mapM ConsumerGroupDecl.identified
  let upstreams ← c.upstreams.mapM UpstreamDecl.identified
  let certificates ← c.certificates.mapM CertificateDecl.identified
  let keySets ← c.keySets.mapM KeySetDecl.identified
  let roles ← c.roles.mapM RoleDecl.identified
  return { c with
    services := services, routes := routes, consumers := consumers, consumerGroups := groups,
    upstreams := upstreams, certificates := certificates, keySets := keySets, roles := roles }

namespace Planning

variable {α β : Type} {s s' : IdSupply} {b : β}

/-- A computation whose result is changed afterwards takes the same ids. -/
theorem yields_map {x : Planning α} {f : α → β} :
    Yields (f <$> x) s b s' ↔ ∃ a, Yields x s a s' ∧ f a = b := by
  rw [← bind_pure_comp]
  simp only [yields_bind, yields_pure]
  constructor
  · rintro ⟨a, t, ha, rfl, rfl⟩
    exact ⟨a, ha, rfl⟩
  · rintro ⟨a, ha, rfl⟩
    exact ⟨a, s', ha, rfl, rfl⟩

/-! ### Ids always come about -/

/-- A computation that does not fail. -/
def Total (x : Planning α) : Prop := ∀ s, ∃ a s', Yields x s a s'

/-- What only returns something has a result. -/
theorem Total.pure (a : α) : Total (pure a) := fun s => ⟨a, s, yields_pure.2 ⟨rfl, rfl⟩⟩

/-- One computation after another has a result where both have, whatever the first one returns. -/
theorem Total.bind {x : Planning α} {f : α → Planning β} (hx : Total x) (hf : ∀ a, Total (f a)) :
    Total (x >>= f) := by
  intro s
  obtain ⟨a, t, ha⟩ := hx s
  obtain ⟨b, s', hb⟩ := hf a t
  exact ⟨b, s', yields_bind.2 ⟨a, t, ha, hb⟩⟩

/-- A list is dealt with where each member can be. -/
theorem Total.mapM {f : α → Planning β} (hf : ∀ a, Total (f a)) (as : List α) :
    Total (as.mapM f) := by
  induction as with
  | nil => exact .pure []
  | cons a rest ih =>
    rw [List.mapM_cons]
    exact (hf a).bind fun b => ih.bind fun bs => .pure (b :: bs)

end Planning

namespace Resource

variable {k : Kind} {r r' : Resource k} {s t : IdSupply}

/-- An object that encloses others gets the id under which these are nested. -/
theorem yields_identified_iff : Yields (r.identified true) s r' t ↔
    ∃ id, r' = { r with id := some id } ∧
      (r.id = some id ∧ t = s ∨ r.id = none ∧ id = s.nth 0 ∧ t = s.after 1) := by
  unfold identified
  simp only [if_true, yields_map, yields_enclose_iff]
  constructor
  · rintro ⟨_, ⟨id, rfl, hid⟩, rfl⟩
    exact ⟨id, rfl, hid⟩
  · rintro ⟨id, rfl, hid⟩
    exact ⟨_, ⟨id, rfl, hid⟩, rfl⟩

/-- An object always gets an id where it needs one. -/
theorem total_identified (r : Resource k) (encloses : Bool) : Total (r.identified encloses) := by
  cases encloses with
  | false => exact .pure r
  | true =>
    intro s
    cases hid : r.id with
    | some id => exact ⟨_, s, yields_identified_iff.2 ⟨id, rfl, .inl ⟨hid, rfl⟩⟩⟩
    | none => exact ⟨_, _, yields_identified_iff.2 ⟨_, rfl, .inr ⟨hid, rfl, rfl⟩⟩⟩

end Resource

/-- Ids can be handed out for every route. -/
theorem RouteDecl.total_identified (d : RouteDecl) : Total d.identified :=
  (d.route.total_identified _).bind fun _ => .pure _

/-- Ids can be handed out for every service and the routes in it. -/
theorem ServiceDecl.total_identified (d : ServiceDecl) : Total d.identified :=
  (d.service.total_identified _).bind fun _ =>
    (Total.mapM RouteDecl.total_identified d.routes).bind fun _ => .pure _

/-- Every document can be given the ids that flattening needs. -/
theorem Content.total_identified (c : Content) : Total c.identified := by
  have total : ∀ {k : Kind} {D : Type} (r : Resource k) (encloses : Bool) (f : Resource k → D),
      Total (do return f (← r.identified encloses)) :=
    fun r encloses f => (r.total_identified encloses).bind fun x => .pure (f x)
  refine (Total.mapM ServiceDecl.total_identified _).bind fun services => ?_
  refine (Total.mapM RouteDecl.total_identified _).bind fun routes => ?_
  refine (Total.mapM (fun d : ConsumerDecl => total d.consumer _ _) _).bind fun consumers => ?_
  refine (Total.mapM (fun d : ConsumerGroupDecl => total d.group _ _) _).bind fun groups => ?_
  refine (Total.mapM (fun d : UpstreamDecl => total d.upstream _ _) _).bind fun upstreams => ?_
  refine (Total.mapM (fun d : CertificateDecl => total d.certificate _ _) _).bind
    fun certificates => ?_
  refine (Total.mapM (fun d : KeySetDecl => total d.keySet _ _) _).bind fun keySets => ?_
  exact (Total.mapM (fun d : RoleDecl => total d.role _ _) _).bind fun roles => .pure _

/-! ### Ids that were handed out -/

/-- One state of a supply comes before another. -/
structure IdSupply.Precedes (s t : IdSupply) : Prop where
  issue : t.issue = s.issue
  taken : s.taken ≤ t.taken

namespace IdSupply.Precedes

variable {s t u : IdSupply}

/-- A supply precedes itself: nothing has been taken in between. -/
theorem refl (s : IdSupply) : s.Precedes s := ⟨rfl, Nat.le_refl _⟩

/-- What is taken between two supplies is taken between supplies further apart. -/
theorem trans (h : s.Precedes t) (h' : t.Precedes u) : s.Precedes u :=
  ⟨h'.issue.trans h.issue, Nat.le_trans h.taken h'.taken⟩

end IdSupply.Precedes

/-- An entity as it is declared; or it has no id there, and has one that was handed out between two
states of a supply. -/
def Entity.Refilled (s t : IdSupply) (e e' : Entity) : Prop :=
  e' = e ∨ e.id? = none ∧ ∃ i, s.taken ≤ i ∧ i < t.taken ∧ e' = e.withId (s.issue i)

/-- An id that was fresh between two supplies is fresh between supplies further apart. -/
theorem Entity.Refilled.mono {s t u : IdSupply} {e e' : Entity} (h : e.Refilled s t e')
    (htu : t.Precedes u) : e.Refilled s u e' := by
  rcases h with rfl | ⟨hid, i, hs, ht, rfl⟩
  · exact .inl rfl
  · exact .inr ⟨hid, i, hs, Nat.lt_of_lt_of_le ht htu.taken, rfl⟩

/-- The same of a parent, where there is one. -/
theorem Entity.Refilled.mono_option {s t u : IdSupply} {e e' : Option Entity}
    (h : Option.Rel (Entity.Refilled s t) e e') (htu : t.Precedes u) :
    Option.Rel (Entity.Refilled s u) e e' := by
  cases h with
  | none => exact .none
  | some h => exact .some (h.mono htu)

/-- An id is all that an entity gets, so it stays of its kind. -/
theorem Entity.Refilled.kind {s t : IdSupply} {e e' : Entity} (h : e.Refilled s t e') :
    e'.kind = e.kind := by
  rcases h with rfl | ⟨-, i, -, -, rfl⟩ <;> rfl

/-- A declaration as it is in a document, but for ids that were handed out between two states of a
supply: its own if it encloses another declaration of the document, and the one of what encloses
it. -/
structure Nested.Refilled (s t : IdSupply) (ns : List Nested) (n n' : Nested) : Prop where
  entity : n.entity.Refilled s t n'.entity
  enclosing : n'.entity = n.entity ∨ ∃ m ∈ ns, m.under = some n.entity
  under : Option.Rel (Entity.Refilled s t) n.under n'.under

/-- The same of a nested declaration and all that it is listed with. -/
theorem Nested.Refilled.mono {s t u : IdSupply} {ns ms : List Nested} {n n' : Nested}
    (h : n.Refilled s t ns n') (htu : t.Precedes u) (hns : ns ⊆ ms) : n.Refilled s u ms n' where
  entity := h.entity.mono htu
  enclosing := h.enclosing.imp_right fun ⟨m, hm, hunder⟩ => ⟨m, hns hm, hunder⟩
  under := Entity.Refilled.mono_option h.under htu

/-- Declarations with their ids: what encloses others has one. -/
structure Issued (s t : IdSupply) (ns ns' : List Nested) : Prop where
  refilled : List.Forall₂ (Nested.Refilled s t ns) ns ns'
  known : ∀ n ∈ ns', ∀ p ∈ n.under, ∃ id, p.id? = some id

namespace Issued

variable {s t u : IdSupply} {ns ns' ms ms' : List Nested}

/-- What was issued first and what was issued afterwards make one listing: the ids of the second
part are fresh with regard to the first. -/
theorem append (h : Issued s t ns ns') (h' : Issued s u ms ms') (htu : t.Precedes u) :
    Issued s u (ns ++ ms) (ns' ++ ms') where
  refilled := List.rel_append
    (h.refilled.imp fun _ _ h => h.mono htu (List.subset_append_left _ _))
    (h'.refilled.imp fun _ _ h => h.mono (.refl u) (List.subset_append_right _ _))
  known n hn := by
    rcases List.mem_append.1 hn with hn | hn
    · exact h.known n hn
    · exact h'.known n hn

/-- Declarations directly under an entity, or at the top. -/
theorem all {under under' : Option Entity} (hunder : Option.Rel (Entity.Refilled s t) under under')
    (hknown : ∀ p ∈ under', ∃ id, p.id? = some id) {k : Kind} (rs : List (Resource k)) :
    Issued s t (Nested.all under rs) (Nested.all under' rs) where
  refilled := by
    refine List.forall₂_map_left_iff.2 (List.forall₂_map_right_iff.2 (List.forall₂_same.2 ?_))
    exact fun r _ => ⟨.inl rfl, .inl rfl, hunder⟩
  known n hn := by
    obtain ⟨r, -, rfl⟩ := List.mem_map.1 hn
    exact hknown

/-- An object behind what is nested under it. -/
theorem behind {k : Kind} {r r' : Resource k} {under under' : Option Entity}
    (hr : r.toEntity.Refilled s t r'.toEntity)
    (hself : r'.toEntity = r.toEntity ∨ ∃ m ∈ ns, m.under = some r.toEntity)
    (hunder : Option.Rel (Entity.Refilled s t) under under')
    (hknown : ∀ p ∈ under', ∃ id, p.id? = some id) (h : Issued s t ns ns') :
    Issued s t (r.behind under ns) (r'.behind under' ns') where
  refilled := by
    refine List.rel_append (h.refilled.imp fun _ _ h => ?_) (.cons ⟨hr, ?_, hunder⟩ .nil)
    · exact h.mono (.refl t) (List.subset_append_left _ _)
    · exact hself.imp_right fun ⟨m, hm, hmr⟩ => ⟨m, List.mem_append_left _ hm, hmr⟩
  known n hn := by
    rcases List.mem_append.1 hn with hn | hn
    · exact h.known n hn
    · cases List.mem_singleton.1 hn
      exact hknown

end Issued

/-- From every state of a supply after `t₀`, a computation leads to a later one, and to declarations
with their ids, which were handed out after `s`. -/
def Planning.Issues {α : Type} (s t₀ : IdSupply) (x : Planning α) (ns : List Nested)
    (listing : α → List Nested) : Prop :=
  ∀ t a u, t₀.Precedes t → Yields x t a u → t.Precedes u ∧ Issued s u ns (listing a)

/-- Ids are issued to the members of a list one after the other. -/
theorem Planning.Issues.mapM {α β : Type} {s t₀ : IdSupply} {f : α → Planning β}
    {l : α → List Nested} {l' : β → List Nested} (h : ∀ a, Issues s t₀ (f a) (l a) l')
    (as : List α) : Issues s t₀ (as.mapM f) (as.flatMap l) fun bs => bs.flatMap l' := by
  induction as with
  | nil =>
    intro t bs u ht hbs
    obtain ⟨rfl, rfl⟩ := yields_pure.1 hbs
    exact ⟨.refl t, .nil, by simp⟩
  | cons a rest ih =>
    intro t bs u ht hbs
    simp only [List.mapM_cons, yields_bind, yields_pure] at hbs
    obtain ⟨b, t₁, hb, bs, t₂, hbs, rfl, rfl⟩ := hbs
    obtain ⟨htt₁, hfirst⟩ := h a t b t₁ ht hb
    obtain ⟨ht₁t₂, hrest⟩ := ih t₁ bs t₂ (ht.trans htt₁) hbs
    exact ⟨htt₁.trans ht₁t₂, hfirst.append hrest ht₁t₂⟩

/-! ### Objects and declarations -/

namespace Resource

variable {k kind kind' : Kind} {r r' : Resource k} {encloses : Bool} {s t u : IdSupply}
  {rs : List (Resource kind)} {rs' : List (Resource kind')} {under under' : Option Entity}

/-- An object that is to enclose others gets an id, if it has none, and any other stays as it is. -/
theorem refilled_of_identified (hst : s.Precedes t) (h : Yields (r.identified encloses) t r' u) :
    t.Precedes u ∧ r.toEntity.Refilled s u r'.toEntity ∧
      (encloses = true → ∃ id, r'.id = some id) ∧ (encloses = false → r' = r) := by
  cases encloses with
  | false =>
    obtain ⟨rfl, rfl⟩ := yields_pure.1 h
    exact ⟨.refl _, .inl rfl, nofun, fun _ => rfl⟩
  | true =>
    obtain ⟨id, rfl, ⟨hid, rfl⟩ | ⟨hid, rfl, rfl⟩⟩ := yields_identified_iff.1 h
    · refine ⟨.refl _, .inl ?_, fun _ => ⟨id, rfl⟩, nofun⟩
      exact Entity.withId_of_id? (e := r.toEntity) hid
    · refine ⟨⟨rfl, Nat.le_add_right _ _⟩, .inr ⟨hid, t.taken, hst.taken, ?_, ?_⟩,
        fun _ => ⟨_, rfl⟩, nofun⟩
      · exact Nat.lt_succ_self t.taken
      · rw [← hst.issue]
        rfl

/-- An object behind what is nested under it. If it encloses others, these may take ids after it. -/
theorem issued_behind {v : IdSupply} {empty : Bool} {ns ns' : List Nested} (hst : s.Precedes t)
    (h : Yields (r.identified !empty) t r' u) (huv : u.Precedes v)
    (hunder : Option.Rel (Entity.Refilled s v) under under')
    (hknown : ∀ p ∈ under', ∃ id, p.id? = some id)
    (hnone : empty = true → ns = [] ∧ ns' = [])
    (hsome : empty = false → (∃ m ∈ ns, m.under = some r.toEntity) ∧
      ((∀ p ∈ some r'.toEntity, ∃ id, p.id? = some id) → r.toEntity.Refilled s u r'.toEntity →
        Issued s v ns ns')) :
    Issued s v (r.behind under ns) (r'.behind under' ns') := by
  obtain ⟨-, hrefilled, hopen, hclosed⟩ := refilled_of_identified hst h
  cases empty with
  | true =>
    obtain ⟨rfl, rfl⟩ := hnone rfl
    have heq : r'.toEntity = r.toEntity := congrArg toEntity (hclosed rfl)
    exact .behind (hrefilled.mono huv) (.inl heq) hunder hknown ⟨.nil, by simp⟩
  | false =>
    obtain ⟨id, hid⟩ := hopen rfl
    obtain ⟨hself, hissued⟩ := hsome rfl
    refine .behind (hrefilled.mono huv) (.inr hself) hunder hknown (hissued ?_ hrefilled)
    rintro p ⟨⟩
    exact ⟨id, hid⟩

/-- An object and what is nested under it, of one kind or of two. -/
theorem issued_identified (hst : s.Precedes t)
    (h : Yields (r.identified !(rs.isEmpty && rs'.isEmpty)) t r' u)
    (hunder : Option.Rel (Entity.Refilled s t) under under')
    (hknown : ∀ p ∈ under', ∃ id, p.id? = some id) :
    t.Precedes u ∧ Issued s u
      (r.behind under (all r.toEntity rs ++ all r.toEntity rs'))
      (r'.behind under' (all r'.toEntity rs ++ all r'.toEntity rs')) := by
  have htu := (refilled_of_identified hst h).1
  refine ⟨htu, issued_behind hst h (.refl u) (Entity.Refilled.mono_option hunder htu) hknown
    (fun hnone => ?_) fun hsome => ⟨?_, fun known hrefilled => ?_⟩⟩
  · obtain ⟨hrs, hrs'⟩ := Bool.and_eq_true_iff.1 hnone
    simp [all, List.isEmpty_iff.1 hrs, List.isEmpty_iff.1 hrs']
  · rcases Bool.and_eq_false_iff.1 hsome with hrs | hrs'
    · obtain ⟨x, hx⟩ := List.exists_mem_of_ne_nil rs (by simpa using hrs)
      exact ⟨_, List.mem_append_left _ (List.mem_map_of_mem hx), rfl⟩
    · obtain ⟨x, hx⟩ := List.exists_mem_of_ne_nil rs' (by simpa using hrs')
      exact ⟨_, List.mem_append_right _ (List.mem_map_of_mem hx), rfl⟩
  · exact .append (.all (.some hrefilled) known rs) (.all (.some hrefilled) known rs') (.refl u)

/-- An object and what is nested under it, all of one kind. -/
theorem issued_of_one (hst : s.Precedes t) (h : Yields (r.identified !rs.isEmpty) t r' u)
    (hunder : Option.Rel (Entity.Refilled s t) under under')
    (hknown : ∀ p ∈ under', ∃ id, p.id? = some id) :
    t.Precedes u ∧ Issued s u (r.behind under (all r.toEntity rs))
      (r'.behind under' (all r'.toEntity rs)) := by
  have hnone : ∀ x : Resource k, all x.toEntity rs ++ all x.toEntity ([] : List (Resource kind)) =
      all x.toEntity rs := fun x => List.append_nil _
  rw [← hnone r, ← hnone r']
  refine issued_identified hst ?_ hunder hknown
  rwa [List.isEmpty_nil, Bool.and_true]

/-- The declaration of an object issues ids as the object does. -/
theorem issues_of_issued {D : Type} {f : Resource k → D} {ns : List Nested} {l : D → List Nested}
    (h : ∀ t r' u, s.Precedes t → Yields (r.identified encloses) t r' u →
      t.Precedes u ∧ Issued s u ns (l (f r'))) :
    Issues s s (do return f (← r.identified encloses)) ns l := by
  intro t d u hst hd
  simp only [yields_bind, yields_pure] at hd
  obtain ⟨r', _, hr', rfl, rfl⟩ := hd
  exact h t r' _ hst hr'

end Resource

variable {s : IdSupply}

/-- A route is listed under its service with the ids that it and its service got. -/
theorem RouteDecl.issues_identified {t₀ : IdSupply} (hst : s.Precedes t₀)
    {under under' : Option Entity} (hunder : Option.Rel (Entity.Refilled s t₀) under under')
    (hknown : ∀ p ∈ under', ∃ id, p.id? = some id) (d : RouteDecl) :
    Issues s t₀ d.identified (d.listing under) (RouteDecl.listing under') := by
  intro t d' u ht h
  simp only [identified, yields_bind, yields_pure] at h
  obtain ⟨route, _, hroute, rfl, rfl⟩ := h
  exact Resource.issued_of_one (hst.trans ht) hroute (Entity.Refilled.mono_option hunder ht) hknown

/-- A service is listed with its routes and plugins, all with the ids that they got. -/
theorem ServiceDecl.issues_identified (d : ServiceDecl) :
    Issues s s d.identified d.listing ServiceDecl.listing := by
  intro t d' u hst h
  simp only [identified, yields_bind, yields_pure] at h
  obtain ⟨service, t₁, hservice, routes, _, hroutes, rfl, rfl⟩ := h
  obtain ⟨htt₁, -⟩ := Resource.refilled_of_identified hst hservice
  have ht₁u : t₁.Precedes _ := ((Issues.mapM (RouteDecl.issues_identified (hst.trans htt₁) .none
    (by simp)) d.routes) t₁ routes _ (.refl t₁) hroutes).1
  refine ⟨htt₁.trans ht₁u, Resource.issued_behind hst hservice ht₁u .none (by simp)
    (fun hnone => ?_) fun hsome => ⟨?_, fun known hrefilled => ?_⟩⟩
  · obtain ⟨hnoroutes, hnoplugins⟩ := Bool.and_eq_true_iff.1 hnone
    rw [List.isEmpty_iff.1 hnoroutes, List.mapM_nil, yields_pure] at hroutes
    simp [all, ← hroutes.1, List.isEmpty_iff.1 hnoroutes, List.isEmpty_iff.1 hnoplugins]
  · rcases Bool.and_eq_false_iff.1 hsome with hroute | hplugin
    · obtain ⟨x, hx⟩ := List.exists_mem_of_ne_nil d.routes (by simpa using hroute)
      refine ⟨⟨x.route.toEntity, d.service.toEntity⟩, List.mem_append_left _ ?_, rfl⟩
      exact List.mem_flatMap.2 ⟨x, hx, List.mem_append_right _ List.mem_cons_self⟩
    · obtain ⟨x, hx⟩ := List.exists_mem_of_ne_nil d.plugins (by simpa using hplugin)
      exact ⟨_, List.mem_append_right _ (List.mem_map_of_mem hx), rfl⟩
  · obtain ⟨-, hissued⟩ := Issues.mapM (RouteDecl.issues_identified (hst.trans htt₁)
      (.some hrefilled) known) d.routes t₁ routes _ (.refl t₁) hroutes
    exact hissued.append (.all (.some (hrefilled.mono ht₁u)) known d.plugins) (.refl _)

/-- A consumer is listed with its plugins and memberships. -/
theorem ConsumerDecl.issues_identified (d : ConsumerDecl) :
    Issues s s d.identified d.listing ConsumerDecl.listing := by
  refine Resource.issues_of_issued fun t r' u hst h => ?_
  refine Resource.issued_identified hst ?_ .none (by simp)
  rwa [memberships, List.isEmpty_map]

/-- A group is listed with its plugins and members. -/
theorem ConsumerGroupDecl.issues_identified (d : ConsumerGroupDecl) :
    Issues s s d.identified d.listing ConsumerGroupDecl.listing := by
  refine Resource.issues_of_issued fun t r' u hst h => ?_
  refine Resource.issued_identified hst ?_ .none (by simp)
  rwa [memberships, List.isEmpty_map]

/-- An upstream is listed with its targets. -/
theorem UpstreamDecl.issues_identified (d : UpstreamDecl) :
    Issues s s d.identified d.listing UpstreamDecl.listing :=
  Resource.issues_of_issued fun _ _ _ hst h => Resource.issued_of_one hst h .none (by simp)

/-- A certificate is listed with its server names. -/
theorem CertificateDecl.issues_identified (d : CertificateDecl) :
    Issues s s d.identified d.listing CertificateDecl.listing :=
  Resource.issues_of_issued fun _ _ _ hst h => Resource.issued_of_one hst h .none (by simp)

/-- A set is listed with its keys. -/
theorem KeySetDecl.issues_identified (d : KeySetDecl) :
    Issues s s d.identified d.listing KeySetDecl.listing :=
  Resource.issues_of_issued fun _ _ _ hst h => Resource.issued_of_one hst h .none (by simp)

/-- A role is listed with its permissions. -/
theorem RoleDecl.issues_identified (d : RoleDecl) :
    Issues s s d.identified d.listing RoleDecl.listing :=
  Resource.issues_of_issued fun _ _ _ hst h => Resource.issued_of_one hst h .none (by simp)

/-- A document with its ids is the document, but for ids that were handed out; and what encloses
others has an id. -/
theorem Content.issued_identified {c c' : Content} {t : IdSupply} (h : Yields c.identified s c' t) :
    Issued s t c.listing c'.listing := by
  unfold identified at h
  simp only [yields_bind, yields_pure] at h
  obtain ⟨services, _, hservices, routes, _, hroutes, consumers, _, hconsumers, groups, _, hgroups,
    upstreams, _, hupstreams, certificates, _, hcertificates, keySets, _, hkeySets, roles, _,
    hroles, rfl, rfl⟩ := h
  obtain ⟨hs₁, hservices⟩ := Issues.mapM ServiceDecl.issues_identified _ _ _ _ (.refl s) hservices
  obtain ⟨h₁₂, hroutes⟩ := Issues.mapM
    (RouteDecl.issues_identified (.refl s) .none (by simp)) _ _ _ _ hs₁ hroutes
  have hs₂ := hs₁.trans h₁₂
  obtain ⟨h₂₃, hconsumers⟩ := Issues.mapM ConsumerDecl.issues_identified _ _ _ _ hs₂ hconsumers
  have hs₃ := hs₂.trans h₂₃
  obtain ⟨h₃₄, hgroups⟩ := Issues.mapM ConsumerGroupDecl.issues_identified _ _ _ _ hs₃ hgroups
  have hs₄ := hs₃.trans h₃₄
  obtain ⟨h₄₅, hupstreams⟩ := Issues.mapM UpstreamDecl.issues_identified _ _ _ _ hs₄ hupstreams
  have hs₅ := hs₄.trans h₄₅
  obtain ⟨h₅₆, hcertificates⟩ :=
    Issues.mapM CertificateDecl.issues_identified _ _ _ _ hs₅ hcertificates
  have hs₆ := hs₅.trans h₅₆
  obtain ⟨h₆₇, hkeySets⟩ := Issues.mapM KeySetDecl.issues_identified _ _ _ _ hs₆ hkeySets
  have hs₇ := hs₆.trans h₆₇
  obtain ⟨h₇₈, hroles⟩ := Issues.mapM RoleDecl.issues_identified _ _ _ _ hs₇ hroles
  refine Issued.append (.append (.append (.append (.append (.append (.append (.append hservices
    hroutes h₁₂) hconsumers h₂₃) hgroups h₃₄) hupstreams h₄₅) hcertificates h₅₆) hkeySets h₆₇)
    hroles h₇₈) ⟨?_, fun n hn => ?_⟩ (.refl _)
  · refine List.forall₂_map_left_iff.2 (List.forall₂_map_right_iff.2 (List.forall₂_same.2 ?_))
    exact fun e _ => ⟨.inl rfl, .inl rfl, .none⟩
  · obtain ⟨e, -, rfl⟩ := List.mem_map.1 hn
    rintro p ⟨⟩

end Gateway
