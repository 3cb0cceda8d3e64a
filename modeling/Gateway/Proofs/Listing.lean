import Gateway.Proofs.Nesting

/-!
# What a document declares

`Content.listingOf` lists, kind by kind, every declaration of a document with the declaration that
encloses it, nested ones in the order of their parents and then those at the top; a group that a
consumer lists, and a consumer that a group lists, count as the declaration of a membership under
it. `Content.listing` is the same in one list (`Content.filter_listing`). What encloses another
declaration stands in the list itself (`Content.closed_listing`).

A nested declaration becomes a flat one when the reference to its parent takes the place of what it
says of a parent of that kind (`Nested.settled`), and it can when it says nothing of it, or nothing
but a reference that means the same parent (`Nested.Fits`). `Kind.parentSlot?` is the table of these
places; it has one for whatever is nested in a document (`Content.placed_listing`).
-/

namespace Gateway

open Nested

/-! ### Nested declarations -/

/-- A reference that says nothing. -/
def ForeignKey.unqualified : ForeignKey := ⟨none, none, []⟩

/-- The reference by id to an entity. -/
def Entity.pointer (e : Entity) : ForeignKey := ⟨e.id?, none, []⟩

/-- The place that objects of a kind have for the reference to a parent. -/
structure ParentSlot (k : Kind) where
  get : Detail k → Option ForeignKey
  put : ForeignKey → Detail k → Detail k
  get_put : ∀ fk d, get (put fk d) = some fk

/-- The place for the reference to a parent of a kind, where an object can be nested under one. -/
def Kind.parentSlot? : (parent k : Kind) → Option (ParentSlot k)
  | .service, .route =>
    some ⟨fun r : Route => r.service, fun fk r => { r with service := some fk }, fun _ _ => rfl⟩
  | .service, .plugin =>
    some ⟨fun p : Plugin => p.service, fun fk p => { p with service := some fk }, fun _ _ => rfl⟩
  | .route, .plugin =>
    some ⟨fun p : Plugin => p.route, fun fk p => { p with route := some fk }, fun _ _ => rfl⟩
  | .consumer, .plugin =>
    some ⟨fun p : Plugin => p.consumer, fun fk p => { p with consumer := some fk }, fun _ _ => rfl⟩
  | .consumerGroup, .plugin =>
    some ⟨fun p : Plugin => p.consumerGroup, fun fk p => { p with consumerGroup := some fk },
      fun _ _ => rfl⟩
  | .upstream, .target =>
    some ⟨fun t : Target => t.upstream, fun fk t => { t with upstream := some fk }, fun _ _ => rfl⟩
  | .certificate, .sni =>
    some ⟨fun n : Sni => n.certificate, fun fk n => { n with certificate := some fk },
      fun _ _ => rfl⟩
  | .keySet, .key =>
    some ⟨fun k : Key => k.keySet, fun fk k => { k with keySet := some fk }, fun _ _ => rfl⟩
  | .role, .permission =>
    some ⟨fun p : Permission => p.role, fun fk p => { p with role := some fk }, fun _ _ => rfl⟩
  | .consumer, .membership =>
    some ⟨fun m : Membership => some m.consumer, fun fk m => { m with consumer := fk },
      fun _ _ => rfl⟩
  | .consumerGroup, .membership =>
    some ⟨fun m : Membership => some m.consumerGroup, fun fk m => { m with consumerGroup := fk },
      fun _ _ => rfl⟩
  | _, _ => none

/-- An object with the reference to a parent in the place for it. -/
def Detail.settle {k : Kind} (fk : ForeignKey) (parent : Kind) (d : Detail k) : Detail k :=
  match Kind.parentSlot? parent k with
  | some slot => slot.put fk d
  | none => d

/-- An object under an entity, or at the top. -/
def Resource.settle {k : Kind} (r : Resource k) : Option Entity → Resource k
  | none => r
  | some p => { r with detail := Detail.settle p.pointer p.kind r.detail }

/-- An entity goes by a name: most kinds by the one they have, a consumer by either of two, and a
certificate by none. -/
def Entity.GoesBy : Entity → String → Prop
  | ⟨.service, r⟩, name => r.detail.name = some name
  | ⟨.route, r⟩, name => r.detail.name = some name
  | ⟨.consumer, r⟩, name => r.detail.username = some name ∨ r.detail.customId = some name
  | ⟨.consumerGroup, r⟩, name => r.detail.name = some name
  | ⟨.upstream, r⟩, name => r.detail.name = some name
  | ⟨.keySet, r⟩, name => r.detail.name = some name
  | ⟨.role, r⟩, name => r.detail.name = name
  | _, _ => False

/-- What a reference can be that is declared under an entity: a bare one with the id of the entity,
or without id and with a name of the entity, or with neither. -/
structure Entity.Admits (p : Entity) (fk : ForeignKey) : Prop where
  bare : fk.extra = []
  means : (∃ id, fk.id = some id ∧ p.id? = some id) ∨
    fk.id = none ∧ ∀ name ∈ fk.name, p.GoesBy name

/-- A reference that says nothing can be declared under every entity. -/
theorem Entity.admits_unqualified (p : Entity) : p.Admits .unqualified :=
  ⟨rfl, .inr ⟨rfl, by rintro _ ⟨⟩⟩⟩

namespace Nested

/-- The flat form of a declaration: with the reference to what encloses it. -/
def settled (n : Nested) : Entity := (n.entity.resource.settle n.under).toEntity

/-- What a declaration says of a parent, if anything, can stay under what encloses it. -/
def Fits (n : Nested) : Prop :=
  ∀ p ∈ n.under, ∀ slot ∈ Kind.parentSlot? p.kind n.entity.kind,
    ∀ fk ∈ slot.get n.entity.resource.detail, p.Admits fk

/-- There is a place for the reference to what encloses the declaration. -/
def Placed (n : Nested) : Prop :=
  ∀ p ∈ n.under, ∃ slot, Kind.parentSlot? p.kind n.entity.kind = some slot

/-- In its flat form a declaration refers to what encloses it. -/
theorem get_settled {n : Nested} {p : Entity} (hp : n.under = some p)
    {slot : ParentSlot n.entity.kind} (hslot : Kind.parentSlot? p.kind n.entity.kind = some slot) :
    slot.get n.settled.resource.detail = some p.pointer := by
  obtain ⟨e, under⟩ := n
  cases hp
  change slot.get (Detail.settle p.pointer p.kind e.resource.detail) = some p.pointer
  unfold Detail.settle
  rw [hslot]
  exact slot.get_put _ _

/-- What stands on its own always fits. -/
theorem fits_of_top (e : Entity) : (⟨e, none⟩ : Nested).Fits := by
  rintro p ⟨⟩

/-- Declarations of one kind, under an entity or at the top. -/
def all (under : Option Entity) {k : Kind} (rs : List (Resource k)) : List Nested :=
  rs.map fun r => ⟨r.toEntity, under⟩

end Nested

/-! ### Listings -/

/-- The memberships of a consumer, as it lists its groups. -/
def ConsumerDecl.memberships (d : ConsumerDecl) : List (Resource .membership) :=
  d.groups.map fun group => .ofDetail .membership none ⟨group, .unqualified⟩

/-- The name of a consumer that a group lists by the text of `username` or `custom_id`, which is
then all that stands there beside an id. -/
def ForeignKey.listedName? (fk : ForeignKey) : Option String :=
  match fk.name, fk.extra with
  | none, [("username", .str name)] => some name
  | none, [("custom_id", .str name)] => some name
  | _, _ => none

/-- A consumer that a group lists: what is written as `username` or `custom_id` is its name. -/
def ForeignKey.listed (fk : ForeignKey) : ForeignKey :=
  match fk.listedName? with
  | some name => ⟨fk.id, some name, []⟩
  | none => fk

/-- The memberships of a group, as it lists its consumers. -/
def ConsumerGroupDecl.memberships (d : ConsumerGroupDecl) : List (Resource .membership) :=
  d.consumers.map fun consumer => .ofDetail .membership none ⟨.unqualified, consumer.listed⟩

/-- An object behind what is nested under it. -/
def Resource.behind {k : Kind} (r : Resource k) (under : Option Entity) (ns : List Nested) :
    List Nested :=
  ns ++ [⟨r.toEntity, under⟩]

/-- The declaration of a route, and what is nested in it. -/
def RouteDecl.listing (under : Option Entity) (d : RouteDecl) : List Nested :=
  d.route.behind under (all d.route.toEntity d.plugins)

/-- The declaration of a service, and what is nested in it. -/
def ServiceDecl.listing (d : ServiceDecl) : List Nested :=
  d.service.behind none (d.routes.flatMap (RouteDecl.listing d.service.toEntity) ++
    all d.service.toEntity d.plugins)

/-- The declaration of a consumer, and what is nested in it. -/
def ConsumerDecl.listing (d : ConsumerDecl) : List Nested :=
  d.consumer.behind none (all d.consumer.toEntity d.plugins ++
    all d.consumer.toEntity d.memberships)

/-- The declaration of a consumer-group, and what is nested in it. -/
def ConsumerGroupDecl.listing (d : ConsumerGroupDecl) : List Nested :=
  d.group.behind none (all d.group.toEntity d.plugins ++ all d.group.toEntity d.memberships)

/-- The declaration of an upstream, and what is nested in it. -/
def UpstreamDecl.listing (d : UpstreamDecl) : List Nested :=
  d.upstream.behind none (all d.upstream.toEntity d.targets)

/-- The declaration of a certificate, and what is nested in it. -/
def CertificateDecl.listing (d : CertificateDecl) : List Nested :=
  d.certificate.behind none (all d.certificate.toEntity d.snis)

/-- The declaration of a set of keys, and what is nested in it. -/
def KeySetDecl.listing (d : KeySetDecl) : List Nested :=
  d.keySet.behind none (all d.keySet.toEntity d.keys)

/-- The declaration of a role, and what is nested in it. -/
def RoleDecl.listing (d : RoleDecl) : List Nested :=
  d.role.behind none (all d.role.toEntity d.permissions)

namespace Content

/-- All declarations, in the order in which they are flattened. -/
def listing (c : Content) : List Nested :=
  c.services.flatMap ServiceDecl.listing ++ c.routes.flatMap (RouteDecl.listing none) ++
    c.consumers.flatMap ConsumerDecl.listing ++
    c.consumerGroups.flatMap ConsumerGroupDecl.listing ++
    c.upstreams.flatMap UpstreamDecl.listing ++ c.certificates.flatMap CertificateDecl.listing ++
    c.keySets.flatMap KeySetDecl.listing ++ c.roles.flatMap RoleDecl.listing ++
    c.plainEntities.map fun e => ⟨e, none⟩

/-- All declarations of a kind: nested ones in the order of their parents, then those at the top. -/
def listingOf (c : Content) : Kind → List Nested
  | .service => all none (c.services.map (·.service))
  | .route =>
    c.services.flatMap (fun d => all d.service.toEntity (d.routes.map (·.route))) ++
      all none (c.routes.map (·.route))
  | .plugin =>
    c.services.flatMap (fun d => d.routes.flatMap (fun r => all r.route.toEntity r.plugins) ++
      all d.service.toEntity d.plugins) ++
      c.routes.flatMap (fun d => all d.route.toEntity d.plugins) ++
      c.consumers.flatMap (fun d => all d.consumer.toEntity d.plugins) ++
      c.consumerGroups.flatMap (fun d => all d.group.toEntity d.plugins) ++ all none c.plugins
  | .consumer => all none (c.consumers.map (·.consumer))
  | .consumerGroup => all none (c.consumerGroups.map (·.group))
  | .membership =>
    c.consumers.flatMap (fun d => all d.consumer.toEntity d.memberships) ++
      c.consumerGroups.flatMap (fun d => all d.group.toEntity d.memberships)
  | .upstream => all none (c.upstreams.map (·.upstream))
  | .target =>
    c.upstreams.flatMap (fun d => all d.upstream.toEntity d.targets) ++ all none c.targets
  | .certificate => all none (c.certificates.map (·.certificate))
  | .sni => c.certificates.flatMap (fun d => all d.certificate.toEntity d.snis) ++ all none c.snis
  | .caCertificate => all none c.caCertificates
  | .vault => all none c.vaults
  | .keySet => all none (c.keySets.map (·.keySet))
  | .key => c.keySets.flatMap (fun d => all d.keySet.toEntity d.keys) ++ all none c.keys
  | .partialConfig => all none c.partials
  | .license => all none c.licenses
  | .role => all none (c.roles.map (·.role))
  | .permission =>
    c.roles.flatMap (fun d => all d.role.toEntity d.permissions) ++ all none c.permissions
  | .custom => all none c.customObjects

/-! ### Kind by kind -/

/-- Children of one kind are all of a kind, or none is. -/
theorem filter_all (k : Kind) (under : Option Entity) {kind : Kind} (rs : List (Resource kind)) :
    (all under rs).filter (·.entity.kind = k) = if kind = k then all under rs else [] := by
  have hkind : ∀ n ∈ all under rs, n.entity.kind = kind := by
    intro n hn
    obtain ⟨r, -, rfl⟩ := List.mem_map.1 hn
    rfl
  split
  · rename_i hk
    exact List.filter_eq_self.2 fun n hn => decide_eq_true ((hkind n hn).trans hk)
  · rename_i hk
    refine List.filter_eq_nil_iff.2 fun n hn => ?_
    rw [hkind n hn]
    simpa using hk

/-- The same of objects that stand on their own. -/
theorem filter_top (k : Kind) {kind : Kind} (rs : List (Resource kind)) :
    ((rs.map Resource.toEntity).map fun e => (⟨e, none⟩ : Nested)).filter (·.entity.kind = k) =
      if kind = k then all none rs else [] := by
  rw [List.map_map]
  exact filter_all k none rs

/-- The same of one object. -/
theorem filter_singleton (k : Kind) (under : Option Entity) {kind : Kind} (r : Resource kind) :
    [(⟨r.toEntity, under⟩ : Nested)].filter (·.entity.kind = k) =
      if kind = k then [⟨r.toEntity, under⟩] else [] :=
  filter_all k under [r]

/-- The declarations of a kind are those of this kind among all declarations. -/
theorem filter_listing (c : Content) (k : Kind) :
    c.listing.filter (·.entity.kind = k) = c.listingOf k := by
  unfold listing plainEntities
  simp only [List.filter_append, List.filter_flatMap, List.map_append, filter_top,
    ServiceDecl.listing, RouteDecl.listing, ConsumerDecl.listing, ConsumerGroupDecl.listing,
    UpstreamDecl.listing, CertificateDecl.listing, KeySetDecl.listing, RoleDecl.listing,
    Resource.behind, filter_all, filter_singleton]
  have nothing : ∀ {α : Type} (l : List α), l.flatMap (fun _ => ([] : List Nested)) = [] :=
    fun l => List.flatMap_eq_nil_iff.2 fun _ _ => rfl
  cases k <;> simp [listingOf, all, List.map_eq_flatMap, List.flatMap_assoc, nothing]

/-- The listing of a kind has of all declarations those that are of it. -/
theorem mem_listingOf_iff {c : Content} {k : Kind} {n : Nested} :
    n ∈ c.listingOf k ↔ n ∈ c.listing ∧ n.entity.kind = k := by
  rw [← filter_listing, List.mem_filter, decide_eq_true_iff]

end Content

/-! ### What encloses others -/

/-- Each declaration is directly under the given entity, or under one of the list. -/
def Nested.Closed (under : Option Entity) (ns : List Nested) : Prop :=
  ∀ n ∈ ns, n.under = under ∨ ∃ m ∈ ns, n.under = some m.entity

namespace Nested.Closed

variable {under : Option Entity} {ns ms : List Nested}

/-- Children of one kind are closed under their parent. -/
theorem all {k : Kind} (rs : List (Resource k)) : Closed under (Nested.all under rs) := by
  intro n hn
  obtain ⟨r, -, rfl⟩ := List.mem_map.1 hn
  exact .inl rfl

/-- Two lists under one parent make one. -/
theorem append (h : Closed under ns) (h' : Closed under ms) : Closed under (ns ++ ms) := by
  intro n hn
  rcases List.mem_append.1 hn with hn | hn
  · exact (h n hn).imp_right fun ⟨m, hm, hunder⟩ => ⟨m, List.mem_append_left _ hm, hunder⟩
  · exact (h' n hn).imp_right fun ⟨m, hm, hunder⟩ => ⟨m, List.mem_append_right _ hm, hunder⟩

/-- So do many. -/
theorem flatMap {α : Type} {f : α → List Nested} (h : ∀ a, Closed under (f a)) (as : List α) :
    Closed under (as.flatMap f) := by
  intro n hn
  obtain ⟨a, ha, hn⟩ := List.mem_flatMap.1 hn
  exact (h a n hn).imp_right fun ⟨m, hm, hunder⟩ => ⟨m, List.mem_flatMap.2 ⟨a, ha, hm⟩, hunder⟩

/-- An object stands behind what is nested under it. -/
theorem behind {k : Kind} {r : Resource k} (h : Closed (some r.toEntity) ns) :
    Closed under (r.behind under ns) := by
  intro n hn
  rcases List.mem_append.1 hn with hn | hn
  · right
    rcases h n hn with hunder | ⟨m, hm, hunder⟩
    · exact ⟨⟨r.toEntity, under⟩, by simp [Resource.behind], hunder⟩
    · exact ⟨m, List.mem_append_left _ hm, hunder⟩
  · cases List.mem_singleton.1 hn
    exact .inl rfl

end Nested.Closed

/-- What encloses a declaration of a document is declared in the document itself. -/
theorem Content.closed_listing (c : Content) : Closed none c.listing := by
  have hroute : ∀ under d, Closed under (RouteDecl.listing under d) :=
    fun _ _ => (Closed.all _).behind
  refine Closed.append (.append (.append (.append (.append (.append (.append (.append ?_ ?_) ?_) ?_)
    ?_) ?_) ?_) ?_) ?_
  · exact .flatMap (fun d => ((Closed.flatMap (hroute _) _).append (.all _)).behind) _
  · exact .flatMap (hroute none) _
  · exact .flatMap (fun d => ((Closed.all _).append (.all _)).behind) _
  · exact .flatMap (fun d => ((Closed.all _).append (.all _)).behind) _
  · exact .flatMap (fun d => (Closed.all _).behind) _
  · exact .flatMap (fun d => (Closed.all _).behind) _
  · exact .flatMap (fun d => (Closed.all _).behind) _
  · exact .flatMap (fun d => (Closed.all _).behind) _
  · intro n hn
    obtain ⟨e, -, rfl⟩ := List.mem_map.1 hn
    exact .inl rfl

/-! ### Places for what encloses others -/

namespace Nested.Placed

/-- What stands on its own needs no slot. -/
theorem top (e : Entity) : (⟨e, none⟩ : Nested).Placed := by
  rintro p ⟨⟩

/-- A child has a slot where its kind has one for that of its parent. -/
theorem under {parent k : Kind} {p : Resource parent} (r : Resource k)
    (hslot : (Kind.parentSlot? parent k).isSome) :
    (⟨r.toEntity, some p.toEntity⟩ : Nested).Placed := by
  rintro q ⟨⟩
  exact Option.isSome_iff_exists.1 hslot

/-- The same of all children of one kind. -/
theorem all {parent k : Kind} {p : Resource parent} {rs : List (Resource k)}
    (hslot : (Kind.parentSlot? parent k).isSome) : ∀ n ∈ Nested.all p.toEntity rs, n.Placed := by
  intro n hn
  obtain ⟨r, -, rfl⟩ := List.mem_map.1 hn
  exact under r hslot

/-- An object may come before what is nested in it. -/
theorem behind {k : Kind} {r : Resource k} {encloses : Option Entity} {ns : List Nested}
    (hns : ∀ n ∈ ns, n.Placed) (hr : (⟨r.toEntity, encloses⟩ : Nested).Placed) :
    ∀ n ∈ r.behind encloses ns, n.Placed :=
  List.forall_mem_append.2 ⟨hns, List.forall_mem_singleton.2 hr⟩

end Nested.Placed

/-- Whatever is nested in a document has a place for the reference to its parent. -/
theorem Content.placed_listing (c : Content) : ∀ n ∈ c.listing, n.Placed := by
  simp only [listing, List.forall_mem_append, List.forall_mem_flatMap]
  refine ⟨⟨⟨⟨⟨⟨⟨⟨fun d _ => ?_, fun d _ => ?_⟩, fun d _ => ?_⟩, fun d _ => ?_⟩, fun d _ => ?_⟩,
    fun d _ => ?_⟩, fun d _ => ?_⟩, fun d _ => ?_⟩, fun n hn => ?_⟩
  · refine Placed.behind (List.forall_mem_append.2 ⟨?_, Placed.all rfl⟩) (.top _)
    exact List.forall_mem_flatMap.2 fun r _ => Placed.behind (Placed.all rfl) (.under r.route rfl)
  · exact Placed.behind (Placed.all rfl) (.top _)
  · exact Placed.behind (List.forall_mem_append.2 ⟨Placed.all rfl, Placed.all rfl⟩) (.top _)
  · exact Placed.behind (List.forall_mem_append.2 ⟨Placed.all rfl, Placed.all rfl⟩) (.top _)
  · exact Placed.behind (Placed.all rfl) (.top _)
  · exact Placed.behind (Placed.all rfl) (.top _)
  · exact Placed.behind (Placed.all rfl) (.top _)
  · exact Placed.behind (Placed.all rfl) (.top _)
  · obtain ⟨e, -, rfl⟩ := List.mem_map.1 hn
    exact .top e

end Gateway
