import Gateway.Content.Flat
import Gateway.Proofs.Planning

/-!
# What is nested under what

A flat list of declarations does not tell which of them was nested under which. `Content.nestings`
is flattening that tells it: the same entities in the same order (`Content.flatten_eq`), each with
the entity of the declaration that encloses it. What encloses others stands in the list itself, and
is what the one reference of its kind is to that the nested declaration makes
(`Content.sited_nestings`).
-/

namespace Gateway

open Planning

/-! ### Flattening that tells what is nested -/

/-- A declared entity, and the entity of the declaration that it is nested under. -/
structure Nested where
  entity : Entity
  under : Option Entity

/-- Entities that are nested directly under another one. -/
def Nested.allUnder (parent : Entity) (es : List Entity) : List Nested :=
  es.map fun e => ⟨e, some parent⟩

/-- An object behind what is nested under it, as in `flattenNested`. -/
def Resource.nestings {k : Kind} (r : Resource k) (under : Option Entity) (empty : Bool)
    (nested : Enclosing → Entity → Planning (List Nested)) : Planning (List Nested) := do
  if empty then return [⟨r.toEntity, under⟩]
  else
    let (p, r) ← r.enclose
    return (← nested p r.toEntity) ++ [⟨r.toEntity, under⟩]

/-- The declaration of a route, possibly under a service. -/
def RouteDecl.nestings (service : Option (Enclosing × Entity)) (d : RouteDecl) :
    Planning (List Nested) := do
  let route ← match service with
    | some (p, _) => p.attach d.route
    | none => pure d.route
  route.nestings (service.map (·.2)) d.plugins.isEmpty fun p e => do
    let plugins ← p.attachAll d.plugins
    return Nested.allUnder e plugins

/-- The declaration of a service. -/
def ServiceDecl.nestings (d : ServiceDecl) : Planning (List Nested) :=
  d.service.nestings none (d.routes.isEmpty && d.plugins.isEmpty) fun p e => do
    let routes ← d.routes.mapM (RouteDecl.nestings (some (p, e)))
    let plugins ← p.attachAll d.plugins
    return routes.flatten ++ Nested.allUnder e plugins

/-- The declaration of a consumer. -/
def ConsumerDecl.nestings (d : ConsumerDecl) : Planning (List Nested) :=
  d.consumer.nestings none (d.plugins.isEmpty && d.groups.isEmpty) fun p e => do
    let plugins ← p.attachAll d.plugins
    return Nested.allUnder e
      (plugins ++ d.groups.map fun group => Membership.declared group p.reference)

/-- The declaration of a consumer-group. -/
def ConsumerGroupDecl.nestings (d : ConsumerGroupDecl) : Planning (List Nested) :=
  d.group.nestings none (d.plugins.isEmpty && d.consumers.isEmpty) fun p e => do
    let plugins ← p.attachAll d.plugins
    return Nested.allUnder e
      (plugins ++ d.consumers.map fun consumer =>
        Membership.declared p.reference consumer.ofMember)

/-- A declaration all of whose nested objects are of one kind. -/
def Resource.nestingsOf {k kind : Kind} (r : Resource k) (rs : List (Resource kind)) :
    Planning (List Nested) :=
  r.nestings none rs.isEmpty fun p e => do
    let es ← p.attachAll rs
    return Nested.allUnder e es

/-- All declared entities, each with what it is nested under. -/
def Content.nestings (c : Content) : Planning (List Nested) := do
  let services ← c.services.mapM ServiceDecl.nestings
  let routes ← c.routes.mapM (RouteDecl.nestings none)
  let consumers ← c.consumers.mapM ConsumerDecl.nestings
  let groups ← c.consumerGroups.mapM ConsumerGroupDecl.nestings
  let upstreams ← c.upstreams.mapM fun d => d.upstream.nestingsOf d.targets
  let certificates ← c.certificates.mapM fun d => d.certificate.nestingsOf d.snis
  let keySets ← c.keySets.mapM fun d => d.keySet.nestingsOf d.keys
  let roles ← c.roles.mapM fun d => d.role.nestingsOf d.permissions
  let nested := services ++ routes ++ consumers ++ groups ++ upstreams ++ certificates ++
    keySets ++ roles
  return nested.flatten ++ c.plainEntities.map fun e => ⟨e, none⟩

/-! ### The same entities in the same order -/

namespace Nested

/-- The entities alone. -/
def entities (ns : List Nested) : List Entity := ns.map Nested.entity

/-- The entities of two lists come one after the other. -/
@[simp] theorem entities_append (ns ms : List Nested) :
    entities (ns ++ ms) = entities ns ++ entities ms := List.map_append

/-- Children of one parent are listed as they are. -/
@[simp] theorem entities_allUnder (e : Entity) (es : List Entity) :
    entities (allUnder e es) = es := by
  simp [entities, allUnder, Function.comp_def]

/-- The entities of many lists come one after the other. -/
@[simp] theorem entities_flatten (nss : List (List Nested)) :
    entities nss.flatten = (nss.map entities).flatten := List.map_flatten

/-- Declarations with one parent, or none, are listed as they are. -/
@[simp] theorem entities_map_mk (es : List Entity) (under : Option Entity) :
    entities (es.map fun e => ⟨e, under⟩) = es := by
  simp [entities, Function.comp_def]

end Nested

open Nested

/-- An object is flattened alike when what is nested under it is. -/
theorem Resource.flattenNested_eq {k : Kind} (r : Resource k) (under : Option Entity)
    (empty : Bool) {flat : Enclosing → Planning (List Entity)}
    {nested : Enclosing → Entity → Planning (List Nested)}
    (h : ∀ p e, flat p = entities <$> nested p e) :
    r.flattenNested empty flat = entities <$> r.nestings under empty nested := by
  unfold flattenNested nestings
  split
  · rfl
  · rw [map_bind]
    refine bind_congr fun ⟨p, x⟩ => ?_
    simp only [h p x.toEntity, map_bind, bind_map_left, map_pure, entities_append]
    rfl

/-- What each declaration does alike, a list of them does alike. -/
theorem mapM_eq_map_entities {α : Type} {flat : α → Planning (List Entity)}
    {nested : α → Planning (List Nested)} (h : ∀ a, flat a = entities <$> nested a) (as : List α) :
    as.mapM flat = List.map entities <$> as.mapM nested := by
  induction as with
  | nil => rfl
  | cons a rest ih =>
    rw [List.mapM_cons, List.mapM_cons, ih, h a]
    simp only [map_bind, bind_map_left, map_pure, List.map_cons]

/-- Children are attached without their parent being looked at again. -/
theorem Enclosing.attachAll_eq (p : Enclosing) (e : Entity) {k : Kind} (rs : List (Resource k)) :
    (liftM (p.attachAll rs) : Planning (List Entity)) = entities <$> (do
      let es ← p.attachAll rs
      return allUnder e es) := by
  simp only [map_bind, map_pure, entities_allUnder, bind_pure]

/-- A route on its own is flattened into what is nested in it, parents apart. -/
theorem RouteDecl.flatten_top_eq (d : RouteDecl) :
    d.flatten none = entities <$> d.nestings none := by
  show (pure d.route >>= _ : Planning (List Entity)) = entities <$> (pure d.route >>= _)
  rw [map_bind]
  exact bind_congr fun route =>
    route.flattenNested_eq none _ fun p e => p.attachAll_eq e d.plugins

/-- The same of a route under a service. -/
theorem RouteDecl.flatten_eq (p : Enclosing) (e : Entity) (d : RouteDecl) :
    d.flatten (some p) = entities <$> d.nestings (some (p, e)) := by
  show (liftM (p.attach d.route) >>= _ : Planning (List Entity)) =
    entities <$> (liftM (p.attach d.route) >>= _)
  rw [map_bind]
  exact bind_congr fun route =>
    route.flattenNested_eq (some e) _ fun q x => q.attachAll_eq x d.plugins

/-- The same of a service, and of all that is nested in it. -/
theorem ServiceDecl.flatten_eq (d : ServiceDecl) : d.flatten = entities <$> d.nestings := by
  refine d.service.flattenNested_eq none _ fun p e => ?_
  rw [mapM_eq_map_entities (RouteDecl.flatten_eq p e)]
  simp only [map_bind, bind_map_left, map_pure, entities_append, entities_flatten,
    entities_allUnder]

/-- The same of a consumer. Memberships stand behind the plugins. -/
theorem ConsumerDecl.flatten_eq (d : ConsumerDecl) : d.flatten = entities <$> d.nestings := by
  refine d.consumer.flattenNested_eq none _ fun p e => ?_
  simp only [map_bind, map_pure, entities_allUnder]

/-- The same of a group. Memberships stand behind the plugins. -/
theorem ConsumerGroupDecl.flatten_eq (d : ConsumerGroupDecl) :
    d.flatten = entities <$> d.nestings := by
  refine d.group.flattenNested_eq none _ fun p e => ?_
  simp only [map_bind, map_pure, entities_allUnder]

/-- The same of an object with children of one kind. -/
theorem Resource.flatten_eq {k kind : Kind} (r : Resource k) (rs : List (Resource kind)) :
    r.flattenNested rs.isEmpty (fun p => p.attachAll rs) = entities <$> r.nestingsOf rs :=
  r.flattenNested_eq none _ fun p e => p.attachAll_eq e rs

/-- Flattening and flattening that tells what is nested are one. -/
theorem Content.flatten_eq (c : Content) : c.flatten = entities <$> c.nestings := by
  unfold flatten nestings
  rw [mapM_eq_map_entities ServiceDecl.flatten_eq, mapM_eq_map_entities RouteDecl.flatten_top_eq,
    mapM_eq_map_entities ConsumerDecl.flatten_eq, mapM_eq_map_entities ConsumerGroupDecl.flatten_eq,
    @mapM_eq_map_entities _ UpstreamDecl.flatten _ fun d => d.upstream.flatten_eq d.targets,
    @mapM_eq_map_entities _ CertificateDecl.flatten _ fun d => d.certificate.flatten_eq d.snis,
    @mapM_eq_map_entities _ KeySetDecl.flatten _ fun d => d.keySet.flatten_eq d.keys,
    @mapM_eq_map_entities _ RoleDecl.flatten _ fun d => d.role.flatten_eq d.permissions]
  simp only [map_bind, bind_map_left, map_pure, entities_append, entities_flatten,
    entities_map_mk, List.map_append]

/-! ### Parents -/

/-- Whether objects of a kind may be declared under objects of another kind. -/
def Kind.encloses : Kind → Kind → Bool
  | .service, .route | .service, .plugin | .route, .plugin | .consumer, .plugin
  | .consumer, .membership | .consumerGroup, .plugin | .consumerGroup, .membership
  | .upstream, .target | .certificate, .sni | .keySet, .key | .role, .permission => true
  | _, _ => false

/-- What encloses others can be referred to, is created before them, and is no shared
configuration. -/
theorem Kind.of_encloses {parent kind : Kind} (h : parent.encloses kind = true) :
    Entity.isReferable parent = true ∧ parent.rank < kind.rank ∧ parent ≠ .partialConfig := by
  have hall : ∀ parent ∈ creationOrder, ∀ kind ∈ creationOrder, parent.encloses kind = true →
      Entity.isReferable parent = true ∧ parent.rank < kind.rank ∧ parent ≠ .partialConfig := by
    decide +kernel
  exact hall parent parent.mem_creationOrder kind kind.mem_creationOrder h

/-- A declaration makes one reference of the kind of another, to the id of that other. -/
structure Entity.DeclaredUnder (e parent : Entity) : Prop where
  encloses : parent.kind.encloses e.kind = true
  link : ∃ id, parent.id? = some id ∧
    e.links.filter (·.1 = parent.kind) = [(parent.kind, .byId id)]

/-- An enclosing object and its entity. -/
structure Enclosing.Denotes (p : Enclosing) (e : Entity) : Prop where
  kind : e.kind = p.kind
  id : e.id? = some p.id

/-- The reference that is attached is the only one of its kind. -/
theorem Detail.filter_links_withParent {parent kind : Kind} (h : parent.encloses kind = true)
    (hne : kind ≠ .membership) (fk : ForeignKey) (d : Detail kind) :
    (links kind (withParent fk parent kind d)).filter (·.1 = parent) = [(parent, fk)] := by
  cases parent <;> cases kind <;> first
    | (cases h; done)
    | exact absurd rfl hne
    | simp [links, withParent, List.filter_append, List.filter_map, Function.comp_def]

/-- Where nested declarations come from: each is declared under something, which is the given entity
or stands in the list itself. -/
structure Sited (under : Option Entity) (ns : List Nested) : Prop where
  declared : ∀ n ∈ ns, ∀ p ∈ n.under, n.entity.DeclaredUnder p
  sited : ∀ n ∈ ns, n.under = under ∨ ∃ m ∈ ns, n.under = some m.entity

namespace Sited

variable {under : Option Entity} {ns ms : List Nested} {e : Entity} {es : List Entity}

/-- Two lists under one parent make one. -/
theorem append (h : Sited under ns) (h' : Sited under ms) : Sited under (ns ++ ms) where
  declared n hn := by
    rcases List.mem_append.1 hn with hn | hn
    · exact h.declared n hn
    · exact h'.declared n hn
  sited n hn := by
    rcases List.mem_append.1 hn with hn | hn
    · exact (h.sited n hn).imp_right fun ⟨m, hm, hunder⟩ => ⟨m, List.mem_append_left _ hm, hunder⟩
    · exact (h'.sited n hn).imp_right fun ⟨m, hm, hunder⟩ => ⟨m, List.mem_append_right _ hm, hunder⟩

/-- So do many. -/
theorem flatten {nss : List (List Nested)} (h : ∀ ns ∈ nss, Sited under ns) :
    Sited under nss.flatten := by
  induction nss with
  | nil => exact ⟨by simp, by simp⟩
  | cons ns rest ih =>
    rw [List.flatten_cons]
    exact (h ns List.mem_cons_self).append (ih fun ms hms => h ms (List.mem_cons_of_mem _ hms))

/-- Children of one parent are a list under it. -/
theorem allUnder (h : ∀ x ∈ es, x.DeclaredUnder e) : Sited (some e) (allUnder e es) where
  declared n hn p hp := by
    obtain ⟨x, hx, rfl⟩ := List.mem_map.1 hn
    cases hp
    exact h x hx
  sited n hn := by
    obtain ⟨x, -, rfl⟩ := List.mem_map.1 hn
    exact .inl rfl

/-- An entity stands behind what is declared under it. -/
theorem enclose (h : Sited (some e) ns) (he : ∀ p ∈ under, e.DeclaredUnder p) :
    Sited under (ns ++ [⟨e, under⟩]) where
  declared n hn := by
    rcases List.mem_append.1 hn with hn | hn
    · exact h.declared n hn
    · cases List.mem_singleton.1 hn
      exact he
  sited n hn := by
    rcases List.mem_append.1 hn with hn | hn
    · right
      rcases h.sited n hn with hunder | ⟨m, hm, hunder⟩
      · exact ⟨⟨e, under⟩, by simp, hunder⟩
      · exact ⟨m, List.mem_append_left _ hm, hunder⟩
    · cases List.mem_singleton.1 hn
      exact .inl rfl

end Sited

section

variable {k kind : Kind} {r x : Resource kind} {rs : List (Resource kind)} {p : Enclosing}
  {e : Entity} {es : List Entity} {under : Option Entity} {s s' : IdSupply} {ns : List Nested}

/-- What refers to an enclosing object, and to nothing else of its kind, is declared under it. -/
theorem Enclosing.Denotes.declaredUnder {y : Entity} (h : p.Denotes e)
    (hk : p.kind.encloses y.kind = true)
    (hlink : y.links.filter (·.1 = p.kind) = [(p.kind, p.reference)]) : y.DeclaredUnder e := by
  rw [← h.kind] at hk hlink
  exact ⟨hk, p.id, h.id, hlink⟩

/-- What is attached to an enclosing object is declared under it. -/
theorem Enclosing.Denotes.attach (h : p.Denotes e) (hk : p.kind.encloses kind = true)
    (hne : kind ≠ .membership) (hx : p.attach r = .ok x) : x.toEntity.DeclaredUnder e := by
  obtain ⟨⟨⟩, -, hx⟩ := Except.bind_eq_ok_iff.1 hx
  cases hx
  exact h.declaredUnder hk (Detail.filter_links_withParent hk hne p.reference r.detail)

/-- What is attached to a parent is declared under it, memberships apart, which are not attached. -/
theorem Enclosing.Denotes.attachAll (h : p.Denotes e) (hk : p.kind.encloses kind = true)
    (hne : kind ≠ .membership) (hes : p.attachAll rs = .ok es) : ∀ y ∈ es, y.DeclaredUnder e := by
  intro y hy
  obtain ⟨r, -, hr⟩ := (Except.mapM_eq_ok_iff.1 hes).exists_of_mem_right hy
  obtain ⟨x, hx, hr⟩ := Except.bind_eq_ok_iff.1 hr
  cases hr
  exact h.attach hk hne hx

/-- What is opened to enclose others gets an id, and stays as it is otherwise. -/
theorem Resource.denotes_of_enclose (h : Yields r.enclose s (p, x) s') :
    p.Denotes x.toEntity ∧ p.kind = kind ∧ x.detail = r.detail := by
  unfold enclose at h
  cases hid : r.id with
  | some id =>
    simp only [hid, pure_bind, yields_pure, Prod.mk.injEq] at h
    obtain ⟨⟨rfl, rfl⟩, -⟩ := h
    exact ⟨⟨rfl, rfl⟩, rfl, rfl⟩
  | none =>
    simp only [hid, yields_bind, yields_pure, Prod.mk.injEq] at h
    obtain ⟨id, t, -, ⟨rfl, rfl⟩, -⟩ := h
    exact ⟨⟨rfl, rfl⟩, rfl, rfl⟩

/-- An object and all that is nested in it stand under what the object stands under. -/
theorem Resource.sited_nestings {empty : Bool}
    {nested : Enclosing → Entity → Planning (List Nested)}
    (hunder : ∀ p ∈ under, r.toEntity.DeclaredUnder p)
    (hnested : ∀ p e s ms s', p.Denotes e → p.kind = kind → Yields (nested p e) s ms s' →
      Sited (some e) ms)
    (h : Yields (r.nestings under empty nested) s ns s') : Sited under ns := by
  unfold nestings at h
  split at h
  · obtain ⟨rfl, -⟩ := yields_pure.1 h
    refine ⟨fun n hn => ?_, fun n hn => ?_⟩
    · cases List.mem_singleton.1 hn
      exact hunder
    · cases List.mem_singleton.1 hn
      exact .inl rfl
  · simp only [yields_bind, yields_pure] at h
    obtain ⟨⟨p, x⟩, t, hopen, ms, t', hms, rfl, rfl⟩ := h
    obtain ⟨hdenotes, hk, hdetail⟩ := denotes_of_enclose hopen
    refine (hnested _ _ _ _ _ hdenotes hk hms).enclose fun q hq => ?_
    obtain ⟨hencloses, hlink⟩ := hunder q hq
    refine ⟨hencloses, ?_⟩
    rw [show x.toEntity.links = r.toEntity.links from congrArg (Detail.links kind) hdetail]
    exact hlink

/-- What is attached to an enclosing object in one go. -/
theorem Enclosing.Denotes.sited_attachAll (h : p.Denotes e) (hk : p.kind.encloses kind = true)
    (hne : kind ≠ .membership)
    (hns : Yields (do let es ← p.attachAll rs; return allUnder e es) s ns s') :
    Sited (some e) ns := by
  simp only [yields_bind, yields_lift, yields_pure] at hns
  obtain ⟨es, t, ⟨hes, -⟩, rfl, -⟩ := hns
  exact .allUnder (h.attachAll hk hne hes)

/-- Plugins and memberships under an enclosing object. -/
theorem Enclosing.Denotes.sited_members {plugins : List (Resource .plugin)} {members : List Entity}
    (h : p.Denotes e) (hk : p.kind.encloses .plugin = true) (hes : p.attachAll plugins = .ok es)
    (hmembers : ∀ y ∈ members, p.kind.encloses y.kind = true ∧
      y.links.filter (·.1 = p.kind) = [(p.kind, p.reference)]) :
    Sited (some e) (allUnder e (es ++ members)) := by
  refine .allUnder fun y hy => ?_
  rcases List.mem_append.1 hy with hy | hy
  · exact h.attachAll hk (by simp) hes y hy
  · obtain ⟨hencloses, hlink⟩ := hmembers y hy
    exact h.declaredUnder hencloses hlink

/-- The same of an object with children of one kind. -/
theorem Resource.sited_nestingsOf {r : Resource k} (hk : k.encloses kind = true)
    (hne : kind ≠ .membership) (h : Yields (r.nestingsOf rs) s ns s') : Sited none ns := by
  refine sited_nestings (by simp) (fun p e t ms t' hp hpk hms => ?_) h
  cases hpk
  exact hp.sited_attachAll hk hne hms

/-- A route on its own and its plugins come from one another. -/
theorem RouteDecl.sited_top_nestings {d : RouteDecl} (h : Yields (d.nestings none) s ns s') :
    Sited none ns := by
  change Yields (pure d.route >>= _) s ns s' at h
  rw [pure_bind] at h
  refine Resource.sited_nestings (by simp) (fun q x t ms t' hq hqk hms => ?_) h
  exact hq.sited_attachAll (by rw [hqk]; rfl) (by simp) hms

/-- A route under a service and its plugins come from the service. -/
theorem RouteDecl.sited_nestings {d : RouteDecl} (hp : p.Denotes e) (hk : p.kind = .service)
    (h : Yields (d.nestings (some (p, e))) s ns s') : Sited (some e) ns := by
  change Yields (liftM (p.attach d.route) >>= _) s ns s' at h
  simp only [yields_bind, yields_lift] at h
  obtain ⟨route, t, ⟨hroute, rfl⟩, h⟩ := h
  refine Resource.sited_nestings (fun q hq => ?_) (fun q x t ms t' hq hqk hms => ?_) h
  · cases hq
    exact hp.attach (by rw [hk]; rfl) (by simp) hroute
  · exact hq.sited_attachAll (by rw [hqk]; rfl) (by simp) hms

/-- A service, its routes and their plugins come from one another. -/
theorem ServiceDecl.sited_nestings {d : ServiceDecl} (h : Yields d.nestings s ns s') :
    Sited none ns := by
  refine Resource.sited_nestings (by simp) (fun p e t ms t' hp hpk hms => ?_) h
  simp only [yields_bind, yields_lift, yields_pure] at hms
  obtain ⟨nss, t₁, hroutes, es, t₂, ⟨hplugins, rfl⟩, rfl, rfl⟩ := hms
  refine (Sited.flatten ?_).append (.allUnder (hp.attachAll (by rw [hpk]; rfl) (by simp) hplugins))
  exact forall_of_mapM (fun r _ _ _ _ hr => RouteDecl.sited_nestings hp hpk hr) hroutes

/-- A consumer, its plugins and its memberships come from one another. -/
theorem ConsumerDecl.sited_nestings {d : ConsumerDecl} (h : Yields d.nestings s ns s') :
    Sited none ns := by
  refine Resource.sited_nestings (by simp) (fun p e t ms t' hp hpk hms => ?_) h
  simp only [yields_bind, yields_lift, yields_pure] at hms
  obtain ⟨es, t₁, ⟨hplugins, rfl⟩, rfl, rfl⟩ := hms
  refine hp.sited_members (by rw [hpk]; rfl) hplugins ?_
  intro y hy
  obtain ⟨group, -, rfl⟩ := List.mem_map.1 hy
  rw [hpk]
  exact ⟨rfl, rfl⟩

/-- A group, its plugins and its members come from one another. -/
theorem ConsumerGroupDecl.sited_nestings {d : ConsumerGroupDecl} (h : Yields d.nestings s ns s') :
    Sited none ns := by
  refine Resource.sited_nestings (by simp) (fun p e t ms t' hp hpk hms => ?_) h
  simp only [yields_bind, yields_lift, yields_pure] at hms
  obtain ⟨es, t₁, ⟨hplugins, rfl⟩, rfl, rfl⟩ := hms
  refine hp.sited_members (by rw [hpk]; rfl) hplugins ?_
  intro y hy
  obtain ⟨consumer, -, rfl⟩ := List.mem_map.1 hy
  rw [hpk]
  exact ⟨rfl, rfl⟩

end

namespace Content

variable {c : Content} {ns : List Nested} {s s' : IdSupply}

/-- Whatever is declared under something refers to it, and that is declared itself. -/
theorem sited_nestings (h : Yields c.nestings s ns s') : Sited none ns := by
  unfold nestings at h
  simp only [yields_bind, yields_pure] at h
  obtain ⟨services, _, hservices, routes, _, hroutes, consumers, _, hconsumers, groups, _, hgroups,
    upstreams, _, hupstreams, certificates, _, hcertificates, keySets, _, hkeySets, roles, _,
    hroles, rfl, -⟩ := h
  refine (Sited.flatten fun ms hms => ?_).append ⟨by simp, by simp⟩
  simp only [List.mem_append] at hms
  rcases hms with (((((((hms | hms) | hms) | hms) | hms) | hms) | hms) | hms)
  · exact forall_of_mapM (fun d _ _ _ _ hd => ServiceDecl.sited_nestings hd) hservices ms hms
  · exact forall_of_mapM (fun d _ _ _ _ hd => RouteDecl.sited_top_nestings hd) hroutes ms hms
  · exact forall_of_mapM (fun d _ _ _ _ hd => ConsumerDecl.sited_nestings hd) hconsumers ms hms
  · exact forall_of_mapM (fun d _ _ _ _ hd => ConsumerGroupDecl.sited_nestings hd) hgroups ms hms
  · exact forall_of_mapM (fun d _ _ _ _ hd => Resource.sited_nestingsOf rfl (by simp) hd)
      hupstreams ms hms
  · exact forall_of_mapM (fun d _ _ _ _ hd => Resource.sited_nestingsOf rfl (by simp) hd)
      hcertificates ms hms
  · exact forall_of_mapM (fun d _ _ _ _ hd => Resource.sited_nestingsOf rfl (by simp) hd)
      hkeySets ms hms
  · exact forall_of_mapM (fun d _ _ _ _ hd => Resource.sited_nestingsOf rfl (by simp) hd)
      hroles ms hms

/-- Flattening yields the entities of what is declared. -/
theorem yields_flatten_iff {es : List Entity} :
    Yields c.flatten s es s' ↔ ∃ ns, Yields c.nestings s ns s' ∧ entities ns = es := by
  rw [flatten_eq, map_eq_pure_bind, yields_bind]
  constructor
  · rintro ⟨ns, t, hns, hes⟩
    obtain ⟨rfl, rfl⟩ := yields_pure.1 hes
    exact ⟨ns, hns, rfl⟩
  · rintro ⟨ns, hns, rfl⟩
    exact ⟨ns, s', hns, yields_pure.2 ⟨rfl, rfl⟩⟩

end Content

end Gateway
