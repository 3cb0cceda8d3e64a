import Gateway.Content
import Gateway.IdSupply

/-!
# Flat declarations

`Content.flatten` turns nested declarations into one list of entities. Every nested object gets a
reference to what encloses it; when it declares such a reference itself, this has to be a bare
reference to the same object. An enclosing object without id takes a fresh one, so that what is
nested under it can refer to it before it is known which object of the gateway it is.

Within each kind the list keeps the order of the document: nested objects in the order of their
parents, then those at the top.
-/

namespace Gateway

/-! ### Parents -/

/-- An object that encloses others. -/
structure Enclosing where
  kind : Kind
  id : String
  /-- What a reference may call it. -/
  names : List String
  deriving Repr

namespace Detail

/-- The names under which an enclosing object is known to what it encloses. -/
def names : (k : Kind) → Detail k → List String
  | .service, s => s.name.toList
  | .route, r => r.name.toList
  | .consumer, c => c.username.toList ++ c.customId.toList
  | .consumerGroup, g => g.name.toList
  | .upstream, u => u.name.toList
  | .keySet, s => s.name.toList
  | .role, r => [r.name]
  | _, _ => []

/-- The reference of an object to a parent of the given kind, where it can be nested under one. -/
def parent? : (parent k : Kind) → Detail k → Option ForeignKey
  | .service, .route, r => r.service
  | .service, .plugin, p => p.service
  | .route, .plugin, p => p.route
  | .consumer, .plugin, p => p.consumer
  | .consumerGroup, .plugin, p => p.consumerGroup
  | .upstream, .target, t => t.upstream
  | .certificate, .sni, s => s.certificate
  | .keySet, .key, k => k.keySet
  | .role, .permission, p => p.role
  | _, _, _ => none

/-- The same object with a reference to its parent of the given kind. -/
def withParent (fk : ForeignKey) : (parent k : Kind) → Detail k → Detail k
  | .service, .route, r => { r with service := some fk }
  | .service, .plugin, p => { p with service := some fk }
  | .route, .plugin, p => { p with route := some fk }
  | .consumer, .plugin, p => { p with consumer := some fk }
  | .consumerGroup, .plugin, p => { p with consumerGroup := some fk }
  | .upstream, .target, t => { t with upstream := some fk }
  | .certificate, .sni, s => { s with certificate := some fk }
  | .keySet, .key, k => { k with keySet := some fk }
  | .role, .permission, p => { p with role := some fk }
  | _, _, d => d

end Detail

namespace Enclosing

/-- The first name, else the id, for messages. -/
def label (p : Enclosing) : String := p.names.headD p.id

/-- The reference to the enclosing object. -/
def reference (p : Enclosing) : ForeignKey := .byId p.id

/-- Whether a reference can mean the enclosing object; one that says nothing can. -/
def isMeantBy (p : Enclosing) (fk : ForeignKey) : Bool :=
  match fk.id, fk.name with
  | some id, _ => id == p.id
  | none, some name => p.names.contains name
  | none, none => true

/-- Refuse a reference at a nested object that is not a bare one to the enclosing object. -/
def accept (p : Enclosing) (owner : String) : Option ForeignKey → Except PlanError Unit
  | none => .ok ()
  | some fk =>
    if !fk.isBare then .error (.nestedParent owner p.kind fk.label)
    else if !p.isMeantBy fk then .error (.exclusiveScope owner p.kind p.label fk.label)
    else .ok ()

/-- A nested object with the reference to what encloses it. -/
def attach (p : Enclosing) {k : Kind} (r : Resource k) : Except PlanError (Resource k) := do
  p.accept r.toEntity.describe (Detail.parent? p.kind k r.detail)
  return { r with detail := Detail.withParent p.reference p.kind k r.detail }

/-- Nested objects as entities. -/
def attachAll (p : Enclosing) {k : Kind} (rs : List (Resource k)) :
    Except PlanError (List Entity) :=
  rs.mapM fun r => do return (← p.attach r).toEntity

end Enclosing

/-! ### Declarations -/

namespace Resource

/-- An object as what encloses others, with a fresh id where it has none. -/
def enclose {k : Kind} (r : Resource k) : Planning (Enclosing × Resource k) := do
  let id ← match r.id with
    | some id => pure id
    | none => Planning.freshId
  return (⟨k, id, Detail.names k r.detail⟩, { r with id := some id })

/-- An object behind what is nested under it; it takes an id only when something is. -/
def flattenNested {k : Kind} (r : Resource k) (empty : Bool)
    (nested : Enclosing → Planning (List Entity)) : Planning (List Entity) := do
  if empty then return [r.toEntity]
  else
    let (p, r) ← r.enclose
    return (← nested p) ++ [r.toEntity]

end Resource

/-- The entities of the declaration of a route. -/
def RouteDecl.flatten (service : Option Enclosing) (d : RouteDecl) : Planning (List Entity) := do
  let route ← match service with
    | some p => p.attach d.route
    | none => pure d.route
  route.flattenNested d.plugins.isEmpty fun p => p.attachAll d.plugins

/-- The entities of the declaration of a service. -/
def ServiceDecl.flatten (d : ServiceDecl) : Planning (List Entity) :=
  d.service.flattenNested (d.routes.isEmpty && d.plugins.isEmpty) fun p => do
    let routes ← d.routes.mapM (RouteDecl.flatten (some p))
    let plugins ← p.attachAll d.plugins
    return routes.flatten ++ plugins

/-- The membership that joins a group to a consumer. -/
def Membership.declared (group consumer : ForeignKey) : Entity :=
  (Resource.ofDetail .membership none ⟨group, consumer⟩).toEntity

/-- The entities of the declaration of a consumer. -/
def ConsumerDecl.flatten (d : ConsumerDecl) : Planning (List Entity) :=
  d.consumer.flattenNested (d.plugins.isEmpty && d.groups.isEmpty) fun p => do
    let plugins ← p.attachAll d.plugins
    return plugins ++ d.groups.map fun group => Membership.declared group p.reference

/-- A member of a group may be listed by username or custom id instead of name. -/
def ForeignKey.ofMember (fk : ForeignKey) : ForeignKey :=
  match fk.name, fk.extra with
  | none, [(field, .str name)] =>
    if field = "username" || field = "custom_id" then ⟨fk.id, some name, []⟩ else fk
  | _, _ => fk

/-- The entities of the declaration of a consumer-group. -/
def ConsumerGroupDecl.flatten (d : ConsumerGroupDecl) : Planning (List Entity) :=
  d.group.flattenNested (d.plugins.isEmpty && d.consumers.isEmpty) fun p => do
    let plugins ← p.attachAll d.plugins
    return plugins ++ d.consumers.map fun consumer =>
      Membership.declared p.reference consumer.ofMember

/-- The entities of the declaration of an upstream. -/
def UpstreamDecl.flatten (d : UpstreamDecl) : Planning (List Entity) :=
  d.upstream.flattenNested d.targets.isEmpty fun p => p.attachAll d.targets

/-- The entities of the declaration of a certificate. -/
def CertificateDecl.flatten (d : CertificateDecl) : Planning (List Entity) :=
  d.certificate.flattenNested d.snis.isEmpty fun p => p.attachAll d.snis

/-- The entities of the declaration of a set of keys. -/
def KeySetDecl.flatten (d : KeySetDecl) : Planning (List Entity) :=
  d.keySet.flattenNested d.keys.isEmpty fun p => p.attachAll d.keys

/-- The entities of the declaration of a role. -/
def RoleDecl.flatten (d : RoleDecl) : Planning (List Entity) :=
  d.role.flattenNested d.permissions.isEmpty fun p => p.attachAll d.permissions

namespace Content

/-- The entities at the top that nothing can be nested under. -/
def plainEntities (c : Content) : List Entity :=
  c.plugins.map Resource.toEntity ++ c.targets.map Resource.toEntity ++
    c.snis.map Resource.toEntity ++ c.caCertificates.map Resource.toEntity ++
    c.vaults.map Resource.toEntity ++ c.keys.map Resource.toEntity ++
    c.partials.map Resource.toEntity ++ c.licenses.map Resource.toEntity ++
    c.permissions.map Resource.toEntity ++ c.customObjects.map Resource.toEntity

/-- All declared entities. -/
def flatten (c : Content) : Planning (List Entity) := do
  let services ← c.services.mapM ServiceDecl.flatten
  let routes ← c.routes.mapM (RouteDecl.flatten none)
  let consumers ← c.consumers.mapM ConsumerDecl.flatten
  let groups ← c.consumerGroups.mapM ConsumerGroupDecl.flatten
  let upstreams ← c.upstreams.mapM UpstreamDecl.flatten
  let certificates ← c.certificates.mapM CertificateDecl.flatten
  let keySets ← c.keySets.mapM KeySetDecl.flatten
  let roles ← c.roles.mapM RoleDecl.flatten
  let nested := services ++ routes ++ consumers ++ groups ++ upstreams ++ certificates ++
    keySets ++ roles
  return nested.flatten ++ c.plainEntities

end Content

end Gateway
