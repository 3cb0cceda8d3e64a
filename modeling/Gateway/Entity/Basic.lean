import Gateway.Entity.Schema
import Gateway.Text.Blank

/-!
# Gateway objects

A `Resource k` is an object of kind `k`: what its kind says (`Detail`) beside the id, tags and time
stamps common to all. An `Entity` is an object of any kind. Here are the parts that hold for
entities of all kinds, what identifies an entity apart from its id (`Entity.naturalKey`), and the
labels that messages use.
-/

namespace Gateway

/-! ### Natural keys -/

/-- What makes two records the same object whatever their ids are. Kinds that live within others
include the ids of these, and an empty text for none. -/
structure NaturalKey where
  parts : List String
  deriving DecidableEq, Repr, Inhabited

namespace NaturalKey

/-- The first part: the name. -/
def head (key : NaturalKey) : String := key.parts.headD ""

/-- The parts joined by colons, a hyphen in place of an empty one. -/
def text (key : NaturalKey) : String :=
  ":".intercalate (key.parts.map fun p => if p.isEmpty then "-" else p)

/-- Order of two lists of parts, part by part. -/
def compareParts : List String → List String → Ordering
  | [], [] => .eq
  | [], _ :: _ => .lt
  | _ :: _, [] => .gt
  | a :: as, b :: bs => if a < b then .lt else if a = b then compareParts as bs else .gt

end NaturalKey

/-- The id in an optional reference, empty where there is none. -/
def linkedId (fk : Option ForeignKey) : String := (fk.bind (·.id)).getD ""

/-! ### Keys and labels of single kinds -/

namespace Plugin

/-- The text at `namespace` in the configuration: it tells apart plugins of one name in one
consumer-group. -/
def configNamespace (p : Plugin) : Option String :=
  (Dict.get? p.config "namespace").bind Value.asText?

/-- Where the plugin applies, for messages. -/
def scopeLabel (p : Plugin) : String :=
  let part (what : String) (fk : Option ForeignKey) : List String :=
    fk.toList.map fun fk => what ++ " " ++ fk.label
  let parts := part "service" p.service ++ part "route" p.route ++ part "consumer" p.consumer ++
    part "consumer-group" p.consumerGroup
  if parts.isEmpty then "global" else ", ".intercalate parts

/-- Name, and the name of the instance or else the scope. -/
def label (p : Plugin) : String :=
  p.name ++ " (" ++ p.instanceName.getD p.scopeLabel ++ ")"

end Plugin

/-- A consumer is referred to by either of its names. -/
def Consumer.answersTo (c : Consumer) (name : String) : Bool :=
  c.username == some name || c.customId == some name

/-- `<group id>:<consumer id>` once both are known. -/
def Membership.derivedId? (m : Membership) : Option String :=
  match m.consumerGroup.id, m.consumer.id with
  | some g, some c => some (g ++ ":" ++ c)
  | _, _ => none

/-- `<role id>:<workspace>:<endpoint>` once the role is known. -/
def Permission.derivedId? (p : Permission) : Option String :=
  (p.role.bind (·.id)).map fun role => role ++ ":" ++ p.workspace ++ ":" ++ p.endpoint

namespace Detail

/-- The natural key of an object, for kinds and objects that have one. -/
def naturalKey? : (k : Kind) → Detail k → Option NaturalKey
  | .service, s => s.name.map fun n => ⟨[n]⟩
  | .route, r => r.name.map fun n => ⟨[n]⟩
  | .upstream, u => u.name.map fun n => ⟨[n]⟩
  | .consumerGroup, g => g.name.map fun n => ⟨[n]⟩
  | .keySet, s => s.name.map fun n => ⟨[n]⟩
  | .partialConfig, p => p.name.map fun n => ⟨[n]⟩
  | .target, t => some ⟨[t.address, linkedId t.upstream]⟩
  | .plugin, p =>
    some ⟨[p.name, p.instanceName.getD "", linkedId p.service, linkedId p.route,
      linkedId p.consumer, linkedId p.consumerGroup,
      -- plugins of a consumer-group may repeat once per namespace
      if p.consumerGroup.isSome then p.configNamespace.getD "" else ""]⟩
  | .consumer, c =>
    (c.username.map fun u => ⟨["username", u]⟩) <|> (c.customId.map fun i => ⟨["custom_id", i]⟩)
  | .membership, m => some ⟨[m.consumerGroup.id.getD "", m.consumer.id.getD ""]⟩
  | .certificate, c =>
    if c.cert.isEmpty then none else some ⟨[Text.trim c.cert, Text.trim c.key]⟩
  | .sni, s => some ⟨[s.name]⟩
  | .caCertificate, c => if c.cert.isEmpty then none else some ⟨[Text.trim c.cert]⟩
  | .vault, v => some ⟨[v.mount]⟩
  | .key, k => k.name.map fun n => ⟨[n, linkedId k.keySet]⟩
  | .license, _ => none
  | .role, r => some ⟨[r.name]⟩
  | .permission, p => some ⟨[linkedId p.role, p.workspace, p.endpoint]⟩
  | .custom, c =>
    ((Dict.get? c.fields "name").bind Value.asText?).map fun n => ⟨[n, c.sort, linkedId c.service]⟩

/-- The key to try when nothing has the natural key: a consumer that gained a username is still the
one stored under its custom id. -/
def fallbackKey? : (k : Kind) → Detail k → Option NaturalKey
  | .consumer, c =>
    c.username.bind fun _ => c.customId.map fun i => ⟨["custom_id", i]⟩
  | _, _ => none

/-- The references an object makes, each with the kind of object that it is to, in the order in
which they are resolved. -/
def links : (k : Kind) → Detail k → List (Kind × ForeignKey)
  | .service, s =>
    s.clientCertificate.toList.map (Kind.certificate, ·) ++
      s.caCertificates.map fun id => (Kind.caCertificate, .byId id)
  | .route, r => r.service.toList.map (Kind.service, ·)
  | .plugin, p =>
    p.service.toList.map (Kind.service, ·) ++ p.route.toList.map (Kind.route, ·) ++
      p.consumer.toList.map (Kind.consumer, ·) ++
      p.consumerGroup.toList.map (Kind.consumerGroup, ·) ++
      p.partials.map fun l => (Kind.partialConfig, l.toForeignKey)
  | .membership, m => [(Kind.consumerGroup, m.consumerGroup), (Kind.consumer, m.consumer)]
  | .target, t => t.upstream.toList.map (Kind.upstream, ·)
  | .sni, s => s.certificate.toList.map (Kind.certificate, ·)
  | .key, k => k.keySet.toList.map (Kind.keySet, ·)
  | .permission, p => p.role.toList.map (Kind.role, ·)
  | .custom, c => c.service.toList.map (Kind.service, ·)
  | _, _ => []

/-- Replace an optional reference by one to the id that `find` gives. -/
def relinkOption [Monad m] (find : Kind → ForeignKey → m String) (kind : Kind) :
    Option ForeignKey → m (Option ForeignKey)
  | none => pure none
  | some fk => do return some (.byId (← find kind fk))

/-- Replace every reference by one to the id that `find` gives, in the order of `links`. -/
def relink [Monad m] (find : Kind → ForeignKey → m String) : (k : Kind) → Detail k → m (Detail k)
  | .service, s => do
    let certificate ← relinkOption find .certificate s.clientCertificate
    let cas ← s.caCertificates.mapM fun id => find .caCertificate (.byId id)
    return { s with clientCertificate := certificate, caCertificates := cas }
  | .route, r => do
    return { r with service := ← relinkOption find .service r.service }
  | .plugin, p => do
    let service ← relinkOption find .service p.service
    let route ← relinkOption find .route p.route
    let consumer ← relinkOption find .consumer p.consumer
    let group ← relinkOption find .consumerGroup p.consumerGroup
    let partials ← p.partials.mapM fun l => do
      return { l with id := some (← find .partialConfig l.toForeignKey), name := none }
    return { p with service := service, route := route, consumer := consumer,
                    consumerGroup := group, partials := partials }
  | .membership, m => do
    let group ← find .consumerGroup m.consumerGroup
    let consumer ← find .consumer m.consumer
    return ⟨.byId group, .byId consumer⟩
  | .target, t => do
    return { t with upstream := ← relinkOption find .upstream t.upstream }
  | .sni, s => do
    return { s with certificate := ← relinkOption find .certificate s.certificate }
  | .key, k => do
    return { k with keySet := ← relinkOption find .keySet k.keySet }
  | .permission, p => do
    return { p with role := ← relinkOption find .role p.role }
  | .custom, c => do
    return { c with service := ← relinkOption find .service c.service }
  | .consumer, d => pure d
  | .consumerGroup, d => pure d
  | .upstream, d => pure d
  | .certificate, d => pure d
  | .caCertificate, d => pure d
  | .vault, d => pure d
  | .keySet, d => pure d
  | .partialConfig, d => pure d
  | .license, d => pure d
  | .role, d => pure d

end Detail

/-! ### Objects -/

/-- An object of a kind. -/
structure Resource (k : Kind) where
  id : Option String
  detail : Detail k
  tags : List String
  createdAt : Option Int64
  updatedAt : Option Int64
  /-- Only taggable kinds carry tags. -/
  tags_eq_nil : k.taggable = false → tags = []
  /-- Only some kinds keep the time of the last update. -/
  updatedAt_eq_none : k.recordsUpdate = false → updatedAt = none

/-- The object with the given parts; tags and time of update are dropped where the kind has
none. -/
def Resource.make (k : Kind) (id : Option String) (detail : Detail k) (tags : List String)
    (createdAt updatedAt : Option Int64) : Resource k where
  id := id
  detail := detail
  tags := if k.taggable then tags else []
  createdAt := createdAt
  updatedAt := if k.recordsUpdate then updatedAt else none
  tags_eq_nil h := by simp [h]
  updatedAt_eq_none h := by simp [h]

/-- The object that says no more than its detail. -/
def Resource.ofDetail (k : Kind) (id : Option String) (detail : Detail k) : Resource k :=
  .make k id detail [] none none

/-- An object of any kind. -/
structure Entity where
  kind : Kind
  resource : Resource kind

/-- A resource as an entity. -/
def Resource.toEntity {k : Kind} (r : Resource k) : Entity := ⟨k, r⟩

namespace Entity

/-- The id, if there is one. -/
def id? (e : Entity) : Option String := e.resource.id

/-- The id, empty where there is none. -/
def idText (e : Entity) : String := e.id?.getD ""

/-- The tags. -/
def tags (e : Entity) : List String := e.resource.tags

/-- The same entity under an id. -/
def withId (e : Entity) (id : String) : Entity :=
  ⟨e.kind, { e.resource with id := some id }⟩

/-- The same entity with other tags, if its kind carries any. -/
def withTags (e : Entity) (tags : List String) : Entity :=
  ⟨e.kind, { e.resource with
    tags := if e.kind.taggable then tags else []
    tags_eq_nil := fun h => by simp [h] }⟩

/-- The same entity without time stamps. -/
def withoutTimestamps (e : Entity) : Entity :=
  ⟨e.kind, { e.resource with
    createdAt := none, updatedAt := none, updatedAt_eq_none := fun _ => rfl }⟩

/-- What makes this the same object as another record. -/
def naturalKey? (e : Entity) : Option NaturalKey := Detail.naturalKey? e.kind e.resource.detail

/-- The key to try when nothing has the natural key. -/
def fallbackKey? (e : Entity) : Option NaturalKey := Detail.fallbackKey? e.kind e.resource.detail

/-- The references of this entity, resolved or not. -/
def links (e : Entity) : List (Kind × ForeignKey) := Detail.links e.kind e.resource.detail

/-- The references whose ids are known. -/
def references (e : Entity) : List Reference :=
  e.links.filterMap fun (kind, fk) => fk.toReference? kind

/-- Replace every reference by one to the id that `find` gives. -/
def relink [Monad m] (find : Kind → ForeignKey → m String) (e : Entity) : m Entity := do
  return ⟨e.kind, { e.resource with detail := ← Detail.relink find e.kind e.resource.detail }⟩

/-- Whether one of the wanted tags is carried. -/
def hasAnyTag (e : Entity) (wanted : List String) : Bool := e.tags.any wanted.contains

/-- Kinds that other objects refer to. -/
def isReferable (k : Kind) : Bool :=
  k matches .service | .route | .upstream | .consumerGroup | .keySet | .partialConfig | .role |
    .consumer | .certificate | .caCertificate

/-- Whether a reference by name can mean this entity. Certificates are referred to by id alone. -/
def answersToName (e : Entity) (name : String) : Bool :=
  match e with
  | ⟨.consumer, r⟩ => r.detail.answersTo name
  | ⟨.certificate, _⟩ | ⟨.caCertificate, _⟩ => false
  | _ => (e.naturalKey?.map (·.head == name)).getD false

/-- The membership of a consumer in a group, under the id derived from the two. -/
def ofMembership (groupId consumerId : String) : Entity :=
  let m : Membership := ⟨.byId groupId, .byId consumerId⟩
  (Resource.ofDetail .membership m.derivedId? m).toEntity

/-! ### Labels -/

/-- The label most kinds have: the name, else the id. -/
def plainLabel (e : Entity) : String :=
  let name := (e.naturalKey?.map (·.head)).filter (!·.isEmpty)
  (name <|> e.id?).getD "<unnamed>"

/-- How plans, reports and messages call an entity. -/
def label (e : Entity) : String :=
  match e with
  | ⟨.plugin, r⟩ => r.detail.label
  | ⟨.consumer, r⟩ => (r.detail.username <|> r.detail.customId <|> r.id).getD "<anonymous>"
  | ⟨.membership, r⟩ => r.detail.consumer.label ++ " in " ++ r.detail.consumerGroup.label
  | ⟨.certificate, r⟩ => r.id.getD "<certificate>"
  | ⟨.caCertificate, r⟩ => r.id.getD "<ca-certificate>"
  | ⟨.permission, r⟩ => r.detail.workspace ++ " " ++ r.detail.endpoint
  | ⟨.custom, r⟩ =>
    r.detail.sort ++ " " ++ ((e.naturalKey?.map (·.head)) <|> r.id).getD "<unnamed>"
  | _ => e.plainLabel

/-- Kind and label. -/
def describe (e : Entity) : String := e.kind.name ++ " " ++ e.label

end Entity

end Gateway
