import Gateway.Entity.Codec

/-!
# Declarations

The desired configuration as its authors write it. An object may be declared at the top of a
document, with explicit references to what it belongs to, or nested under it. `Content` is a
document, or several merged by concatenation (`Content.merge`).
-/

namespace Gateway

/-! ### Declarations with nested objects -/

/-- A route and the plugins in its scope. -/
structure RouteDecl where
  route : Resource .route
  plugins : List (Resource .plugin)

/-- A service with its routes and the plugins in its scope. -/
structure ServiceDecl where
  service : Resource .service
  routes : List RouteDecl
  plugins : List (Resource .plugin)

/-- A consumer, the plugins in its scope and the groups it belongs to. -/
structure ConsumerDecl where
  consumer : Resource .consumer
  plugins : List (Resource .plugin)
  groups : List ForeignKey

/-- A consumer-group, the consumers that belong to it and the plugins in its scope. -/
structure ConsumerGroupDecl where
  group : Resource .consumerGroup
  consumers : List ForeignKey
  plugins : List (Resource .plugin)

/-- A pool and its addresses. -/
structure UpstreamDecl where
  upstream : Resource .upstream
  targets : List (Resource .target)

/-- A certificate and the names it is presented for. -/
structure CertificateDecl where
  certificate : Resource .certificate
  snis : List (Resource .sni)

/-- A set of keys. -/
structure KeySetDecl where
  keySet : Resource .keySet
  keys : List (Resource .key)

/-- A role and what it may do. -/
structure RoleDecl where
  role : Resource .role
  permissions : List (Resource .permission)

/-- The declarations of one or several documents. -/
structure Content where
  services : List ServiceDecl := []
  routes : List RouteDecl := []
  plugins : List (Resource .plugin) := []
  consumers : List ConsumerDecl := []
  consumerGroups : List ConsumerGroupDecl := []
  upstreams : List UpstreamDecl := []
  targets : List (Resource .target) := []
  certificates : List CertificateDecl := []
  snis : List (Resource .sni) := []
  caCertificates : List (Resource .caCertificate) := []
  vaults : List (Resource .vault) := []
  keySets : List KeySetDecl := []
  keys : List (Resource .key) := []
  partials : List (Resource .partialConfig) := []
  licenses : List (Resource .license) := []
  roles : List RoleDecl := []
  permissions : List (Resource .permission) := []
  customObjects : List (Resource .custom) := []

/-! ### Merging -/

namespace Content

/-- The declarations of one document and then those of another. -/
def append (a b : Content) : Content where
  services := a.services ++ b.services
  routes := a.routes ++ b.routes
  plugins := a.plugins ++ b.plugins
  consumers := a.consumers ++ b.consumers
  consumerGroups := a.consumerGroups ++ b.consumerGroups
  upstreams := a.upstreams ++ b.upstreams
  targets := a.targets ++ b.targets
  certificates := a.certificates ++ b.certificates
  snis := a.snis ++ b.snis
  caCertificates := a.caCertificates ++ b.caCertificates
  vaults := a.vaults ++ b.vaults
  keySets := a.keySets ++ b.keySets
  keys := a.keys ++ b.keys
  partials := a.partials ++ b.partials
  licenses := a.licenses ++ b.licenses
  roles := a.roles ++ b.roles
  permissions := a.permissions ++ b.permissions
  customObjects := a.customObjects ++ b.customObjects

/-- Several documents as one, in order. Duplicates are found when references are resolved. -/
def merge (docs : List Content) : Content := docs.foldl append {}

end Content

/-! ### Reading

A declaration with nested objects is an object whose members are the fields of the object itself
beside the lists of what is nested, so every member has to be readable. -/

/-- Take the members with the given names from those of a declaration, and leave the rest as the
document of the object itself. -/
def takeNested? (names : List String) : Json → Option (List (Option Json) × Json)
  | .obj members => do
    let nested ← Json.membersNamed? members names
    let own := members.filter fun m => !names.contains m.1
    let _ ← Json.memberValues? own
    some (nested, .obj own)
  | _ => none

/-- Read a list that is empty where it is absent. -/
def listOr (read : Json → Option α) : Option Json → Option (List α) :=
  Json.fieldOr [] (Json.list? read)

/-- Read the declaration of a route. -/
def RouteDecl.ofJson? (j : Json) : Option RouteDecl := do
  match ← takeNested? ["plugins"] j with
  | ([plugins], own) =>
    some ⟨← Resource.ofJson? .route own, ← listOr (Resource.ofJson? .plugin) plugins⟩
  | _ => none

/-- Read the declaration of a service. -/
def ServiceDecl.ofJson? (j : Json) : Option ServiceDecl := do
  match ← takeNested? ["routes", "plugins"] j with
  | ([routes, plugins], own) =>
    some ⟨← Resource.ofJson? .service own, ← listOr RouteDecl.ofJson? routes,
      ← listOr (Resource.ofJson? .plugin) plugins⟩
  | _ => none

/-- Read the declaration of a consumer. -/
def ConsumerDecl.ofJson? (j : Json) : Option ConsumerDecl := do
  match ← takeNested? ["plugins", "groups"] j with
  | ([plugins, groups], own) =>
    some ⟨← Resource.ofJson? .consumer own, ← listOr (Resource.ofJson? .plugin) plugins,
      ← listOr ForeignKey.ofJson? groups⟩
  | _ => none

/-- Read the declaration of a consumer-group. -/
def ConsumerGroupDecl.ofJson? (j : Json) : Option ConsumerGroupDecl := do
  match ← takeNested? ["consumers", "plugins"] j with
  | ([consumers, plugins], own) =>
    some ⟨← Resource.ofJson? .consumerGroup own, ← listOr ForeignKey.ofJson? consumers,
      ← listOr (Resource.ofJson? .plugin) plugins⟩
  | _ => none

/-- Read the declaration of an upstream. -/
def UpstreamDecl.ofJson? (j : Json) : Option UpstreamDecl := do
  match ← takeNested? ["targets"] j with
  | ([targets], own) =>
    some ⟨← Resource.ofJson? .upstream own, ← listOr (Resource.ofJson? .target) targets⟩
  | _ => none

/-- Read the declaration of a certificate. -/
def CertificateDecl.ofJson? (j : Json) : Option CertificateDecl := do
  match ← takeNested? ["snis"] j with
  | ([snis], own) =>
    some ⟨← Resource.ofJson? .certificate own, ← listOr (Resource.ofJson? .sni) snis⟩
  | _ => none

/-- Read the declaration of a set of keys. -/
def KeySetDecl.ofJson? (j : Json) : Option KeySetDecl := do
  match ← takeNested? ["keys"] j with
  | ([keys], own) =>
    some ⟨← Resource.ofJson? .keySet own, ← listOr (Resource.ofJson? .key) keys⟩
  | _ => none

/-- Read the declaration of a role. -/
def RoleDecl.ofJson? (j : Json) : Option RoleDecl := do
  match ← takeNested? ["endpoint_permissions"] j with
  | ([permissions], own) =>
    some ⟨← Resource.ofJson? .role own, ← listOr (Resource.ofJson? .permission) permissions⟩
  | _ => none

namespace Content

/-- The names of the lists of a document, in order of declaration. -/
def listNames : List String :=
  ["services", "routes", "plugins", "consumers", "consumer_groups",
    "upstreams", "targets", "certificates", "snis", "ca_certificates",
    "vaults", "key_sets", "keys", "partials", "licenses",
    "rbac_roles", "rbac_endpoint_permissions", "custom_entities"]

/-- Read a document. -/
def ofJson? (j : Json) : Option Content := do
  match ← Json.fields? listNames j with
  | [services, routes, plugins, consumers, consumerGroups, upstreams,
      targets, certificates, snis, caCertificates, vaults, keySets,
      keys, partials, licenses, roles, permissions, customObjects] =>
    some {
      services := ← listOr ServiceDecl.ofJson? services
      routes := ← listOr RouteDecl.ofJson? routes
      plugins := ← listOr (Resource.ofJson? .plugin) plugins
      consumers := ← listOr ConsumerDecl.ofJson? consumers
      consumerGroups := ← listOr ConsumerGroupDecl.ofJson? consumerGroups
      upstreams := ← listOr UpstreamDecl.ofJson? upstreams
      targets := ← listOr (Resource.ofJson? .target) targets
      certificates := ← listOr CertificateDecl.ofJson? certificates
      snis := ← listOr (Resource.ofJson? .sni) snis
      caCertificates := ← listOr (Resource.ofJson? .caCertificate) caCertificates
      vaults := ← listOr (Resource.ofJson? .vault) vaults
      keySets := ← listOr KeySetDecl.ofJson? keySets
      keys := ← listOr (Resource.ofJson? .key) keys
      partials := ← listOr (Resource.ofJson? .partialConfig) partials
      licenses := ← listOr (Resource.ofJson? .license) licenses
      roles := ← listOr RoleDecl.ofJson? roles
      permissions := ← listOr (Resource.ofJson? .permission) permissions
      customObjects := ← listOr (Resource.ofJson? .custom) customObjects
    }
  | _ => none

end Content

/-! ### Writing -/

/-- The written form of an object with lists of what is nested under it. -/
def nestedValue {k : Kind} (r : Resource k) (lists : List (String × List Value)) : Value :=
  .map (lists.foldl (fun d l => Dict.insert d l.1 (.list l.2)) r.toSettings)

/-- The written form of the declaration of a route. -/
def RouteDecl.toValue (d : RouteDecl) : Value :=
  nestedValue d.route [("plugins", d.plugins.map Resource.toValue)]

/-- The written form of the declaration of a service. -/
def ServiceDecl.toValue (d : ServiceDecl) : Value :=
  nestedValue d.service [("routes", d.routes.map RouteDecl.toValue),
    ("plugins", d.plugins.map Resource.toValue)]

/-- The written form of the declaration of a consumer. -/
def ConsumerDecl.toValue (d : ConsumerDecl) : Value :=
  nestedValue d.consumer [("plugins", d.plugins.map Resource.toValue),
    ("groups", d.groups.map ForeignKey.toValue)]

/-- The written form of the declaration of a consumer-group. -/
def ConsumerGroupDecl.toValue (d : ConsumerGroupDecl) : Value :=
  nestedValue d.group [("consumers", d.consumers.map ForeignKey.toValue),
    ("plugins", d.plugins.map Resource.toValue)]

/-- The written form of the declaration of an upstream. -/
def UpstreamDecl.toValue (d : UpstreamDecl) : Value :=
  nestedValue d.upstream [("targets", d.targets.map Resource.toValue)]

/-- The written form of the declaration of a certificate. -/
def CertificateDecl.toValue (d : CertificateDecl) : Value :=
  nestedValue d.certificate [("snis", d.snis.map Resource.toValue)]

/-- The written form of the declaration of a set of keys. -/
def KeySetDecl.toValue (d : KeySetDecl) : Value :=
  nestedValue d.keySet [("keys", d.keys.map Resource.toValue)]

/-- The written form of the declaration of a role. -/
def RoleDecl.toValue (d : RoleDecl) : Value :=
  nestedValue d.role [("endpoint_permissions", d.permissions.map Resource.toValue)]

/-- The written form of a document: every list, also when it is empty. -/
def Content.toValue (c : Content) : Value :=
  .ofEntries
    [("services", .list (c.services.map ServiceDecl.toValue)),
      ("routes", .list (c.routes.map RouteDecl.toValue)),
      ("plugins", .list (c.plugins.map Resource.toValue)),
      ("consumers", .list (c.consumers.map ConsumerDecl.toValue)),
      ("consumer_groups", .list (c.consumerGroups.map ConsumerGroupDecl.toValue)),
      ("upstreams", .list (c.upstreams.map UpstreamDecl.toValue)),
      ("targets", .list (c.targets.map Resource.toValue)),
      ("certificates", .list (c.certificates.map CertificateDecl.toValue)),
      ("snis", .list (c.snis.map Resource.toValue)),
      ("ca_certificates", .list (c.caCertificates.map Resource.toValue)),
      ("vaults", .list (c.vaults.map Resource.toValue)),
      ("key_sets", .list (c.keySets.map KeySetDecl.toValue)),
      ("keys", .list (c.keys.map Resource.toValue)),
      ("partials", .list (c.partials.map Resource.toValue)),
      ("licenses", .list (c.licenses.map Resource.toValue)),
      ("rbac_roles", .list (c.roles.map RoleDecl.toValue)),
      ("rbac_endpoint_permissions", .list (c.permissions.map Resource.toValue)),
      ("custom_entities", .list (c.customObjects.map Resource.toValue))]

end Gateway
