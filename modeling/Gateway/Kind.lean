/-!
# Kinds of gateway object

The nineteen kinds of object a gateway is configured with, their spellings, and the order in which
they come into being. `Kind.creationOrder` lists every kind once (`mem_creationOrder`), anything an
object may point at before the object itself, so `Kind.rank` orders creations and, read backwards,
deletions.
-/

namespace Gateway

/-- A kind of gateway object. -/
inductive Kind
  | service
  | route
  | plugin
  | consumer
  | consumerGroup
  /-- Membership of a consumer in a consumer-group. -/
  | membership
  | upstream
  | target
  | certificate
  | sni
  | caCertificate
  | vault
  | key
  | keySet
  /-- A piece of plugin configuration shared by several plugins. -/
  | partialConfig
  | license
  | role
  /-- What a role may do at one endpoint. -/
  | permission
  /-- A row of a user-defined kind. -/
  | custom
  deriving DecidableEq, Repr, Inhabited

namespace Kind

/-- The order of creation: whatever an object can refer to comes before it. Deletions go the other
way round. -/
def creationOrder : List Kind :=
  [vault, caCertificate, certificate, sni, keySet, key, license, partialConfig, role, permission,
    upstream, target, service, route, consumer, consumerGroup, membership, plugin, custom]

/-- Position in the order of creation. -/
def rank (k : Kind) : Nat := creationOrder.idxOf k

/-- The spelling shown to people. -/
def name : Kind → String
  | service => "service"
  | route => "route"
  | plugin => "plugin"
  | consumer => "consumer"
  | consumerGroup => "consumer-group"
  | membership => "consumer-group-consumer"
  | upstream => "upstream"
  | target => "target"
  | certificate => "certificate"
  | sni => "sni"
  | caCertificate => "ca-certificate"
  | vault => "vault"
  | key => "key"
  | keySet => "key-set"
  | partialConfig => "partial"
  | license => "license"
  | role => "rbac-role"
  | permission => "rbac-endpoint-permission"
  | custom => "custom-entity"

/-- The spelling in documents. -/
def wire : Kind → String
  | service => "service"
  | route => "route"
  | plugin => "plugin"
  | consumer => "consumer"
  | consumerGroup => "consumer_group"
  | membership => "consumer_group_member"
  | upstream => "upstream"
  | target => "target"
  | certificate => "certificate"
  | sni => "sni"
  | caCertificate => "ca_certificate"
  | vault => "vault"
  | key => "key"
  | keySet => "key_set"
  | partialConfig => "partial"
  | license => "license"
  | role => "rbac_role"
  | permission => "rbac_endpoint_permission"
  | custom => "custom"

/-- The kind with a given spelling in documents. -/
def ofWire? (s : String) : Option Kind := creationOrder.find? (·.wire == s)

/-- Licences, role-based access control and memberships carry no tags; every other kind does. -/
def taggable : Kind → Bool
  | license | role | permission | membership => false
  | _ => true

/-- Whether the gateway keeps the time of the last update of this kind, and not only the time of
creation. -/
def recordsUpdate : Kind → Bool
  | certificate | sni | caCertificate | membership | role | permission | custom => false
  | _ => true

/-! ### Laws -/

/-- Every kind has its place in the order of creation. -/
theorem mem_creationOrder (k : Kind) : k ∈ creationOrder := by
  cases k <;> decide

/-- No kind is listed twice. -/
theorem creationOrder_nodup : creationOrder.Nodup := by decide

/-- Two kinds of one rank are the same kind. -/
theorem rank_inj {k l : Kind} (h : k.rank = l.rank) : k = l := by
  revert h
  cases k <;> cases l <;> decide

/-- A kind is read back from its spelling. -/
theorem ofWire?_wire (k : Kind) : ofWire? k.wire = some k := by
  cases k <;> decide

end Kind

end Gateway
