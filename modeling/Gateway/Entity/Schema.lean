import Gateway.Entity.Detail

/-!
# Fields and their written form

A kind's fields are listed once, in order of declaration, each with its name and its type
(`Kind.ownFields`). A `Record` over such a list is one value for each field. Reading and writing a
record follow the list field by field, so that they are defined, and reasoned about, for every kind
at once; `Detail.toRecord` and `Detail.ofRecord` pass between records and the structures of the
kinds, and are inverse to each other (`ofRecord_toRecord`, `toRecord_ofRecord`).
-/

namespace Gateway

/-- The type of a field, which settles how it is read and written. -/
inductive FieldType
  /-- Text, empty where absent, always written. -/
  | text
  | optionalText
  | optionalBool
  | optionalUInt16
  | optionalUInt32
  | optionalUInt64
  | optionalInt64
  /-- A list of texts, always written. -/
  | texts
  /-- A list of texts, written unless empty. -/
  | filledTexts
  /-- Lists of texts by name, written unless empty. -/
  | headers
  /-- A reference to an object of some kind. -/
  | optionalLink
  /-- A reference that is always there. -/
  | link
  /-- Links of a plugin to shared configuration, written unless empty. -/
  | partialLinks
  | optionalValue
  /-- A map of configuration values, always written. -/
  | settings
  | optionalSettings
  deriving DecidableEq, Repr

namespace FieldType

/-- The values a field of this type takes. -/
@[reducible] def Carrier : FieldType → Type
  | text => String
  | optionalText => Option String
  | optionalBool => Option Bool
  | optionalUInt16 => Option UInt16
  | optionalUInt32 => Option UInt32
  | optionalUInt64 => Option UInt64
  | optionalInt64 => Option Int64
  | texts => List String
  | filledTexts => List String
  | headers => Dict (List String)
  | optionalLink => Option ForeignKey
  | link => ForeignKey
  | partialLinks => List PartialLink
  | optionalValue => Option Value
  | settings => Settings
  | optionalSettings => Option Settings

end FieldType

/-! ### Links to shared configuration -/

namespace PartialLink

/-- Read a link. -/
def ofJson? (j : Json) : Option PartialLink := do
  match ← Json.fields? ["id", "name", "path"] j with
  | [id, name, path] =>
    some ⟨← Json.optional Json.text? id, ← Json.optional Json.text? name,
      ← Json.optional Json.text? path⟩
  | _ => none

/-- The written form of a link. -/
def toValue (l : PartialLink) : Value :=
  let entry (key : String) (s : Option String) := s.toList.map fun s => (key, Value.str s)
  .ofEntries (entry "id" l.id ++ entry "name" l.name ++ entry "path" l.path)

/-- The reference that a link makes. -/
def toForeignKey (l : PartialLink) : ForeignKey := ⟨l.id, l.name, []⟩

end PartialLink

/-! ### Fields -/

namespace FieldType

/-- Read a field. -/
def read? : (t : FieldType) → Option Json → Option t.Carrier
  | text => Json.fieldOr "" Json.text?
  | optionalText => Json.optional Json.text?
  | optionalBool => Json.optional Json.bool?
  | optionalUInt16 =>
    Json.optional fun j => (Json.natural? UInt16.size j).map UInt16.ofNat
  | optionalUInt32 =>
    Json.optional fun j => (Json.natural? UInt32.size j).map UInt32.ofNat
  | optionalUInt64 =>
    Json.optional fun j => (Json.natural? UInt64.size j).map UInt64.ofNat
  | optionalInt64 =>
    Json.optional fun j => (Json.whole? Int64.minValue.toInt Int64.maxValue.toInt j).map Int64.ofInt
  | texts => Json.fieldOr [] Json.texts?
  | filledTexts => Json.fieldOr [] Json.texts?
  | headers => Json.fieldOr [] (Json.dict? Json.texts?)
  | optionalLink => Json.optional ForeignKey.ofJson?
  | link => Json.fieldOr default ForeignKey.ofJson?
  | partialLinks => Json.fieldOr [] (Json.list? PartialLink.ofJson?)
  | optionalValue => Json.optional Json.toValue?
  | settings => Json.fieldOr [] Json.settings?
  | optionalSettings => Json.optional Json.settings?

/-- The written form of a field; none when the field is left out. -/
def write? : (t : FieldType) → t.Carrier → Option Value
  | text, s => some (.str s)
  | optionalText, s => s.map .str
  | optionalBool, b => b.map .bool
  | optionalUInt16, n => n.map fun n => .whole n.toNat
  | optionalUInt32, n => n.map fun n => .whole n.toNat
  | optionalUInt64, n => n.map fun n => .whole n.toNat
  | optionalInt64, n => n.map fun n => .whole n.toInt
  | texts, ts => some (.texts ts)
  | filledTexts, ts => if ts.isEmpty then none else some (.texts ts)
  | headers, hs => if hs.isEmpty then none else some (.map (Dict.mapValues .texts hs))
  | optionalLink, fk => fk.map ForeignKey.toValue
  | link, fk => some fk.toValue
  | partialLinks, ls => if ls.isEmpty then none else some (.list (ls.map PartialLink.toValue))
  | optionalValue, v => v
  | settings, m => some (.map m)
  | optionalSettings, m => m.map .map

end FieldType

/-- A field of a structure. -/
structure Field where
  name : String
  type : FieldType
  deriving DecidableEq, Repr

/-! ### Records -/

/-- One value for each field. -/
@[reducible] def Record : List Field → Type
  | [] => Unit
  | f :: fields => f.type.Carrier × Record fields

namespace Record

/-- Read a record from what stands in the places of its fields. -/
def read? : (fields : List Field) → List (Option Json) → Option (Record fields)
  | [], _ => some ()
  | f :: fields, places => do
    let first ← f.type.read? (places.head?.join)
    let rest ← read? fields places.tail
    some (first, rest)

/-- The written entries of a record, in order of declaration. -/
def entries : (fields : List Field) → Record fields → List (String × Value)
  | [], _ => []
  | f :: fields, (first, rest) =>
    ((f.type.write? first).toList.map fun v => (f.name, v)) ++ entries fields rest

end Record

/-! ### The fields of each kind -/

/-- The fields of a kind's own, in order of declaration. -/
@[reducible] def Kind.ownFields : Kind → List Field
  | .service =>
    [⟨"name", .optionalText⟩, ⟨"host", .optionalText⟩, ⟨"port", .optionalUInt16⟩,
      ⟨"protocol", .optionalText⟩, ⟨"path", .optionalText⟩, ⟨"retries", .optionalUInt32⟩,
      ⟨"connect_timeout", .optionalUInt32⟩, ⟨"read_timeout", .optionalUInt32⟩,
      ⟨"write_timeout", .optionalUInt32⟩, ⟨"enabled", .optionalBool⟩,
      ⟨"tls_verify", .optionalBool⟩, ⟨"client_certificate", .optionalLink⟩,
      ⟨"ca_certificates", .filledTexts⟩]
  | .route =>
    [⟨"name", .optionalText⟩, ⟨"service", .optionalLink⟩, ⟨"protocols", .filledTexts⟩,
      ⟨"methods", .filledTexts⟩, ⟨"hosts", .filledTexts⟩, ⟨"paths", .filledTexts⟩,
      ⟨"headers", .headers⟩, ⟨"snis", .filledTexts⟩, ⟨"expression", .optionalText⟩,
      ⟨"priority", .optionalUInt64⟩, ⟨"strip_path", .optionalBool⟩,
      ⟨"preserve_host", .optionalBool⟩, ⟨"regex_priority", .optionalInt64⟩,
      ⟨"path_handling", .optionalText⟩, ⟨"https_redirect_status_code", .optionalUInt16⟩,
      ⟨"request_buffering", .optionalBool⟩, ⟨"response_buffering", .optionalBool⟩]
  | .plugin =>
    [⟨"name", .text⟩, ⟨"instance_name", .optionalText⟩, ⟨"service", .optionalLink⟩,
      ⟨"route", .optionalLink⟩, ⟨"consumer", .optionalLink⟩,
      ⟨"consumer_group", .optionalLink⟩, ⟨"config", .settings⟩, ⟨"enabled", .optionalBool⟩,
      ⟨"protocols", .filledTexts⟩, ⟨"ordering", .optionalValue⟩, ⟨"partials", .partialLinks⟩]
  | .consumer => [⟨"username", .optionalText⟩, ⟨"custom_id", .optionalText⟩]
  | .consumerGroup => [⟨"name", .optionalText⟩]
  | .membership => [⟨"consumer_group", .link⟩, ⟨"consumer", .link⟩]
  | .upstream =>
    [⟨"name", .optionalText⟩, ⟨"algorithm", .optionalText⟩, ⟨"hash_on", .optionalText⟩,
      ⟨"hash_fallback", .optionalText⟩, ⟨"hash_on_header", .optionalText⟩,
      ⟨"host_header", .optionalText⟩, ⟨"slots", .optionalUInt32⟩,
      ⟨"healthchecks", .optionalValue⟩]
  | .target =>
    [⟨"target", .text⟩, ⟨"upstream", .optionalLink⟩, ⟨"weight", .optionalUInt32⟩]
  | .certificate =>
    [⟨"cert", .text⟩, ⟨"key", .text⟩, ⟨"cert_alt", .optionalText⟩, ⟨"key_alt", .optionalText⟩]
  | .sni => [⟨"name", .text⟩, ⟨"certificate", .optionalLink⟩]
  | .caCertificate => [⟨"cert", .text⟩, ⟨"cert_digest", .optionalText⟩]
  | .vault =>
    [⟨"name", .text⟩, ⟨"prefix", .text⟩, ⟨"description", .optionalText⟩, ⟨"config", .settings⟩]
  | .key =>
    [⟨"name", .optionalText⟩, ⟨"kid", .text⟩, ⟨"set", .optionalLink⟩, ⟨"jwk", .optionalText⟩,
      ⟨"pem", .optionalSettings⟩]
  | .keySet => [⟨"name", .optionalText⟩]
  | .partialConfig => [⟨"name", .optionalText⟩, ⟨"type", .optionalText⟩, ⟨"config", .settings⟩]
  | .license => [⟨"payload", .text⟩]
  | .role => [⟨"name", .text⟩, ⟨"comment", .optionalText⟩, ⟨"is_default", .optionalBool⟩]
  | .permission =>
    [⟨"role", .optionalLink⟩, ⟨"workspace", .text⟩, ⟨"endpoint", .text⟩, ⟨"actions", .texts⟩,
      ⟨"negative", .optionalBool⟩, ⟨"comment", .optionalText⟩]
  | .custom => [⟨"type", .text⟩, ⟨"service", .optionalLink⟩, ⟨"fields", .settings⟩]

namespace Detail

/-- The record of a structure. -/
def toRecord : (k : Kind) → Detail k → Record k.ownFields
  | .service, s =>
    (s.name, s.host, s.port, s.protocol, s.path, s.retries, s.connectTimeout, s.readTimeout,
      s.writeTimeout, s.enabled, s.tlsVerify, s.clientCertificate, s.caCertificates, ())
  | .route, r =>
    (r.name, r.service, r.protocols, r.methods, r.hosts, r.paths, r.headers, r.snis, r.expression,
      r.precedence, r.stripPath, r.preserveHost, r.regexPriority, r.pathHandling,
      r.httpsRedirectStatusCode, r.requestBuffering, r.responseBuffering, ())
  | .plugin, p =>
    (p.name, p.instanceName, p.service, p.route, p.consumer, p.consumerGroup, p.config, p.enabled,
      p.protocols, p.ordering, p.partials, ())
  | .consumer, c => (c.username, c.customId, ())
  | .consumerGroup, g => (g.name, ())
  | .membership, m => (m.consumerGroup, m.consumer, ())
  | .upstream, u =>
    (u.name, u.algorithm, u.hashOn, u.hashFallback, u.hashOnHeader, u.hostHeader, u.slots,
      u.healthchecks, ())
  | .target, t => (t.address, t.upstream, t.weight, ())
  | .certificate, c => (c.cert, c.key, c.certAlt, c.keyAlt, ())
  | .sni, s => (s.name, s.certificate, ())
  | .caCertificate, c => (c.cert, c.certDigest, ())
  | .vault, v => (v.name, v.mount, v.description, v.config, ())
  | .key, k => (k.name, k.kid, k.keySet, k.jwk, k.pem, ())
  | .keySet, s => (s.name, ())
  | .partialConfig, p => (p.name, p.sort, p.config, ())
  | .license, l => (l.payload, ())
  | .role, r => (r.name, r.comment, r.isDefault, ())
  | .permission, p => (p.role, p.workspace, p.endpoint, p.actions, p.negative, p.comment, ())
  | .custom, c => (c.sort, c.service, c.fields, ())

/-- The structure of a record. -/
def ofRecord : (k : Kind) → Record k.ownFields → Detail k
  | .service, (name, host, port, protocol, path, retries, connect, read, write, enabled, verify,
      certificate, cas, ()) =>
    ⟨name, host, port, protocol, path, retries, connect, read, write, enabled, verify,
      certificate, cas⟩
  | .route, (name, service, protocols, methods, hosts, paths, headers, snis, expression,
      precedence, strip, preserve, regex, handling, redirect, request, response, ()) =>
    ⟨name, service, protocols, methods, hosts, paths, headers, snis, expression, precedence,
      strip, preserve, regex, handling, redirect, request, response⟩
  | .plugin, (name, label, service, route, consumer, group, config, enabled, protocols, ordering,
      partials, ()) =>
    ⟨name, label, service, route, consumer, group, config, enabled, protocols, ordering,
      partials⟩
  | .consumer, (username, customId, ()) => ⟨username, customId⟩
  | .consumerGroup, (name, ()) => ⟨name⟩
  | .membership, (group, consumer, ()) => ⟨group, consumer⟩
  | .upstream, (name, algorithm, on, fallback, onHeader, host, slots, checks, ()) =>
    ⟨name, algorithm, on, fallback, onHeader, host, slots, checks⟩
  | .target, (address, upstream, weight, ()) => ⟨address, upstream, weight⟩
  | .certificate, (cert, key, certAlt, keyAlt, ()) => ⟨cert, key, certAlt, keyAlt⟩
  | .sni, (name, certificate, ()) => ⟨name, certificate⟩
  | .caCertificate, (cert, digest, ()) => ⟨cert, digest⟩
  | .vault, (name, mount, description, config, ()) => ⟨name, mount, description, config⟩
  | .key, (name, kid, keySet, jwk, pem, ()) => ⟨name, kid, keySet, jwk, pem⟩
  | .keySet, (name, ()) => ⟨name⟩
  | .partialConfig, (name, sort, config, ()) => ⟨name, sort, config⟩
  | .license, (payload, ()) => ⟨payload⟩
  | .role, (name, comment, isDefault, ()) => ⟨name, comment, isDefault⟩
  | .permission, (role, workspace, endpoint, actions, negative, comment, ()) =>
    ⟨role, workspace, endpoint, actions, negative, comment⟩
  | .custom, (sort, service, fields, ()) => ⟨sort, service, fields⟩

/-- A structure is read back from its record. -/
theorem ofRecord_toRecord (k : Kind) (d : Detail k) : ofRecord k (toRecord k d) = d := by
  cases k <;> rfl

/-- A record is read back from its structure. -/
theorem toRecord_ofRecord (k : Kind) (r : Record k.ownFields) : toRecord k (ofRecord k r) = r := by
  cases k <;> rfl

end Detail

end Gateway
