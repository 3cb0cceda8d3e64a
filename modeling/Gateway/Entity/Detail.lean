import Gateway.ForeignKey

/-!
# What each kind of object says

One structure for each kind, with the fields that are its own: id, tags and time stamps are common
to all kinds and stand in `Resource`. `Detail k` is the structure of kind `k`.
-/

namespace Gateway

/-- A backend that the gateway passes requests on to. -/
structure Service where
  name : Option String
  host : Option String
  port : Option UInt16
  protocol : Option String
  path : Option String
  retries : Option UInt32
  connectTimeout : Option UInt32
  readTimeout : Option UInt32
  writeTimeout : Option UInt32
  enabled : Option Bool
  tlsVerify : Option Bool
  clientCertificate : Option ForeignKey
  /-- Ids of the certificate authorities that the backend's certificate is checked against. -/
  caCertificates : List String
  deriving Inhabited

/-- Which requests go to a service. -/
structure Route where
  name : Option String
  service : Option ForeignKey
  protocols : List String
  methods : List String
  hosts : List String
  paths : List String
  headers : Dict (List String)
  snis : List String
  expression : Option String
  precedence : Option UInt64
  stripPath : Option Bool
  preserveHost : Option Bool
  regexPriority : Option Int64
  pathHandling : Option String
  httpsRedirectStatusCode : Option UInt16
  requestBuffering : Option Bool
  responseBuffering : Option Bool
  deriving Inhabited

/-- A pool of addresses behind one name. -/
structure Upstream where
  name : Option String
  algorithm : Option String
  hashOn : Option String
  hashFallback : Option String
  hashOnHeader : Option String
  hostHeader : Option String
  slots : Option UInt32
  healthchecks : Option Value
  deriving Inhabited

/-- One address of a pool. -/
structure Target where
  address : String
  upstream : Option ForeignKey
  weight : Option UInt32
  deriving Inhabited

/-- A plugin's link to a shared piece of configuration; `path` says where in the plugin's
configuration the piece belongs. -/
structure PartialLink where
  id : Option String
  name : Option String
  path : Option String
  deriving Inhabited

/-- A plugin, for all traffic or within the scope of up to four other objects. -/
structure Plugin where
  name : String
  instanceName : Option String
  service : Option ForeignKey
  route : Option ForeignKey
  consumer : Option ForeignKey
  consumerGroup : Option ForeignKey
  config : Settings
  enabled : Option Bool
  protocols : List String
  ordering : Option Value
  partials : List PartialLink
  deriving Inhabited

/-- A piece of plugin configuration that several plugins share. -/
structure PartialConfig where
  name : Option String
  sort : Option String
  config : Settings
  deriving Inhabited

/-- Somebody who sends requests. -/
structure Consumer where
  username : Option String
  customId : Option String
  deriving Inhabited

/-- A named set of consumers. -/
structure ConsumerGroup where
  name : Option String
  deriving Inhabited

/-- The membership of one consumer in one group. -/
structure Membership where
  consumerGroup : ForeignKey
  consumer : ForeignKey
  deriving Inhabited

/-- A certificate that the gateway presents. -/
structure Certificate where
  cert : String
  key : String
  certAlt : Option String
  keyAlt : Option String
  deriving Inhabited

/-- A host name that a certificate is presented for. -/
structure Sni where
  name : String
  certificate : Option ForeignKey
  deriving Inhabited

/-- A certificate authority that is trusted. -/
structure CaCertificate where
  cert : String
  certDigest : Option String
  deriving Inhabited

/-- A store of secrets; `mount` is the first part of the references into it. -/
structure Vault where
  name : String
  mount : String
  description : Option String
  config : Settings
  deriving Inhabited

/-- A named set of keys. -/
structure KeySet where
  name : Option String
  deriving Inhabited

/-- A cryptographic key. -/
structure Key where
  name : Option String
  kid : String
  keySet : Option ForeignKey
  jwk : Option String
  pem : Option Settings
  deriving Inhabited

/-- A licence of the gateway. -/
structure License where
  payload : String
  deriving Inhabited

/-- A role of access control. -/
structure Role where
  name : String
  comment : Option String
  isDefault : Option Bool
  deriving Inhabited

/-- What a role may do at an endpoint of a workspace. -/
structure Permission where
  role : Option ForeignKey
  workspace : String
  endpoint : String
  actions : List String
  negative : Option Bool
  comment : Option String
  deriving Inhabited

/-- A row of a user-defined kind. -/
structure CustomObject where
  sort : String
  service : Option ForeignKey
  fields : Settings
  deriving Inhabited

/-- The fields that objects of a kind have of their own. -/
@[reducible] def Detail : Kind → Type
  | .service => Service
  | .route => Route
  | .plugin => Plugin
  | .consumer => Consumer
  | .consumerGroup => ConsumerGroup
  | .membership => Membership
  | .upstream => Upstream
  | .target => Target
  | .certificate => Certificate
  | .sni => Sni
  | .caCertificate => CaCertificate
  | .vault => Vault
  | .key => Key
  | .keySet => KeySet
  | .partialConfig => PartialConfig
  | .license => License
  | .role => Role
  | .permission => Permission
  | .custom => CustomObject

end Gateway
