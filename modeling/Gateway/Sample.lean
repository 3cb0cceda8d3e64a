import Gateway.Content
import Gateway.Options

/-!
# Samples

Small objects for trying things out. What a builder does not take as an argument is left at its
default.
-/

namespace Gateway.Sample

/-- Why a sample cannot be built. -/
inductive SampleError
  /-- The text is no document. -/
  | content
  /-- The entities make no state. -/
  | state
  deriving DecidableEq, Repr

/-- The text of the error. -/
def SampleError.message : SampleError → String
  | content => "parse content fixture"
  | state => "build state fixture"

/-- The document that a text writes. -/
def content (text : String) : Except SampleError Content :=
  match (Json.read? text).bind Content.ofJson? with
  | some c => .ok c
  | none => .error .content

/-- The state of a list of entities. -/
def state (es : List Entity) : Except SampleError State :=
  match State.ofEntities es with
  | .ok s => .ok s
  | .error _ => .error .state

/-- A service on an internal host. -/
def service (id name : String) : Entity :=
  (Resource.ofDetail .service (some id)
    { (default : Service) with name := some name, host := some (name ++ ".internal") }).toEntity

/-- A route to the service with an id. -/
def route (id name serviceId : String) : Entity :=
  (Resource.ofDetail .route (some id)
    { (default : Route) with
      name := some name, service := some (.byId serviceId), paths := ["/" ++ name] }).toEntity

/-- A consumer with a username. -/
def consumer (id username : String) : Entity :=
  (Resource.ofDetail .consumer (some id)
    { (default : Consumer) with username := some username }).toEntity

/-- A plugin for all traffic, without an id. -/
def plugin (name : String) : Entity :=
  (Resource.ofDetail .plugin none { (default : Plugin) with name := name }).toEntity

/-- A pool without addresses. -/
def upstream (id name : String) : Entity :=
  (Resource.ofDetail .upstream (some id) { (default : Upstream) with name := some name }).toEntity

/-- A licence that says nothing. -/
def license : Entity := (Resource.ofDetail .license none (default : License)).toEntity

/-- A gateway with two services, the older one with a route. -/
def twoServices : State :=
  .collect [service "s0" "old", service "s1" "new", route "r1" "main" "s0"]

/-- A document in which the newer service is left, and the route leads to it. -/
def oneService : Content where
  services := [⟨Resource.ofDetail .service none { (default : Service) with name := some "new" },
    [], []⟩]
  routes := [⟨Resource.ofDetail .route none
    { (default : Route) with name := some "main", service := some (.byName "new") }, []⟩]

/-- A document with two services and a route under each. -/
def nestedRoutes : Content :=
  let service (name path : String) : ServiceDecl :=
    ⟨Resource.ofDetail .service none { (default : Service) with name := some name },
      [⟨Resource.ofDetail .route none { (default : Route) with name := some path }, []⟩], []⟩
  { services := [service "new" "main", service "next" "side"] }

/-- A document with a service and a route under it. -/
def nestedRoute (name path : String) : Content where
  services := [⟨Resource.ofDetail .service none { (default : Service) with name := some name },
    [⟨Resource.ofDetail .route none { (default : Route) with name := some path }, []⟩], []⟩]

/-- A document that knows two services under ids of its own, with a route under each. -/
def siblings (first second : String) : Content :=
  let service (id name path : String) : ServiceDecl :=
    ⟨Resource.ofDetail .service (some id) { (default : Service) with name := some name },
      [⟨Resource.ofDetail .route none { (default : Route) with name := some path }, []⟩], []⟩
  { services := [service first "old" "left", service second "new" "right"] }

/-- A document with a group under which one plugin is written twice, with its tags. -/
def repeatedPlugin (first second : List String) : Content :=
  let plugin (tags : List String) : Resource .plugin :=
    .make .plugin none { (default : Plugin) with name := "log" } tags none none
  { consumerGroups := [⟨Resource.ofDetail .consumerGroup (some "g1")
      { (default : ConsumerGroup) with name := some "gold" }, [], [plugin first, plugin second]⟩] }

/-- A document with a group. -/
def goldGroup : Content where
  consumerGroups := [⟨Resource.ofDetail .consumerGroup (some "g1")
    { (default : ConsumerGroup) with name := some "gold" }, [], []⟩]

/-- A document with a plugin for the members of the group, known under an id. -/
def goldPlugin (id : String) : Content where
  plugins := [Resource.ofDetail .plugin (some id)
    { (default : Plugin) with name := "log", consumerGroup := some (.byId "g1") }]

/-- The same entity with more tags, if its kind carries any. -/
def tagged (e : Entity) (tags : List String) : Entity := e.withTags (e.tags ++ tags)

/-- A group without members. -/
def group (id name : String) : Entity :=
  (Resource.ofDetail .consumerGroup (some id)
    { (default : ConsumerGroup) with name := some name }).toEntity

/-- A gateway on which a team has a service, and which offers a service and a group to all. -/
def sharedGateway : State :=
  .collect [tagged (service "s0" "old") ["team"], tagged (service "s1" "shared") ["platform"],
    tagged (group "g1" "gold") ["platform"]]

/-- A document of the team: a route to the service that is offered, and a consumer who joins the
group that is offered. -/
def teamDocument : Content where
  routes := [⟨Resource.ofDetail .route (some "r1")
    { (default : Route) with name := some "main", service := some (.byName "shared") }, []⟩]
  consumers := [⟨Resource.ofDetail .consumer (some "c1")
    { (default : Consumer) with username := some "alice" }, [], [.byName "gold"]⟩]

/-- What a run may refer to without declaring it: the services and groups that are offered. -/
def offered : LookupTags := { services := ["platform"], consumerGroups := ["platform"] }

/-- The options of the team: it sees its own objects, and may refer to what is offered. -/
def teamOptions : Options where
  selection := .ofTags ["team"]
  lookupTags := offered

end Gateway.Sample
