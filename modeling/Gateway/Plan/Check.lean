import Gateway.Content.Flat
import Gateway.Options

/-!
# Checks of flat declarations

What is wrong with declarations whatever the gateway holds: objects that the gateway cannot take
(`Capabilities.faults`), objects that a selection cannot confine (`Selection.faults`), and objects
that lack a field they need (`fieldFaults`). `Options.check` reports the first fault.
-/

namespace Gateway

namespace Entity

/-- The field that an entity of a kind cannot do without, and does. -/
def missingField? (e : Entity) : Option String :=
  match e with
  | ⟨.partialConfig, r⟩ => if Text.allBlank (r.detail.sort.getD "") then some "type" else none
  | ⟨.plugin, r⟩ => if Text.allBlank r.detail.name then some "name" else none
  | ⟨.target, r⟩ => if r.detail.upstream.isNone then some "upstream" else none
  | ⟨.sni, r⟩ => if r.detail.certificate.isNone then some "certificate" else none
  | ⟨.permission, r⟩ => if r.detail.role.isNone then some "role" else none
  | ⟨.consumer, r⟩ =>
    if r.detail.username.isNone && r.detail.customId.isNone && r.id.isNone then
      some "username or custom_id"
    else none
  | _ => none

/-- What to call an entity that lacks a field. A plugin without name is called by its scope. -/
def faultLabel (e : Entity) : String :=
  match e with
  | ⟨.plugin, r⟩ => r.detail.scopeLabel
  | e => e.label

/-- Whether this is a plugin in the scope of a consumer-group. -/
def isGroupScoped (e : Entity) : Bool :=
  match e with
  | ⟨.plugin, r⟩ => r.detail.consumerGroup.isSome
  | _ => false

/-- Whether this is a plugin with links to shared configuration. -/
def linksPartials (e : Entity) : Bool :=
  match e with
  | ⟨.plugin, r⟩ => !r.detail.partials.isEmpty
  | _ => false

end Entity

/-- The entities of a kind, in order. -/
def entitiesOfKind (es : List Entity) (kind : Kind) : List Entity := es.filter (·.kind == kind)

/-- Objects that the gateway cannot take: kinds first, then uses of plugins. -/
def Capabilities.faults (c : Capabilities) (es : List Entity) : List PlanError :=
  let refused := Kind.creationOrder.filter fun kind =>
    !(entitiesOfKind es kind).isEmpty && !c.supports kind
  let grouped := if c.consumerGroupScoping then [] else es.filter Entity.isGroupScoped
  let sharing := if c.partials then [] else es.filter Entity.linksPartials
  refused.map (fun kind => .unsupported kind (entitiesOfKind es kind).length) ++
    grouped.map (fun e => .groupScope e.label) ++ sharing.map fun e => .sharedConfig e.label

/-- The kinds that a selection cannot confine; memberships are confined by their groups. -/
def unconfinedKinds : List Kind := [.license, .role, .permission]

/-- Kinds that an active selection cannot confine. -/
def Selection.faults (sel : Selection) (es : List Entity) : List PlanError :=
  if sel.isActive then
    (unconfinedKinds.filter fun kind => !(entitiesOfKind es kind).isEmpty).map .untaggable
  else []

/-- The kinds with needed fields, in the order in which they are checked. -/
def checkedKinds : List Kind := [.partialConfig, .plugin, .target, .sni, .permission, .consumer]

/-- Entities that lack a field they need. -/
def fieldFaults (es : List Entity) : List PlanError :=
  (checkedKinds.flatMap (entitiesOfKind es)).filterMap fun e =>
    e.missingField?.map fun field => .missingField e.kind e.faultLabel field

namespace Options

/-- All faults of flat declarations. -/
def faults (o : Options) (es : List Entity) : List PlanError :=
  o.capabilities.faults es ++ o.selection.faults es ++ fieldFaults es

/-- Report the first fault. -/
def check (o : Options) (es : List Entity) : Except PlanError Unit :=
  match o.faults es with
  | fault :: _ => .error fault
  | [] => .ok ()

end Options

end Gateway
