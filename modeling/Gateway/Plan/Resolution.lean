import Gateway.Plan.Check

/-!
# Resolution

Resolution turns flat declarations into the state they ask for: every reference becomes the id of an
object, and every object gets the id under which the gateway knows it, if it does. Kinds come in
order of creation, so whatever an entity refers to has its final id before it is looked up.

An object of the gateway is recognised by its natural key, then by its fallback key, then by its
id, and only among what the selection shows (`State.match?`). References find declared objects
first, then objects of the gateway that carry a lookup tag (`Resolution.lookUp`).
-/

namespace Gateway

/-! ### Ids that were given up -/

/-- Declared ids that gave way to the id of a stored object. -/
structure Moves where
  entries : List (Reference × String) := []
  deriving Inhabited

namespace Moves

/-- The id that stands for a declared one. -/
def resolve (m : Moves) (kind : Kind) (id : String) : String :=
  ((m.entries.find? (·.1 == ⟨kind, id⟩)).map (·.2)).getD id

/-- Note that an id gave way to another, forgetting what was noted of it before. -/
def record (m : Moves) (kind : Kind) (id target : String) : Moves :=
  ⟨(⟨kind, id⟩, target) :: m.entries.filter (·.1 != ⟨kind, id⟩)⟩

/-- How many ids gave way. -/
def size (m : Moves) : Nat := m.entries.length

/-- Whether no id gave way. -/
def isEmpty (m : Moves) : Bool := m.entries.isEmpty

end Moves

/-! ### Recognising objects -/

/-- The entity of a state that another entity denotes. -/
def State.match? (s : State) (e : Entity) : Option Entity :=
  (e.naturalKey?.bind (s.getByKey? e.kind)) <|> (e.fallbackKey?.bind (s.getByKey? e.kind)) <|>
    (e.id?.bind (s.get? e.kind))

namespace Entity

/-- The same entity with the id that follows from its references, for kinds that have one. The id
of a membership always follows; that of a permission may be declared. -/
def withDerivedId (e : Entity) : Entity :=
  match e with
  | ⟨.membership, r⟩ => ⟨.membership, { r with id := r.detail.derivedId? }⟩
  | ⟨.permission, r⟩ => ⟨.permission, { r with id := r.id <|> r.detail.derivedId? }⟩
  | e => e

/-- Equal in all that is compared. -/
def sameBody (a b : Entity) : Bool := Value.same (.map a.body) (.map b.body)

/-- The text of the natural key, empty where there is none. -/
def keyText (e : Entity) : String := (e.naturalKey?.map (·.text)).getD ""

end Entity

/-! ### The state of a resolution -/

/-- What has been resolved so far, and what it is resolved against. -/
structure Resolution where
  options : Options
  /-- All that the gateway holds. -/
  current : State
  /-- What the selection shows of it. -/
  visible : State
  /-- What has been resolved. -/
  desired : State
  moves : Moves

namespace Resolution

/-- Nothing is resolved yet. -/
def start (o : Options) (current : State) : Resolution where
  options := o
  current := current
  visible := current.select o.selection
  desired := .empty
  moves := {}

/-! ### References -/

/-- Whether an object of the gateway may be referred to without being declared. -/
def isShared (r : Resolution) (e : Entity) : Bool :=
  e.hasAnyTag (r.options.lookupTags.forKind e.kind)

/-- The id of the one entity that a reference means. -/
def only (owner : String) (kind : Kind) (reference : String) : List Entity → Except PlanError String
  | [] => .error (.notFound owner kind reference)
  | [e] => .ok e.idText
  | es => .error (.ambiguous owner kind reference es.length)

/-- The entities that a name means: declared ones, or else shared ones. -/
def named (r : Resolution) (kind : Kind) (name : String) : List Entity :=
  let declared := (r.desired.ofKind kind).filter (·.answersToName name)
  if declared.isEmpty then
    (r.current.ofKind kind).filter fun e => r.isShared e && e.answersToName name
  else declared

/-- The id of the object that a reference means. A reference by neither id nor name means the one
shared object of its kind. -/
def lookUp (r : Resolution) (owner : String) (kind : Kind) (fk : ForeignKey) :
    Except PlanError String :=
  if !fk.isBare then .error (.nestedParent owner kind fk.label)
  else match fk.id, fk.name with
    | some declared, _ =>
      let id := r.moves.resolve kind declared
      if r.desired.contains kind id || (r.current.get? kind id).any r.isShared then .ok id
      else .error (.notFound owner kind declared)
    | none, some name => only owner kind name (r.named kind name)
    | none, none =>
      let tags := r.options.lookupTags.forKind kind
      if tags.isEmpty then .error (.notFound owner kind "<unqualified reference>")
      else only owner kind ("tagged " ++ ",".intercalate tags)
        ((r.current.ofKind kind).filter r.isShared)

/-- An entity all of whose references are replaced by the ids they mean. -/
def link (r : Resolution) (e : Entity) : Except PlanError Entity := e.relink (r.lookUp e.describe)

/-! ### Admission -/

/-- Refuse an entity whose natural key has been declared before, or whose id belongs to an object
that the selection hides. -/
def refuse (r : Resolution) (e : Entity) : Except PlanError Unit :=
  if (r.desired.keyHolder? e).isSome then .error (.duplicate e.kind e.keyText e.label)
  else match e.id? with
    | some id =>
      if r.current.contains e.kind id && !r.visible.contains e.kind id then
        .error (.conflict e.kind id)
      else .ok ()
    | none => .ok ()

/-- Give an entity its final id: that of the stored object it denotes, else the declared one, else a
fresh one. -/
def settle (r : Resolution) (e : Entity) : Planning (Entity × Moves) := do
  match r.visible.match? e, e.id? with
  | some stored, some declared =>
    if declared = stored.idText then return (e, r.moves)
    else return (e.withId stored.idText, r.moves.record e.kind declared stored.idText)
  | some stored, none => return (e.withId stored.idText, r.moves)
  | none, some _ => return (e, r.moves)
  | none, none => return (e.withId (← Planning.freshId), r.moves)

/-- Add an entity to what has been resolved. -/
def add (r : Resolution) (e : Entity) (moves : Moves) : Except PlanError Resolution :=
  match r.desired.insert e with
  | .ok desired => .ok { r with desired := desired, moves := moves }
  | .error err => .error (.state err)

/-- Tag, identify and add an entity all of whose references are resolved. -/
def accept (r : Resolution) (e : Entity) : Planning Resolution := do
  let e := r.options.selection.apply e
  r.refuse e
  let (e, moves) ← r.settle e
  r.add e moves

/-- Whether a declaration only repeats an earlier one. A membership may be declared by both its
sides, and a plugin of a consumer-group as often as it says the same. -/
def repeats (r : Resolution) (e : Entity) : Except PlanError Bool :=
  match e.kind with
  | .membership => .ok (r.desired.keyHolder? e).isSome
  | .plugin =>
    if e.isGroupScoped then
      let e := r.options.selection.apply e
      match r.desired.keyHolder? e with
      | some first =>
        if first.sameBody e then .ok true else .error (.differingPlugin e.keyText e.label)
      | none => .ok false
    else .ok false
  | _ => .ok false

/-- Resolve one declared entity. -/
def step (r : Resolution) (e : Entity) : Planning Resolution := do
  let linked ← r.link e
  let e := linked.withDerivedId
  if ← r.repeats e then return r else r.accept e

/-- Declared entities in the order in which they are resolved. -/
def inOrder (es : List Entity) : List Entity := Kind.creationOrder.flatMap (entitiesOfKind es)

/-- The state that flat declarations ask for. -/
def run (o : Options) (current : State) (es : List Entity) : Planning State := do
  return (← (inOrder es).foldlM step (start o current)).desired

end Resolution

/-- The state that declarations ask for. -/
def Content.resolve (c : Content) (current : State) (o : Options) : Planning State := do
  let es ← c.flatten
  o.check es
  Resolution.run o current es

end Gateway
