import Gateway.State

/-!
# Selections

Several teams may share a gateway, each working on the objects that carry its tags. A `Selection`
is the tags of one run. While it is active, only entities with one of these tags are visible to the
run (`State.select`), and every entity that the run writes gets all of them (`Selection.apply`).
-/

namespace Gateway

/-- The tags of a run, ascending and without repetition; none when the run sees everything. -/
structure Selection where
  tags : List String
  deriving DecidableEq, Repr, Inhabited

namespace Selection

/-- The selection that hides nothing. -/
def everything : Selection := ⟨[]⟩

/-- The selection of a list of tags. -/
def ofTags (tags : List String) : Selection := ⟨Dict.distinct tags⟩

/-- Whether anything is hidden. -/
def isActive (sel : Selection) : Bool := !sel.tags.isEmpty

/-- Whether an entity is inside the selection. -/
def admits (sel : Selection) (e : Entity) : Bool :=
  !sel.isActive || (e.kind.taggable && e.hasAnyTag sel.tags)

/-- The entity with those tags of the selection added that it does not carry yet. -/
def apply (sel : Selection) (e : Entity) : Entity :=
  e.withTags (e.tags ++ sel.tags.filter fun t => !e.tags.contains t)

end Selection

namespace State

/-- Whether a run with a selection sees an entity. Memberships are seen where their consumer-group
is; other kinds without tags are not seen under a selection. -/
def visible (s : State) (sel : Selection) (e : Entity) : Bool :=
  match e with
  | ⟨.membership, r⟩ =>
    !sel.isActive ||
      ((r.detail.consumerGroup.id.bind (s.get? .consumerGroup ·)).map sel.admits).getD false
  | e => sel.admits e

/-- What a run with a selection sees. -/
def select (s : State) (sel : Selection) : State := s.filter (s.visible sel)

end State

end Gateway
