import Gateway.Entity.Codec

/-!
# States

The objects that a gateway holds, or is to hold. A `State` lists its entities in the order of
creation of their kinds and within a kind by id; every entity has an id, no two of one kind share
an id, and no two of one kind share a natural key. These facts are part of the type, so two states
with the same entities are equal and every look-up finds at most one entity. `State.insert` refuses
what would break them; all other operations only take entities away.
-/

namespace Gateway

/-! ### The order of entities -/

namespace Entity

/-- Before another entity: of a kind that is created earlier, or of the same kind and with a
smaller id. -/
def Precedes (a b : Entity) : Prop :=
  a.kind.rank < b.kind.rank ∨ (a.kind = b.kind ∧ a.idText < b.idText)

instance : DecidableRel Precedes := fun a b => by unfold Precedes; infer_instance

theorem Precedes.trans {a b c : Entity} (h₁ : Precedes a b) (h₂ : Precedes b c) :
    Precedes a c := by
  rcases h₁ with h₁ | ⟨k₁, h₁⟩ <;> rcases h₂ with h₂ | ⟨k₂, h₂⟩
  · exact .inl (Nat.lt_trans h₁ h₂)
  · exact .inl (k₂ ▸ h₁)
  · exact .inl (k₁ ▸ h₂)
  · exact .inr ⟨k₁.trans k₂, String.lt_trans h₁ h₂⟩

/-- Two entities that differ in kind or id stand in one order or the other. -/
theorem precedes_of_not_precedes {a b : Entity} (h : ¬Precedes a b)
    (ne : ¬(a.kind = b.kind ∧ a.idText = b.idText)) : Precedes b a := by
  simp only [Precedes, not_or, not_and, Nat.not_lt] at h ⊢
  by_cases hk : a.kind = b.kind
  · right
    refine ⟨hk.symm, Decidable.byContradiction fun hlt => ne ⟨hk, ?_⟩⟩
    exact String.le_antisymm (String.not_lt.1 hlt) (String.not_lt.1 (h.2 hk))
  · left
    have : b.kind.rank ≠ a.kind.rank := fun he => hk (Kind.rank_inj he).symm
    omega

/-- Of one kind and with one natural key. -/
def SameKey (a b : Entity) : Prop :=
  a.kind = b.kind ∧ a.naturalKey? = b.naturalKey? ∧ a.naturalKey?.isSome

end Entity

/-! ### States -/

/-- The objects of a gateway. -/
structure State where
  entities : List Entity
  /-- Kinds stand in order of creation, ids ascend within a kind. -/
  ordered : entities.Pairwise Entity.Precedes
  /-- Every entity has an id. -/
  identified : ∀ e ∈ entities, e.id?.isSome
  /-- No two entities of one kind share a natural key. -/
  keyed : entities.Pairwise fun a b => ¬Entity.SameKey a b

/-- Why an entity cannot be added to a state. -/
inductive StateError
  | missingId (kind : Kind) (label : String)
  | duplicateId (kind : Kind) (id : String)
  | duplicateKey (kind : Kind) (key : String) (first second : String)
  deriving DecidableEq, Repr

/-- The text of the error. -/
def StateError.message : StateError → String
  | missingId kind label => kind.name ++ " " ++ label ++ " has no id and cannot be indexed"
  | duplicateId kind id => kind.name ++ " with id " ++ id ++ " is declared more than once"
  | duplicateKey kind key first second =>
    kind.name ++ " " ++ key ++ " is declared more than once (ids " ++ first ++ " and " ++ second ++
      ")"

namespace State

/-- No objects. -/
def empty : State := ⟨[], .nil, by simp, .nil⟩

instance : Inhabited State := ⟨empty⟩

/-! ### Looking up -/

/-- The entity of a kind with an id. -/
def get? (s : State) (kind : Kind) (id : String) : Option Entity :=
  s.entities.find? fun e => e.kind == kind && e.id? == some id

/-- The entity of a kind with a natural key. -/
def getByKey? (s : State) (kind : Kind) (key : NaturalKey) : Option Entity :=
  s.entities.find? fun e => e.kind == kind && e.naturalKey? == some key

/-- Whether there is an entity of a kind with an id. -/
def contains (s : State) (kind : Kind) (id : String) : Bool := (s.get? kind id).isSome

/-- The entities of a kind, ids ascending. -/
def ofKind (s : State) (kind : Kind) : List Entity := s.entities.filter (·.kind == kind)

/-- How many entities there are of a kind. -/
def count (s : State) (kind : Kind) : Nat := (s.ofKind kind).length

/-- How many entities there are. -/
def size (s : State) : Nat := s.entities.length

/-- Whether there are no entities. -/
def isEmpty (s : State) : Bool := s.entities.isEmpty

/-! ### Taking away -/

/-- The entities that satisfy a condition. -/
def filter (s : State) (p : Entity → Bool) : State where
  entities := s.entities.filter p
  ordered := s.ordered.filter p
  identified e he := s.identified e (List.mem_filter.1 he).1
  keyed := s.keyed.filter p

/-- All entities but the one of a kind with an id. -/
def erase (s : State) (kind : Kind) (id : String) : State :=
  s.filter fun e => !(e.kind == kind && e.id? == some id)

/-- All entities but the one in whose place a new one would stand. -/
def without (s : State) (e : Entity) : State :=
  match e.id? with
  | some id => s.erase e.kind id
  | none => s

/-! ### Adding -/

/-- Put an entity into its place in the order. -/
def place (e : Entity) : List Entity → List Entity
  | [] => [e]
  | x :: rest => if e.Precedes x then e :: x :: rest else x :: place e rest

theorem mem_place {e x : Entity} {es : List Entity} : x ∈ place e es ↔ x = e ∨ x ∈ es := by
  induction es with
  | nil => simp [place]
  | cons y rest ih =>
    rw [place]
    split
    · simp
    · simp only [List.mem_cons, ih]; grind

/-- A relation that a new entity has to all others, on whichever side, survives its being put into
place. -/
theorem pairwise_place {R : Entity → Entity → Prop} {e : Entity} {es : List Entity}
    (h : es.Pairwise R) (before : ∀ x ∈ es, e.Precedes x → R e x)
    (after : ∀ x ∈ es, ¬e.Precedes x → R x e)
    (step : ∀ x ∈ es, ∀ y ∈ es, e.Precedes x → R x y → R e y) :
    (place e es).Pairwise R := by
  induction es with
  | nil => simp [place]
  | cons y rest ih =>
    rw [List.pairwise_cons] at h
    rw [place]
    split
    · next hp =>
      refine List.pairwise_cons.2 ⟨fun x hx => ?_, List.pairwise_cons.2 h⟩
      rcases List.mem_cons.1 hx with rfl | hx
      · exact before x (by simp) hp
      · exact step y (by simp) x (by simp [hx]) hp (h.1 x hx)
    · next hp =>
      refine List.pairwise_cons.2 ⟨fun x hx => ?_, ?_⟩
      · rcases mem_place.1 hx with rfl | hx
        · exact after y (by simp) hp
        · exact h.1 x hx
      · exact ih h.2 (fun x hx => before x (by simp [hx])) (fun x hx => after x (by simp [hx]))
          fun x hx z hz => step x (by simp [hx]) z (by simp [hz])

/-- The entity of the same kind that has the natural key already. -/
def keyHolder? (s : State) (e : Entity) : Option Entity :=
  e.naturalKey?.bind (s.getByKey? e.kind)

private theorem not_same_id {s : State} {e x : Entity} {id : String} (hid : e.id? = some id)
    (h : s.get? e.kind id = none) (hx : x ∈ s.entities) :
    ¬(e.kind = x.kind ∧ e.idText = x.idText) := by
  rintro ⟨hk, ht⟩
  have hs := s.identified x hx
  have := List.find?_eq_none.1 h x hx
  obtain ⟨i, hi⟩ := Option.isSome_iff_exists.1 hs
  simp only [Entity.idText, hid, hi, Option.getD_some] at ht
  subst ht
  simp [hk, hi] at this

private theorem not_same_key {s : State} {e x : Entity} (h : s.keyHolder? e = none)
    (hx : x ∈ s.entities) : ¬Entity.SameKey e x := by
  rintro ⟨hk, he, hs⟩
  obtain ⟨key, hkey⟩ := Option.isSome_iff_exists.1 hs
  simp only [keyHolder?, hkey, Option.bind_some, getByKey?] at h
  have := List.find?_eq_none.1 h x hx
  simp [hk, ← he, hkey] at this

/-- Add a new entity. It has to have an id, and neither its id nor its natural key may be taken
among the entities of its kind. -/
def insert (s : State) (e : Entity) : Except StateError State :=
  match hid : e.id? with
  | none => .error (.missingId e.kind e.label)
  | some id =>
    match hget : s.get? e.kind id with
    | some _ => .error (.duplicateId e.kind id)
    | none =>
      match hkey : s.keyHolder? e with
      | some holder =>
        .error (.duplicateKey e.kind ((e.naturalKey?.map (·.text)).getD "") holder.idText id)
      | none => .ok {
          entities := place e s.entities
          ordered := pairwise_place s.ordered (fun _ _ h => h)
            (fun _ hx h => Entity.precedes_of_not_precedes h (not_same_id hid hget hx))
            (fun _ _ _ _ h₁ h₂ => h₁.trans h₂)
          identified := fun x hx => by
            rcases mem_place.1 hx with rfl | hx
            · simp [hid]
            · exact s.identified x hx
          keyed := pairwise_place s.keyed (fun _ hx _ => not_same_key hkey hx)
            (fun _ hx _ h => not_same_key hkey hx ⟨h.1.symm, h.2.1.symm, h.2.1 ▸ h.2.2⟩)
            (fun _ _ _ hy _ _ => not_same_key hkey hy)
        }

/-- Add an entity, in place of the one of its kind that has its id. The state that is left when
this fails is `s.without e`. -/
def upsert (s : State) (e : Entity) : Except StateError State := (s.without e).insert e

/-- The state after an attempt to upsert. -/
def afterUpsert (s : State) (e : Entity) : State :=
  match s.upsert e with
  | .ok s' => s'
  | .error _ => s.without e

/-- The state of a list of entities, none of which may be a duplicate. -/
def ofEntities (es : List Entity) : Except StateError State := es.foldlM insert empty

/-- The state of a list of entities, in which those without id are dropped and a later entity
takes the place of an earlier one with its id. -/
def collect (es : List Entity) : State := es.foldl afterUpsert empty

/-! ### Written form -/

/-- The written form: the list of entities. -/
def toValue (s : State) : Value := .list (s.entities.map Entity.toValue)

/-- Read a state: a list of entities that is free of duplicates. -/
def ofJson? (j : Json) : Option (Except StateError State) :=
  (Json.list? Entity.ofJson? j).map ofEntities

end State

end Gateway
