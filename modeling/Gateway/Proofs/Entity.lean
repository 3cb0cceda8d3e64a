import Gateway.Plan.Diff
import Gateway.Plan.Resolution

/-!
# What the identity of an entity does not depend on

Resolution and planning change ids, tags and time stamps of entities and leave the rest alone. What
an entity refers to and the keys it is recognised by are part of the rest: they survive
`Entity.withId`, `Entity.withTags`, `Entity.withoutTimestamps`, `Entity.withDerivedId` and
`Selection.apply`.
-/

namespace Gateway

namespace Entity

/-- Kind and id, as a reference to the entity. -/
def ref (e : Entity) : Reference := ⟨e.kind, e.idText⟩

@[simp] theorem ref_kind (e : Entity) : e.ref.kind = e.kind := rfl

@[simp] theorem ref_id (e : Entity) : e.ref.id = e.idText := rfl

/-- The id of an entity that has one. -/
theorem idText_of_id? {e : Entity} {id : String} (h : e.id? = some id) : e.idText = id := by
  rw [idText, h, Option.getD_some]

/-- An entity that has an id has its text as id. -/
theorem id?_of_isSome {e : Entity} (h : e.id?.isSome) : e.id? = some e.idText := by
  obtain ⟨id, hid⟩ := Option.isSome_iff_exists.1 h
  rw [hid, idText_of_id? hid]

/-! ### Ids -/

section withId

variable (e : Entity) (id : String)

@[simp] theorem kind_withId : (e.withId id).kind = e.kind := rfl

@[simp] theorem id?_withId : (e.withId id).id? = some id := rfl

@[simp] theorem idText_withId : (e.withId id).idText = id := rfl

@[simp] theorem tags_withId : (e.withId id).tags = e.tags := rfl

@[simp] theorem naturalKey?_withId : (e.withId id).naturalKey? = e.naturalKey? := rfl

@[simp] theorem fallbackKey?_withId : (e.withId id).fallbackKey? = e.fallbackKey? := rfl

@[simp] theorem references_withId : (e.withId id).references = e.references := rfl

@[simp] theorem links_withId : (e.withId id).links = e.links := rfl

@[simp] theorem withId_withId (id' : String) : (e.withId id).withId id' = e.withId id' := rfl

@[simp] theorem body_withId : (e.withId id).body = e.body := rfl

/-- Setting the id that is there changes nothing. -/
theorem withId_of_id? {e : Entity} {id : String} (h : e.id? = some id) : e.withId id = e := by
  obtain ⟨k, r⟩ := e
  cases r
  cases h
  rfl

end withId

/-! ### Tags -/

section withTags

variable (e : Entity) (tags : List String)

@[simp] theorem kind_withTags : (e.withTags tags).kind = e.kind := rfl

@[simp] theorem id?_withTags : (e.withTags tags).id? = e.id? := rfl

@[simp] theorem idText_withTags : (e.withTags tags).idText = e.idText := rfl

@[simp] theorem naturalKey?_withTags : (e.withTags tags).naturalKey? = e.naturalKey? := rfl

@[simp] theorem fallbackKey?_withTags : (e.withTags tags).fallbackKey? = e.fallbackKey? := rfl

@[simp] theorem references_withTags : (e.withTags tags).references = e.references := rfl

@[simp] theorem tags_withTags :
    (e.withTags tags).tags = if e.kind.taggable then tags else [] := rfl

end withTags

section apply

variable (sel : Selection) (e : Entity)

@[simp] theorem kind_apply : (sel.apply e).kind = e.kind := rfl

@[simp] theorem id?_apply : (sel.apply e).id? = e.id? := rfl

@[simp] theorem naturalKey?_apply : (sel.apply e).naturalKey? = e.naturalKey? := rfl

@[simp] theorem fallbackKey?_apply : (sel.apply e).fallbackKey? = e.fallbackKey? := rfl

@[simp] theorem references_apply : (sel.apply e).references = e.references := rfl

theorem apply_withId (id : String) : sel.apply (e.withId id) = (sel.apply e).withId id := rfl

/-- An entity of a kind with tags carries every tag of a selection that was applied to it. -/
theorem mem_tags_apply {t : String} (ht : t ∈ sel.tags) (h : e.kind.taggable = true) :
    t ∈ (sel.apply e).tags := by
  simp only [Selection.apply, tags_withTags, h, if_true, List.mem_append, List.mem_filter]
  by_cases hmem : t ∈ e.tags
  · exact .inl hmem
  · exact .inr ⟨ht, by simpa using hmem⟩

end apply

/-! ### Time stamps -/

end Entity

/-- An object says what another one says, but for its time stamps, of which it has none. -/
structure Resource.Unstamped {k : Kind} (bare r : Resource k) : Prop where
  id : bare.id = r.id
  detail : bare.detail = r.detail
  tags : bare.tags = r.tags
  createdAt : bare.createdAt = none
  updatedAt : bare.updatedAt = none

namespace Entity

/-- An entity is another one of its kind without the time stamps. -/
inductive Unstamped : Entity → Entity → Prop
  | mk {k : Kind} {bare r : Resource k} (h : bare.Unstamped r) : Unstamped bare.toEntity r.toEntity

section withoutTimestamps

variable (e : Entity)

@[simp] theorem kind_withoutTimestamps : e.withoutTimestamps.kind = e.kind := rfl

@[simp] theorem id?_withoutTimestamps : e.withoutTimestamps.id? = e.id? := rfl

@[simp] theorem idText_withoutTimestamps : e.withoutTimestamps.idText = e.idText := rfl

@[simp] theorem tags_withoutTimestamps : e.withoutTimestamps.tags = e.tags := rfl

@[simp] theorem admits_withoutTimestamps (sel : Selection) :
    sel.admits e.withoutTimestamps = sel.admits e := rfl

@[simp] theorem naturalKey?_withoutTimestamps :
    e.withoutTimestamps.naturalKey? = e.naturalKey? := rfl

@[simp] theorem references_withoutTimestamps :
    e.withoutTimestamps.references = e.references := rfl

@[simp] theorem comparable_withoutTimestamps : e.withoutTimestamps.comparable = e.comparable := rfl

/-- Leaving out the time stamps does that and no more. -/
theorem unstamped_withoutTimestamps : e.withoutTimestamps.Unstamped e :=
  .mk ⟨rfl, rfl, rfl, rfl, rfl⟩

end withoutTimestamps

/-! ### Derived ids -/

section withDerivedId

variable (e : Entity)

@[simp] theorem kind_withDerivedId : e.withDerivedId.kind = e.kind := by
  obtain ⟨k, r⟩ := e
  cases k <;> rfl

@[simp] theorem naturalKey?_withDerivedId : e.withDerivedId.naturalKey? = e.naturalKey? := by
  obtain ⟨k, r⟩ := e
  cases k <;> rfl

@[simp] theorem fallbackKey?_withDerivedId : e.withDerivedId.fallbackKey? = e.fallbackKey? := by
  obtain ⟨k, r⟩ := e
  cases k <;> rfl

@[simp] theorem links_withDerivedId : e.withDerivedId.links = e.links := by
  obtain ⟨k, r⟩ := e
  cases k <;> rfl

@[simp] theorem references_withDerivedId : e.withDerivedId.references = e.references := by
  unfold references
  rw [links_withDerivedId]

end withDerivedId

/-- Whichever comes first, they have one natural key. -/
theorem SameKey.symm {a b : Entity} (h : SameKey a b) : SameKey b a :=
  ⟨h.1.symm, h.2.1.symm, h.2.1 ▸ h.2.2⟩

end Entity

end Gateway
