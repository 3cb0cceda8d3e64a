import Gateway.Proofs.Reading
import Gateway.Proofs.Sameness

/-!
# Bodies lose nothing

The body of an object is what is written of it, without the fields that the gateway sets
(`Resource.erase_volatileFields`). It is the written form of the object without its id and time
stamps, so it determines all the rest: objects of one kind that were read from documents have equal
bodies when they are equal but for these, and bodies that are the same when every other field is the
same (`Resource.body_lossless`).
-/

namespace Gateway

/-- The fields that are not compared: the gateway sets them. -/
def volatileFields : List String := ["id", "created_at", "updated_at"]

namespace Resource

variable {k : Kind} {r r' : Resource k}

/-- The same object without its id and time stamps. -/
def cleared (r : Resource k) : Resource k :=
  { r with id := none, createdAt := none, updatedAt := none, updatedAt_eq_none := fun _ => rfl }

/-- Every field is the same. -/
structure Same (r r' : Resource k) : Prop where
  id : r.id = r'.id
  own : Record.Same k.ownFields (Detail.toRecord k r.detail) (Detail.toRecord k r'.detail)
  tags : r.tags = r'.tags
  createdAt : r.createdAt = r'.createdAt
  updatedAt : r.updatedAt = r'.updatedAt

/-! ### Written forms and bodies -/

/-- No body holds anything under the name of a field that is not compared. -/
theorem get?_body_volatile {key : String} (h : key ∈ volatileFields) :
    Dict.get? r.toEntity.body key = none := by
  have hnodup := k.nodup_names
  simp only [List.nodup_cons, List.mem_cons, not_or] at hnodup
  obtain ⟨⟨-, -, -, hid⟩, -, ⟨-, hcreated⟩, hupdated, -⟩ := hnodup
  simp only [volatileFields, List.mem_cons, List.not_mem_nil, or_false] at h
  rcases h with rfl | rfl | rfl
  · exact get?_body_eq_none (by decide) hid
  · exact get?_body_eq_none (by decide) hcreated
  · exact get?_body_eq_none (by decide) hupdated

/-- The body is what is left of the written fields without those that are not compared. -/
theorem erase_volatileFields (r : Resource k) :
    volatileFields.foldl Dict.erase r.toSettings = r.toEntity.body := by
  have hsorted : Dict.Sorted (volatileFields.foldl Dict.erase r.toSettings) :=
    ((r.sorted_toSettings.erase _).erase _).erase _
  refine Dict.ext_get? hsorted (Entity.sorted_body _) fun key => ?_
  have hget : Dict.get? (volatileFields.foldl Dict.erase r.toSettings) key =
      if key ∈ volatileFields then none else Dict.get? r.toSettings key := by
    simp only [volatileFields, List.foldl_cons, List.foldl_nil, Dict.get?_erase, List.mem_cons,
      List.not_mem_nil, or_false, eq_comm (a := key)]
    grind
  rw [hget]
  split
  · rename_i hkey
    exact (get?_body_volatile hkey).symm
  · rename_i hkey
    simp only [volatileFields, List.mem_cons, List.not_mem_nil, or_false, not_or] at hkey
    obtain ⟨hid, hcreated, hupdated⟩ := hkey
    rw [get?_toSettings, if_neg (Ne.symm hupdated), if_neg (Ne.symm hcreated),
      if_neg (Ne.symm hid), Option.none_or, Option.none_or, Option.or_none]

/-- Without id and time stamps, an object is written as its body. -/
theorem toValue_cleared (r : Resource k) : r.cleared.toValue = .map r.toEntity.body := by
  have hentries : r.cleared.entries = r.bodyEntries := by
    show [] ++ r.bodyEntries ++ [] ++ [] = r.bodyEntries
    simp
  rw [toValue, toSettings, hentries]
  rfl

/-- Time stamps make no difference to what can be read. -/
theorem readable_cleared (h : r.Readable) : r.cleared.Readable := h

/-- Objects that can have been read have equal bodies when they are equal but for id and time
stamps. -/
theorem body_eq_iff (hr : r.Readable) (hr' : r'.Readable) :
    r.toEntity.body = r'.toEntity.body ↔ r.cleared = r'.cleared := by
  constructor
  · intro h
    have hread := ofJson?_toValue (readable_cleared hr)
    have hread' := ofJson?_toValue (readable_cleared hr')
    rw [toValue_cleared, h] at hread
    rw [toValue_cleared, hread] at hread'
    exact Option.some.inj hread'
  · intro h
    have hvalue := congrArg toValue h
    rw [toValue_cleared, toValue_cleared] at hvalue
    exact Value.map.inj hvalue

/-- The bodies of objects that can have been read are the same when every field is, id and time
stamps apart. -/
theorem sameBody_iff (hr : r.Readable) (hr' : r'.Readable) :
    r.toEntity.sameBody r'.toEntity = true ↔ r.cleared.Same r'.cleared := by
  rw [Entity.sameBody_iff_of_links (Record.WellFormed.links hr.wellFormed)
    (Record.WellFormed.links hr'.wellFormed)]
  constructor
  · rintro ⟨hown, htags⟩
    exact ⟨rfl, hown, htags, rfl, rfl⟩
  · intro h
    exact ⟨h.own, h.tags⟩

/-- The bodies of objects that can have been read show no difference when they are the same. -/
theorem differences_body_eq_nil_iff (hr : r.Readable) (hr' : r'.Readable) :
    Value.differences r.toEntity.body r'.toEntity.body = [] ↔
      r.toEntity.sameBody r'.toEntity = true := by
  have wellFormed_body : ∀ {r : Resource k}, r.Readable →
      (Value.map r.toEntity.body).WellFormed := by
    intro r hr
    rw [← toValue_cleared]
    exact wellFormed_toValue (readable_cleared hr).wellFormed
  exact Value.differencesFrom_eq_nil_iff_same _ (wellFormed_body hr) _ (wellFormed_body hr')

/-! ### Objects that were read -/

/-- Bodies lose nothing. What is written of an object that was read from a document is a map, and
the body is this map without the fields that are not compared. The bodies of two objects of one
kind are equal exactly when the objects are, once these fields are cleared; and the bodies are the
same, and show no difference, exactly when every other field of the two objects is the same. -/
theorem body_lossless {j j' : Json} (h : ofJson? k j = some r) (h' : ofJson? k j' = some r') :
    (∀ x ∈ [r, r'], ∃ m, x.toValue.asMap? = some m ∧
        volatileFields.foldl Dict.erase m = x.toEntity.body) ∧
      (r.toEntity.body = r'.toEntity.body ↔ r.cleared = r'.cleared) ∧
      (r.toEntity.sameBody r'.toEntity = true ↔ r.cleared.Same r'.cleared) ∧
      (Value.differences r.toEntity.body r'.toEntity.body = [] ↔ r.cleared.Same r'.cleared) := by
  have hr : r.Readable := readable_of_ofJson? h
  have hr' : r'.Readable := readable_of_ofJson? h'
  have hsame := sameBody_iff hr hr'
  exact ⟨fun x _ => ⟨x.toSettings, rfl, x.erase_volatileFields⟩, body_eq_iff hr hr', hsame,
    (differences_body_eq_nil_iff hr hr').trans hsame⟩

/-- A plugin with an id that samples at some rate. -/
def sampler (id : String) (rate : Double) : Json :=
  .obj [("id", .str id), ("name", .str "tracer"), ("created_at", .num (.whole 7)),
    ("service", .obj [("name", .str "shop"), ("zone", .str "eu")]),
    ("config", .obj [("rate", .num (.double rate))])]

/-- Plugins that differ in their ids alone have one body, and where the one samples at zero and the
other at minus zero the bodies are still the same. -/
theorem body_lossless_of_samplers :
    (∃ r r' : Resource .plugin, ofJson? .plugin (sampler "p1" 0) = some r ∧
      ofJson? .plugin (sampler "p2" 0) = some r' ∧ r.id ≠ r'.id ∧
      r.toEntity.body = r'.toEntity.body) ∧
    ∃ r r' : Resource .plugin, ofJson? .plugin (sampler "p1" 0) = some r ∧
      ofJson? .plugin (sampler "p2" 0x8000000000000000) = some r' ∧
      (Value.map r.toEntity.body).text ≠ (Value.map r'.toEntity.body).text ∧
      r.cleared.Same r'.cleared := by
  have hids : (ofJson? .plugin (sampler "p1" 0)).any (fun r =>
      (ofJson? .plugin (sampler "p2" 0)).any fun r' => r.id != r'.id) = true := by
    decide +kernel
  have hcleared : (ofJson? .plugin (sampler "p1" 0)).map cleared =
      (ofJson? .plugin (sampler "p2" 0)).map cleared := by
    rfl
  have hzeros : (ofJson? .plugin (sampler "p1" 0)).any (fun r =>
      (ofJson? .plugin (sampler "p2" 0x8000000000000000)).any fun r' =>
        (Value.map r.toEntity.body).text != (Value.map r'.toEntity.body).text &&
          r.toEntity.sameBody r'.toEntity) = true := by
    decide +kernel
  constructor
  · obtain ⟨r, hr, hany⟩ := (Option.any_eq_true _ _).1 hids
    obtain ⟨r', hr', hne⟩ := (Option.any_eq_true _ _).1 hany
    rw [hr, hr'] at hcleared
    obtain ⟨-, hbody, -⟩ := body_lossless hr hr'
    exact ⟨r, r', hr, hr', by simpa using hne, hbody.2 (Option.some.inj hcleared)⟩
  · obtain ⟨r, hr, hany⟩ := (Option.any_eq_true _ _).1 hzeros
    obtain ⟨r', hr', hboth⟩ := (Option.any_eq_true _ _).1 hany
    obtain ⟨hne, hsame⟩ := Bool.and_eq_true_iff.1 hboth
    obtain ⟨-, -, hiff, -⟩ := body_lossless hr hr'
    exact ⟨r, r', hr, hr', by simpa using hne, hiff.1 hsame⟩

end Resource

end Gateway
