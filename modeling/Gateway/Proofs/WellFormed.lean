import Gateway.Content.Flat
import Gateway.Proofs.Difference
import Gateway.Proofs.State

/-!
# Well-formed documents

The free maps in an object keep their keys ascending, what is kept of a reference beside its id and
name is neither, and a value that may be absent is not null (`Entity.WellFormed`). Everything that
is read from a document is of this form:
`Entity.wellFormed_of_ofJson?`, `State.wellFormed_of_ofJson?`, `Content.wellFormed_of_ofJson?`.
-/

namespace Gateway

/-! ### Objects -/

/-- The other fields of a reference have ascending keys, of which none is that of the id or the
name. -/
structure ForeignKey.WellFormed (fk : ForeignKey) : Prop where
  extra : (Value.map fk.extra).WellFormed
  id_absent : Dict.get? fk.extra "id" = none
  name_absent : Dict.get? fk.extra "name" = none

/-- A bare id is well formed as a reference: nothing else is written in it. -/
theorem ForeignKey.wellFormed_byId (id : String) : (ForeignKey.byId id).WellFormed where
  extra := ⟨List.Pairwise.nil, trivial⟩
  id_absent := rfl
  name_absent := rfl

/-- The maps in the value of a field have ascending keys, and a field that may be absent is absent
when it would say null. -/
def FieldType.WellFormed : (t : FieldType) → t.Carrier → Prop
  | headers, hs => Dict.Sorted hs
  | optionalLink, fk => ∀ x ∈ fk, x.WellFormed
  | link, fk => fk.WellFormed
  | optionalValue, v => ∀ x ∈ v, x.isNull = false ∧ x.WellFormed
  | settings, m => (Value.map m).WellFormed
  | optionalSettings, m => ∀ x ∈ m, (Value.map x).WellFormed
  | _, _ => True

/-- Every field is well formed. -/
def Record.WellFormed : (fields : List Field) → Record fields → Prop
  | [], _ => True
  | f :: fields, (first, rest) => f.type.WellFormed first ∧ WellFormed fields rest

/-- Every field of the object is well formed. -/
def Resource.WellFormed {k : Kind} (r : Resource k) : Prop :=
  Record.WellFormed k.ownFields (Detail.toRecord k r.detail)

/-- Every field of the entity is well formed. -/
def Entity.WellFormed (e : Entity) : Prop := e.resource.WellFormed

/-- Every member is well formed. -/
def State.WellFormed (s : State) : Prop := ∀ e ∈ s, e.WellFormed

/-! ### Deciding whether something is well formed -/

mutual

/-- Decide whether a value is well formed. -/
def Value.decWellFormed : (v : Value) → Decidable v.WellFormed
  | .null | .bool _ | .num _ | .str _ => isTrue (by rw [Value.WellFormed] <;> simp)
  | .list items =>
    have := Value.decWellFormedItems items
    decidable_of_iff (Value.WellFormedItems items) (by rw [Value.WellFormed])
  | .map entries =>
    have := Value.decWellFormedEntries entries
    decidable_of_iff (entries.Pairwise (·.1 < ·.1) ∧ Value.WellFormedEntries entries)
      (by rw [Value.WellFormed]; rfl)

/-- Decide whether every item is well formed. -/
def Value.decWellFormedItems : (items : List Value) → Decidable (Value.WellFormedItems items)
  | [] => isTrue trivial
  | v :: rest =>
    have := Value.decWellFormed v
    have := Value.decWellFormedItems rest
    decidable_of_iff (v.WellFormed ∧ Value.WellFormedItems rest) (by rw [Value.WellFormedItems])

/-- Decide whether every value of an entry is well formed. -/
def Value.decWellFormedEntries :
    (entries : List (String × Value)) → Decidable (Value.WellFormedEntries entries)
  | [] => isTrue trivial
  | (_, v) :: rest =>
    have := Value.decWellFormed v
    have := Value.decWellFormedEntries rest
    decidable_of_iff (v.WellFormed ∧ Value.WellFormedEntries rest)
      (by rw [Value.WellFormedEntries])

end

/-- Whether a value is well formed can be computed. -/
instance (v : Value) : Decidable v.WellFormed := v.decWellFormed

/-- Whether a reference is well formed can be computed. -/
instance (fk : ForeignKey) : Decidable fk.WellFormed :=
  decidable_of_iff ((Value.map fk.extra).WellFormed ∧ (Dict.get? fk.extra "id").isNone ∧
    (Dict.get? fk.extra "name").isNone)
    ⟨fun h => ⟨h.1, Option.isNone_iff_eq_none.1 h.2.1, Option.isNone_iff_eq_none.1 h.2.2⟩,
      fun h => ⟨h.1, by simp [h.2], by simp [h.3]⟩⟩

/-- Whether the value of a field is well formed can be computed, type by type. -/
instance : (t : FieldType) → (x : t.Carrier) → Decidable (t.WellFormed x)
  | .headers, hs => inferInstanceAs (Decidable (List.Pairwise (·.1 < ·.1) hs))
  | .optionalLink, fk => inferInstanceAs (Decidable (∀ x ∈ fk, x.WellFormed))
  | .link, fk => inferInstanceAs (Decidable fk.WellFormed)
  | .optionalValue, v => inferInstanceAs (Decidable (∀ x ∈ v, x.isNull = false ∧ x.WellFormed))
  | .settings, m => inferInstanceAs (Decidable (Value.map m).WellFormed)
  | .optionalSettings, m => inferInstanceAs (Decidable (∀ x ∈ m, (Value.map x).WellFormed))
  | .text, _ | .optionalText, _ | .optionalBool, _ | .optionalUInt16, _ | .optionalUInt32, _
  | .optionalUInt64, _ | .optionalInt64, _ | .texts, _ | .filledTexts, _ | .partialLinks, _ =>
    isTrue trivial

/-- Decide whether every field is well formed. -/
def Record.decWellFormed : (fields : List Field) → (r : Record fields) →
    Decidable (WellFormed fields r)
  | [], _ => isTrue trivial
  | f :: fields, (first, rest) =>
    have := decWellFormed fields rest
    inferInstanceAs (Decidable (f.type.WellFormed first ∧ WellFormed fields rest))

/-- Whether an entity is well formed can be computed. -/
instance (e : Entity) : Decidable e.WellFormed :=
  Record.decWellFormed e.kind.ownFields (Detail.toRecord e.kind e.resource.detail)

/-- Whether a state is well formed can be computed. -/
instance (s : State) : Decidable s.WellFormed :=
  inferInstanceAs (Decidable (∀ e ∈ s.entities, e.WellFormed))

/-! ### Declarations -/

/-- The route and what is nested under it, as declared. -/
def RouteDecl.declared (d : RouteDecl) : List Entity :=
  d.route.toEntity :: d.plugins.map Resource.toEntity

/-- The service and what is nested under it, as declared. -/
def ServiceDecl.declared (d : ServiceDecl) : List Entity :=
  d.service.toEntity :: (d.routes.flatMap RouteDecl.declared ++ d.plugins.map Resource.toEntity)

/-- The consumer and its plugins, as declared. -/
def ConsumerDecl.declared (d : ConsumerDecl) : List Entity :=
  d.consumer.toEntity :: d.plugins.map Resource.toEntity

/-- The group and its plugins, as declared. -/
def ConsumerGroupDecl.declared (d : ConsumerGroupDecl) : List Entity :=
  d.group.toEntity :: d.plugins.map Resource.toEntity

/-- The upstream and its targets, as declared. -/
def UpstreamDecl.declared (d : UpstreamDecl) : List Entity :=
  d.upstream.toEntity :: d.targets.map Resource.toEntity

/-- The certificate and its names, as declared. -/
def CertificateDecl.declared (d : CertificateDecl) : List Entity :=
  d.certificate.toEntity :: d.snis.map Resource.toEntity

/-- The set and its keys, as declared. -/
def KeySetDecl.declared (d : KeySetDecl) : List Entity :=
  d.keySet.toEntity :: d.keys.map Resource.toEntity

/-- The role and its permissions, as declared. -/
def RoleDecl.declared (d : RoleDecl) : List Entity :=
  d.role.toEntity :: d.permissions.map Resource.toEntity

/-- Every object that a document declares with fields of its own, as declared. -/
def Content.declared (c : Content) : List Entity :=
  c.services.flatMap ServiceDecl.declared ++ c.routes.flatMap RouteDecl.declared ++
    c.consumers.flatMap ConsumerDecl.declared ++
    c.consumerGroups.flatMap ConsumerGroupDecl.declared ++
    c.upstreams.flatMap UpstreamDecl.declared ++
    c.certificates.flatMap CertificateDecl.declared ++ c.keySets.flatMap KeySetDecl.declared ++
    c.roles.flatMap RoleDecl.declared ++ c.plainEntities

/-- Every declared object is well formed. -/
def Content.WellFormed (c : Content) : Prop := ∀ e ∈ c.declared, e.WellFormed

/-- Whether a document is well formed can be computed. -/
instance (c : Content) : Decidable c.WellFormed :=
  inferInstanceAs (Decidable (∀ e ∈ c.declared, e.WellFormed))

/-! ### Reading values -/

namespace Value

/-- A map that is built from well-formed entries is in order, and so well formed. -/
theorem wellFormed_ofEntries {entries : List (String × Value)}
    (h : WellFormedEntries entries) : (ofEntries entries).WellFormed := by
  unfold ofEntries
  rw [WellFormed]
  refine ⟨Dict.sorted_ofList entries, wellFormedEntries_iff.2 fun e he => ?_⟩
  exact wellFormedEntries_iff.1 h e (Dict.mem_of_mem_ofList he)

end Value

namespace Json

mutual

/-- A value that was read is well formed. -/
theorem wellFormed_toValue? : (j : Json) → {v : Value} → j.toValue? = some v → v.WellFormed
  | null, _, h => by cases h; trivial
  | bool _, _, h => by cases h; trivial
  | num _, _, h => by cases h; trivial
  | str _, _, h => by cases h; trivial
  | arr items, _, h => by
    obtain ⟨vs, hvs, rfl⟩ := Option.map_eq_some_iff.1 h
    rw [Value.WellFormed]
    exact wellFormed_itemValues? items hvs
  | obj members, _, h => by
    obtain ⟨es, hes, rfl⟩ := Option.map_eq_some_iff.1 h
    exact Value.wellFormed_ofEntries (wellFormed_memberValues? members hes)
  | unreadable, _, h => by cases h

/-- What is read of the items of a list is well formed. -/
theorem wellFormed_itemValues? : (items : List Json) → {vs : List Value} →
    itemValues? items = some vs → Value.WellFormedItems vs
  | [], _, h => by cases h; trivial
  | j :: rest, _, h => by
    rw [itemValues?] at h
    split at h
    · rename_i v vs hv hvs
      cases h
      exact ⟨wellFormed_toValue? j hv, wellFormed_itemValues? rest hvs⟩
    · cases h

/-- What is read of the members of an object is well formed. -/
theorem wellFormed_memberValues? : (members : List (String × Json)) →
    {es : List (String × Value)} → memberValues? members = some es → Value.WellFormedEntries es
  | [], _, h => by cases h; trivial
  | (_, j) :: rest, _, h => by
    rw [memberValues?] at h
    split at h
    · rename_i v vs hv hvs
      cases h
      exact ⟨wellFormed_toValue? j hv, wellFormed_memberValues? rest hvs⟩
    · cases h

end

/-- Only null is read as null. -/
theorem eq_null_of_toValue? {j : Json} (h : j.toValue? = some .null) : j = null := by
  cases j with
  | null => rfl
  | arr items =>
    obtain ⟨vs, -, hvs⟩ := Option.map_eq_some_iff.1 h
    cases hvs
  | obj members =>
    obtain ⟨es, -, hes⟩ := Option.map_eq_some_iff.1 h
    cases hes
  | _ => cases h

/-- The names of members are those of the values read from them. -/
theorem mem_of_mem_memberValues? {members : List (String × Json)} {es : List (String × Value)}
    (h : memberValues? members = some es) {e : String × Value} (he : e ∈ es) :
    ∃ m ∈ members, m.1 = e.1 := by
  induction members generalizing es with
  | nil =>
    cases h
    cases he
  | cons m rest ih =>
    obtain ⟨k, j⟩ := m
    rw [memberValues?] at h
    split at h
    · rename_i v vs hv hvs
      cases h
      rcases List.mem_cons.1 he with rfl | he
      · exact ⟨_, List.mem_cons_self, rfl⟩
      · obtain ⟨m, hm, hkey⟩ := ih hvs he
        exact ⟨m, List.mem_cons_of_mem _ hm, hkey⟩
    · cases h

/-- What a reader establishes of single values holds of all that it reads from a list. -/
theorem forall_of_readAll {α : Type} {read : Json → Option α} {P : α → Prop}
    (hread : ∀ j a, read j = some a → P a) {js : List Json} {as : List α}
    (h : readAll read js = some as) : ∀ a ∈ as, P a := by
  induction js generalizing as with
  | nil =>
    cases h
    simp
  | cons j rest ih =>
    rw [readAll] at h
    split at h
    · rename_i a as' ha has
      cases h
      intro x hx
      rcases List.mem_cons.1 hx with rfl | hx
      · exact hread j _ ha
      · exact ih has x hx
    · cases h

/-- What holds of everything that can be read holds of the members of lists that can be. -/
theorem forall_of_list? {α : Type} {read : Json → Option α} {P : α → Prop}
    (hread : ∀ j a, read j = some a → P a) {j : Json} {as : List α}
    (h : list? read j = some as) : ∀ a ∈ as, P a := by
  cases j with
  | arr items => exact forall_of_readAll hread h
  | _ => cases h

/-- What a reader establishes holds of a field, where it does of the default. -/
theorem of_fieldOr {α : Type} {read : Json → Option α} {P : α → Prop} {default : α}
    (hdefault : P default) (hread : ∀ j a, read j = some a → P a) {j : Option Json} {a : α}
    (h : fieldOr default read j = some a) : P a := by
  cases j with
  | none =>
    cases h
    exact hdefault
  | some j => exact hread j a h

/-- What a reader establishes where there is no null holds of an optional field. -/
theorem forall_of_optional {α : Type} {read : Json → Option α} {P : α → Prop}
    (hread : ∀ j a, j ≠ null → read j = some a → P a) {j : Option Json} {a : Option α}
    (h : optional read j = some a) : ∀ x ∈ a, P x := by
  refine of_fieldOr (P := fun a => ∀ x ∈ a, P x) (by simp) (fun j a ha => ?_) h
  cases j with
  | null =>
    cases ha
    simp
  | _ =>
    obtain ⟨x, hx, rfl⟩ := Option.map_eq_some_iff.1 ha
    intro y hy
    cases hy
    exact hread _ _ (by simp) hx

/-- Settings that are read are in order, and so well formed. -/
theorem wellFormed_settings? {j : Json} {m : Settings} (h : settings? j = some m) :
    (Value.map m).WellFormed := by
  cases j with
  | obj members =>
    obtain ⟨es, hes, rfl⟩ := Option.map_eq_some_iff.1 h
    exact Value.wellFormed_ofEntries (wellFormed_memberValues? members hes)
  | _ => cases h

end Json

/-! ### Reading objects -/

/-- A reference that is read is well formed. -/
theorem ForeignKey.wellFormed_of_ofJson? {j : Json} {fk : ForeignKey}
    (h : ForeignKey.ofJson? j = some fk) : fk.WellFormed := by
  cases j with
  | obj members =>
    simp only [ofJson?, Option.bind_eq_bind, Option.bind_eq_some_iff, Option.some.injEq] at h
    obtain ⟨_, -, _, -, _, -, _, -, extra, hextra, rfl⟩ := h
    have absent : ∀ name, name = "id" ∨ name = "name" →
        Dict.get? (Dict.ofList extra) name = none := by
      intro name hname
      refine Dict.get?_ofList_eq_none fun v hv => ?_
      obtain ⟨m, hm, hkey⟩ := Json.mem_of_mem_memberValues? hextra hv
      have hp := (List.mem_filter.1 hm).2
      have hkey : m.1 = name := hkey
      rw [hkey] at hp
      rcases hname with rfl | rfl <;> simp at hp
    exact ⟨Value.wellFormed_ofEntries (Json.wellFormed_memberValues? _ hextra),
      absent _ (.inl rfl), absent _ (.inr rfl)⟩
  | _ => cases h

/-- The value of a field that is read is well formed, whatever the type of the field. -/
theorem FieldType.wellFormed_of_read? {t : FieldType} {j : Option Json} {x : t.Carrier}
    (h : t.read? j = some x) : t.WellFormed x := by
  cases t
  case headers =>
    refine Json.of_fieldOr (P := fun x => Dict.Sorted x) List.Pairwise.nil (fun j a ha => ?_) h
    cases j with
    | obj members =>
      obtain ⟨es, -, rfl⟩ := Option.map_eq_some_iff.1 ha
      exact Dict.sorted_ofList es
    | _ => cases ha
  case optionalLink =>
    exact Json.forall_of_optional (fun _ _ _ => ForeignKey.wellFormed_of_ofJson?) h
  case link =>
    refine Json.of_fieldOr (P := ForeignKey.WellFormed) ?_
      (fun _ _ => ForeignKey.wellFormed_of_ofJson?) h
    exact ⟨⟨List.Pairwise.nil, trivial⟩, rfl, rfl⟩
  case optionalValue =>
    refine Json.forall_of_optional (fun j v hj hv => ?_) h
    have hnull : v ≠ .null := by
      rintro rfl
      exact hj (Json.eq_null_of_toValue? hv)
    exact ⟨by cases v <;> first | rfl | exact absurd rfl hnull, Json.wellFormed_toValue? j hv⟩
  case settings =>
    exact Json.of_fieldOr (P := fun m => (Value.map m).WellFormed) ⟨List.Pairwise.nil, trivial⟩
      (fun _ _ => Json.wellFormed_settings?) h
  case optionalSettings =>
    exact Json.forall_of_optional (fun _ _ _ => Json.wellFormed_settings?) h
  all_goals trivial

/-- A record that is read is well formed, field by field. -/
theorem Record.wellFormed_of_read? {fields : List Field} {places : List (Option Json)}
    {r : Record fields} (h : Record.read? fields places = some r) : Record.WellFormed fields r := by
  induction fields generalizing places with
  | nil => trivial
  | cons f fields ih =>
    simp only [Record.read?, Option.bind_eq_bind, Option.bind_eq_some_iff, Option.some.injEq] at h
    obtain ⟨first, hfirst, rest, hrest, rfl⟩ := h
    exact ⟨FieldType.wellFormed_of_read? hfirst, ih hrest⟩

/-- What the kind says of the object can have been read from a document. -/
def Resource.Readable {k : Kind} (r : Resource k) : Prop :=
  ∃ places, Record.read? k.ownFields places = some (Detail.toRecord k r.detail)

/-- What can have been read is well formed. -/
theorem Resource.Readable.wellFormed {k : Kind} {r : Resource k} (h : r.Readable) :
    r.WellFormed := by
  obtain ⟨places, hread⟩ := h
  exact Record.wellFormed_of_read? hread

/-- The fields of an object that is read are read as a record. -/
theorem Resource.readable_of_ofJson? {k : Kind} {j : Json} {r : Resource k}
    (h : Resource.ofJson? k j = some r) : r.Readable := by
  obtain ⟨places, -, h⟩ := Option.bind_eq_some_iff.1 h
  obtain ⟨_, -, h⟩ := Option.bind_eq_some_iff.1 h
  obtain ⟨own, hown, h⟩ := Option.bind_eq_some_iff.1 h
  have hdetail : r.detail = Detail.ofRecord k own := by
    simp only [Option.bind_eq_bind] at h
    split at h <;> obtain ⟨_, -, h⟩ := Option.bind_eq_some_iff.1 h <;>
      obtain ⟨_, -, h⟩ := Option.bind_eq_some_iff.1 h <;> split at h <;>
      obtain ⟨_, -, h⟩ := Option.bind_eq_some_iff.1 h <;> cases h <;> rfl
  refine ⟨places.tail, ?_⟩
  rw [hdetail, Detail.toRecord_ofRecord]
  exact hown

/-- An object that is read is well formed. -/
theorem Resource.wellFormed_of_ofJson? {k : Kind} {j : Json} {r : Resource k}
    (h : Resource.ofJson? k j = some r) : r.WellFormed :=
  (readable_of_ofJson? h).wellFormed

/-- An entity that is read is read as an object of its kind. -/
theorem Entity.readable_of_ofJson? {j : Json} {e : Entity} (h : Entity.ofJson? j = some e) :
    e.resource.Readable := by
  unfold Entity.ofJson? at h
  split at h
  · simp only [Option.bind_eq_bind, Option.bind_eq_some_iff] at h
    obtain ⟨_, -, _, -, _, -, _, -, h⟩ := h
    obtain ⟨_, -, h⟩ := h
    split at h
    · simp [failure] at h
    · simp only [Option.bind_eq_some_iff, Option.some.injEq] at h
      obtain ⟨r, hr, rfl⟩ := h
      exact Resource.readable_of_ofJson? hr
  · simp only [Option.bind_eq_bind, Option.bind_eq_some_iff, Option.some.injEq] at h
    obtain ⟨_, -, r, hr, rfl⟩ := h
    exact Resource.readable_of_ofJson? hr
  · cases h

/-- Every entity that is read is well formed. -/
theorem Entity.wellFormed_of_ofJson? {j : Json} {e : Entity} (h : Entity.ofJson? j = some e) :
    e.WellFormed :=
  (readable_of_ofJson? h).wellFormed

/-! ### Reading states and documents -/

namespace State

/-- What a state holds was inserted, or held before. -/
theorem mem_of_foldlM_insert {es : List Entity} {s t : State} (h : es.foldlM insert s = .ok t)
    {x : Entity} (hx : x ∈ t) : x ∈ s ∨ x ∈ es := by
  induction es generalizing s with
  | nil =>
    cases h
    exact .inl hx
  | cons e rest ih =>
    rw [List.foldlM_cons] at h
    cases hinsert : s.insert e with
    | error err =>
      rw [hinsert] at h
      cases h
    | ok s' =>
      rw [hinsert] at h
      rcases ih h with hx | hx
      · rcases (mem_insert hinsert).1 hx with rfl | hx
        · exact .inr List.mem_cons_self
        · exact .inl hx
      · exact .inr (List.mem_cons_of_mem _ hx)

/-- Every state that is read is well formed. -/
theorem wellFormed_of_ofJson? {j : Json} {s : State} (h : State.ofJson? j = some (.ok s)) :
    s.WellFormed := by
  obtain ⟨es, hes, hs⟩ := Option.map_eq_some_iff.1 h
  intro x hx
  rcases mem_of_foldlM_insert hs hx with hx | hx
  · exact absurd hx not_mem_empty
  · exact Json.forall_of_list? (fun _ _ => Entity.wellFormed_of_ofJson?) hes x hx

end State

/-- The same of lists that may be left out. -/
theorem forall_of_listOr {α : Type} {read : Json → Option α} {P : α → Prop}
    (hread : ∀ j a, read j = some a → P a) {j : Option Json} {as : List α}
    (h : listOr read j = some as) : ∀ a ∈ as, P a := by
  refine Json.of_fieldOr (P := fun as => ∀ a ∈ as, P a) ?_ (fun _ _ => ?_) h
  · simp
  · exact Json.forall_of_list? hread

/-- A list of objects that is read consists of well-formed entities. -/
theorem Resource.wellFormed_of_listOr {k : Kind} {j : Option Json} {rs : List (Resource k)}
    (h : listOr (Resource.ofJson? k) j = some rs) :
    ∀ e ∈ rs.map Resource.toEntity, e.WellFormed := by
  intro e he
  obtain ⟨r, hr, rfl⟩ := List.mem_map.1 he
  exact forall_of_listOr (P := Resource.WellFormed)
    (fun _ _ => Resource.wellFormed_of_ofJson?) h r hr

/-- A list of declarations that is read consists of well-formed entities. -/
theorem wellFormed_flatMap_of_listOr {α : Type} {read : Json → Option α}
    {declared : α → List Entity} (hread : ∀ j d, read j = some d → ∀ e ∈ declared d, e.WellFormed)
    {j : Option Json} {ds : List α} (h : listOr read j = some ds) :
    ∀ e ∈ ds.flatMap declared, e.WellFormed := by
  intro e he
  obtain ⟨d, hd, he⟩ := List.mem_flatMap.1 he
  exact forall_of_listOr (P := fun d => ∀ e ∈ declared d, e.WellFormed) hread h d hd e he

/-- All that a route declares is well formed when the route is read. -/
theorem RouteDecl.wellFormed_of_ofJson? {j : Json} {d : RouteDecl} (h : ofJson? j = some d) :
    ∀ e ∈ d.declared, e.WellFormed := by
  obtain ⟨⟨nested, own⟩, -, h⟩ := Option.bind_eq_some_iff.1 h
  split at h
  · simp only [Option.bind_eq_bind, Option.bind_eq_some_iff, Option.some.injEq] at h
    obtain ⟨route, hroute, plugins, hplugins, rfl⟩ := h
    exact List.forall_mem_cons.2 ⟨Resource.wellFormed_of_ofJson? hroute,
      Resource.wellFormed_of_listOr hplugins⟩
  · cases h

/-- All that a service declares is well formed when the service is read. -/
theorem ServiceDecl.wellFormed_of_ofJson? {j : Json} {d : ServiceDecl} (h : ofJson? j = some d) :
    ∀ e ∈ d.declared, e.WellFormed := by
  obtain ⟨⟨nested, own⟩, -, h⟩ := Option.bind_eq_some_iff.1 h
  split at h
  · simp only [Option.bind_eq_bind, Option.bind_eq_some_iff, Option.some.injEq] at h
    obtain ⟨service, hservice, routes, hroutes, plugins, hplugins, rfl⟩ := h
    exact List.forall_mem_cons.2 ⟨Resource.wellFormed_of_ofJson? hservice,
      List.forall_mem_append.2 ⟨wellFormed_flatMap_of_listOr
        (fun _ _ => RouteDecl.wellFormed_of_ofJson?) hroutes,
        Resource.wellFormed_of_listOr hplugins⟩⟩
  · cases h

/-- All that a consumer declares is well formed when the consumer is read. -/
theorem ConsumerDecl.wellFormed_of_ofJson? {j : Json} {d : ConsumerDecl} (h : ofJson? j = some d) :
    ∀ e ∈ d.declared, e.WellFormed := by
  obtain ⟨⟨nested, own⟩, -, h⟩ := Option.bind_eq_some_iff.1 h
  split at h
  · simp only [Option.bind_eq_bind, Option.bind_eq_some_iff, Option.some.injEq] at h
    obtain ⟨consumer, hconsumer, plugins, hplugins, groups, -, rfl⟩ := h
    exact List.forall_mem_cons.2 ⟨Resource.wellFormed_of_ofJson? hconsumer,
      Resource.wellFormed_of_listOr hplugins⟩
  · cases h

/-- All that a group declares is well formed when the group is read. -/
theorem ConsumerGroupDecl.wellFormed_of_ofJson? {j : Json} {d : ConsumerGroupDecl}
    (h : ofJson? j = some d) : ∀ e ∈ d.declared, e.WellFormed := by
  obtain ⟨⟨nested, own⟩, -, h⟩ := Option.bind_eq_some_iff.1 h
  split at h
  · simp only [Option.bind_eq_bind, Option.bind_eq_some_iff, Option.some.injEq] at h
    obtain ⟨group, hgroup, consumers, -, plugins, hplugins, rfl⟩ := h
    exact List.forall_mem_cons.2 ⟨Resource.wellFormed_of_ofJson? hgroup,
      Resource.wellFormed_of_listOr hplugins⟩
  · cases h

/-- All that an upstream declares is well formed when the upstream is read. -/
theorem UpstreamDecl.wellFormed_of_ofJson? {j : Json} {d : UpstreamDecl} (h : ofJson? j = some d) :
    ∀ e ∈ d.declared, e.WellFormed := by
  obtain ⟨⟨nested, own⟩, -, h⟩ := Option.bind_eq_some_iff.1 h
  split at h
  · simp only [Option.bind_eq_bind, Option.bind_eq_some_iff, Option.some.injEq] at h
    obtain ⟨upstream, hupstream, targets, htargets, rfl⟩ := h
    exact List.forall_mem_cons.2 ⟨Resource.wellFormed_of_ofJson? hupstream,
      Resource.wellFormed_of_listOr htargets⟩
  · cases h

/-- All that a certificate declares is well formed when the certificate is read. -/
theorem CertificateDecl.wellFormed_of_ofJson? {j : Json} {d : CertificateDecl}
    (h : ofJson? j = some d) : ∀ e ∈ d.declared, e.WellFormed := by
  obtain ⟨⟨nested, own⟩, -, h⟩ := Option.bind_eq_some_iff.1 h
  split at h
  · simp only [Option.bind_eq_bind, Option.bind_eq_some_iff, Option.some.injEq] at h
    obtain ⟨certificate, hcertificate, snis, hsnis, rfl⟩ := h
    exact List.forall_mem_cons.2 ⟨Resource.wellFormed_of_ofJson? hcertificate,
      Resource.wellFormed_of_listOr hsnis⟩
  · cases h

/-- All that a set declares is well formed when the set is read. -/
theorem KeySetDecl.wellFormed_of_ofJson? {j : Json} {d : KeySetDecl} (h : ofJson? j = some d) :
    ∀ e ∈ d.declared, e.WellFormed := by
  obtain ⟨⟨nested, own⟩, -, h⟩ := Option.bind_eq_some_iff.1 h
  split at h
  · simp only [Option.bind_eq_bind, Option.bind_eq_some_iff, Option.some.injEq] at h
    obtain ⟨keySet, hkeySet, keys, hkeys, rfl⟩ := h
    exact List.forall_mem_cons.2 ⟨Resource.wellFormed_of_ofJson? hkeySet,
      Resource.wellFormed_of_listOr hkeys⟩
  · cases h

/-- All that a role declares is well formed when the role is read. -/
theorem RoleDecl.wellFormed_of_ofJson? {j : Json} {d : RoleDecl} (h : ofJson? j = some d) :
    ∀ e ∈ d.declared, e.WellFormed := by
  obtain ⟨⟨nested, own⟩, -, h⟩ := Option.bind_eq_some_iff.1 h
  split at h
  · simp only [Option.bind_eq_bind, Option.bind_eq_some_iff, Option.some.injEq] at h
    obtain ⟨role, hrole, permissions, hpermissions, rfl⟩ := h
    exact List.forall_mem_cons.2 ⟨Resource.wellFormed_of_ofJson? hrole,
      Resource.wellFormed_of_listOr hpermissions⟩
  · cases h

/-- A document is read list by list. -/
theorem Content.ofJson?_eq_some_iff {j : Json} {c : Content} : Content.ofJson? j = some c ↔
    ∃ services routes plugins consumers groups upstreams targets certificates snis cas vaults
      keySets keys partials licenses roles permissions customs,
      Json.fields? listNames j = some [services, routes, plugins, consumers, groups, upstreams,
        targets, certificates, snis, cas, vaults, keySets, keys, partials, licenses, roles,
        permissions, customs] ∧
      listOr ServiceDecl.ofJson? services = some c.services ∧
      listOr RouteDecl.ofJson? routes = some c.routes ∧
      listOr (Resource.ofJson? .plugin) plugins = some c.plugins ∧
      listOr ConsumerDecl.ofJson? consumers = some c.consumers ∧
      listOr ConsumerGroupDecl.ofJson? groups = some c.consumerGroups ∧
      listOr UpstreamDecl.ofJson? upstreams = some c.upstreams ∧
      listOr (Resource.ofJson? .target) targets = some c.targets ∧
      listOr CertificateDecl.ofJson? certificates = some c.certificates ∧
      listOr (Resource.ofJson? .sni) snis = some c.snis ∧
      listOr (Resource.ofJson? .caCertificate) cas = some c.caCertificates ∧
      listOr (Resource.ofJson? .vault) vaults = some c.vaults ∧
      listOr KeySetDecl.ofJson? keySets = some c.keySets ∧
      listOr (Resource.ofJson? .key) keys = some c.keys ∧
      listOr (Resource.ofJson? .partialConfig) partials = some c.partials ∧
      listOr (Resource.ofJson? .license) licenses = some c.licenses ∧
      listOr RoleDecl.ofJson? roles = some c.roles ∧
      listOr (Resource.ofJson? .permission) permissions = some c.permissions ∧
      listOr (Resource.ofJson? .custom) customs = some c.customObjects := by
  constructor
  · intro h
    obtain ⟨lists, hlists, h⟩ := Option.bind_eq_some_iff.1 h
    split at h
    · obtain ⟨services, hservices, h⟩ := Option.bind_eq_some_iff.1 h
      obtain ⟨routes, hroutes, h⟩ := Option.bind_eq_some_iff.1 h
      obtain ⟨plugins, hplugins, h⟩ := Option.bind_eq_some_iff.1 h
      obtain ⟨consumers, hconsumers, h⟩ := Option.bind_eq_some_iff.1 h
      obtain ⟨groups, hgroups, h⟩ := Option.bind_eq_some_iff.1 h
      obtain ⟨upstreams, hupstreams, h⟩ := Option.bind_eq_some_iff.1 h
      obtain ⟨targets, htargets, h⟩ := Option.bind_eq_some_iff.1 h
      obtain ⟨certificates, hcertificates, h⟩ := Option.bind_eq_some_iff.1 h
      obtain ⟨snis, hsnis, h⟩ := Option.bind_eq_some_iff.1 h
      obtain ⟨cas, hcas, h⟩ := Option.bind_eq_some_iff.1 h
      obtain ⟨vaults, hvaults, h⟩ := Option.bind_eq_some_iff.1 h
      obtain ⟨keySets, hkeySets, h⟩ := Option.bind_eq_some_iff.1 h
      obtain ⟨keys, hkeys, h⟩ := Option.bind_eq_some_iff.1 h
      obtain ⟨partials, hpartials, h⟩ := Option.bind_eq_some_iff.1 h
      obtain ⟨licenses, hlicenses, h⟩ := Option.bind_eq_some_iff.1 h
      obtain ⟨roles, hroles, h⟩ := Option.bind_eq_some_iff.1 h
      obtain ⟨permissions, hpermissions, h⟩ := Option.bind_eq_some_iff.1 h
      obtain ⟨customs, hcustoms, h⟩ := Option.bind_eq_some_iff.1 h
      cases h
      exact ⟨_, _, _, _, _, _, _, _, _, _, _, _, _, _, _, _, _, _, hlists, hservices, hroutes,
        hplugins, hconsumers, hgroups, hupstreams, htargets, hcertificates, hsnis, hcas, hvaults,
        hkeySets, hkeys, hpartials, hlicenses, hroles, hpermissions, hcustoms⟩
    · cases h
  · rintro ⟨_, _, _, _, _, _, _, _, _, _, _, _, _, _, _, _, _, _, hlists, hservices, hroutes,
      hplugins, hconsumers, hgroups, hupstreams, htargets, hcertificates, hsnis, hcas, hvaults,
      hkeySets, hkeys, hpartials, hlicenses, hroles, hpermissions, hcustoms⟩
    have bind_eq_some : ∀ {α β : Type} {x : Option α} {f : α → Option β} {a : α} {b : β},
        x = some a → f a = some b → x.bind f = some b := by
      rintro α β x f a b rfl h
      exact h
    exact bind_eq_some hlists <| bind_eq_some hservices <| bind_eq_some hroutes <|
      bind_eq_some hplugins <| bind_eq_some hconsumers <| bind_eq_some hgroups <|
      bind_eq_some hupstreams <| bind_eq_some htargets <| bind_eq_some hcertificates <|
      bind_eq_some hsnis <| bind_eq_some hcas <| bind_eq_some hvaults <| bind_eq_some hkeySets <|
      bind_eq_some hkeys <| bind_eq_some hpartials <| bind_eq_some hlicenses <|
      bind_eq_some hroles <| bind_eq_some hpermissions <| bind_eq_some hcustoms <| rfl

/-- Every document that is read is well formed. -/
theorem Content.wellFormed_of_ofJson? {j : Json} {c : Content} (h : Content.ofJson? j = some c) :
    c.WellFormed := by
  obtain ⟨_, _, _, _, _, _, _, _, _, _, _, _, _, _, _, _, _, _, -, hservices, hroutes, hplugins,
    hconsumers, hgroups, hupstreams, htargets, hcertificates, hsnis, hcas, hvaults, hkeySets, hkeys,
    hpartials, hlicenses, hroles, hpermissions, hcustoms⟩ := ofJson?_eq_some_iff.1 h
  intro e he
  simp only [declared, plainEntities, List.mem_append, or_assoc] at he
  rcases he with he | he | he | he | he | he | he | he | he | he | he | he | he | he | he | he |
    he | he
  · exact wellFormed_flatMap_of_listOr (fun _ _ => ServiceDecl.wellFormed_of_ofJson?) hservices
      _ he
  · exact wellFormed_flatMap_of_listOr (fun _ _ => RouteDecl.wellFormed_of_ofJson?) hroutes _ he
  · exact wellFormed_flatMap_of_listOr (fun _ _ => ConsumerDecl.wellFormed_of_ofJson?) hconsumers
      _ he
  · exact wellFormed_flatMap_of_listOr (fun _ _ => ConsumerGroupDecl.wellFormed_of_ofJson?)
      hgroups _ he
  · exact wellFormed_flatMap_of_listOr (fun _ _ => UpstreamDecl.wellFormed_of_ofJson?) hupstreams
      _ he
  · exact wellFormed_flatMap_of_listOr (fun _ _ => CertificateDecl.wellFormed_of_ofJson?)
      hcertificates _ he
  · exact wellFormed_flatMap_of_listOr (fun _ _ => KeySetDecl.wellFormed_of_ofJson?) hkeySets _ he
  · exact wellFormed_flatMap_of_listOr (fun _ _ => RoleDecl.wellFormed_of_ofJson?) hroles _ he
  · exact Resource.wellFormed_of_listOr hplugins _ he
  · exact Resource.wellFormed_of_listOr htargets _ he
  · exact Resource.wellFormed_of_listOr hsnis _ he
  · exact Resource.wellFormed_of_listOr hcas _ he
  · exact Resource.wellFormed_of_listOr hvaults _ he
  · exact Resource.wellFormed_of_listOr hkeys _ he
  · exact Resource.wellFormed_of_listOr hpartials _ he
  · exact Resource.wellFormed_of_listOr hlicenses _ he
  · exact Resource.wellFormed_of_listOr hpermissions _ he
  · exact Resource.wellFormed_of_listOr hcustoms _ he

end Gateway
