import Gateway.Proofs.Entity
import Gateway.Proofs.WellFormed

/-!
# What bodies without difference have in common

A well-formed entity does not differ from itself (`Entity.differences_self`). Two entities of one
kind whose bodies show no difference agree in everything that keys and references are made of
(`Record.agree_of_unchanged`), so they have the same natural key and the same references
(`Entity.naturalKey?_of_differences`, `Entity.references_of_differences`).
-/

namespace Gateway

/-! ### Bodies -/

namespace Dict

variable {α : Type}

/-- Later entries count before earlier ones. -/
theorem get?_ofList_append (es fs : List (String × α)) (key : String) :
    get? (ofList (es ++ fs)) key = (get? (ofList fs) key).or (get? (ofList es) key) := by
  simp only [get?_ofList, List.reverse_append, List.find?_append]
  cases fs.reverse.find? (·.1 == key) <;> rfl

/-- An entry that is there only when there is a value. -/
theorem get?_ofList_toList {β : Type} (f : β → α) (key : String) (v : Option β) (k : String) :
    get? (ofList (v.toList.map fun b => (key, f b))) k = if key = k then v.map f else none := by
  cases v with
  | none =>
    rw [Option.map_none, ite_self]
    rfl
  | some b => rfl

end Dict

namespace Record

/-- No field writes an entry under a name that is no field's. -/
theorem get?_entries_eq_none {fields : List Field} (r : Record fields) {key : String}
    (h : key ∉ fields.map (·.name)) : Dict.get? (Dict.ofList (entries fields r)) key = none := by
  induction fields with
  | nil => rfl
  | cons f fields ih =>
    obtain ⟨first, rest⟩ := r
    rw [List.map_cons, List.mem_cons, not_or] at h
    rw [entries, Dict.get?_ofList_append, Dict.get?_ofList_toList, ih rest h.2,
      if_neg (Ne.symm h.1)]
    rfl

/-- What is written of a record is, under the name of the first field, what is written of it, and
under all other names what is written of the rest. -/
theorem get?_entries_cons {f : Field} {fields : List Field} (first : f.type.Carrier)
    (rest : Record fields) (h : f.name ∉ fields.map (·.name)) (key : String) :
    Dict.get? (Dict.ofList (entries (f :: fields) (first, rest))) key =
      if f.name = key then f.type.write? first
      else Dict.get? (Dict.ofList (entries fields rest)) key := by
  rw [entries, Dict.get?_ofList_append, Dict.get?_ofList_toList]
  split
  · rename_i heq
    rw [get?_entries_eq_none rest (heq ▸ h), Option.none_or, Option.map_id']
  · rw [Option.or_none]

end Record

namespace Kind

/-- No two fields of a kind have one name, and none is called as the tags are. -/
theorem nodup_ownFields (k : Kind) : ("tags" :: k.ownFields.map (·.name)).Nodup := by
  cases k <;> decide

end Kind

namespace Entity

variable {e : Entity} {key : String}

/-- Under every name but that of the tags, a body holds what is written of the kind's fields. -/
theorem get?_body (h : key ≠ "tags") : Dict.get? e.body key =
    Dict.get? (Dict.ofList (Record.entries e.kind.ownFields
      (Detail.toRecord e.kind e.resource.detail))) key := by
  unfold body Resource.bodyEntries
  rw [Dict.get?_ofList_append]
  split
  · have htags := Dict.get?_ofList_toList id "tags" (some (Value.texts e.resource.tags)) key
    rw [if_neg h.symm] at htags
    exact (congrArg (Option.or · _) htags).trans Option.none_or
  · exact Option.none_or

/-- Under the name of the tags, the body of an object whose kind carries any holds the tags. -/
theorem get?_body_tags (e : Entity) : Dict.get? e.body "tags" =
    if e.kind.taggable then some (.texts e.tags) else none := by
  obtain ⟨htags, -⟩ := List.nodup_cons.1 e.kind.nodup_ownFields
  unfold body Resource.bodyEntries
  rw [Dict.get?_ofList_append, Record.get?_entries_eq_none _ htags, Option.or_none]
  split <;> rfl

/-- A body is in order, being built entry by entry. -/
theorem sorted_body (e : Entity) : Dict.Sorted e.body := Dict.sorted_ofList _

end Entity

/-! ### No difference in one place -/

namespace Value

/-- A well-formed map stays so when a well-formed value is inserted. -/
theorem wellFormed_insert {d : Settings} (h : (map d).WellFormed) (key : String) {v : Value}
    (hv : v.WellFormed) : (map (Dict.insert d key v)).WellFormed := by
  rw [WellFormed] at h ⊢
  refine ⟨h.1.insert key v, wellFormedEntries_iff.2 fun e he => ?_⟩
  rcases Dict.mem_insert he with rfl | he
  · exact hv
  · exact wellFormedEntries_iff.1 h.2 e he

/-- There is no difference between what stands in a place before and after. -/
def Unchanged : Option Value → Option Value → Prop
  | none, w => w = none
  | some v, w => differencesFrom v w = []

variable {v w : Option Value} {old new : Settings}

/-- There is no difference when nothing has changed under any key. -/
theorem differences_eq_nil_iff (hs : Dict.Sorted old) :
    differences old new = [] ↔ ∀ key, Unchanged (Dict.get? old key) (Dict.get? new key) := by
  unfold differences
  rw [differencesFrom_map_eq_nil_iff hs]
  constructor
  · rintro ⟨hold, hnew⟩ key
    cases hget : Dict.get? old key with
    | none => exact hnew key hget
    | some v => exact hold key v hget
  · intro h
    constructor
    · intro key v hget
      have hkey := h key
      rwa [hget] at hkey
    · intro key hget
      have hkey := h key
      rwa [hget] at hkey

namespace Unchanged

/-- Nothing has appeared, and nothing has gone. -/
theorem isSome_eq (h : Unchanged v w) : v.isSome = w.isSome := by
  cases v with
  | none =>
    cases h
    rfl
  | some v =>
    cases w with
    | some w => rfl
    | none =>
      have hnone : differencesFrom v none = [] := h
      rw [differencesFrom.eq_def] at hnone
      cases v <;> simp [sameOption] at hnone

/-- What is no map is the same as before. -/
theorem same {v : Value} (hv : v.asMap? = none) (h : Unchanged (some v) w) :
    sameOption (some v) w = true :=
  (differencesFrom_eq_nil_iff hv).1 h

/-- A text is the text it was. -/
theorem asText?_eq (h : Unchanged v w) : v.bind asText? = w.bind asText? := by
  cases v with
  | none =>
    cases h
    rfl
  | some v =>
    have hsome := h.isSome_eq
    obtain ⟨w, rfl⟩ := Option.isSome_iff_exists.1 hsome.symm
    cases v with
    | map entries =>
      cases w with
      | str s =>
        have hstr : differencesFrom (map entries) (some (str s)) = [] := h
        rw [differencesFrom.eq_def] at hstr
        simp [sameOption, Value.same] at hstr
      | _ => rfl
    | str s =>
      have hsame : Value.same (str s) w = true := h.same rfl
      rw [eq_str_of_same hsame]
    | _ =>
      cases w with
      | str t =>
        have hsame := h.same rfl
        simp [sameOption, Value.same] at hsame
      | _ => rfl

/-- A map is unchanged under every key. -/
theorem get? (hs : Dict.Sorted old) (h : Unchanged (some (map old)) (some (map new)))
    (key : String) : Unchanged (Dict.get? old key) (Dict.get? new key) :=
  (differences_eq_nil_iff hs).1 h key

end Unchanged

end Value

/-! ### No difference in one field -/

namespace ForeignKey

variable {fk fk' : ForeignKey}

/-- A reference is written as a map with its name under `name`, its id under `id`, and whatever else
it holds under its own keys. -/
theorem WellFormed.exists_toValue (h : fk.WellFormed) : ∃ d, fk.toValue = .map d ∧
    (Value.map d).WellFormed ∧ ∀ key, Dict.get? d key =
      if "name" = key then fk.name.map Value.str
      else if "id" = key then fk.id.map Value.str else Dict.get? fk.extra key := by
  obtain ⟨id, name, extra⟩ := fk
  have put : ∀ {d : Settings} (key : String) (s : Option String), (Value.map d).WellFormed →
      ∃ d', s.elim d (fun s => Dict.insert d key (.str s)) = d' ∧
        (Value.map d').WellFormed ∧ ∀ k, Dict.get? d' k =
          if key = k then (s.map Value.str).or (Dict.get? d k) else Dict.get? d k := by
    intro d key s hd
    cases s with
    | none =>
      refine ⟨d, rfl, hd, fun k => ?_⟩
      simp
    | some s =>
      refine ⟨_, rfl, Value.wellFormed_insert hd key trivial, fun k => ?_⟩
      rw [Option.elim_some, Dict.get?_insert]
      simp
  obtain ⟨d₁, h₁, hwf₁, hget₁⟩ := put "id" id h.extra
  obtain ⟨d₂, h₂, hwf₂, hget₂⟩ := put "name" name hwf₁
  refine ⟨d₂, ?_, hwf₂, fun key => ?_⟩
  · rw [← h₂, ← h₁]
    cases id <;> cases name <;> rfl
  · rw [hget₂, hget₁]
    split
    · rename_i heq
      have habsent : Dict.get? extra key = none := heq ▸ h.name_absent
      rw [if_neg (by rw [← heq]; decide), habsent, Option.or_none]
    · split
      · rename_i heq
        have habsent : Dict.get? extra key = none := heq ▸ h.id_absent
        rw [habsent, Option.or_none]
      · rfl

/-- The id of a reference that shows no difference is the same. -/
theorem id_eq_of_unchanged (h : fk.WellFormed) (h' : fk'.WellFormed)
    (hsame : Value.Unchanged (some fk.toValue) (some fk'.toValue)) : fk.id = fk'.id := by
  obtain ⟨d, hd, hwf, hget⟩ := h.exists_toValue
  obtain ⟨d', hd', -, hget'⟩ := h'.exists_toValue
  rw [hd, hd'] at hsame
  rw [Value.WellFormed] at hwf
  have htext := (hsame.get? hwf.1 "id").asText?_eq
  rw [hget, hget'] at htext
  cases hfk : fk.id <;> cases hfk' : fk'.id <;> simp_all [Value.asText?]

end ForeignKey

namespace PartialLink

/-- Links that are written as the same value are equal. -/
theorem eq_of_same {l l' : PartialLink} (h : Value.same l.toValue l'.toValue = true) : l = l' := by
  have get?_toValue : ∀ l : PartialLink, ∃ d, l.toValue = .map d ∧
      Dict.get? d "id" = l.id.map Value.str ∧ Dict.get? d "name" = l.name.map Value.str ∧
        Dict.get? d "path" = l.path.map Value.str := by
    intro l
    refine ⟨_, rfl, ?_, ?_, ?_⟩ <;> simp [Dict.get?_ofList_append, Dict.get?_ofList_toList]
  obtain ⟨d, hd, hid, hname, hpath⟩ := get?_toValue l
  obtain ⟨d', hd', hid', hname', hpath'⟩ := get?_toValue l'
  rw [hd, hd', Value.same] at h
  have hsame := Value.sameOption_get? h
  have h₁ := hsame "id"
  have h₂ := hsame "name"
  have h₃ := hsame "path"
  rw [hid, hid'] at h₁
  rw [hname, hname'] at h₂
  rw [hpath, hpath'] at h₃
  obtain ⟨id, name, path⟩ := l
  obtain ⟨id', name', path'⟩ := l'
  rw [mk.injEq]
  have eq_of_texts : ∀ {s t : Option String},
      Value.sameOption (s.map Value.str) (t.map Value.str) = true → s = t :=
    Value.eq_of_sameOption Value.eq_of_same_str
  exact ⟨eq_of_texts h₁, eq_of_texts h₂, eq_of_texts h₃⟩

end PartialLink

namespace FieldType

/-- What keys and references are made of agrees in two values of a field. -/
def Agree : (t : FieldType) → t.Carrier → t.Carrier → Prop
  | text, s, s' => s = s'
  | optionalText, s, s' => s = s'
  | optionalLink, fk, fk' => fk.isSome = fk'.isSome ∧ fk.bind (·.id) = fk'.bind (·.id)
  | link, fk, fk' => fk.id = fk'.id
  | filledTexts, ts, ts' => ts = ts'
  | partialLinks, ls, ls' => ls.map (·.id) = ls'.map (·.id)
  | settings, m, m' =>
    ∀ key, (Dict.get? m key).bind Value.asText? = (Dict.get? m' key).bind Value.asText?
  | _, _, _ => True

/-- The reference in a field, if it holds one, has a property. -/
def Links (P : ForeignKey → Prop) : (t : FieldType) → t.Carrier → Prop
  | optionalLink, fk => ∀ x ∈ fk, P x
  | link, fk => P fk
  | _, _ => True

/-- Lists that are written unless empty, and show no difference, are empty together. -/
theorem isEmpty_eq_of_unchanged {α : Type} {as bs : List α} {v w : Value}
    (h : Value.Unchanged (if as.isEmpty then none else some v)
      (if bs.isEmpty then none else some w)) : as.isEmpty = bs.isEmpty := by
  have hsome := h.isSome_eq
  cases has : as.isEmpty <;> cases hbs : bs.isEmpty <;> simp_all

/-- What is written unchanged agrees, field by field. -/
theorem agree_of_unchanged {t : FieldType} {x y : t.Carrier} (hx : t.WellFormed x)
    (hy : t.Links ForeignKey.WellFormed y) (h : Value.Unchanged (t.write? x) (t.write? y)) :
    t.Agree x y := by
  cases t
  case text => exact Option.some.inj h.asText?_eq
  case optionalText =>
    have htext := h.asText?_eq
    cases x <;> cases y <;> simp_all [write?, Value.asText?, Agree]
  case optionalLink =>
    have hsome := h.isSome_eq
    cases x with
    | none => cases y <;> simp_all [write?, Agree]
    | some fk =>
      cases y with
      | none => simp [write?] at hsome
      | some fk' => exact ⟨rfl, ForeignKey.id_eq_of_unchanged (hx fk rfl) (hy fk' rfl) h⟩
  case link => exact ForeignKey.id_eq_of_unchanged hx hy h
  case filledTexts =>
    rw [write?, write?] at h
    have hempty := isEmpty_eq_of_unchanged h
    by_cases hnil : List.isEmpty x
    · have hx : x = [] := List.isEmpty_iff.1 hnil
      have hy : y = [] := List.isEmpty_iff.1 (hempty ▸ hnil)
      exact hx.trans hy.symm
    · rw [if_neg hnil, if_neg (hempty ▸ hnil)] at h
      exact Value.eq_of_same_texts (h.same rfl)
  case partialLinks =>
    rw [write?, write?] at h
    have hempty := isEmpty_eq_of_unchanged h
    by_cases hnil : List.isEmpty x
    · have hx : x = [] := List.isEmpty_iff.1 hnil
      have hy : y = [] := List.isEmpty_iff.1 (hempty ▸ hnil)
      rw [hx, hy]
      rfl
    · rw [if_neg hnil, if_neg (hempty ▸ hnil)] at h
      have hsame := h.same rfl
      rw [Value.sameOption, Value.same] at hsame
      exact congrArg (List.map _) (Value.eq_of_sameItems (fun _ _ => PartialLink.eq_of_same) hsame)
  case settings =>
    intro key
    exact (h.get? hx.1 key).asText?_eq
  all_goals trivial

end FieldType

/-! ### No difference in any field -/

namespace Record

/-- Every field agrees. -/
def Agree : (fields : List Field) → Record fields → Record fields → Prop
  | [], _, _ => True
  | f :: fields, (x, rest), (y, rest') => f.type.Agree x y ∧ Agree fields rest rest'

/-- The references in all fields have a property. -/
def Links (P : ForeignKey → Prop) : (fields : List Field) → Record fields → Prop
  | [], _ => True
  | f :: fields, (first, rest) => f.type.Links P first ∧ Links P fields rest

/-- What holds of what is written under each name holds of what is written of the first field, and
of what is written of the rest. -/
theorem written_cons_iff (R : Option Value → Option Value → Prop) {f : Field}
    {fields : List Field} {x y : f.type.Carrier} {rest rest' : Record fields}
    (hname : f.name ∉ fields.map (·.name)) :
    (∀ key ∈ (f :: fields).map (·.name),
      R (Dict.get? (Dict.ofList (entries (f :: fields) (x, rest))) key)
        (Dict.get? (Dict.ofList (entries (f :: fields) (y, rest'))) key)) ↔
    R (f.type.write? x) (f.type.write? y) ∧ ∀ key ∈ fields.map (·.name),
      R (Dict.get? (Dict.ofList (entries fields rest)) key)
        (Dict.get? (Dict.ofList (entries fields rest')) key) := by
  rw [List.map_cons, List.forall_mem_cons]
  simp only [get?_entries_cons _ _ hname, if_true]
  refine and_congr_right fun _ => forall₂_congr fun key hkey => ?_
  have hne : f.name ≠ key := by
    rintro rfl
    exact hname hkey
  rw [if_neg hne, if_neg hne]

/-- Records agree when nothing that is written of them shows a difference. -/
theorem agree_of_unchanged {fields : List Field} {r r' : Record fields}
    (hnames : (fields.map (·.name)).Nodup) (hr : WellFormed fields r)
    (hr' : Links ForeignKey.WellFormed fields r')
    (h : ∀ key ∈ fields.map (·.name),
      Value.Unchanged (Dict.get? (Dict.ofList (entries fields r)) key)
        (Dict.get? (Dict.ofList (entries fields r')) key)) : Agree fields r r' := by
  induction fields with
  | nil => trivial
  | cons f fields ih =>
    obtain ⟨x, rest⟩ := r
    obtain ⟨y, rest'⟩ := r'
    obtain ⟨hname, hnames⟩ := List.nodup_cons.1 hnames
    obtain ⟨hfirst, hrest⟩ := (written_cons_iff Value.Unchanged hname).1 h
    exact ⟨FieldType.agree_of_unchanged hr.1 hr'.1 hfirst, ih hnames hr.2 hr'.2 hrest⟩

end Record

namespace Detail

variable {k : Kind} {d d' : Detail k}

/-- What holds of all references of an object holds of those in its fields. -/
theorem links_toRecord {P : ForeignKey → Prop} (h : ∀ l ∈ links k d, P l.2) :
    Record.Links P k.ownFields (toRecord k d) := by
  cases k <;> simp_all [links, toRecord, Record.Links, FieldType.Links]
  case service => exact fun fk hfk => h _ fk (.inl ⟨hfk, rfl⟩)
  case plugin =>
    exact ⟨fun fk hfk => h _ fk (.inl ⟨hfk, rfl⟩), fun fk hfk => h _ fk (.inr (.inl ⟨hfk, rfl⟩)),
      fun fk hfk => h _ fk (.inr (.inr (.inl ⟨hfk, rfl⟩))),
      fun fk hfk => h _ fk (.inr (.inr (.inr (.inl ⟨hfk, rfl⟩))))⟩

/-- Keys are made of what agrees. -/
theorem naturalKey?_of_agree (h : Record.Agree k.ownFields (toRecord k d) (toRecord k d')) :
    naturalKey? k d = naturalKey? k d' := by
  cases k <;> simp_all [naturalKey?, linkedId, Plugin.configNamespace, toRecord, Record.Agree,
    FieldType.Agree]

/-- The reference of an optional link is made of its id. -/
theorem references_toList (kind : Kind) (fk : Option ForeignKey) :
    ((fk.toList.map (kind, ·)).filterMap fun l => l.2.toReference? l.1) =
      (fk.bind (·.id)).toList.map (Reference.mk kind) := by
  cases fk with
  | none => rfl
  | some fk => cases hid : fk.id <;> simp [ForeignKey.toReference?, hid]

/-- The references of links to shared configuration are made of their ids. -/
theorem references_partials (kind : Kind) (ls : List PartialLink) :
    ((ls.map fun l => (kind, l.toForeignKey)).filterMap fun l => l.2.toReference? l.1) =
      (ls.map (·.id)).filterMap fun id => id.map (Reference.mk kind) := by
  rw [List.filterMap_map, List.filterMap_map]
  rfl

/-- References are made of what agrees. -/
theorem references_of_agree (h : Record.Agree k.ownFields (toRecord k d) (toRecord k d')) :
    ((links k d).filterMap fun l => l.2.toReference? l.1) =
      (links k d').filterMap fun l => l.2.toReference? l.1 := by
  cases k <;> simp only [toRecord, Record.Agree, FieldType.Agree] at h <;>
    simp only [links, List.filterMap_append, references_toList, references_partials]
  case service | plugin | route | target | sni | key | permission | custom => simp [h]
  case membership => simp [List.filterMap_cons, ForeignKey.toReference?, h]

end Detail

/-! ### Entities -/

namespace Entity

variable {e e' : Entity}

/-- Objects of one kind that show no difference agree in every field. -/
theorem agree_of_differences {k : Kind} {r r' : Resource k} (hr : r.WellFormed)
    (hr' : ∀ l ∈ Detail.links k r'.detail, l.2.WellFormed)
    (h : Value.differences r.toEntity.comparable r'.toEntity.comparable = []) :
    Record.Agree k.ownFields (Detail.toRecord k r.detail) (Detail.toRecord k r'.detail) := by
  obtain ⟨htags, hnames⟩ := List.nodup_cons.1 k.nodup_ownFields
  refine Record.agree_of_unchanged hnames hr (Detail.links_toRecord hr') fun key hkey => ?_
  have hne : key ≠ "tags" := by
    rintro rfl
    exact htags hkey
  have hsame := (Value.differences_eq_nil_iff (sorted_body _)).1 h key
  unfold comparable at hsame
  rwa [get?_body hne, get?_body hne] at hsame

section

variable (hk : e.kind = e'.kind) (hwf : e.WellFormed) (hlinks : ∀ l ∈ e'.links, l.2.WellFormed)
  (h : Value.differences e.comparable e'.comparable = [])

include hk hwf hlinks h

/-- Bodies without a difference have the same natural key. -/
theorem naturalKey?_of_differences : e.naturalKey? = e'.naturalKey? := by
  obtain ⟨k, r⟩ := e
  obtain ⟨k', r'⟩ := e'
  cases hk
  exact Detail.naturalKey?_of_agree (agree_of_differences hwf hlinks h)

/-- Bodies without a difference have the same references. -/
theorem references_of_differences : e.references = e'.references := by
  obtain ⟨k, r⟩ := e
  obtain ⟨k', r'⟩ := e'
  cases hk
  exact Detail.references_of_agree (agree_of_differences hwf hlinks h)

end

end Entity

/-! ### No difference from itself -/

namespace Value

/-- Items are well formed when each of them is. -/
theorem wellFormedItems_iff {items : List Value} :
    WellFormedItems items ↔ ∀ v ∈ items, v.WellFormed := by
  induction items with
  | nil => simp [WellFormedItems]
  | cons v rest ih => rw [WellFormedItems, ih, List.forall_mem_cons]

/-- A list of texts is well formed. -/
theorem wellFormed_texts (ts : List String) : (texts ts).WellFormed := by
  unfold texts
  rw [WellFormed, wellFormedItems_iff]
  intro v hv
  obtain ⟨t, -, rfl⟩ := List.mem_map.1 hv
  trivial

end Value

namespace PartialLink

/-- What is written of a reference to a partial configuration is well formed. -/
theorem wellFormed_toValue (l : PartialLink) : l.toValue.WellFormed := by
  refine Value.wellFormed_ofEntries (Value.wellFormedEntries_iff.2 fun x hx => ?_)
  simp only [List.mem_append, List.mem_map] at hx
  rcases hx with (⟨s, -, rfl⟩ | ⟨s, -, rfl⟩) | ⟨s, -, rfl⟩ <;> trivial

end PartialLink

namespace FieldType

/-- What is written of a well-formed field is well formed. -/
theorem wellFormed_write? {t : FieldType} {x : t.Carrier} (h : t.WellFormed x) :
    ∀ v ∈ t.write? x, v.WellFormed := by
  intro v hv
  cases t
  case text =>
    cases hv
    trivial
  case texts =>
    cases hv
    exact Value.wellFormed_texts _
  case filledTexts =>
    rw [write?] at hv
    split at hv
    · cases hv
    · cases hv
      exact Value.wellFormed_texts _
  case headers =>
    rw [write?] at hv
    split at hv
    · cases hv
    · cases hv
      rw [Value.WellFormed, Dict.mapValues]
      refine ⟨List.pairwise_map.2 h, Value.wellFormedEntries_iff.2 fun x hx => ?_⟩
      obtain ⟨y, -, rfl⟩ := List.mem_map.1 hx
      exact Value.wellFormed_texts _
  case link =>
    cases hv
    obtain ⟨d, hd, hwf, -⟩ := ForeignKey.WellFormed.exists_toValue h
    exact hd ▸ hwf
  case optionalLink =>
    obtain ⟨fk, hfk, rfl⟩ := Option.map_eq_some_iff.1 hv
    obtain ⟨d, hd, hwf, -⟩ := (h fk hfk).exists_toValue
    exact hd ▸ hwf
  case partialLinks =>
    rw [write?] at hv
    split at hv
    · cases hv
    · cases hv
      rw [Value.WellFormed, Value.wellFormedItems_iff]
      intro w hw
      obtain ⟨l, -, rfl⟩ := List.mem_map.1 hw
      exact l.wellFormed_toValue
  case optionalValue => exact (h v hv).2
  case settings =>
    cases hv
    exact h
  case optionalSettings =>
    obtain ⟨m, hm, rfl⟩ := Option.map_eq_some_iff.1 hv
    exact h m hm
  all_goals
    obtain ⟨_, -, rfl⟩ := Option.map_eq_some_iff.1 hv
    trivial

end FieldType

namespace Record

/-- What is written of a well-formed record is well formed, entry by entry. -/
theorem wellFormed_entries {fields : List Field} {r : Record fields} (h : WellFormed fields r) :
    ∀ x ∈ entries fields r, x.2.WellFormed := by
  induction fields with
  | nil =>
    intro x hx
    cases hx
  | cons f fields ih =>
    obtain ⟨first, rest⟩ := r
    intro x hx
    rcases List.mem_append.1 hx with hx | hx
    · obtain ⟨v, hv, rfl⟩ := List.mem_map.1 hx
      exact FieldType.wellFormed_write? h.1 v (Option.mem_toList.1 hv)
    · exact ih h.2 x hx

end Record

namespace Entity

/-- What is compared of a well-formed entity is well formed. -/
theorem wellFormed_comparable {e : Entity} (h : e.WellFormed) :
    (Value.map e.comparable).WellFormed := by
  refine Value.wellFormed_ofEntries (Value.wellFormedEntries_iff.2 fun x hx => ?_)
  rcases List.mem_append.1 hx with hx | hx
  · exact Record.wellFormed_entries h x hx
  · split at hx
    · rw [List.mem_singleton.1 hx]
      exact Value.wellFormed_texts _
    · cases hx

/-- A well-formed entity does not differ from itself. -/
theorem differences_self {e : Entity} (h : e.WellFormed) :
    Value.differences e.comparable e.comparable = [] :=
  Value.differencesFrom_self _ (wellFormed_comparable h)

end Entity

end Gateway
