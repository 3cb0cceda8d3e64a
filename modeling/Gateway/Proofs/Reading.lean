import Gateway.Proofs.Body

/-!
# What is written is read again

Reading undoes writing: of values (`Json.toValue?_ofValue`), of every type of field
(`FieldType.read?_write?`), of the objects of every kind (`Resource.ofJson?_toValue`) and of
entities (`Entity.ofValue?_toValue`). It does so for everything that can have been read: a field may
hold more than that, as an optional value may hold null, which is written like an absent one.

An object is read from the places of its fields, so all that counts of a written form is what stands
under the names of the fields (`Resource.WrittenAs`). This is why an entity without its time stamps
can be read from a written form that lacks their entries (`Entity.reread?_eq`).
-/

namespace Gateway

/-! ### Dictionaries -/

namespace Dict

variable {α : Type} {d d' : Dict α}

/-- A dictionary is determined by its look-ups. -/
theorem ext_get? (hd : Sorted d) (hd' : Sorted d') (h : ∀ key, get? d key = get? d' key) :
    d = d' := by
  have : Std.Irrefl fun a b : String × α => a.1 < b.1 := ⟨fun a => String.lt_irrefl a.1⟩
  have : Std.Antisymm fun a b : String × α => a.1 < b.1 :=
    ⟨fun a b hab hba => absurd (String.lt_trans hab hba) (String.lt_irrefl a.1)⟩
  refine hd.eq_of_mem_iff hd' fun {e} => ?_
  obtain ⟨key, value⟩ := e
  constructor
  · intro he
    exact mem_of_get? ((h key).symm.trans (get?_of_mem hd he))
  · intro he
    exact mem_of_get? ((h key).trans (get?_of_mem hd' he))

/-- A dictionary is made of its own entries. -/
theorem ofList_of_sorted (hd : Sorted d) : ofList d = d := by
  refine ext_get? (sorted_ofList d) hd fun key => ?_
  cases hget : get? d key with
  | none =>
    refine get?_ofList_eq_none fun v hv => ?_
    rw [get?_of_mem hd hv] at hget
    cases hget
  | some value =>
    refine get?_ofList_of_unique (mem_of_get? hget) fun v hv => ?_
    rw [get?_of_mem hd hv] at hget
    exact Option.some.inj hget

/-- Of some keys, a dictionary without the others holds what it held before. -/
theorem get?_filter (p : String → Bool) (key : String) :
    get? (d.filter fun e => p e.1) key = if p key then get? d key else none := by
  induction d with
  | nil => simp [get?]
  | cons e rest ih =>
    obtain ⟨k, v⟩ := e
    rw [List.filter_cons]
    by_cases hk : k = key
    · subst hk
      cases hp : p k <;> simp_all [get?]
    · cases hp : p k <;> simp_all [get?]

end Dict

/-! ### Values -/

namespace Json

mutual

/-- A well-formed value is read from its document. -/
theorem toValue?_ofValue : (v : Value) → v.WellFormed → toValue? (ofValue v) = some v
  | .null, _ | .bool _, _ | .num _, _ | .str _, _ => rfl
  | .list items, h => by
    rw [Value.WellFormed] at h
    rw [ofValue, toValue?, itemValues?_ofItems items h, Option.map_some]
  | .map entries, h => by
    rw [Value.WellFormed] at h
    rw [ofValue, toValue?, memberValues?_ofEntries entries h.2, Option.map_some, Value.ofEntries,
      Dict.ofList_of_sorted h.1]

/-- The items of a list are read back one after the other. -/
theorem itemValues?_ofItems : (items : List Value) → Value.WellFormedItems items →
    itemValues? (ofItems items) = some items
  | [], _ => rfl
  | v :: rest, h => by
    rw [ofItems, itemValues?, toValue?_ofValue v h.1, itemValues?_ofItems rest h.2]

/-- The entries of a map are read back one after the other, each under its key. -/
theorem memberValues?_ofEntries : (entries : List (String × Value)) →
    Value.WellFormedEntries entries → memberValues? (ofEntries entries) = some entries
  | [], _ => rfl
  | (_, v) :: rest, h => by
    rw [ofEntries, memberValues?, toValue?_ofValue v h.1, memberValues?_ofEntries rest h.2]

end

/-- What is written of a map is written entry by entry. -/
theorem ofEntries_eq_map (entries : List (String × Value)) :
    ofEntries entries = entries.map fun e => (e.1, ofValue e.2) := by
  induction entries with
  | nil => rfl
  | cons e rest ih => rw [ofEntries, ih, List.map_cons]

/-- Leaving out members of a document is leaving out entries of its value. -/
theorem ofEntries_filter (p : String → Bool) (entries : List (String × Value)) :
    (ofEntries entries).filter (fun m => p m.1) = ofEntries (entries.filter fun e => p e.1) := by
  rw [ofEntries_eq_map, ofEntries_eq_map, List.filter_map]
  rfl

/-! ### Members -/

variable {d : Settings}

/-- The member with a name is what stands under it. -/
theorem member?_ofEntries (hd : Dict.Sorted d) (name : String) :
    member? (ofEntries d) name = some ((Dict.get? d name).map ofValue) := by
  have hfilter : (ofEntries d).filter (·.1 == name) =
      ((Dict.get? d name).map fun v => (name, ofValue v)).toList := by
    induction d with
    | nil => rfl
    | cons e rest ih =>
      obtain ⟨k, v⟩ := e
      obtain ⟨hlt, hrest⟩ := List.pairwise_cons.1 hd
      rw [ofEntries, List.filter_cons, ih hrest, Dict.get?]
      by_cases hk : k = name
      · subst hk
        simp [Dict.get?_eq_none_of_lt hlt]
      · simp [hk]
  unfold member?
  rw [hfilter]
  cases Dict.get? d name <;> rfl

/-- Members are looked for under their names, and found where the map has them. -/
theorem membersNamed?_ofEntries (hd : Dict.Sorted d) (names : List String) :
    membersNamed? (ofEntries d) names =
      some (names.map fun name => (Dict.get? d name).map ofValue) := by
  induction names with
  | nil => rfl
  | cons name rest ih => rw [membersNamed?, member?_ofEntries hd, ih, List.map_cons]

/-- The fields of a structure are what stands under their names. -/
theorem fields?_ofValue (hd : Dict.Sorted d) (names : List String) :
    fields? names (ofValue (.map d)) =
      some (names.map fun name => (Dict.get? d name).map ofValue) :=
  membersNamed?_ofEntries hd names

/-! ### Readers that undo writers -/

variable {α : Type} {read : Json → Option α} {write : α → Value}

/-- Whatever can be read is read from its written form. -/
def Restores (read : Json → Option α) (write : α → Value) : Prop :=
  ∀ j a, read j = some a → read (ofValue (write a)) = some a

/-- Lists are read back where their members are. -/
theorem Restores.readAll (h : Restores read write) {js : List Json} {as : List α}
    (has : readAll read js = some as) : readAll read (ofItems (as.map write)) = some as := by
  induction js generalizing as with
  | nil =>
    cases has
    rfl
  | cons j rest ih =>
    rw [Json.readAll] at has
    split at has
    · rename_i a as' ha hrest
      cases has
      rw [List.map_cons, ofItems, Json.readAll, h j _ ha, ih hrest]
    · cases has

/-- The same of a list as it stands in a document. -/
theorem Restores.list (h : Restores read write) :
    Restores (list? read) fun as => .list (as.map write) := by
  intro j as has
  cases j with
  | arr items => exact h.readAll has
  | _ => cases has

/-- A list of texts is read back. -/
theorem texts?_texts (ts : List String) : texts? (ofValue (.texts ts)) = some ts := by
  change readAll text? (ofItems (ts.map Value.str)) = some ts
  induction ts with
  | nil => rfl
  | cons t rest ih =>
    rw [List.map_cons, ofItems, readAll, ih]
    rfl

/-- The same, as a law of reading and writing. -/
theorem restores_texts : Restores texts? Value.texts := fun _ ts _ => texts?_texts ts

/-- A field that may be absent or null is read again, where what it holds is not written as null. -/
theorem Restores.optional (h : Restores read write)
    (hnull : ∀ j a, j ≠ null → read j = some a → write a ≠ .null) {j : Option Json} {a : Option α}
    (ha : optional read j = some a) : optional read ((a.map write).map ofValue) = some a := by
  cases a with
  | none => rfl
  | some x =>
    cases j with
    | none => cases ha
    | some j =>
      change nullable? read j = some (some x) at ha
      unfold nullable? at ha
      split at ha
      · cases ha
      · rename_i hj
        obtain ⟨y, hy, heq⟩ := Option.map_eq_some_iff.1 ha
        cases heq
        have hwritten : ofValue (write x) ≠ null := by
          have hne := hnull j x hj hy
          intro hofValue
          cases hv : write x <;> simp_all [ofValue]
        change nullable? read (ofValue (write x)) = some (some x)
        unfold nullable?
        split
        · rename_i heq
          exact absurd heq hwritten
        · rw [h j x hy, Option.map_some]

/-- A field with a default is read again from what is always written. -/
theorem Restores.fieldOr (h : Restores read write) {default : α}
    (hdefault : read (ofValue (write default)) = some default) {j : Option Json} {a : α}
    (ha : fieldOr default read j = some a) : read (ofValue (write a)) = some a := by
  cases j with
  | none =>
    cases ha
    exact hdefault
  | some j => exact h j a ha

/-- A field with an empty default is read again from what is written unless empty. -/
theorem Restores.filled {α : Type} {read : Json → Option (List α)} {write : List α → Value}
    (h : Restores read write) {j : Option Json} {as : List α}
    (has : Json.fieldOr [] read j = some as) :
    Json.fieldOr [] read ((if as.isEmpty then none else some (write as)).map ofValue) =
      some as := by
  cases as with
  | nil => rfl
  | cons a rest =>
    cases j with
    | none => cases has
    | some j => exact h j _ has

/-- Whole numbers within the bounds are read back. -/
theorem whole?_whole {least greatest n : Int} (hleast : least ≤ n) (hgreatest : n ≤ greatest) :
    whole? least greatest (ofValue (.whole n)) = some n := by
  rw [Value.whole, ofValue, whole?, if_pos (by simp [hleast, hgreatest])]

/-- Natural numbers below the bound are read back. -/
theorem natural?_toNat {bound n : Nat} (h : n < bound) :
    natural? bound (ofValue (.whole n)) = some n := by
  rw [natural?, whole?_whole (by omega) (by omega)]
  rfl

/-- Natural numbers of sixteen bits are read back. -/
theorem restores_uint16 :
    Restores (fun j => (natural? UInt16.size j).map UInt16.ofNat) fun n => .whole n.toNat := by
  intro j n _
  change (natural? UInt16.size (ofValue (.whole n.toNat))).map UInt16.ofNat = some n
  rw [natural?_toNat n.toNat_lt, Option.map_some, UInt16.ofNat_toNat]

/-- Natural numbers of thirty-two bits are read back. -/
theorem restores_uint32 :
    Restores (fun j => (natural? UInt32.size j).map UInt32.ofNat) fun n => .whole n.toNat := by
  intro j n _
  change (natural? UInt32.size (ofValue (.whole n.toNat))).map UInt32.ofNat = some n
  rw [natural?_toNat n.toNat_lt, Option.map_some, UInt32.ofNat_toNat]

/-- Natural numbers of sixty-four bits are read back. -/
theorem restores_uint64 :
    Restores (fun j => (natural? UInt64.size j).map UInt64.ofNat) fun n => .whole n.toNat := by
  intro j n _
  change (natural? UInt64.size (ofValue (.whole n.toNat))).map UInt64.ofNat = some n
  rw [natural?_toNat n.toNat_lt, Option.map_some, UInt64.ofNat_toNat]

/-- Whole numbers of sixty-four bits are within their bounds. -/
theorem whole?_toInt (n : Int64) :
    (whole? Int64.minValue.toInt Int64.maxValue.toInt (ofValue (.whole n.toInt))).map Int64.ofInt =
      some n := by
  rw [whole?_whole n.minValue_le_toInt n.toInt_le, Option.map_some, Int64.ofInt_toInt]

/-- Whole numbers of sixty-four bits are read back. -/
theorem restores_int64 :
    Restores (fun j => (whole? Int64.minValue.toInt Int64.maxValue.toInt j).map Int64.ofInt)
      fun n => .whole n.toInt := fun _ n _ => whole?_toInt n

/-- Every value is read back. -/
theorem restores_value : Restores toValue? fun v => v :=
  fun j v h => toValue?_ofValue v (wellFormed_toValue? j h)

/-- Maps are read back as maps. -/
theorem restores_settings : Restores settings? Value.map := by
  intro j m h
  have hwf := wellFormed_settings? h
  rw [Value.WellFormed] at hwf
  rw [ofValue, settings?, memberValues?_ofEntries m hwf.2, Option.map_some,
    Dict.ofList_of_sorted hwf.1]

/-- Headers are read back, with all values of each. -/
theorem restores_headers : Restores (dict? texts?) fun hs => .map (Dict.mapValues .texts hs) := by
  intro j hs h
  cases j with
  | obj members =>
    obtain ⟨es, -, rfl⟩ := Option.map_eq_some_iff.1 h
    have hread : ∀ es : Dict (List String),
        readEntries texts? (ofEntries (Dict.mapValues .texts es)) = some es := by
      intro es
      induction es with
      | nil => rfl
      | cons e rest ih =>
        change readEntries texts? ((e.1, ofValue (.texts e.2)) ::
          ofEntries (Dict.mapValues .texts rest)) = some (e :: rest)
        rw [readEntries, texts?_texts, ih]
    rw [ofValue, dict?, hread, Option.map_some, Dict.ofList_of_sorted (Dict.sorted_ofList es)]
  | _ => cases h

/-- A text that may be missing is read back. -/
theorem optional_text? (s : Option String) :
    optional text? ((s.map Value.str).map ofValue) = some s := by
  cases s <;> rfl

end Json

/-! ### References and links -/

namespace ForeignKey

/-- A reference is read from its written form. -/
theorem ofJson?_toValue {fk : ForeignKey} (h : fk.WellFormed) :
    ofJson? (.ofValue fk.toValue) = some fk := by
  obtain ⟨d, hd, hwf, hget⟩ := h.exists_toValue
  rw [Value.WellFormed] at hwf
  have hid : Dict.get? d "id" = fk.id.map Value.str := by
    rw [hget, if_neg (by decide), if_pos rfl]
  have hname : Dict.get? d "name" = fk.name.map Value.str := by
    rw [hget, if_pos rfl]
  -- what is left without id and name is what was kept of the other fields
  have hextra : d.filter (fun e => e.1 != "id" && e.1 != "name") = fk.extra := by
    have hsorted := h.extra
    rw [Value.WellFormed] at hsorted
    refine Dict.ext_get? (hwf.1.filter _) hsorted.1 fun key => ?_
    rw [Dict.get?_filter (fun key => key != "id" && key != "name"), hget]
    by_cases hkid : key = "id"
    · subst hkid
      exact h.id_absent.symm
    · by_cases hkname : key = "name"
      · subst hkname
        exact h.name_absent.symm
      · simp [hkid, hkname, Ne.symm hkid, Ne.symm hkname]
  have hvalues : Json.memberValues? ((Json.ofEntries d).filter
      fun m => m.1 != "id" && m.1 != "name") = some fk.extra := by
    rw [Json.ofEntries_filter (fun key => key != "id" && key != "name"), hextra]
    have hentries := h.extra
    rw [Value.WellFormed] at hentries
    exact Json.memberValues?_ofEntries fk.extra hentries.2
  rw [hd, Json.ofValue]
  simp only [ofJson?, Json.member?_ofEntries hwf.1, hid, hname, Json.optional_text?, hvalues,
    Option.bind_eq_bind, Option.bind_some]
  have hsorted := h.extra
  rw [Value.WellFormed] at hsorted
  rw [Dict.ofList_of_sorted hsorted.1]

/-- References are read back, with whatever else was written in them. -/
theorem restores : Json.Restores ofJson? toValue :=
  fun _ _ h => ofJson?_toValue (wellFormed_of_ofJson? h)

end ForeignKey

namespace PartialLink

/-- A link is read from its written form. -/
theorem ofJson?_toValue (l : PartialLink) : ofJson? (.ofValue l.toValue) = some l := by
  unfold toValue Value.ofEntries ofJson?
  rw [Json.fields?_ofValue (Dict.sorted_ofList _)]
  simp [Dict.get?_ofList_append, Dict.get?_ofList_toList, Json.optional_text?, -Option.map_map]

/-- References to partial configurations are read back. -/
theorem restores : Json.Restores ofJson? toValue := fun _ l _ => ofJson?_toValue l

end PartialLink

/-! ### Fields -/

namespace FieldType

/-- A field is read from what is written of it. -/
theorem read?_write? {t : FieldType} {j : Option Json} {x : t.Carrier} (h : t.read? j = some x) :
    t.read? ((t.write? x).map .ofValue) = some x := by
  have hwf : t.WellFormed x := wellFormed_of_read? h
  cases t
  case text => rfl
  case optionalText => cases x <;> rfl
  case optionalBool => cases x <;> rfl
  case optionalUInt16 => exact Json.restores_uint16.optional (fun _ _ _ _ => nofun) h
  case optionalUInt32 => exact Json.restores_uint32.optional (fun _ _ _ _ => nofun) h
  case optionalUInt64 => exact Json.restores_uint64.optional (fun _ _ _ _ => nofun) h
  case optionalInt64 => exact Json.restores_int64.optional (fun _ _ _ _ => nofun) h
  case texts => exact Json.restores_texts.fieldOr rfl h
  case filledTexts => exact Json.restores_texts.filled h
  case headers => exact Json.restores_headers.filled h
  case optionalLink => exact ForeignKey.restores.optional (fun _ _ _ _ => nofun) h
  case link => exact ForeignKey.restores.fieldOr rfl h
  case partialLinks => exact PartialLink.restores.list.filled h
  case optionalValue =>
    have hnull : ∀ (j : Json) (v : Value), j ≠ .null → j.toValue? = some v → v ≠ .null := by
      rintro j v hj hv rfl
      exact hj (Json.eq_null_of_toValue? hv)
    have hread := Json.restores_value.optional hnull h
    rwa [Option.map_id'] at hread
  case settings => exact Json.restores_settings.fieldOr rfl h
  case optionalSettings => exact Json.restores_settings.optional (fun _ _ _ _ => nofun) h

/-- A time stamp is read from what is written of it. -/
theorem read?_stamp (n : Option Int64) :
    optionalInt64.read? ((optionalInt64.write? n).map .ofValue) = some n := by
  cases n with
  | none => rfl
  | some n =>
    change Option.map some ((Json.whole? Int64.minValue.toInt Int64.maxValue.toInt
      (.ofValue (.whole n.toInt))).map Int64.ofInt) = some (some n)
    rw [Json.whole?_toInt, Option.map_some]

end FieldType

/-! ### Records -/

namespace Record

/-- What stands under the names of the fields is what is written of the record. -/
def WrittenAs (look : String → Option Value) : (fields : List Field) → Record fields → Prop
  | [], _ => True
  | f :: fields, (first, rest) => look f.name = f.type.write? first ∧ WrittenAs look fields rest

variable {fields : List Field} {r : Record fields} {look look' : String → Option Value}

/-- Only what stands under the names of the fields counts. -/
theorem WrittenAs.congr (h : WrittenAs look fields r)
    (heq : ∀ key ∈ fields.map (·.name), look' key = look key) : WrittenAs look' fields r := by
  induction fields with
  | nil => trivial
  | cons f fields ih =>
    obtain ⟨hfirst, hrest⟩ := h
    refine ⟨(heq _ List.mem_cons_self).trans hfirst, ih hrest fun key hkey => ?_⟩
    exact heq key (List.mem_cons_of_mem _ hkey)

/-- What is written of a record is found under the names of its fields, which are distinct. -/
theorem writtenAs_entries (hnames : (fields.map (·.name)).Nodup) (r : Record fields) :
    WrittenAs (Dict.get? (Dict.ofList (entries fields r))) fields r := by
  induction fields with
  | nil => trivial
  | cons f fields ih =>
    obtain ⟨first, rest⟩ := r
    obtain ⟨hname, hnames⟩ := List.nodup_cons.1 hnames
    refine ⟨by rw [get?_entries_cons _ _ hname, if_pos rfl], (ih hnames rest).congr ?_⟩
    intro key hkey
    have hne : f.name ≠ key := by
      rintro rfl
      exact hname hkey
    rw [get?_entries_cons _ _ hname, if_neg hne]

/-- A record that can have been read is read from what is written of it. -/
theorem read?_of_writtenAs {places : List (Option Json)} (hread : read? fields places = some r)
    (h : WrittenAs look fields r) (more : List (Option Json)) :
    read? fields (fields.map (fun f => (look f.name).map .ofValue) ++ more) = some r := by
  induction fields generalizing places with
  | nil => rfl
  | cons f fields ih =>
    obtain ⟨first, rest⟩ := r
    obtain ⟨hlook, hrest⟩ := h
    simp only [read?, Option.bind_eq_bind, Option.bind_eq_some_iff, Option.some.injEq] at hread
    obtain ⟨first', hfirst, rest', hread, heq⟩ := hread
    cases heq
    have hfirst := FieldType.read?_write? hfirst
    rw [← hlook] at hfirst
    simp only [List.map_cons, List.cons_append, read?, List.head?_cons, List.tail_cons,
      Option.join_some, hfirst, ih hread hrest, Option.bind_eq_bind, Option.bind_some]

end Record

/-! ### Objects -/

namespace Kind

/-- The names of all fields that an object of any kind may be written with are distinct. -/
theorem nodup_names (k : Kind) :
    ("id" :: "tags" :: "created_at" :: "updated_at" :: k.ownFields.map (·.name)).Nodup := by
  cases k <;> decide

end Kind

namespace Resource

variable {k : Kind} {r : Resource k} {look look' : String → Option Value}

/-- What stands under the names of the fields is what is written of the object. -/
structure WrittenAs (look : String → Option Value) (r : Resource k) : Prop where
  id : look "id" = r.id.map .str
  own : Record.WrittenAs look k.ownFields (Detail.toRecord k r.detail)
  tags : k.taggable = true → look "tags" = some (.texts r.tags)
  createdAt : look "created_at" = FieldType.optionalInt64.write? r.createdAt
  updatedAt : k.recordsUpdate = true →
    look "updated_at" = FieldType.optionalInt64.write? r.updatedAt

/-- An object is made of its parts. -/
theorem make_self (r : Resource k) :
    make k r.id r.detail r.tags r.createdAt r.updatedAt = r := by
  obtain ⟨id, detail, tags, createdAt, updatedAt, htags, hupdated⟩ := r
  unfold make
  congr
  · cases htag : k.taggable <;> simp_all
  · cases hupdate : k.recordsUpdate <;> simp_all

/-- An object that can have been read is read from what is written of it. -/
theorem ofPlaces?_of_writtenAs (hr : r.Readable) (h : r.WrittenAs look) :
    ofPlaces? k (k.fieldNames.map fun name => (look name).map .ofValue) = some r := by
  obtain ⟨places, hread⟩ := hr
  have hid : FieldType.optionalText.read? ((look "id").map .ofValue) = some r.id := by
    rw [h.id]
    exact Json.optional_text? r.id
  have htags : (if k.taggable then FieldType.texts.read? ((look "tags").map .ofValue)
      else some []) = some r.tags := by
    split
    · rename_i htag
      rw [h.tags htag]
      exact Json.texts?_texts r.tags
    · rename_i htag
      rw [r.tags_eq_nil (by simpa using htag)]
  have hcreated : FieldType.optionalInt64.read? ((look "created_at").map .ofValue) =
      some r.createdAt := by
    rw [h.createdAt, FieldType.read?_stamp]
  have hupdated : (if k.recordsUpdate then
      FieldType.optionalInt64.read? ((look "updated_at").map .ofValue) else some none) =
      some r.updatedAt := by
    split
    · rename_i hupdate
      rw [h.updatedAt hupdate, FieldType.read?_stamp]
    · rename_i hupdate
      rw [r.updatedAt_eq_none (by simpa using hupdate)]
  have hown := Record.read?_of_writtenAs hread h.own
  unfold ofPlaces? Kind.fieldNames Kind.commonFieldNames
  simp only [List.map_cons, List.map_append, List.head?_cons, List.tail_cons, Option.join_some, hid,
    List.map_map, Option.bind_eq_bind, Option.bind_some, Function.comp_def, hown,
    Detail.ofRecord_toRecord]
  rw [List.drop_left' (by simp)]
  have hmake := r.make_self
  cases htag : k.taggable <;> cases hupdate : k.recordsUpdate <;>
    simp only [htag, hupdate] at htags hupdated <;> simp_all

/-! ### Written forms of objects -/

/-- What an object is written with under each name. -/
theorem get?_toSettings (r : Resource k) (key : String) : Dict.get? r.toSettings key =
    (if "updated_at" = key then FieldType.optionalInt64.write? r.updatedAt else none).or
      ((if "created_at" = key then FieldType.optionalInt64.write? r.createdAt else none).or
        ((Dict.get? r.toEntity.body key).or
          (if "id" = key then r.id.map Value.str else none))) := by
  have hentry : ∀ (t : FieldType) (name : String) (x : t.Carrier),
      Dict.get? (Dict.ofList ((t.write? x).toList.map fun v => (name, v))) key =
        if name = key then t.write? x else none := by
    intro t name x
    rw [Dict.get?_ofList_toList, Option.map_id']
  unfold toSettings entries
  rw [Dict.get?_ofList_append, Dict.get?_ofList_append, Dict.get?_ofList_append, hentry, hentry,
    hentry]
  rfl

/-- What is written of an object comes in the order of its names. -/
theorem sorted_toSettings (r : Resource k) : Dict.Sorted r.toSettings := Dict.sorted_ofList _

/-- A body holds nothing under a name that is no field's of the kind. -/
theorem get?_body_eq_none {key : String} (htags : key ≠ "tags")
    (h : key ∉ k.ownFields.map (·.name)) : Dict.get? r.toEntity.body key = none := by
  rw [Entity.get?_body htags]
  exact Record.get?_entries_eq_none _ h

/-- The written form of an object is written as the object. -/
theorem writtenAs_toSettings (r : Resource k) : r.WrittenAs (Dict.get? r.toSettings) := by
  have hnodup := k.nodup_names
  simp only [List.nodup_cons, List.mem_cons, not_or] at hnodup
  obtain ⟨⟨-, -, -, hid⟩, ⟨-, -, htags⟩, ⟨-, hcreated⟩, hupdated, hnames⟩ := hnodup
  refine ⟨?_, ?_, ?_, ?_, ?_⟩
  · rw [get?_toSettings, get?_body_eq_none (by decide) hid]
    simp
  · refine (Record.writtenAs_entries hnames (Detail.toRecord k r.detail)).congr fun key hkey => ?_
    have ne_of_not_mem : ∀ {name}, name ∉ k.ownFields.map (·.name) → name ≠ key := by
      rintro name hno rfl
      exact hno hkey
    rw [get?_toSettings, if_neg (ne_of_not_mem hupdated), if_neg (ne_of_not_mem hcreated),
      if_neg (ne_of_not_mem hid), Option.none_or, Option.none_or, Option.or_none,
      Entity.get?_body (ne_of_not_mem htags).symm]
    rfl
  · intro htag
    rw [get?_toSettings, Entity.get?_body_tags]
    simp [htag, Resource.toEntity, Entity.tags]
  · rw [get?_toSettings, get?_body_eq_none (by decide) hcreated]
    simp
  · intro _
    rw [get?_toSettings, get?_body_eq_none (by decide) hupdated]
    simp

/-- What is written of a well-formed object is a well-formed value. -/
theorem wellFormed_toValue (h : r.WellFormed) : r.toValue.WellFormed := by
  refine Value.wellFormed_ofEntries (Value.wellFormedEntries_iff.2 fun x hx => ?_)
  have hentry : ∀ (t : FieldType) (name : String) (y : t.Carrier), t.WellFormed y →
      x ∈ (t.write? y).toList.map (fun v => (name, v)) → x.2.WellFormed := by
    intro t name y hy hx
    obtain ⟨v, hv, rfl⟩ := List.mem_map.1 hx
    exact FieldType.wellFormed_write? hy v (Option.mem_toList.1 hv)
  simp only [entries, List.mem_append] at hx
  rcases hx with ((hx | hx) | hx) | hx
  · exact hentry .optionalText "id" r.id trivial hx
  · rcases List.mem_append.1 hx with hx | hx
    · exact Record.wellFormed_entries h x hx
    · split at hx
      · rw [List.mem_singleton.1 hx]
        exact Value.wellFormed_texts _
      · cases hx
  · exact hentry .optionalInt64 "created_at" r.createdAt trivial hx
  · exact hentry .optionalInt64 "updated_at" r.updatedAt trivial hx

/-- An object that can have been read is read from any map that is written as the object. -/
theorem ofJson?_of_writtenAs {d : Settings} (hr : r.Readable) (hd : Dict.Sorted d)
    (h : r.WrittenAs (Dict.get? d)) : ofJson? k (.ofValue (.map d)) = some r := by
  rw [ofJson?, Json.fields?_ofValue hd, Option.bind_some, ofPlaces?_of_writtenAs hr h]

/-- An object that can have been read is read from its written form. -/
theorem ofJson?_toValue (hr : r.Readable) : ofJson? k (.ofValue r.toValue) = some r :=
  ofJson?_of_writtenAs hr r.sorted_toSettings r.writtenAs_toSettings

/-- Objects of every kind are read back. -/
theorem restores (k : Kind) : Json.Restores (ofJson? k) toValue :=
  fun _ _ h => ofJson?_toValue (readable_of_ofJson? h)

end Resource

/-! ### Entities -/

namespace Entity

variable {e : Entity}

/-- The written fields without those of the time stamps. -/
def unstampedSettings (e : Entity) : Settings :=
  Dict.erase (Dict.erase e.resource.toSettings "created_at") "updated_at"

/-- The entity that is read from the written fields without those of the time stamps. -/
def reread? (e : Entity) : Option Entity :=
  (Resource.ofJson? e.kind (.ofValue (.map e.unstampedSettings))).map Resource.toEntity

/-- What is left without the time stamps is written as the entity without them. -/
theorem writtenAs_unstampedSettings (e : Entity) :
    e.withoutTimestamps.resource.WrittenAs (Dict.get? e.unstampedSettings) := by
  obtain ⟨hid, hown, htags, -, -⟩ := e.resource.writtenAs_toSettings
  have hget : ∀ key, Dict.get? e.unstampedSettings key =
      if "updated_at" = key then none
      else if "created_at" = key then none else Dict.get? e.resource.toSettings key := by
    intro key
    rw [unstampedSettings, Dict.get?_erase, Dict.get?_erase]
  have hnodup := e.kind.nodup_names
  simp only [List.nodup_cons, List.mem_cons, not_or] at hnodup
  obtain ⟨-, -, ⟨-, hcreated⟩, hupdated, -⟩ := hnodup
  refine ⟨?_, hown.congr fun key hkey => ?_, fun htag => ?_, ?_, fun _ => ?_⟩
  · rw [hget]
    exact hid
  · rw [hget, if_neg, if_neg]
    · rintro rfl
      exact hcreated hkey
    · rintro rfl
      exact hupdated hkey
  · rw [hget]
    exact htags htag
  · rw [hget]
    rfl
  · rw [hget]
    rfl

/-- An entity that can have been read is read from its written form without time stamps, as it is
but for these. -/
theorem reread?_eq (h : e.resource.Readable) : e.reread? = some e.withoutTimestamps := by
  have hsorted : Dict.Sorted e.unstampedSettings := (e.resource.sorted_toSettings.erase _).erase _
  have hread := Resource.ofJson?_of_writtenAs (r := e.withoutTimestamps.resource) h hsorted
    e.writtenAs_unstampedSettings
  rw [reread?]
  exact congrArg (Option.map Resource.toEntity) hread

/-- An entity that can have been read is read from its written form. -/
theorem ofValue?_toValue (h : e.resource.Readable) : ofValue? e.toValue = some e := by
  obtain ⟨k, r⟩ := e
  have hbody : (Json.ofValue r.toValue).toValue? = some r.toValue :=
    Json.toValue?_ofValue _ (Resource.wellFormed_toValue h.wellFormed)
  have hkind : Kind.ofJson? (.ofValue (.str k.wire)) = some k := Kind.ofWire?_wire k
  have hsorted : Dict.Sorted [("entity", r.toValue), ("kind", .str k.wire)] := by
    refine List.pairwise_pair.2 ?_
    change "entity" < "kind"
    decide
  have hread := Resource.ofJson?_toValue h
  unfold ofValue? toValue
  rw [Json.ofValue, ofJson?, Json.member?_ofEntries hsorted, Json.member?_ofEntries hsorted]
  simp [Dict.get?, hbody, hkind, hread]

end Entity

end Gateway
