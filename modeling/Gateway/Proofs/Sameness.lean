import Gateway.Proofs.Body

/-!
# Objects that are the same

Two objects are the same (`Entity.SameFields`) when every field of theirs is, time stamps and the
order of tags apart. Whether they are is decided on what is written of them, and that is faithful:
the written forms of two fields are the same exactly when the fields are (`FieldType.same_iff`), and
the bodies that are compared show no difference exactly when the objects are the same
(`Entity.differences_eq_nil_iff`).
-/

namespace Gateway

/-! ### Fields -/

/-- Values that are the same are the same text, or no text. -/
theorem Value.asText?_eq_of_same {v w : Option Value} (h : Value.sameOption v w = true) :
    v.bind Value.asText? = w.bind Value.asText? := by
  cases v with
  | none =>
    cases w with
    | none => rfl
    | some w => cases h
  | some v =>
    cases w with
    | none => cases v <;> cases h
    | some w =>
      cases v <;> cases w <;> simp_all [Value.sameOption, Value.same, Value.asText?]

/-- The same id, the same name, and the same beside them. -/
structure ForeignKey.Same (fk fk' : ForeignKey) : Prop where
  id : fk.id = fk'.id
  name : fk.name = fk'.name
  extra : Value.same (.map fk.extra) (.map fk'.extra) = true

/-- References are the same when they are written the same. -/
theorem ForeignKey.same_iff {fk fk' : ForeignKey} (h : fk.WellFormed) (h' : fk'.WellFormed) :
    Value.same fk.toValue fk'.toValue = true ↔ fk.Same fk' := by
  obtain ⟨d, hd, hwf, hget⟩ := h.exists_toValue
  obtain ⟨d', hd', hwf', hget'⟩ := h'.exists_toValue
  have hextra := h.extra
  have hextra' := h'.extra
  rw [Value.WellFormed] at hwf hwf' hextra hextra'
  have eq_of_texts : ∀ {s t : Option String},
      Value.sameOption (s.map Value.str) (t.map Value.str) = true → s = t :=
    Value.eq_of_sameOption Value.eq_of_same_str
  rw [hd, hd', Value.same, Value.sameEntries_iff hwf.1 hwf'.1]
  simp only [hget, hget']
  constructor
  · intro hsame
    refine ⟨eq_of_texts (by simpa using hsame "id"), eq_of_texts (by simpa using hsame "name"), ?_⟩
    rw [Value.same, Value.sameEntries_iff hextra.1 hextra'.1]
    intro key
    by_cases hname : "name" = key
    · rw [← hname, h.name_absent, h'.name_absent]
      rfl
    · by_cases hid : "id" = key
      · rw [← hid, h.id_absent, h'.id_absent]
        rfl
      · simpa only [if_neg hname, if_neg hid] using hsame key
  · rintro ⟨hid, hname, hsame⟩ key
    split
    · rw [hname]
      exact Value.sameOption_self _
    · split
      · rw [hid]
        exact Value.sameOption_self _
      · rw [Value.same] at hsame
        exact Value.sameOption_get? hsame key

namespace FieldType

/-- Two values of a field are the same: equal, save that configuration is compared by
`Value.same`. -/
def Same : (t : FieldType) → t.Carrier → t.Carrier → Prop
  | optionalLink, fk, fk' => Option.Rel ForeignKey.Same fk fk'
  | link, fk, fk' => fk.Same fk'
  | optionalValue, v, w => Value.sameOption v w = true
  | settings, m, m' => Value.same (.map m) (.map m') = true
  | optionalSettings, m, m' => Value.sameOption (m.map .map) (m'.map .map) = true
  | _, x, y => x = y

/-- Lists that are written unless empty are equal when they are written the same. -/
theorem eq_of_same_filled {α : Type} {f : List α → Value} {as bs : List α}
    (hf : Value.same (f as) (f bs) = true → as = bs)
    (h : Value.sameOption (if as.isEmpty then none else some (f as))
      (if bs.isEmpty then none else some (f bs)) = true) : as = bs := by
  cases as <;> cases bs <;> simp only [List.isEmpty_nil, List.isEmpty_cons] at h
  case nil.nil => rfl
  case cons.cons => exact hf h
  all_goals simp [Value.sameOption] at h

/-- Equal values are written the same. -/
theorem same_write?_iff_eq {t : FieldType} {x y : t.Carrier}
    (h : Value.sameOption (t.write? x) (t.write? y) = true → x = y) :
    Value.sameOption (t.write? x) (t.write? y) = true ↔ x = y := by
  refine ⟨h, ?_⟩
  rintro rfl
  exact Value.sameOption_self _

/-- Values of a field are the same when they are written the same. -/
theorem same_iff {t : FieldType} {x y : t.Carrier} (hx : t.Links ForeignKey.WellFormed x)
    (hy : t.Links ForeignKey.WellFormed y) :
    Value.sameOption (t.write? x) (t.write? y) = true ↔ t.Same x y := by
  cases t
  case text => exact same_write?_iff_eq (Value.eq_of_same_str x y)
  case optionalText => exact same_write?_iff_eq (Value.eq_of_sameOption Value.eq_of_same_str)
  case optionalBool =>
    refine same_write?_iff_eq (Value.eq_of_sameOption fun a b h => ?_)
    simpa [Value.same] using h
  case optionalUInt16 =>
    refine same_write?_iff_eq (Value.eq_of_sameOption fun a b h => UInt16.toNat_inj.1 ?_)
    exact Int.ofNat_inj.1 (Value.eq_of_same_whole h)
  case optionalUInt32 =>
    refine same_write?_iff_eq (Value.eq_of_sameOption fun a b h => UInt32.toNat_inj.1 ?_)
    exact Int.ofNat_inj.1 (Value.eq_of_same_whole h)
  case optionalUInt64 =>
    refine same_write?_iff_eq (Value.eq_of_sameOption fun a b h => UInt64.toNat_inj.1 ?_)
    exact Int.ofNat_inj.1 (Value.eq_of_same_whole h)
  case optionalInt64 =>
    refine same_write?_iff_eq (Value.eq_of_sameOption fun a b h => Int64.toInt_inj.1 ?_)
    exact Value.eq_of_same_whole h
  case texts => exact same_write?_iff_eq Value.eq_of_same_texts
  case filledTexts => exact same_write?_iff_eq (eq_of_same_filled Value.eq_of_same_texts)
  case headers =>
    refine same_write?_iff_eq (eq_of_same_filled
      (f := fun hs : Dict (List String) => .map (Dict.mapValues .texts hs)) fun h => ?_)
    rw [Value.same] at h
    exact Value.eq_of_sameEntries (fun _ _ => Value.eq_of_same_texts) h
  case partialLinks =>
    refine same_write?_iff_eq (eq_of_same_filled
      (f := fun ls : List PartialLink => .list (ls.map PartialLink.toValue)) fun h => ?_)
    rw [Value.same] at h
    exact Value.eq_of_sameItems (fun _ _ => PartialLink.eq_of_same) h
  case optionalLink =>
    cases x with
    | none => cases y <;> simp [write?, Value.sameOption, Same]
    | some fk =>
      cases y with
      | none => simp [write?, Value.sameOption, Same]
      | some fk' =>
        rw [Same, Option.rel_some_some]
        exact ForeignKey.same_iff (hx fk rfl) (hy fk' rfl)
  case link => exact ForeignKey.same_iff hx hy
  case optionalValue => rfl
  case settings => rfl
  case optionalSettings => rfl

/-- What is the same agrees in what keys and references are made of. -/
theorem Same.agree {t : FieldType} {x y : t.Carrier} (h : t.Same x y) : t.Agree x y := by
  cases t
  case optionalLink =>
    cases h with
    | none => exact ⟨rfl, rfl⟩
    | some hsame => exact ⟨rfl, hsame.id⟩
  case link => exact ForeignKey.Same.id h
  case partialLinks => exact congrArg (List.map _) h
  case settings =>
    intro key
    have hsame : Value.same (.map x) (.map y) = true := h
    rw [Value.same] at hsame
    exact Value.asText?_eq_of_same (Value.sameOption_get? hsame key)
  all_goals first
    | exact h
    | trivial

/-- The references in a well-formed field are well formed. -/
theorem WellFormed.links {t : FieldType} {x : t.Carrier} (h : t.WellFormed x) :
    t.Links ForeignKey.WellFormed x := by
  cases t <;> first
    | exact h
    | trivial

end FieldType

/-! ### Records -/

namespace Record

/-- Every field is the same. -/
def Same : (fields : List Field) → Record fields → Record fields → Prop
  | [], _, _ => True
  | f :: fields, (x, rest), (y, rest') => f.type.Same x y ∧ Same fields rest rest'

variable {fields : List Field} {r r' : Record fields}

/-- Records are the same when what is written of them is the same under every name. -/
theorem same_iff (hnames : (fields.map (·.name)).Nodup)
    (hr : Links ForeignKey.WellFormed fields r) (hr' : Links ForeignKey.WellFormed fields r') :
    (∀ key ∈ fields.map (·.name),
      Value.sameOption (Dict.get? (Dict.ofList (entries fields r)) key)
        (Dict.get? (Dict.ofList (entries fields r')) key) = true) ↔ Same fields r r' := by
  induction fields with
  | nil => exact ⟨fun _ => trivial, fun _ _ hkey => absurd hkey List.not_mem_nil⟩
  | cons f fields ih =>
    obtain ⟨x, rest⟩ := r
    obtain ⟨y, rest'⟩ := r'
    obtain ⟨hname, hnames⟩ := List.nodup_cons.1 hnames
    rw [written_cons_iff (fun v w => Value.sameOption v w = true) hname]
    exact and_congr (FieldType.same_iff hr.1 hr'.1) (ih hnames hr.2 hr'.2)

/-- Records that are the same agree in what keys and references are made of. -/
theorem Same.agree (h : Same fields r r') : Agree fields r r' := by
  induction fields with
  | nil => trivial
  | cons f fields ih => exact ⟨h.1.agree, ih h.2⟩

/-- The references in a well-formed record are well formed. -/
theorem WellFormed.links (h : WellFormed fields r) : Links ForeignKey.WellFormed fields r := by
  induction fields with
  | nil => trivial
  | cons f fields ih => exact ⟨FieldType.WellFormed.links h.1, ih h.2⟩

end Record

/-! ### Objects -/

/-- Lists of texts are equal in ascending order when they hold the same texts. -/
theorem mergeSort_eq_iff {ts us : List String} :
    ts.mergeSort (· ≤ ·) = us.mergeSort (· ≤ ·) ↔ ts.Perm us := by
  have perm_mergeSort : ∀ l : List String, l.Perm (l.mergeSort (· ≤ ·)) :=
    fun l => (List.mergeSort_perm l _).symm
  have ascending : ∀ l : List String, (l.mergeSort (· ≤ ·)).Pairwise (· ≤ ·) := by
    intro l
    have trans : ∀ a b c : String, decide (a ≤ b) = true → decide (b ≤ c) = true →
        decide (a ≤ c) = true := by
      intro a b c hab hbc
      simp only [decide_eq_true_eq] at hab hbc ⊢
      exact String.le_trans hab hbc
    have total : ∀ a b : String, (decide (a ≤ b) || decide (b ≤ a)) = true := by
      intro a b
      simpa using String.le_total a b
    exact (List.pairwise_mergeSort trans total l).imp fun h => by simpa using h
  constructor
  · intro h
    exact ((perm_mergeSort ts).trans (h ▸ .refl _)).trans (perm_mergeSort us).symm
  · intro h
    refine List.Perm.eq_of_pairwise (fun a b _ _ hab hba => String.le_antisymm hab hba)
      (ascending ts) (ascending us) ?_
    exact ((perm_mergeSort ts).symm.trans h).trans (perm_mergeSort us)

namespace Resource

variable {k : Kind} (r : Resource k) {key : String}

theorem sorted_comparable : Dict.Sorted r.toEntity.comparable := Entity.sorted_body _

/-- What is compared is, under every name but that of the tags, what is written of the kind's
fields. -/
theorem get?_comparable (h : key ≠ "tags") : Dict.get? r.toEntity.comparable key =
    Dict.get? (Dict.ofList (Record.entries k.ownFields (Detail.toRecord k r.detail))) key := by
  unfold Entity.comparable
  exact Entity.get?_body h

/-- Nothing else is compared. -/
theorem get?_comparable_eq_none (h : key ≠ "tags") (hkey : key ∉ k.ownFields.map (·.name)) :
    Dict.get? r.toEntity.comparable key = none := by
  rw [get?_comparable r h, Record.get?_entries_eq_none _ hkey]

/-- The tags of an object are compared in ascending order, if its kind carries any. -/
theorem get?_comparable_tags : Dict.get? r.toEntity.comparable "tags" =
    if k.taggable then some (.texts (r.tags.mergeSort (· ≤ ·))) else none := by
  have hbody := Entity.get?_body_tags (r.toEntity.withTags (r.tags.mergeSort (· ≤ ·)))
  rw [Entity.kind_withTags, Entity.tags_withTags] at hbody
  cases htag : k.taggable <;>
    simpa [Entity.comparable, Resource.toEntity, htag, Entity.tags] using hbody

end Resource

namespace Entity

variable {e e' : Entity}

/-- Entities of one kind with the same body carry the same tags in the same order. -/
theorem tags_of_sameBody (hk : e.kind = e'.kind) (h : e.sameBody e' = true) : e.tags = e'.tags := by
  unfold sameBody at h
  rw [Value.same, Value.sameEntries_iff (sorted_body _) (sorted_body _)] at h
  have hsame := h "tags"
  rw [get?_body_tags, get?_body_tags, ← hk] at hsame
  cases htag : e.kind.taggable with
  | false => rw [tags, tags, e.resource.tags_eq_nil htag, e'.resource.tags_eq_nil (hk ▸ htag)]
  | true =>
    rw [if_pos htag, if_pos htag] at hsame
    exact Value.eq_of_same_texts hsame

/-- Two objects of one kind whose fields hold well-formed references have the same body when every
field is the same, and so are the tags. -/
theorem sameBody_iff_of_links {k : Kind} {r r' : Resource k}
    (hr : Record.Links ForeignKey.WellFormed k.ownFields (Detail.toRecord k r.detail))
    (hr' : Record.Links ForeignKey.WellFormed k.ownFields (Detail.toRecord k r'.detail)) :
    r.toEntity.sameBody r'.toEntity = true ↔
      Record.Same k.ownFields (Detail.toRecord k r.detail) (Detail.toRecord k r'.detail) ∧
        r.tags = r'.tags := by
  obtain ⟨hnotags, hnames⟩ := List.nodup_cons.1 k.nodup_ownFields
  have htags : r.toEntity.sameBody r'.toEntity = true → r.tags = r'.tags := tags_of_sameBody rfl
  unfold sameBody at htags ⊢
  rw [Value.same, Value.sameEntries_iff (sorted_body _) (sorted_body _)] at htags ⊢
  rw [← Record.same_iff hnames hr hr']
  constructor
  · intro h
    refine ⟨fun key hkey => ?_, htags h⟩
    have hne : key ≠ "tags" := by
      rintro rfl
      exact hnotags hkey
    have hsame := h key
    rwa [get?_body hne, get?_body hne] at hsame
  · rintro ⟨hfields, htags⟩ key
    have htagsOf : ∀ r : Resource k, Dict.get? r.toEntity.body "tags" =
        if k.taggable then some (.texts r.tags) else none := fun r => get?_body_tags r.toEntity
    by_cases hkey : key = "tags"
    · rw [hkey, htagsOf, htagsOf, htags]
      exact Value.sameOption_self _
    · by_cases hfield : key ∈ k.ownFields.map (·.name)
      · rw [get?_body hkey, get?_body hkey]
        exact hfields key hfield
      · have hnone : ∀ r : Resource k, Dict.get? r.toEntity.body key = none :=
          fun r => (get?_body hkey).trans (Record.get?_entries_eq_none _ hfield)
        rw [hnone, hnone]
        rfl

/-- Two objects of one kind have the same body when every field is the same, and so are the tags. -/
theorem sameBody_iff {k : Kind} {r r' : Resource k}
    (hlinks : ∀ l ∈ Detail.links k r.detail, l.2.WellFormed)
    (hlinks' : ∀ l ∈ Detail.links k r'.detail, l.2.WellFormed) :
    r.toEntity.sameBody r'.toEntity = true ↔
      Record.Same k.ownFields (Detail.toRecord k r.detail) (Detail.toRecord k r'.detail) ∧
        r.tags = r'.tags :=
  sameBody_iff_of_links (Detail.links_toRecord hlinks) (Detail.links_toRecord hlinks')

/-- Entities of one kind with the same body have the same references. -/
theorem references_of_sameBody (hk : e.kind = e'.kind) (hlinks : ∀ l ∈ e.links, l.2.WellFormed)
    (hlinks' : ∀ l ∈ e'.links, l.2.WellFormed) (h : e.sameBody e' = true) :
    e.references = e'.references := by
  obtain ⟨k, r⟩ := e
  obtain ⟨k', r'⟩ := e'
  cases hk
  exact Detail.references_of_agree ((sameBody_iff hlinks hlinks').1 h).1.agree

/-- Two objects of one kind and id are the same, time stamps and the order of tags apart. -/
inductive SameFields : Entity → Entity → Prop
  | mk {k : Kind} {r r' : Resource k} (id : r.id = r'.id)
      (own : Record.Same k.ownFields (Detail.toRecord k r.detail) (Detail.toRecord k r'.detail))
      (tags : r.tags.Perm r'.tags) : SameFields r.toEntity r'.toEntity

/-- The bodies that are compared show no difference when every field is the same, and so are the
tags in some order. -/
theorem differences_eq_nil_iff {k : Kind} {r r' : Resource k} (hr : r.WellFormed)
    (hr' : r'.WellFormed) :
    Value.differences r.toEntity.comparable r'.toEntity.comparable = [] ↔
      Record.Same k.ownFields (Detail.toRecord k r.detail) (Detail.toRecord k r'.detail) ∧
        r.tags.Perm r'.tags := by
  obtain ⟨hnotags, hnames⟩ := List.nodup_cons.1 k.nodup_ownFields
  have hwf : (Value.map r.toEntity.comparable).WellFormed := wellFormed_comparable hr
  have hwf' : (Value.map r'.toEntity.comparable).WellFormed := wellFormed_comparable hr'
  unfold Value.differences
  rw [Value.differencesFrom_eq_nil_iff_same _ hwf _ hwf', Value.same,
    Value.sameEntries_iff r.sorted_comparable r'.sorted_comparable,
    ← Record.same_iff hnames (Record.WellFormed.links hr) (Record.WellFormed.links hr')]
  constructor
  · intro h
    refine ⟨fun key hkey => ?_, ?_⟩
    · have hne : key ≠ "tags" := by
        rintro rfl
        exact hnotags hkey
      have hsame := h key
      rwa [r.get?_comparable hne, r'.get?_comparable hne] at hsame
    · have hsame := h "tags"
      rw [r.get?_comparable_tags, r'.get?_comparable_tags] at hsame
      cases htag : k.taggable with
      | false => rw [r.tags_eq_nil htag, r'.tags_eq_nil htag]
      | true =>
        rw [if_pos htag, if_pos htag] at hsame
        exact mergeSort_eq_iff.1 (Value.eq_of_same_texts hsame)
  · rintro ⟨hfields, htags⟩ key
    by_cases hkey : key = "tags"
    · rw [hkey, r.get?_comparable_tags, r'.get?_comparable_tags, mergeSort_eq_iff.2 htags]
      exact Value.sameOption_self _
    · by_cases hfield : key ∈ k.ownFields.map (·.name)
      · rw [r.get?_comparable hkey, r'.get?_comparable hkey]
        exact hfields key hfield
      · rw [r.get?_comparable_eq_none hkey hfield, r'.get?_comparable_eq_none hkey hfield]
        rfl

/-- Two objects of one kind and id are the same when the bodies that are compared show no
difference. -/
theorem sameFields_iff (he : e.WellFormed) (he' : e'.WellFormed) (hk : e.kind = e'.kind)
    (hid : e.id? = e'.id?) :
    e.SameFields e' ↔ Value.differences e.comparable e'.comparable = [] := by
  obtain ⟨k, r⟩ := e
  obtain ⟨k', r'⟩ := e'
  cases hk
  refine Iff.trans ?_ (@differences_eq_nil_iff k r r' he he').symm
  constructor
  · rintro ⟨-, hown, htags⟩
    exact ⟨hown, htags⟩
  · rintro ⟨hown, htags⟩
    exact .mk hid hown htags

end Entity

end Gateway
