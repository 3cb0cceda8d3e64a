import Gateway.Proofs.Difference
import Gateway.Proofs.Snapshot
import Gateway.Sample

/-!
# Views of views

What a selection shows is decided object by object: each is seen for the tags of one object, a
membership for those of its group and every other object for its own (`Entity.SeenFor`,
`State.mem_select_iff`). The object for which another is seen is seen for itself, so it is shown
along with it, and what a selection shows it shows again when it is narrowed a second time
(`State.select_select`). A selection admits what carries one of its tags, so the tags of two
selections together show what one of them shows or the other (`State.mem_select_append`).
Registries, which are filled anew when they are narrowed, keep to the same laws
(`Registry.views_compose`).
-/

namespace Gateway

/-! ### The tags of a selection -/

namespace Selection

variable {tags more : List String} {e : Entity}

/-- A selection of tags hides something, unless there are none. -/
theorem isActive_ofTags (h : tags ≠ []) : (ofTags tags).isActive = true := by
  obtain ⟨t, ht⟩ := List.exists_mem_of_ne_nil tags h
  have hmem : t ∈ (ofTags tags).tags := Dict.mem_distinct.2 ht
  unfold isActive
  cases hsel : (ofTags tags).tags with
  | nil =>
    rw [hsel] at hmem
    cases hmem
  | cons => rfl

/-- A selection of tags admits what carries one of them. -/
theorem admits_ofTags_iff (h : tags ≠ []) :
    (ofTags tags).admits e = true ↔ e.kind.taggable = true ∧ ∃ t ∈ e.tags, t ∈ tags := by
  simp only [admits, isActive_ofTags h, Bool.not_true, Bool.false_or, Bool.and_eq_true]
  refine and_congr_right fun _ => ?_
  simp only [Entity.hasAnyTag, List.any_eq_true, List.contains_iff_mem]
  exact exists_congr fun t => and_congr_right fun _ => Dict.mem_distinct

/-- The tags of two selections together admit what one of them admits or the other. -/
theorem admits_append_iff (htags : tags ≠ []) (hmore : more ≠ []) :
    (ofTags (tags ++ more)).admits e = true ↔
      (ofTags tags).admits e = true ∨ (ofTags more).admits e = true := by
  have hboth : tags ++ more ≠ [] := List.append_ne_nil_of_left_ne_nil htags more
  rw [admits_ofTags_iff hboth, admits_ofTags_iff htags, admits_ofTags_iff hmore, ← and_or_left]
  refine and_congr_right fun _ => ?_
  simp only [List.mem_append, and_or_left, exists_or]

end Selection

/-! ### For whose tags an object is seen -/

/-- An object is seen for the tags of another one: a membership for those of its group, every other
object for its own. -/
def Entity.SeenFor (x g : Entity) : Prop :=
  if x.kind = .membership then g.kind = .consumerGroup ∧ x.groupId? = some g.idText else g = x

/-- The object for whose tags another one is seen is seen for its own. -/
theorem Entity.SeenFor.self {x g : Entity} (h : x.SeenFor g) : g.SeenFor g := by
  unfold SeenFor at h ⊢
  by_cases hx : x.kind = .membership
  · rw [if_pos hx] at h
    have hg : g.kind ≠ .membership := by simp [h.1]
    rw [if_neg hg]
  · rw [if_neg hx] at h
    subst h
    rw [if_neg hx]

namespace State

variable {s : State} {sel : Selection} {tags more : List String} {x g : Entity}

/-- A selection shows a member when it admits the one for whose tags it is seen. -/
theorem mem_select_iff (hactive : sel.isActive = true) :
    x ∈ s.select sel ↔ x ∈ s ∧ ∃ g ∈ s, x.SeenFor g ∧ sel.admits g = true := by
  unfold select
  rw [mem_filter]
  refine and_congr_right fun hx => ?_
  unfold Entity.SeenFor
  by_cases hk : x.kind = .membership
  · simp only [if_pos hk]
    obtain ⟨k, r⟩ := x
    cases hk
    simp only [visible, hactive, Entity.groupId?, Bool.not_true, Bool.false_or]
    constructor
    · intro hseen
      cases hgroup : r.detail.consumerGroup.id.bind (s.get? .consumerGroup ·) with
      | none => simp [hgroup] at hseen
      | some g =>
        obtain ⟨id, hid, hget⟩ := Option.bind_eq_some_iff.1 hgroup
        obtain ⟨hg, hgk, rfl⟩ := get?_eq_some_iff.1 hget
        exact ⟨g, hg, ⟨hgk, hid⟩, by simpa [hgroup] using hseen⟩
    · rintro ⟨g, hg, ⟨hgk, hid⟩, hadmits⟩
      have hget : s.get? .consumerGroup g.idText = some g := get?_eq_some_iff.2 ⟨hg, hgk, rfl⟩
      simp [hid, hget, hadmits]
  · rw [visible_of_ne hk]
    simp only [if_neg hk]
    constructor
    · intro hadmits
      exact ⟨x, hx, rfl, hadmits⟩
    · rintro ⟨_, -, rfl, hadmits⟩
      exact hadmits

/-- What the tags of a selection show is seen for an object that carries one of them. -/
theorem mem_select_ofTags_iff (htags : tags ≠ []) : x ∈ s.select (.ofTags tags) ↔
    x ∈ s ∧ ∃ g ∈ s, x.SeenFor g ∧ g.kind.taggable = true ∧ ∃ t ∈ g.tags, t ∈ tags := by
  rw [mem_select_iff (Selection.isActive_ofTags htags)]
  simp only [Selection.admits_ofTags_iff htags]

/-- The object for whose tags another one is seen is shown along with it. -/
theorem mem_select_of_seenFor (hactive : sel.isActive = true) (hg : g ∈ s) (hfor : x.SeenFor g)
    (hadmits : sel.admits g = true) : g ∈ s.select sel :=
  (mem_select_iff hactive).2 ⟨hg, g, hg, hfor.self, hadmits⟩

/-- What a selection shows it shows again. -/
theorem select_select (s : State) (sel : Selection) :
    (s.select sel).select sel = s.select sel := by
  refine ext_mem fun x => ⟨mem_of_mem_select, fun hx => ?_⟩
  by_cases hactive : sel.isActive = true
  · obtain ⟨-, g, hg, hfor, hadmits⟩ := (mem_select_iff hactive).1 hx
    have hgshown := mem_select_of_seenFor hactive hg hfor hadmits
    exact (mem_select_iff hactive).2 ⟨hx, g, hgshown, hfor, hadmits⟩
  · exact mem_select_of_not_isActive (by simpa using hactive) hx

/-- The tags of two selections together show what one of them shows or the other. -/
theorem mem_select_append (htags : tags ≠ []) (hmore : more ≠ []) :
    x ∈ s.select (.ofTags (tags ++ more)) ↔
      x ∈ s.select (.ofTags tags) ∨ x ∈ s.select (.ofTags more) := by
  have hboth : tags ++ more ≠ [] := List.append_ne_nil_of_left_ne_nil htags more
  rw [mem_select_iff (Selection.isActive_ofTags hboth),
    mem_select_iff (Selection.isActive_ofTags htags),
    mem_select_iff (Selection.isActive_ofTags hmore), ← and_or_left]
  refine and_congr_right fun _ => ?_
  simp only [Selection.admits_append_iff htags hmore, and_or_left, exists_or]

/-- A view finds under a natural key what the state finds there, if it is shown. -/
theorem getByKey?_select_iff {kind : Kind} {key : NaturalKey} :
    (s.select sel).getByKey? kind key = some x ↔
      s.getByKey? kind key = some x ∧ x ∈ s.select sel := by
  rw [getByKey?_eq_some_iff, getByKey?_eq_some_iff]
  constructor
  · rintro ⟨hshown, hx⟩
    exact ⟨⟨mem_of_mem_select hshown, hx⟩, hshown⟩
  · rintro ⟨⟨-, hx⟩, hshown⟩
    exact ⟨hshown, hx⟩

end State

namespace Registry

variable {v : Registry} {s : State} {sel : Selection}

/-- A registry that looks like a state shows what the state shows. -/
theorem entities_select (hv : v.catalog = s.catalog) (sel : Selection) :
    (v.select sel).entities = (s.select sel).entities :=
  entities_eq (catalog_select hv sel)

/-- A narrowed registry is not narrowed again. -/
theorem select_select (hv : v.catalog = s.catalog) (sel : Selection) :
    (v.select sel).select sel = v.select sel := by
  apply catalog_inj.1
  rw [catalog_select (catalog_select hv sel), catalog_select hv, State.select_select]

/-- For two lists of tags, neither of them empty, and whatever has been done to a gateway: a
selection of the tags of one list shows what is seen for an object that carries one of them, and
what it shows, it shows again when it is narrowed once more; the tags of both lists show an object,
be it a membership or of any other kind, when the tags of one of them show it or those of the other;
and under a natural key a view finds an object when the whole finds this object there and the view
shows it. This is so for the sets of objects as well as for the registries, whose indexes are filled
anew for every view. -/
theorem views_compose (tags more : List String) (htags : tags ≠ []) (hmore : more ≠ []) :
    (∀ s : State,
      (∀ e, e ∈ s.select (.ofTags tags) ↔ e ∈ s ∧
        ∃ g ∈ s, e.SeenFor g ∧ g.kind.taggable = true ∧ ∃ t ∈ g.tags, t ∈ tags) ∧
      (s.select (.ofTags tags)).select (.ofTags tags) = s.select (.ofTags tags) ∧
      (∀ e, e ∈ s.select (.ofTags (tags ++ more)) ↔
        e ∈ s.select (.ofTags tags) ∨ e ∈ s.select (.ofTags more)) ∧
      ∀ kind key e, (s.select (.ofTags tags)).getByKey? kind key = some e ↔
        s.getByKey? kind key = some e ∧ e ∈ s.select (.ofTags tags)) ∧
    ∀ changes : List Change, let v := changes.foldl after empty
      (∀ e, e ∈ (v.select (.ofTags tags)).entities ↔ e ∈ v.entities ∧
        ∃ g ∈ v.entities, e.SeenFor g ∧ g.kind.taggable = true ∧ ∃ t ∈ g.tags, t ∈ tags) ∧
      (v.select (.ofTags tags)).select (.ofTags tags) = v.select (.ofTags tags) ∧
      (∀ e, e ∈ (v.select (.ofTags (tags ++ more))).entities ↔
        e ∈ (v.select (.ofTags tags)).entities ∨ e ∈ (v.select (.ofTags more)).entities) ∧
      ∀ kind key e, (v.select (.ofTags tags) kind).getByKey? key = some e ↔
        (v kind).getByKey? key = some e ∧ e ∈ (v.select (.ofTags tags)).entities := by
  constructor
  · intro s
    exact ⟨fun e => State.mem_select_ofTags_iff htags, s.select_select _,
      fun e => State.mem_select_append htags hmore, fun kind key e => State.getByKey?_select_iff⟩
  · intro changes v
    have hv : v.catalog = (changes.foldl State.afterChange .empty).catalog :=
      catalog_foldl_after catalog_empty changes
    refine ⟨fun e => ?_, select_select hv _, fun e => ?_, fun kind key e => ?_⟩
    · rw [entities_select hv, entities_eq hv]
      exact State.mem_select_ofTags_iff htags
    · rw [entities_select hv, entities_select hv, entities_select hv]
      exact State.mem_select_append htags hmore
    · rw [Register.getByKey?_eq (congrFun (catalog_select hv _) kind),
        Register.getByKey?_eq (congrFun hv kind), entities_select hv]
      exact State.getByKey?_select_iff

/-- Two teams have a group each on a gateway, and one consumer is in both. -/
def twoTeams : State :=
  .collect [Sample.tagged (Sample.group "g1" "night") ["red"],
    Sample.tagged (Sample.group "g2" "day") ["blue"], Sample.group "g3" "idle",
    Entity.ofMembership "g1" "c1", Entity.ofMembership "g2" "c1", Entity.ofMembership "g3" "c1"]

/-- With the tags of both teams both memberships are seen, and the group of one team is found by its
name in the view of that team. -/
theorem views_of_twoTeams : ["red"] ≠ ([] : List String) ∧ ["blue"] ≠ ([] : List String) ∧
    Entity.ofMembership "g1" "c1" ∈ twoTeams.select (.ofTags ["red", "blue"]) ∧
    Entity.ofMembership "g2" "c1" ∈ twoTeams.select (.ofTags ["red", "blue"]) ∧
    Entity.ofMembership "g3" "c1" ∉ twoTeams.select (.ofTags ["red", "blue"]) ∧
    (twoTeams.select (.ofTags ["red"])).getByKey? .consumerGroup ⟨["night"]⟩ =
      some (Sample.tagged (Sample.group "g1" "night") ["red"]) := by
  obtain ⟨hstates, -⟩ := views_compose ["red"] ["blue"] (by decide) (by decide)
  obtain ⟨-, -, hboth, hfound⟩ := hstates twoTeams
  have hnight : twoTeams.get? .membership "g1:c1" = some (.ofMembership "g1" "c1") := rfl
  have hday : twoTeams.get? .membership "g2:c1" = some (.ofMembership "g2" "c1") := rfl
  have hgroup : twoTeams.getByKey? .consumerGroup ⟨["night"]⟩ =
    some (Sample.tagged (Sample.group "g1" "night") ["red"]) := rfl
  refine ⟨by decide, by decide, (hboth _).2 (.inl ?_), (hboth _).2 (.inr ?_), ?_,
    (hfound _ _ _).2 ⟨hgroup, ?_⟩⟩
  · exact State.mem_filter.2 ⟨State.mem_of_get? hnight, by decide +kernel⟩
  · exact State.mem_filter.2 ⟨State.mem_of_get? hday, by decide +kernel⟩
  · intro hseen
    have hidle : twoTeams.visible (.ofTags ["red", "blue"]) (.ofMembership "g3" "c1") = false := by
      decide +kernel
    cases hidle.symm.trans (State.mem_filter.1 hseen).2
  · exact State.mem_filter.2
      ⟨(State.getByKey?_eq_some_iff.1 hgroup).1, by decide +kernel⟩

end Registry

end Gateway
