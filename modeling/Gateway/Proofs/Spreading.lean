import Gateway.Proofs.Issue

/-!
# Flattening loses nothing, invents nothing and rewires nothing

Flattening gives ids to what encloses others (`Content.identified`), checks what nested declarations
say of their parents (`Nested.Fits`), and lists every declaration with the reference to its parent
(`Nested.settled`). It checks and lists as it goes, but what comes of it is the same as if it did
one after the other (`Planning.Spreads`). So it succeeds exactly when every nested declaration fits,
and its lists are, kind by kind, those of the declarations (`Content.flatten_exact`).
-/

namespace Gateway

open Planning Nested

/-! ### Declarations that are spread -/

namespace Planning

variable {α β : Type} {s s' : IdSupply}

/-- A computation spreads what another one leads to: it succeeds where the declarations listed there
fit, and results in their flat forms. -/
def Spreads (x : Planning (List Entity)) (y : Planning α) (l : α → List Nested) : Prop :=
  ∀ s es s', Yields x s es s' ↔
    ∃ a, Yields y s a s' ∧ (∀ n ∈ l a, n.Fits) ∧ es = (l a).map settled

/-- Lists are spread member by member. -/
theorem Spreads.yields_mapM {f : α → Planning (List Entity)} {g : α → Planning β}
    {l : β → List Nested} (h : ∀ a, Spreads (f a) (g a) l) {as : List α}
    {ess : List (List Entity)} :
    Yields (as.mapM f) s ess s' ↔ ∃ bs, Yields (as.mapM g) s bs s' ∧
      (∀ n ∈ bs.flatMap l, n.Fits) ∧ ess = bs.map fun b => (l b).map settled := by
  induction as generalizing s s' ess with
  | nil =>
    simp only [List.mapM_nil, yields_pure]
    constructor
    · rintro ⟨rfl, rfl⟩
      exact ⟨[], ⟨rfl, rfl⟩, by simp, rfl⟩
    · rintro ⟨_, ⟨rfl, rfl⟩, -, rfl⟩
      exact ⟨rfl, rfl⟩
  | cons a rest ih =>
    simp only [List.mapM_cons, yields_bind, yields_pure, h a s, ih]
    constructor
    · rintro ⟨_, t, ⟨b, hb, hfits, rfl⟩, _, _, ⟨bs, hbs, hrest, rfl⟩, rfl, rfl⟩
      refine ⟨b :: bs, ⟨b, t, hb, bs, _, hbs, rfl, rfl⟩, ?_, rfl⟩
      exact fun n hn => (List.mem_append.1 hn).elim (hfits n) (hrest n)
    · rintro ⟨_, ⟨b, t, hb, bs, _, hbs, rfl, rfl⟩, hfits, rfl⟩
      rw [List.flatMap_cons] at hfits
      exact ⟨_, t, ⟨b, hb, fun n hn => hfits n (List.mem_append_left _ hn), rfl⟩, _, _,
        ⟨bs, hbs, fun n hn => hfits n (List.mem_append_right _ hn), rfl⟩, rfl, rfl⟩

/-- Flat forms of one declaration after the other are those of all declarations. -/
theorem flatten_map_settled (l : β → List Nested) (bs : List β) :
    (bs.map fun b => (l b).map settled).flatten = (bs.flatMap l).map settled := by
  rw [List.map_flatMap, List.flatMap_def]

end Planning

/-! ### Nested objects -/

namespace Detail

variable {parent kind : Kind} {fk : ForeignKey} {d : Detail kind}

/-- Memberships apart, an object is settled as flattening settles it. -/
theorem settle_eq_withParent (h : kind ≠ .membership) :
    settle fk parent d = withParent fk parent kind d := by
  cases kind <;> first | exact absurd rfl h | (cases parent <;> rfl)

/-- Memberships apart, what an object says of its parent is what flattening takes it to say. -/
theorem parent?_eq_get (h : kind ≠ .membership) :
    parent? parent kind d = (Kind.parentSlot? parent kind).bind fun slot => slot.get d := by
  cases kind <;> first | exact absurd rfl h | (cases parent <;> rfl)

/-- The names of an object say nothing of its parents. -/
theorem names_settle : names kind (settle fk parent d) = names kind d := by
  cases parent <;> cases kind <;> rfl

/-- The names by which flattening knows an object are those that it goes by. -/
theorem mem_names_iff {e : Entity} {name : String} :
    name ∈ names e.kind e.resource.detail ↔ e.GoesBy name := by
  obtain ⟨k, r⟩ := e
  cases k <;> simp [names, Entity.GoesBy, eq_comm]

end Detail

/-- The consumers that a group lists are read as flattening reads them. -/
theorem ForeignKey.listed_eq_ofMember (fk : ForeignKey) : fk.listed = fk.ofMember := by
  grind [listed, listedName?, ofMember]

/-- An enclosing object is known by what its entity is known by. -/
structure Enclosing.Stands (p : Enclosing) (e : Entity) : Prop extends p.Denotes e where
  names : p.names = Detail.names e.kind e.resource.detail

namespace Enclosing.Stands

variable {p : Enclosing} {e : Entity} {kind : Kind} {r x : Resource kind}
  {rs : List (Resource kind)} {es : List Entity}

/-- A reference can mean an enclosing object when it has its id, or no id and a name of it, or
neither. -/
theorem isMeantBy_iff (h : p.Stands e) (fk : ForeignKey) :
    p.isMeantBy fk = true ↔ (∃ id, fk.id = some id ∧ e.id? = some id) ∨
      fk.id = none ∧ ∀ name ∈ fk.name, e.GoesBy name := by
  simp only [← Detail.mem_names_iff]
  unfold isMeantBy
  rw [h.id, ← h.names]
  cases hid : fk.id with
  | some id =>
    have hiff : (id == p.id) = true ↔ p.id = id := beq_iff_eq.trans eq_comm
    simpa using hiff
  | none => cases hname : fk.name <;> simp

/-- What a nested object says of its parent is accepted when it is admitted. -/
theorem accept_eq_ok_iff (h : p.Stands e) {owner : String} {fk : Option ForeignKey} :
    p.accept owner fk = .ok () ↔ ∀ x ∈ fk, e.Admits x := by
  cases fk with
  | none => simp [accept]
  | some fk =>
    have hmeant := h.isMeantBy_iff fk
    unfold accept
    simp only [Option.mem_some_iff, forall_eq']
    split
    · rename_i hbare
      constructor
      · intro hok
        cases hok
      · intro hadmits
        have hextra : fk.extra ≠ [] := by simpa [ForeignKey.isBare] using hbare
        exact absurd hadmits.bare hextra
    · rename_i hbare
      have hextra : fk.extra = [] := by simpa [ForeignKey.isBare] using hbare
      split
      · rename_i hother
        constructor
        · intro hok
          cases hok
        · intro hadmits
          rw [hmeant.2 hadmits.means] at hother
          cases hother
      · rename_i hsame
        exact ⟨fun _ => ⟨hextra, hmeant.1 (by simpa using hsame)⟩, fun _ => rfl⟩

/-- A parent is referred to by the id of its entity and nothing else. -/
theorem pointer_eq (h : p.Stands e) : e.pointer = p.reference := by
  rw [Entity.pointer, h.id]
  rfl

/-- A nested object is attached when it fits, and then as it is settled. -/
theorem attach_eq_ok_iff (h : p.Stands e) (hne : kind ≠ .membership) :
    p.attach r = .ok x ↔ (⟨r.toEntity, e⟩ : Nested).Fits ∧ r.settle e = x := by
  have hfits : (⟨r.toEntity, e⟩ : Nested).Fits ↔
      p.accept r.toEntity.describe (Detail.parent? p.kind kind r.detail) = .ok () := by
    rw [h.accept_eq_ok_iff, ← h.kind, Detail.parent?_eq_get hne]
    constructor
    · intro hfits fk hfk
      obtain ⟨slot, hslot, hfk⟩ := Option.bind_eq_some_iff.1 hfk
      exact hfits e rfl slot hslot fk hfk
    · rintro hadmits q ⟨⟩ slot hslot fk hfk
      exact hadmits fk (Option.bind_eq_some_iff.2 ⟨slot, hslot, hfk⟩)
  have hsettle : r.settle e =
      { r with detail := Detail.withParent p.reference p.kind kind r.detail } := by
    rw [Resource.settle, Detail.settle_eq_withParent hne, h.pointer_eq, h.kind]
  rw [hfits, hsettle, attach, Except.bind_eq_ok_iff]
  constructor
  · rintro ⟨⟨⟩, haccept, hx⟩
    exact ⟨haccept, Except.pure_eq_ok_iff.1 hx⟩
  · rintro ⟨haccept, hx⟩
    exact ⟨(), haccept, Except.pure_eq_ok_iff.2 hx⟩

/-- Nested objects are attached when they fit. -/
theorem attachAll_eq_ok_iff (h : p.Stands e) (hne : kind ≠ .membership) :
    p.attachAll rs = .ok es ↔
      (∀ n ∈ all e rs, n.Fits) ∧ es = (all e rs).map settled := by
  have heach : ∀ (r : Resource kind) (y : Entity),
      (do return (← p.attach r).toEntity) = Except.ok y ↔
        (⟨r.toEntity, e⟩ : Nested).Fits ∧ settled ⟨r.toEntity, e⟩ = y := by
    intro r y
    simp only [Except.bind_eq_ok_iff, Except.pure_eq_ok_iff, h.attach_eq_ok_iff hne]
    constructor
    · rintro ⟨x, ⟨hfits, rfl⟩, rfl⟩
      exact ⟨hfits, rfl⟩
    · rintro ⟨hfits, rfl⟩
      exact ⟨_, ⟨hfits, rfl⟩, rfl⟩
  unfold attachAll all
  simp only [Except.mapM_eq_ok_iff, heach]
  induction rs generalizing es with
  | nil => simp
  | cons r rest ih =>
    simp only [List.forall₂_cons_left_iff, ih, List.map_cons, List.forall_mem_cons]
    constructor
    · rintro ⟨_, _, ⟨hfits, rfl⟩, ⟨hrest, rfl⟩, rfl⟩
      exact ⟨⟨hfits, hrest⟩, rfl⟩
    · rintro ⟨⟨hfits, hrest⟩, rfl⟩
      exact ⟨_, _, ⟨hfits, rfl⟩, ⟨hrest, rfl⟩, rfl⟩

/-- Plugins are attached when they fit; memberships are there as they are joined. -/
theorem yields_members_iff (h : p.Stands e) {plugins : List (Resource .plugin)}
    {members : List (Resource .membership)} {joined : List Entity} {s s' : IdSupply}
    (hmembers : ∀ n ∈ all e members, n.Fits) (hjoined : (all e members).map settled = joined) :
    Yields (do let plugins ← p.attachAll plugins; return plugins ++ joined) s es s' ↔
      s = s' ∧ (∀ n ∈ all e plugins ++ all e members, n.Fits) ∧
        es = (all e plugins ++ all e members).map settled := by
  simp only [yields_bind, yields_lift, yields_pure,
    h.attachAll_eq_ok_iff (by simp : Kind.plugin ≠ .membership), List.forall_mem_append,
    and_iff_left hmembers, List.map_append, hjoined]
  constructor
  · rintro ⟨_, _, ⟨⟨hfits, rfl⟩, rfl⟩, rfl, rfl⟩
    exact ⟨rfl, hfits, rfl⟩
  · rintro ⟨rfl, hfits, rfl⟩
    exact ⟨_, s, ⟨⟨hfits, rfl⟩, rfl⟩, rfl, rfl⟩

end Enclosing.Stands

namespace Resource

variable {k kind : Kind} {r r' : Resource k} {rs : List (Resource kind)} {under : Option Entity}
  {encloses : Bool} {es : List Entity} {s s' t : IdSupply}

/-- Handing out an id changes nothing else. -/
theorem detail_of_identified (h : Yields (r.identified encloses) s r' t) :
    r'.detail = r.detail := by
  cases encloses with
  | false =>
    obtain ⟨rfl, -⟩ := yields_pure.1 h
    rfl
  | true =>
    obtain ⟨id, rfl, -⟩ := yields_identified_iff.1 h
    rfl

/-- What an object with its id says of a parent is what it says without. -/
theorem fits_of_identified (h : Yields (r.identified encloses) s r' t) :
    (⟨r'.toEntity, under⟩ : Nested).Fits ↔ (⟨r.toEntity, under⟩ : Nested).Fits := by
  have hdetail : r'.toEntity.resource.detail = r.toEntity.resource.detail := detail_of_identified h
  unfold Fits
  simp only [hdetail]
  rfl

/-- Referring to what encloses it does not change an object's id. -/
theorem id_settle : (r.settle under).id = r.id := by
  cases under <;> rfl

/-- Nor does it change its names. -/
theorem names_settle : Detail.names k (r.settle under).detail = Detail.names k r.detail := by
  cases under with
  | none => rfl
  | some p => exact Detail.names_settle

/-- An object gets the same id whether it is settled before or afterwards. -/
theorem settle_withId (id : String) : ({ r with id := some id } : Resource k).settle under =
    { r.settle under with id := some id } := by
  cases under <;> rfl

/-- An object that is settled under a parent is flattened like one that is settled at the end. What
is nested under it is spread once it has its id. -/
theorem yields_flattenNested_settle_iff {γ : Type} {empty : Bool}
    {nested : Enclosing → Planning (List Entity)} {inner : Planning γ}
    {ns : Resource k → γ → List Nested}
    (hempty : empty = true → ∃ c, inner = pure c ∧ ns r c = [])
    (hnested : ∀ r' p, p.Stands r'.toEntity → Spreads (nested p) inner (ns r')) :
    Yields ((r.settle under).flattenNested empty nested) s es s' ↔
      ∃ r' t c, Yields (r.identified !empty) s r' t ∧ Yields inner t c s' ∧
        (∀ n ∈ ns r' c, n.Fits) ∧ es = (r'.behind under (ns r' c)).map settled := by
  have hsettled : ∀ (x : Resource k) (ms : List Nested),
      (x.behind under ms).map settled = ms.map settled ++ [(x.settle under).toEntity] :=
    fun x ms => List.map_append
  rw [yields_flattenNested_iff]
  simp only [hsettled]
  cases empty with
  | true =>
    obtain ⟨c, rfl, hns⟩ := hempty rfl
    simp only [identified, yields_pure, Bool.not_true, Bool.false_eq_true, if_false]
    constructor
    · rintro (⟨-, rfl, rfl⟩ | ⟨⟨⟩, -⟩)
      exact ⟨r, _, c, ⟨rfl, rfl⟩, ⟨rfl, rfl⟩, by simp [hns], by simp [hns]⟩
    · rintro ⟨_, _, _, ⟨rfl, rfl⟩, ⟨rfl, rfl⟩, -, rfl⟩
      exact .inl ⟨trivial, by simp [hns], rfl⟩
  | false =>
    -- what is nested knows the object by its kind, id and names, which settling leaves alone
    have hstands : ∀ id, (⟨k, id, Detail.names k (r.settle under).detail⟩ : Enclosing).Stands
        ({ r with id := some id } : Resource k).toEntity :=
      fun id => ⟨⟨rfl, rfl⟩, names_settle⟩
    simp only [Bool.not_false, yields_identified_iff, yields_enclose_iff, id_settle]
    constructor
    · rintro (⟨⟨⟩, -⟩ | ⟨-, q, t, fs, ⟨id, rfl, hid⟩, hfs, rfl⟩)
      obtain ⟨c, hc, hfits, rfl⟩ := (hnested _ _ (hstands id) t fs s').1 hfs
      refine ⟨_, t, c, ⟨id, rfl, hid⟩, hc, hfits, ?_⟩
      rw [settle_withId]
    · rintro ⟨_, t, c, ⟨id, rfl, hid⟩, hc, hfits, rfl⟩
      refine .inr ⟨trivial, _, t, _, ⟨id, rfl, hid⟩,
        (hnested _ _ (hstands id) t _ s').2 ⟨c, hc, hfits, rfl⟩, ?_⟩
      rw [settle_withId]

/-- Where nothing that is nested takes an id itself. -/
theorem yields_flattenNested_iff_of_nested {empty : Bool}
    {nested : Enclosing → Planning (List Entity)} {ns : Resource k → List Nested}
    (hempty : empty = true → ns r = [])
    (hnested : ∀ r' p, p.Stands r'.toEntity → ∀ t fs t', Yields (nested p) t fs t' ↔
      t = t' ∧ (∀ n ∈ ns r', n.Fits) ∧ fs = (ns r').map settled) :
    Yields ((r.settle under).flattenNested empty nested) s es s' ↔
      ∃ r', Yields (r.identified !empty) s r' s' ∧ (∀ n ∈ ns r', n.Fits) ∧
        es = (r'.behind under (ns r')).map settled := by
  have hspreads : ∀ r' p, p.Stands r'.toEntity →
      Spreads (nested p) (pure ()) fun _ => ns r' := by
    intro r' p hp t fs t'
    rw [hnested r' p hp]
    simp only [yields_pure]
    constructor
    · rintro ⟨rfl, hfits, hfs⟩
      exact ⟨(), ⟨trivial, rfl⟩, hfits, hfs⟩
    · rintro ⟨-, ⟨-, rfl⟩, hfits, hfs⟩
      exact ⟨rfl, hfits, hfs⟩
  refine (yields_flattenNested_settle_iff (fun h => ⟨(), rfl, hempty h⟩) hspreads).trans ?_
  simp only [yields_pure]
  constructor
  · rintro ⟨r', _, -, hr', ⟨-, rfl⟩, hfits, hes⟩
    exact ⟨r', hr', hfits, hes⟩
  · rintro ⟨r', hr', hfits, hes⟩
    exact ⟨r', s', (), hr', ⟨trivial, rfl⟩, hfits, hes⟩

/-- Where all that is nested is of one kind. -/
theorem yields_flattenNested_attachAll_iff (hne : kind ≠ .membership) :
    Yields ((r.settle under).flattenNested rs.isEmpty fun p => p.attachAll rs) s es s' ↔
      ∃ r', Yields (r.identified !rs.isEmpty) s r' s' ∧ (∀ n ∈ all r'.toEntity rs, n.Fits) ∧
        es = (r'.behind under (all r'.toEntity rs)).map settled := by
  refine yields_flattenNested_iff_of_nested (fun hempty => ?_) fun r' p hp t fs t' => ?_
  · rw [List.isEmpty_iff.1 hempty]
    rfl
  · rw [yields_lift, hp.attachAll_eq_ok_iff hne, and_comm]

/-- The declaration of an object is spread as the object is. -/
theorem spreads_of_iff {D : Type} {f : Resource k → D} {l : D → List Nested}
    {ns : Resource k → List Nested} {x : Planning (List Entity)}
    (hl : ∀ r', l (f r') = r'.behind none (ns r'))
    (hx : ∀ s es s', Yields x s es s' ↔ ∃ r', Yields (r.identified encloses) s r' s' ∧
      (∀ n ∈ ns r', n.Fits) ∧ es = (r'.behind none (ns r')).map settled) :
    Spreads x (do return f (← r.identified encloses)) l := by
  intro s es s'
  simp only [hx, yields_bind, yields_pure]
  constructor
  · rintro ⟨r', hr', hfits, rfl⟩
    refine ⟨f r', ⟨r', s', hr', rfl, rfl⟩, fun n hn => ?_, by rw [hl]⟩
    rw [hl] at hn
    rcases List.mem_append.1 hn with hn | hn
    · exact hfits n hn
    · cases List.mem_singleton.1 hn
      exact fits_of_top _
  · rintro ⟨_, ⟨r', _, hr', rfl, rfl⟩, hfits, rfl⟩
    rw [hl] at hfits
    exact ⟨r', hr', fun n hn => hfits n (List.mem_append_left _ hn), by rw [hl]⟩

/-- An object with children of one kind is spread behind itself. -/
theorem spreads_flatten (hne : kind ≠ .membership) {D : Type} {f : Resource k → D}
    {l : D → List Nested} (hl : ∀ r', l (f r') = r'.behind none (all r'.toEntity rs)) :
    Spreads (r.flattenNested rs.isEmpty fun p => p.attachAll rs)
      (do return f (← r.identified !rs.isEmpty)) l :=
  spreads_of_iff hl fun _ _ _ => @yields_flattenNested_attachAll_iff k kind r rs none _ _ _ hne

/-- An object with plugins, and with memberships that join it to what it lists. -/
theorem spreads_members {D : Type} {f : Resource k → D} {l : D → List Nested}
    {plugins : List (Resource .plugin)} {m : List (Resource .membership)}
    {listed : List ForeignKey} {j : ForeignKey → ForeignKey → Entity}
    (hl : ∀ r', l (f r') = r'.behind none (all r'.toEntity plugins ++ all r'.toEntity m))
    (hlisted : listed = [] → m = [])
    (hmembers : ∀ r' : Resource k, ∀ n ∈ all r'.toEntity m, n.Fits)
    (hjoined : ∀ r' : Resource k,
      (all r'.toEntity m).map settled = listed.map (j r'.toEntity.pointer)) :
    Spreads (r.flattenNested (plugins.isEmpty && listed.isEmpty) fun p => do
        let plugins ← p.attachAll plugins
        return plugins ++ listed.map fun x => j p.reference x)
      (do return f (← r.identified !(plugins.isEmpty && listed.isEmpty))) l := by
  refine spreads_of_iff hl fun s es s' =>
    @yields_flattenNested_iff_of_nested k r none _ _ _ _ _ _ (fun hempty => ?_)
      fun r' p hp t fs t' => ?_
  · obtain ⟨hplugins, hnone⟩ := Bool.and_eq_true_iff.1 hempty
    simp [all, List.isEmpty_iff.1 hplugins, hlisted (List.isEmpty_iff.1 hnone)]
  · refine hp.yields_members_iff (hmembers r') ?_
    rw [hjoined r', hp.pointer_eq]

end Resource

/-! ### Declarations -/

/-- A route is spread under the service that encloses it, if one does. -/
theorem RouteDecl.spreads_flatten {p : Option Enclosing} {under : Option Entity}
    (h : Option.Rel Enclosing.Stands p under) (d : RouteDecl) :
    Spreads (d.flatten p) d.identified (RouteDecl.listing under) := by
  have hattach : ∀ s es s', Yields (d.flatten p) s es s' ↔
      (⟨d.route.toEntity, under⟩ : Nested).Fits ∧ Yields ((d.route.settle under).flattenNested
        d.plugins.isEmpty fun q => q.attachAll d.plugins) s es s' := by
    intro s es s'
    unfold flatten
    cases h with
    | none =>
      simp only [pure_bind]
      exact (and_iff_right (fits_of_top _)).symm
    | some hp =>
      simp only [yields_bind, yields_lift, hp.attach_eq_ok_iff (by simp : Kind.route ≠ .membership)]
      constructor
      · rintro ⟨_, _, ⟨⟨hfits, rfl⟩, rfl⟩, hes⟩
        exact ⟨hfits, hes⟩
      · rintro ⟨hfits, hes⟩
        exact ⟨_, s, ⟨⟨hfits, rfl⟩, rfl⟩, hes⟩
  intro s es s'
  rw [hattach, Resource.yields_flattenNested_attachAll_iff (by simp)]
  simp only [identified, yields_bind, yields_pure]
  constructor
  · rintro ⟨hfits, route, hroute, hplugins, rfl⟩
    refine ⟨{ d with route := route }, ⟨route, s', hroute, rfl, rfl⟩, fun n hn => ?_, rfl⟩
    rcases List.mem_append.1 hn with hn | hn
    · exact hplugins n hn
    · cases List.mem_singleton.1 hn
      exact (Resource.fits_of_identified hroute).2 hfits
  · rintro ⟨_, ⟨route, _, hroute, rfl, rfl⟩, hfits, rfl⟩
    refine ⟨(Resource.fits_of_identified hroute).1 (hfits _ ?_), route, hroute,
      fun n hn => hfits n (List.mem_append_left _ hn), rfl⟩
    exact List.mem_append_right _ List.mem_cons_self

/-- A service is spread with its routes and plugins. -/
theorem ServiceDecl.spreads_flatten (d : ServiceDecl) :
    Spreads d.flatten d.identified ServiceDecl.listing := by
  have hflatten : ∀ s es s', Yields d.flatten s es s' ↔ ∃ service t routes,
      Yields (d.service.identified !(d.routes.isEmpty && d.plugins.isEmpty)) s service t ∧
        Yields (d.routes.mapM RouteDecl.identified) t routes s' ∧
        (∀ n ∈ routes.flatMap (RouteDecl.listing service.toEntity) ++
          all service.toEntity d.plugins, n.Fits) ∧
        es = (service.behind none (routes.flatMap (RouteDecl.listing service.toEntity) ++
          all service.toEntity d.plugins)).map settled := by
    intro s es s'
    refine @Resource.yields_flattenNested_settle_iff _ d.service none _ _ _ _ _ _ _ _ ?_ ?_
    · intro hempty
      obtain ⟨hroutes, hplugins⟩ := Bool.and_eq_true_iff.1 hempty
      refine ⟨[], ?_, by simp [all, List.isEmpty_iff.1 hplugins]⟩
      rw [List.isEmpty_iff.1 hroutes]
      rfl
    · intro service p hp t fs t'
      have hroutes : ∀ route : RouteDecl, Spreads (route.flatten p) route.identified
          (RouteDecl.listing service.toEntity) := RouteDecl.spreads_flatten (.some hp)
      simp only [yields_bind, yields_lift, yields_pure, Spreads.yields_mapM hroutes,
        hp.attachAll_eq_ok_iff (by simp : Kind.plugin ≠ .membership), List.forall_mem_append]
      constructor
      · rintro ⟨_, _, ⟨routes, hroutes, hfits, rfl⟩, _, _, ⟨⟨hplugins, rfl⟩, rfl⟩, rfl, rfl⟩
        refine ⟨routes, hroutes, ⟨hfits, hplugins⟩, ?_⟩
        rw [flatten_map_settled, List.map_append]
      · rintro ⟨routes, hroutes, ⟨hfits, hplugins⟩, rfl⟩
        refine ⟨_, t', ⟨routes, hroutes, hfits, rfl⟩, _, t', ⟨⟨hplugins, rfl⟩, rfl⟩, ?_, rfl⟩
        rw [flatten_map_settled, List.map_append]
  intro s es s'
  rw [hflatten]
  simp only [identified, yields_bind, yields_pure]
  constructor
  · rintro ⟨service, t, routes, hservice, hroutes, hfits, rfl⟩
    refine ⟨{ d with service := service, routes := routes },
      ⟨service, t, hservice, routes, s', hroutes, rfl, rfl⟩, fun n hn => ?_, rfl⟩
    rcases List.mem_append.1 hn with hn | hn
    · exact hfits n hn
    · cases List.mem_singleton.1 hn
      exact fits_of_top _
  · rintro ⟨_, ⟨service, t, hservice, routes, _, hroutes, rfl, rfl⟩, hfits, rfl⟩
    exact ⟨service, t, routes, hservice, hroutes, fun n hn => hfits n (List.mem_append_left _ hn),
      rfl⟩

/-- A membership says nothing of what it is declared under. -/
theorem Nested.fits_all_of_unqualified {p : Entity} {rs : List (Resource .membership)}
    (h : ∀ r ∈ rs, ∀ slot ∈ Kind.parentSlot? p.kind .membership,
      slot.get r.detail = some .unqualified) : ∀ n ∈ all p rs, n.Fits := by
  intro n hn
  obtain ⟨r, hr, rfl⟩ := List.mem_map.1 hn
  rintro q ⟨⟩ slot hslot fk hfk
  cases (h r hr slot hslot).symm.trans hfk
  exact p.admits_unqualified

/-- A consumer is spread with its plugins, and memberships for the groups that it lists. -/
theorem ConsumerDecl.spreads_flatten (d : ConsumerDecl) :
    Spreads d.flatten d.identified ConsumerDecl.listing := by
  refine Resource.spreads_members (m := d.memberships)
    (j := fun consumer group => Membership.declared group consumer) (fun _ => rfl)
    (fun hnone => ?_) (fun consumer => ?_) fun consumer => ?_
  · rw [memberships, hnone, List.map_nil]
  · refine Nested.fits_all_of_unqualified fun r hr slot hslot => ?_
    obtain ⟨group, -, rfl⟩ := List.mem_map.1 hr
    cases hslot
    rfl
  · rw [all, memberships, List.map_map, List.map_map]
    rfl

/-- A group is spread with its plugins, and memberships for the consumers that it lists. -/
theorem ConsumerGroupDecl.spreads_flatten (d : ConsumerGroupDecl) :
    Spreads d.flatten d.identified ConsumerGroupDecl.listing := by
  refine Resource.spreads_members (m := d.memberships)
    (j := fun group consumer => Membership.declared group consumer.ofMember) (fun _ => rfl)
    (fun hnone => ?_) (fun group => ?_) fun group => ?_
  · rw [memberships, hnone, List.map_nil]
  · refine Nested.fits_all_of_unqualified fun r hr slot hslot => ?_
    obtain ⟨consumer, -, rfl⟩ := List.mem_map.1 hr
    cases hslot
    rfl
  · simp only [all, memberships, List.map_map, ForeignKey.listed_eq_ofMember]
    rfl

/-- An upstream is spread with its targets. -/
theorem UpstreamDecl.spreads_flatten (d : UpstreamDecl) :
    Spreads d.flatten d.identified UpstreamDecl.listing :=
  Resource.spreads_flatten (by simp) fun _ => rfl

/-- A certificate is spread with its server names. -/
theorem CertificateDecl.spreads_flatten (d : CertificateDecl) :
    Spreads d.flatten d.identified CertificateDecl.listing :=
  Resource.spreads_flatten (by simp) fun _ => rfl

/-- A set is spread with its keys. -/
theorem KeySetDecl.spreads_flatten (d : KeySetDecl) :
    Spreads d.flatten d.identified KeySetDecl.listing :=
  Resource.spreads_flatten (by simp) fun _ => rfl

/-- A role is spread with its permissions. -/
theorem RoleDecl.spreads_flatten (d : RoleDecl) :
    Spreads d.flatten d.identified RoleDecl.listing :=
  Resource.spreads_flatten (by simp) fun _ => rfl

/-! ### Documents -/

namespace Content

variable {c c' : Content} {s s' : IdSupply}

/-- What stands at the top fits, and is flat already. -/
theorem map_settled_top (es : List Entity) :
    (es.map fun e => (⟨e, none⟩ : Nested)).map settled = es := by
  rw [List.map_map]
  exact List.map_id es

/-- All declarations fit where those of each sort do. What stands on its own always fits. -/
theorem fits_listing_iff : (∀ n ∈ c.listing, n.Fits) ↔
    (∀ n ∈ c.services.flatMap ServiceDecl.listing, n.Fits) ∧
      (∀ n ∈ c.routes.flatMap (RouteDecl.listing none), n.Fits) ∧
      (∀ n ∈ c.consumers.flatMap ConsumerDecl.listing, n.Fits) ∧
      (∀ n ∈ c.consumerGroups.flatMap ConsumerGroupDecl.listing, n.Fits) ∧
      (∀ n ∈ c.upstreams.flatMap UpstreamDecl.listing, n.Fits) ∧
      (∀ n ∈ c.certificates.flatMap CertificateDecl.listing, n.Fits) ∧
      (∀ n ∈ c.keySets.flatMap KeySetDecl.listing, n.Fits) ∧
      ∀ n ∈ c.roles.flatMap RoleDecl.listing, n.Fits := by
  have hplain : ∀ n ∈ c.plainEntities.map fun e => (⟨e, none⟩ : Nested), n.Fits := by
    intro n hn
    obtain ⟨e, -, rfl⟩ := List.mem_map.1 hn
    exact fits_of_top e
  simp only [listing, List.forall_mem_append, and_iff_left hplain, and_assoc]

/-- A document is spread once what encloses others has its id. -/
theorem spreads_flatten (c : Content) : Spreads c.flatten c.identified Content.listing := by
  intro s es s'
  unfold flatten identified
  simp only [yields_bind, yields_pure, fits_listing_iff,
    Spreads.yields_mapM ServiceDecl.spreads_flatten,
    Spreads.yields_mapM (RouteDecl.spreads_flatten .none),
    Spreads.yields_mapM ConsumerDecl.spreads_flatten,
    Spreads.yields_mapM ConsumerGroupDecl.spreads_flatten,
    Spreads.yields_mapM UpstreamDecl.spreads_flatten,
    Spreads.yields_mapM CertificateDecl.spreads_flatten,
    Spreads.yields_mapM KeySetDecl.spreads_flatten, Spreads.yields_mapM RoleDecl.spreads_flatten]
  constructor
  · rintro ⟨_, _, ⟨services, hservices, fits₁, rfl⟩, _, _, ⟨routes, hroutes, fits₂, rfl⟩,
      _, _, ⟨consumers, hconsumers, fits₃, rfl⟩, _, _, ⟨groups, hgroups, fits₄, rfl⟩,
      _, _, ⟨upstreams, hupstreams, fits₅, rfl⟩, _, _, ⟨certificates, hcertificates, fits₆, rfl⟩,
      _, _, ⟨keySets, hkeySets, fits₇, rfl⟩, _, _, ⟨roles, hroles, fits₈, rfl⟩, rfl, rfl⟩
    refine ⟨_, ⟨services, _, hservices, routes, _, hroutes, consumers, _, hconsumers, groups, _,
      hgroups, upstreams, _, hupstreams, certificates, _, hcertificates, keySets, _, hkeySets,
      roles, _, hroles, rfl, rfl⟩, ⟨fits₁, fits₂, fits₃, fits₄, fits₅, fits₆, fits₇, fits₈⟩, ?_⟩
    simp only [listing, List.flatten_append, flatten_map_settled, List.map_append, map_settled_top]
    rfl
  · rintro ⟨_, ⟨services, _, hservices, routes, _, hroutes, consumers, _, hconsumers, groups, _,
      hgroups, upstreams, _, hupstreams, certificates, _, hcertificates, keySets, _, hkeySets,
      roles, _, hroles, rfl, rfl⟩, ⟨fits₁, fits₂, fits₃, fits₄, fits₅, fits₆, fits₇, fits₈⟩, rfl⟩
    refine ⟨_, _, ⟨services, hservices, fits₁, rfl⟩, _, _, ⟨routes, hroutes, fits₂, rfl⟩,
      _, _, ⟨consumers, hconsumers, fits₃, rfl⟩, _, _, ⟨groups, hgroups, fits₄, rfl⟩,
      _, _, ⟨upstreams, hupstreams, fits₅, rfl⟩, _, _, ⟨certificates, hcertificates, fits₆, rfl⟩,
      _, _, ⟨keySets, hkeySets, fits₇, rfl⟩, _, _, ⟨roles, hroles, fits₈, rfl⟩, ?_, rfl⟩
    simp only [listing, List.flatten_append, flatten_map_settled, List.map_append, map_settled_top]
    rfl

/-- Flattening is exact. A document can be given ids, which were handed out in the meantime, to
whatever encloses others and has none, and to nothing else; what encloses others is then declared in
the document with an id. The document can be flattened exactly when every nested declaration, as it
is then, says nothing of its parent but what can mean it. And its flat forms of each kind are the
declarations of this kind, each once, with the reference to the parent where they are nested: in the
place for it, by the id and nothing else. -/
theorem flatten_exact (c : Content) (s : IdSupply) :
    ∃ c' t, Yields c.identified s c' t ∧
      (∀ k, List.Forall₂ (Nested.Refilled s t c.listing) (c.listingOf k) (c'.listingOf k)) ∧
      (∀ k, ∀ n ∈ c'.listingOf k, ∀ p ∈ n.under,
        (∃ m ∈ c'.listingOf p.kind, m.entity = p) ∧
        ∃ id slot, p.id? = some id ∧ Kind.parentSlot? p.kind n.entity.kind = some slot ∧
          slot.get n.settled.resource.detail = some ⟨some id, none, []⟩) ∧
      ((∃ es s', Yields c.flatten s es s') ↔ ∀ k, ∀ n ∈ c'.listingOf k, n.Fits) ∧
      ∀ es s', Yields c.flatten s es s' → s' = t ∧
        ∀ k, es.filter (·.kind = k) = (c'.listingOf k).map settled := by
  obtain ⟨c', t, hids⟩ := c.total_identified s
  have hissued := issued_identified hids
  have hflatten : ∀ es s', Yields c.flatten s es s' ↔
      s' = t ∧ (∀ n ∈ c'.listing, n.Fits) ∧ es = c'.listing.map settled := by
    intro es s'
    rw [c.spreads_flatten s es s']
    constructor
    · rintro ⟨c'', hids', hfits, hes⟩
      obtain ⟨rfl, rfl⟩ := hids'.unique hids
      exact ⟨rfl, hfits, hes⟩
    · rintro ⟨rfl, hfits, hes⟩
      exact ⟨c', hids, hfits, hes⟩
  refine ⟨c', t, hids, fun k => ?_, fun k n hn p hp => ?_, ?_, fun es s' hes => ?_⟩
  · rw [← filter_listing, ← filter_listing]
    refine List.rel_filter (fun n n' hn => ?_) hissued.refilled
    change decide (n.entity.kind = k) = true ↔ decide (n'.entity.kind = k) = true
    rw [hn.entity.kind]
  · have hn := (mem_listingOf_iff.1 hn).1
    obtain ⟨id, hid⟩ := hissued.known n hn p hp
    obtain ⟨slot, hslot⟩ := c'.placed_listing n hn p hp
    have hget := Nested.get_settled hp hslot
    rw [Entity.pointer, hid] at hget
    refine ⟨?_, id, slot, hid, hslot, hget⟩
    rcases c'.closed_listing n hn with htop | ⟨m, hm, hunder⟩
    · rw [htop] at hp
      cases hp
    · rw [hunder] at hp
      cases hp
      exact ⟨m, mem_listingOf_iff.2 ⟨hm, rfl⟩, rfl⟩
  · simp only [hflatten, mem_listingOf_iff]
    constructor
    · rintro ⟨es, s', -, hfits, -⟩ k n ⟨hn, -⟩
      exact hfits n hn
    · intro hfits
      exact ⟨_, t, rfl, fun n hn => hfits _ n ⟨hn, rfl⟩, rfl⟩
  · obtain ⟨rfl, -, rfl⟩ := (hflatten es s').1 hes
    refine ⟨rfl, fun k => ?_⟩
    rw [List.filter_map, ← filter_listing]
    rfl

/-! ### Everything that can be nested -/

/-- A document in which something is nested in every place. -/
def everyNesting : Content :=
  let plugin (p : Plugin) : Resource .plugin := .ofDetail .plugin none p
  let named (name : String) : Plugin := { (default : Plugin) with name := name }
  { services := [⟨.ofDetail .service (some "s1") { (default : Service) with name := some "web" },
      [⟨.ofDetail .route (some "r1") { (default : Route) with
        name := some "main", service := some (.byName "web") }, [plugin (named "log")]⟩],
      [plugin { named "auth" with service := some (.byId "s1") }]⟩]
    consumers := [⟨.ofDetail .consumer (some "c1") { (default : Consumer) with
        username := some "alice", customId := some "a-1" },
      [plugin { named "quota" with consumer := some (.byName "a-1") }], [.byName "gold"]⟩]
    consumerGroups := [⟨.ofDetail .consumerGroup none
        { (default : ConsumerGroup) with name := some "gold" },
      [⟨none, none, [("custom_id", .str "bob")]⟩], [plugin (named "limit")]⟩]
    upstreams := [⟨.ofDetail .upstream (some "u1")
        { (default : Upstream) with name := some "pool" },
      [.ofDetail .target (some "t1") { (default : Target) with address := "10.0.0.1:80" }]⟩]
    certificates := [⟨.ofDetail .certificate (some "x1") (default : Certificate),
      [.ofDetail .sni (some "n1") { (default : Sni) with name := "example.com" }]⟩]
    keySets := [⟨.ofDetail .keySet (some "k1") { (default : KeySet) with name := some "jwks" },
      [.ofDetail .key (some "y1") { (default : Key) with kid := "1" }]⟩]
    roles := [⟨.ofDetail .role (some "o1") { (default : Role) with name := "admin" },
      [.ofDetail .permission none { (default : Permission) with endpoint := "/x" }]⟩] }

/-- A reference in short. -/
structure Link where
  kind : Kind
  id : Option String
  name : Option String
  /-- It says nothing else. -/
  bare : Bool
  deriving DecidableEq

/-- The kind of an entity, and its references. -/
def linksOf (e : Entity) : Kind × List Link :=
  (e.kind, e.links.map fun (kind, fk) => ⟨kind, fk.id, fk.name, fk.extra.isEmpty⟩)

/-- What the flat forms of this document refer to: whatever is nested to what it is nested under, by
id and in the place for it, and that of the group is the id that it is given. The group that the
consumer lists, and the consumer that the group lists, stay as they are listed. -/
def everyLink : List (Kind × List Link) :=
  [(.plugin, [⟨.route, some "r1", none, true⟩]),
    (.route, [⟨.service, some "s1", none, true⟩]),
    (.plugin, [⟨.service, some "s1", none, true⟩]),
    (.service, []),
    (.plugin, [⟨.consumer, some "c1", none, true⟩]),
    (.membership, [⟨.consumerGroup, none, some "gold", true⟩, ⟨.consumer, some "c1", none, true⟩]),
    (.consumer, []),
    (.plugin, [⟨.consumerGroup, some (IdSupply.numberedId 1), none, true⟩]),
    (.membership, [⟨.consumerGroup, some (IdSupply.numberedId 1), none, true⟩,
      ⟨.consumer, none, some "bob", true⟩]),
    (.consumerGroup, []),
    (.target, [⟨.upstream, some "u1", none, true⟩]),
    (.upstream, []),
    (.sni, [⟨.certificate, some "x1", none, true⟩]),
    (.certificate, []),
    (.key, [⟨.keySet, some "k1", none, true⟩]),
    (.keySet, []),
    (.permission, [⟨.role, some "o1", none, true⟩]),
    (.role, [])]

/-- Everything that can be nested fits, and is flattened with the reference in its place. -/
theorem flatten_exact_of_everyNesting : ∃ c' t es,
    Yields everyNesting.identified .numbered c' t ∧ Yields everyNesting.flatten .numbered es t ∧
      (∀ k, ∀ n ∈ c'.listingOf k, n.Fits) ∧
      (∀ k, es.filter (·.kind = k) = (c'.listingOf k).map settled) ∧
      es.map linksOf = everyLink := by
  obtain ⟨c', t, hids, -, -, hfits, hflat⟩ := flatten_exact everyNesting .numbered
  have heval : (everyNesting.flatten.run .numbered).1.toOption.map (·.map linksOf) =
      some everyLink := by decide +kernel
  cases hrun : (everyNesting.flatten.run .numbered).1 with
  | error err =>
    rw [hrun] at heval
    cases heval
  | ok es =>
    have hes : Yields everyNesting.flatten .numbered es _ := Prod.ext hrun rfl
    obtain ⟨hend, hkinds⟩ := hflat es _ hes
    rw [hend] at hes
    rw [hrun] at heval
    exact ⟨c', t, es, hids, hes, hfits.1 ⟨es, t, hes⟩, hkinds, Option.some.inj heval⟩

end Content

end Gateway
