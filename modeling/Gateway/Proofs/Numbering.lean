import Mathlib.Data.List.Duplicate
import Gateway.Proofs.Admission
import Gateway.Proofs.WellFormed

/-!
# The ids of flat declarations

Flattening leaves declared ids as they are, and gives the next fresh ids, one each, to objects that
enclose others without having an id (`Content.numbered_flatten`). So an id that is not handed out is
the id of as many flat declarations of a kind as are declared with it, and one that is handed out is
the id of one flat declaration at most.
-/

namespace Gateway

open Planning

/-- Kind and id of an entity that has an id. -/
def Entity.ref? (e : Entity) : Option Reference := e.id?.map (⟨e.kind, ·⟩)

/-- An entity with an id is known by its kind and its id. -/
theorem Entity.ref?_eq_some_iff {e : Entity} {ref : Reference} :
    e.ref? = some ref ↔ e.kind = ref.kind ∧ e.id? = some ref.id := by
  obtain ⟨kind, id⟩ := ref
  unfold ref?
  rw [Option.map_eq_some_iff]
  constructor
  · rintro ⟨a, hid, ⟨⟩⟩
    exact ⟨rfl, hid⟩
  · rintro ⟨rfl, hid⟩
    exact ⟨id, hid, rfl⟩

/-- The ids of references that are put together from kinds and ids. -/
theorem map_id_zipWith {kinds : List Kind} {ids : List String} (h : kinds.length = ids.length) :
    (kinds.zipWith Reference.mk ids).map Reference.id = ids := by
  induction kinds generalizing ids with
  | nil => exact (List.eq_nil_of_length_eq_zero h.symm).symm
  | cons kind rest ih =>
    cases ids with
    | nil => cases h
    | cons id ids => exact congrArg (id :: ·) (ih (Nat.succ.inj h))

/-- Flat declarations have the ids of what is declared and, beside them, the ids that have been
taken in the meantime, one each. -/
def Numbered (s s' : IdSupply) (declared flat : List Entity) : Prop :=
  ∃ kinds : List Kind, s' = s.after kinds.length ∧
    (flat.filterMap Entity.ref?).Perm
      (declared.filterMap Entity.ref? ++ kinds.zipWith Reference.mk (s.next kinds.length))

namespace Numbered

variable {s s' t : IdSupply} {n : Nat} {ds ds' es fs : List Entity}

/-- Where no id is taken, the ids are those that are declared. -/
theorem of_refs_eq (h : es.filterMap Entity.ref? = ds.filterMap Entity.ref?) :
    Numbered s s ds es := by
  refine ⟨[], rfl, ?_⟩
  rw [h]
  simp

/-- Only kinds and ids of what is declared count. -/
theorem congr (h : ds'.filterMap Entity.ref? = ds.filterMap Entity.ref?)
    (hes : Numbered s s' ds es) : Numbered s s' ds' es := by
  obtain ⟨kinds, hs, hperm⟩ := hes
  exact ⟨kinds, hs, h ▸ hperm⟩

/-- The order of flat declarations does not count. -/
theorem perm (hes : Numbered s s' ds es) (h : fs.Perm es) : Numbered s s' ds fs := by
  obtain ⟨kinds, hs, hperm⟩ := hes
  exact ⟨kinds, hs, (h.filterMap _).trans hperm⟩

/-- What is numbered first and what is numbered afterwards are numbered together. -/
theorem append (h : Numbered s t ds es) (h' : Numbered t s' ds' fs) :
    Numbered s s' (ds ++ ds') (es ++ fs) := by
  obtain ⟨kinds, rfl, hperm⟩ := h
  obtain ⟨kinds', rfl, hperm'⟩ := h'
  refine ⟨kinds ++ kinds', ?_, ?_⟩
  · rw [IdSupply.after_after, List.length_append]
  · rw [List.filterMap_append, List.filterMap_append, List.length_append, IdSupply.next_add,
      List.zipWith_append (by rw [IdSupply.length_next])]
    refine (hperm.append hperm').trans ?_
    rw [List.append_assoc, List.append_assoc]
    exact (List.perm_append_comm_assoc _ _ _).append_left _

/-- Declarations without ids add nothing. -/
theorem append_right (h : Numbered s s' ds es) (hnone : ∀ e ∈ fs, e.id? = none) :
    Numbered s s' ds (es ++ fs) := by
  have hfs : fs.filterMap Entity.ref? = [] := by
    rw [List.filterMap_eq_nil_iff]
    intro e he
    rw [Entity.ref?, hnone e he]
    rfl
  obtain ⟨kinds, hs, hperm⟩ := h
  refine ⟨kinds, hs, ?_⟩
  rwa [List.filterMap_append, hfs, List.append_nil]

/-- Lists are numbered member by member. -/
theorem mapM {α : Type} {f : α → Planning (List Entity)} {declared : α → List Entity} {xs : List α}
    {ess : List (List Entity)}
    (hf : ∀ x s es s', Yields (f x) s es s' → Numbered s s' (declared x) es)
    (h : Yields (xs.mapM f) s ess s') : Numbered s s' (xs.flatMap declared) ess.flatten := by
  induction xs generalizing s ess with
  | nil =>
    rw [List.mapM_nil, yields_pure] at h
    obtain ⟨rfl, rfl⟩ := h
    exact .of_refs_eq rfl
  | cons x rest ih =>
    simp only [List.mapM_cons, yields_bind, yields_pure] at h
    obtain ⟨es, t, hes, ess, t', hess, rfl, rfl⟩ := h
    exact (hf x s es t hes).append (ih hess)

/-- Where the id of a flat declaration comes from. -/
theorem id_cases (h : Numbered s (s.after n) ds es) {e : Entity} (he : e ∈ es) {id : String}
    (hid : e.id? = some id) : (∃ d ∈ ds, d.id? = some id) ∨ ∃ i < n, id = s.nth i := by
  obtain ⟨kinds, hn, hperm⟩ := h
  obtain rfl := IdSupply.after_inj hn
  have hmem : (⟨e.kind, id⟩ : Reference) ∈ es.filterMap Entity.ref? :=
    List.mem_filterMap.2 ⟨e, he, Entity.ref?_eq_some_iff.2 ⟨rfl, hid⟩⟩
  rcases List.mem_append.1 (hperm.mem_iff.1 hmem) with hmem | hmem
  · obtain ⟨d, hd, href⟩ := List.mem_filterMap.1 hmem
    exact .inl ⟨d, hd, (Entity.ref?_eq_some_iff.1 href).2⟩
  · have hnext : id ∈ s.next kinds.length := by
      rw [← map_id_zipWith (IdSupply.length_next s _).symm]
      exact List.mem_map_of_mem hmem
    obtain ⟨i, hi, rfl⟩ := List.mem_map.1 hnext
    exact .inr ⟨i, List.mem_range.1 hi, rfl⟩

/-- Where fresh ids are distinct from each other and from the declared ones, several flat
declarations of a kind have one id only when several objects are declared with it. -/
theorem duplicate (h : Numbered s s' ds es) (hinj : Function.Injective s.nth)
    (hspare : ∀ d ∈ ds, ∀ id, d.id? = some id → s.Spares id) {ref : Reference}
    (hdup : List.Duplicate ref (es.filterMap Entity.ref?)) :
    List.Duplicate ref (ds.filterMap Entity.ref?) := by
  obtain ⟨kinds, -, hperm⟩ := h
  rw [List.duplicate_iff_two_le_count, hperm.count_eq, List.count_append] at hdup
  rw [List.duplicate_iff_two_le_count]
  have hids := map_id_zipWith (IdSupply.length_next s kinds.length).symm
  have hnodup : (kinds.zipWith Reference.mk (s.next kinds.length)).Nodup := by
    refine .of_map Reference.id ?_
    rw [hids]
    exact List.nodup_range.map hinj
  have hone := List.nodup_iff_count_le_one.1 hnodup ref
  -- an id that has been handed out is not declared
  rcases Nat.eq_zero_or_pos ((kinds.zipWith Reference.mk (s.next kinds.length)).count ref) with
    hzero | hpos
  · omega
  · have hnone : (ds.filterMap Entity.ref?).count ref = 0 := by
      rw [List.count_eq_zero]
      intro hmem
      obtain ⟨d, hd, href⟩ := List.mem_filterMap.1 hmem
      have hnext : ref.id ∈ s.next kinds.length := by
        rw [← hids]
        exact List.mem_map_of_mem (List.count_pos_iff.1 hpos)
      obtain ⟨i, -, hi⟩ := List.mem_map.1 hnext
      exact hspare d hd _ (Entity.ref?_eq_some_iff.1 href).2 i hi
    omega

end Numbered

/-! ### Nested objects -/

section

variable {kind : Kind} {r : Resource kind} {rs : List (Resource kind)} {p : Enclosing}
  {es ds : List Entity} {s s' : IdSupply}

/-- What is attached to an enclosing object keeps its id. -/
theorem Enclosing.id_of_attach {x : Resource kind} (h : p.attach r = .ok x) : x.id = r.id := by
  obtain ⟨⟨⟩, -, hx⟩ := Except.bind_eq_ok_iff.1 h
  cases hx
  rfl

/-- Being attached to a parent does not change any id. -/
theorem Enclosing.refs_attachAll (h : p.attachAll rs = .ok es) :
    es.filterMap Entity.ref? = (rs.map Resource.toEntity).filterMap Entity.ref? := by
  have hrefs : List.Forall₂ (fun r e => e.ref? = r.toEntity.ref?) rs es := by
    refine (Except.mapM_eq_ok_iff.1 h).imp fun r e he => ?_
    obtain ⟨x, hx, he⟩ := Except.bind_eq_ok_iff.1 he
    cases he
    exact congrArg (Option.map _) (id_of_attach hx)
  clear h
  induction hrefs with
  | nil => rfl
  | cons hfirst _ ih => rw [List.map_cons, List.filterMap_cons, List.filterMap_cons, hfirst, ih]

/-- So children that are attached are numbered as they stand. -/
theorem Enclosing.numbered_attachAll (h : Yields (liftM (p.attachAll rs)) s es s') :
    Numbered s s' (rs.map Resource.toEntity) es := by
  obtain ⟨hes, rfl⟩ := yields_lift.1 h
  exact .of_refs_eq (refs_attachAll hes)

/-- What is attached to an enclosing object, before entities without id. -/
theorem Enclosing.numbered_members {members : List Entity} (hnone : ∀ e ∈ members, e.id? = none)
    (h : Yields (do let plugins ← p.attachAll rs; return plugins ++ members) s es s') :
    Numbered s s' (rs.map Resource.toEntity) es := by
  simp only [yields_bind, yields_pure] at h
  obtain ⟨plugins, t, hplugins, rfl, rfl⟩ := h
  exact (numbered_attachAll hplugins).append_right hnone

/-- An object that is opened to enclose others keeps its id, or takes the next one. -/
theorem Resource.yields_enclose_iff {q : Enclosing × Resource kind} :
    Yields r.enclose s q s' ↔ ∃ id, q = (⟨kind, id, Detail.names kind r.detail⟩,
        { r with id := some id }) ∧
      (r.id = some id ∧ s' = s ∨ r.id = none ∧ id = s.nth 0 ∧ s' = s.after 1) := by
  unfold enclose
  cases hid : r.id with
  | some id =>
    simp only [pure_bind, yields_pure]
    constructor
    · rintro ⟨rfl, rfl⟩
      exact ⟨id, rfl, .inl ⟨rfl, rfl⟩⟩
    · rintro ⟨_, rfl, ⟨⟨⟩, rfl⟩ | ⟨⟨⟩, -⟩⟩
      exact ⟨rfl, rfl⟩
  | none =>
    simp only [yields_bind, yields_freshId, yields_pure]
    constructor
    · rintro ⟨id, t, ⟨rfl, rfl⟩, rfl, rfl⟩
      exact ⟨_, rfl, .inr ⟨trivial, rfl, rfl⟩⟩
    · rintro ⟨_, rfl, ⟨⟨⟩, -⟩ | ⟨-, rfl, rfl⟩⟩
      exact ⟨_, _, ⟨rfl, rfl⟩, rfl, rfl⟩

/-- An object that is opened to enclose others is numbered. -/
theorem Resource.numbered_enclose {q : Enclosing × Resource kind} (h : Yields r.enclose s q s') :
    Numbered s s' [r.toEntity] [q.2.toEntity] := by
  obtain ⟨id, rfl, ⟨hid, rfl⟩ | ⟨hid, rfl, rfl⟩⟩ := yields_enclose_iff.1 h
  · have href : ({ r with id := some id } : Resource kind).toEntity.ref? = r.toEntity.ref? :=
      congrArg (Option.map _) hid.symm
    exact .of_refs_eq (by rw [List.filterMap_cons, List.filterMap_cons, href])
  · have href : r.toEntity.ref? = none := congrArg (Option.map _) hid
    refine ⟨[kind], rfl, ?_⟩
    rw [List.filterMap_cons, List.filterMap_cons, href]
    exact .refl _

/-- What an object and the ones nested under it are flattened to. -/
theorem Resource.yields_flattenNested_iff {empty : Bool}
    {nested : Enclosing → Planning (List Entity)} :
    Yields (r.flattenNested empty nested) s es s' ↔
      empty = true ∧ es = [r.toEntity] ∧ s' = s ∨
      empty = false ∧ ∃ q t fs, Yields r.enclose s q t ∧ Yields (nested q.1) t fs s' ∧
        es = fs ++ [q.2.toEntity] := by
  unfold flattenNested
  cases empty with
  | true =>
    rw [if_pos rfl, yields_pure]
    simp [eq_comm]
  | false =>
    simp only [Bool.false_eq_true, if_false, yields_bind, yields_pure, false_and, false_or,
      true_and]
    constructor
    · rintro ⟨q, t, hopen, fs, t', hfs, rfl, rfl⟩
      exact ⟨q, t, fs, hopen, hfs, rfl⟩
    · rintro ⟨q, t, fs, hopen, hfs, rfl⟩
      exact ⟨q, t, hopen, fs, s', hfs, rfl, rfl⟩

/-- An object takes a fresh id if something is nested in it and it has none, and what is nested
follows. -/
theorem Resource.numbered_flattenNested {empty : Bool}
    {nested : Enclosing → Planning (List Entity)} (hempty : empty = true → ds = [])
    (hnested : ∀ p s es s', Yields (nested p) s es s' → Numbered s s' ds es)
    (h : Yields (r.flattenNested empty nested) s es s') :
    Numbered s s' (r.toEntity :: ds) es := by
  rcases yields_flattenNested_iff.1 h with ⟨hemp, rfl, rfl⟩ | ⟨-, q, t, fs, hopen, hfs, rfl⟩
  · rw [hempty hemp]
    exact .of_refs_eq rfl
  · exact ((numbered_enclose hopen).append (hnested _ _ _ _ hfs)).perm List.perm_append_comm

end

/-! ### Declarations -/

section

variable {es : List Entity} {s s' : IdSupply}

/-- A route is flattened like any object with others nested under it, once it is attached to the
service that encloses it. -/
theorem RouteDecl.exists_of_flatten {p : Option Enclosing} {d : RouteDecl}
    (h : Yields (d.flatten p) s es s') : ∃ route : Resource .route, route.id = d.route.id ∧
      Yields (route.flattenNested d.plugins.isEmpty fun q => q.attachAll d.plugins) s es s' := by
  unfold flatten at h
  cases p with
  | none =>
    simp only [pure_bind] at h
    exact ⟨d.route, rfl, h⟩
  | some p =>
    simp only [yields_bind, yields_lift] at h
    obtain ⟨route, t, ⟨hroute, rfl⟩, h⟩ := h
    exact ⟨route, Enclosing.id_of_attach hroute, h⟩

/-- The same of an object in which others of one kind are nested, with nothing nested in them. -/
theorem Resource.numbered_flatten {k kind : Kind} {r : Resource k} {rs : List (Resource kind)}
    (h : Yields (r.flattenNested rs.isEmpty fun p => p.attachAll rs) s es s') :
    Numbered s s' (r.toEntity :: rs.map Resource.toEntity) es := by
  refine numbered_flattenNested (fun hempty => ?_) (fun _ _ _ _ => Enclosing.numbered_attachAll) h
  rw [List.isEmpty_iff.1 hempty, List.map_nil]

/-- Routes are numbered with their plugins. -/
theorem RouteDecl.numbered_flatten {p : Option Enclosing} {d : RouteDecl}
    (h : Yields (d.flatten p) s es s') : Numbered s s' d.declared es := by
  obtain ⟨route, hid, h⟩ := exists_of_flatten h
  have href : d.route.toEntity.ref? = route.toEntity.ref? := congrArg (Option.map _) hid.symm
  refine .congr ?_ (Resource.numbered_flatten h)
  rw [declared, List.filterMap_cons, List.filterMap_cons, href]

/-- Services are numbered with their routes and plugins. -/
theorem ServiceDecl.numbered_flatten {d : ServiceDecl} (h : Yields d.flatten s es s') :
    Numbered s s' d.declared es := by
  refine Resource.numbered_flattenNested (fun hempty => ?_) (fun p t fs t' hfs => ?_) h
  · obtain ⟨hroutes, hplugins⟩ := Bool.and_eq_true_iff.1 hempty
    rw [List.isEmpty_iff.1 hroutes, List.isEmpty_iff.1 hplugins]
    rfl
  · simp only [yields_bind, yields_pure] at hfs
    obtain ⟨routes, t₁, hroutes, plugins, t₂, hplugins, rfl, rfl⟩ := hfs
    exact (Numbered.mapM (fun _ _ _ _ => RouteDecl.numbered_flatten) hroutes).append
      (Enclosing.numbered_attachAll hplugins)

/-- Consumers are numbered with their plugins. Their memberships have no ids. -/
theorem ConsumerDecl.numbered_flatten {d : ConsumerDecl} (h : Yields d.flatten s es s') :
    Numbered s s' d.declared es := by
  refine Resource.numbered_flattenNested (fun hempty => ?_) (fun p t fs t' hfs => ?_) h
  · rw [List.isEmpty_iff.1 (Bool.and_eq_true_iff.1 hempty).1, List.map_nil]
  · exact Enclosing.numbered_members (List.forall_mem_map.2 fun _ _ => rfl) hfs

/-- Groups are numbered with their plugins. Their memberships have no ids. -/
theorem ConsumerGroupDecl.numbered_flatten {d : ConsumerGroupDecl} (h : Yields d.flatten s es s') :
    Numbered s s' d.declared es := by
  refine Resource.numbered_flattenNested (fun hempty => ?_) (fun p t fs t' hfs => ?_) h
  · rw [List.isEmpty_iff.1 (Bool.and_eq_true_iff.1 hempty).1, List.map_nil]
  · exact Enclosing.numbered_members (List.forall_mem_map.2 fun _ _ => rfl) hfs

/-- Flat declarations have the declared ids and, beside them, the fresh ids that flattening has
taken, one each. -/
theorem Content.numbered_flatten {c : Content} (h : Yields c.flatten s es s') :
    Numbered s s' c.declared es := by
  unfold flatten at h
  simp only [yields_bind, yields_pure] at h
  obtain ⟨services, _, hservices, routes, _, hroutes, consumers, _, hconsumers, groups, _, hgroups,
    upstreams, _, hupstreams, certificates, _, hcertificates, keySets, _, hkeySets, roles, _,
    hroles, rfl, rfl⟩ := h
  have hservices := Numbered.mapM (fun _ _ _ _ => ServiceDecl.numbered_flatten) hservices
  have hroutes := Numbered.mapM (fun _ _ _ _ => RouteDecl.numbered_flatten) hroutes
  have hconsumers := Numbered.mapM (fun _ _ _ _ => ConsumerDecl.numbered_flatten) hconsumers
  have hgroups := Numbered.mapM (fun _ _ _ _ => ConsumerGroupDecl.numbered_flatten) hgroups
  have hupstreams : Numbered _ _ (c.upstreams.flatMap UpstreamDecl.declared) _ :=
    Numbered.mapM (fun _ _ _ _ => Resource.numbered_flatten) hupstreams
  have hcertificates : Numbered _ _ (c.certificates.flatMap CertificateDecl.declared) _ :=
    Numbered.mapM (fun _ _ _ _ => Resource.numbered_flatten) hcertificates
  have hkeySets : Numbered _ _ (c.keySets.flatMap KeySetDecl.declared) _ :=
    Numbered.mapM (fun _ _ _ _ => Resource.numbered_flatten) hkeySets
  have hroles : Numbered _ _ (c.roles.flatMap RoleDecl.declared) _ :=
    Numbered.mapM (fun _ _ _ _ => Resource.numbered_flatten) hroles
  have hplain : ∀ t, Numbered t t c.plainEntities c.plainEntities := fun _ => .of_refs_eq rfl
  simp only [List.flatten_append]
  exact (((((((hservices.append hroutes).append hconsumers).append hgroups).append
    hupstreams).append hcertificates).append hkeySets).append hroles).append (hplain _)

end

end Gateway
