import Gateway.Proofs.Registry

/-!
# Lists that make up a state

A list of entities makes up a state when every entity has an id and no two of one kind share an id
or a natural key (`Indexable`): this is what holding any two of them side by side comes to
(`indexable_iff`). The state then holds the entities of the list and no others, so it is the same
for every order in which they are listed. The indexes that are filled along the way accept and
refuse the same lists, with the same errors, and find the same objects (`State.ofEntities_exact`).
-/

namespace Gateway

variable {es : List Entity} {kind : Kind}

/-! ### What can be indexed -/

/-- The ids of the entities of a kind. -/
def idsOfKind (kind : Kind) (es : List Entity) : List String :=
  (es.filter (·.kind == kind)).filterMap Entity.id?

/-- The natural keys of the entities of a kind, where they have one. -/
def keysOfKind (kind : Kind) (es : List Entity) : List NaturalKey :=
  (es.filter (·.kind == kind)).filterMap Entity.naturalKey?

/-- Every entity has an id, and within each kind ids differ, and so do natural keys. -/
structure Indexable (es : List Entity) : Prop where
  identified : ∀ e ∈ es, e.id?.isSome
  ids : ∀ kind, (idsOfKind kind es).Nodup
  keys : ∀ kind, (keysOfKind kind es).Nodup

/-- Relations hold throughout a list together when each does. -/
theorem pairwise_forall_iff {α ι : Type} {R : ι → α → α → Prop} {xs : List α} :
    (∀ i, xs.Pairwise (R i)) ↔ xs.Pairwise fun a b => ∀ i, R i a b := by
  induction xs with
  | nil => simp
  | cons x rest ih =>
    simp only [List.pairwise_cons, forall_and, ih]
    refine and_congr_left fun _ => ⟨fun h b hb i => h i b hb, fun h i b hb => h b hb i⟩

/-- What is read from the entities of each kind differs when no two entities of one kind agree in
it. -/
theorem nodup_ofKind_iff {α : Type} {read : Entity → Option α} :
    (∀ kind, ((es.filter (·.kind == kind)).filterMap read).Nodup) ↔
      es.Pairwise fun a b => ¬(a.kind = b.kind ∧ read a = read b ∧ (read a).isSome) := by
  unfold List.Nodup
  simp only [List.pairwise_filterMap, List.pairwise_filter, beq_iff_eq]
  rw [pairwise_forall_iff]
  refine List.Pairwise.iff fun a b => ?_
  constructor
  · rintro h ⟨hk, hread, hsome⟩
    obtain ⟨x, hx⟩ := Option.isSome_iff_exists.1 hsome
    exact h b.kind hk rfl x hx x (hread ▸ hx) rfl
  · rintro h kind rfl hk x hx y hy rfl
    exact h ⟨hk.symm, hx.trans hy.symm, by rw [hx]; rfl⟩

/-- Entities can be indexed when each has an id and any two can be held side by side. -/
theorem indexable_iff :
    Indexable es ↔ (∀ e ∈ es, e.id?.isSome) ∧ es.Pairwise Entity.Apart := by
  have hpair : (∀ e ∈ es, e.id?.isSome) → (es.Pairwise Entity.Apart ↔
      (∀ kind, (idsOfKind kind es).Nodup) ∧ ∀ kind, (keysOfKind kind es).Nodup) := by
    intro hid
    unfold idsOfKind keysOfKind
    rw [nodup_ofKind_iff, nodup_ofKind_iff, ← List.pairwise_and_iff]
    refine List.Pairwise.iff_of_mem fun {a b} ha hb => and_congr_left fun _ => not_congr ?_
    have hida := Entity.id?_of_isSome (hid a ha)
    have hidb := Entity.id?_of_isSome (hid b hb)
    constructor
    · intro href
      refine ⟨congrArg Reference.kind href, ?_, hid a ha⟩
      rw [hida, hidb, show a.idText = b.idText from congrArg Reference.id href]
    · rintro ⟨hk, heq, -⟩
      rw [hida, hidb, Option.some_inj] at heq
      rw [Entity.ref, Entity.ref, hk, heq]
  constructor
  · rintro ⟨hid, hids, hkeys⟩
    exact ⟨hid, (hpair hid).2 ⟨hids, hkeys⟩⟩
  · rintro ⟨hid, happ⟩
    obtain ⟨hids, hkeys⟩ := (hpair hid).1 happ
    exact ⟨hid, hids, hkeys⟩

/-! ### Making up a state -/

namespace State

variable {s : State}

/-- Entities that can be held side by side, and beside every member, can be added one after the
other. -/
theorem exists_foldlM_insert (heach : ∀ e ∈ es, e.id?.isSome ∧ ∀ x ∈ s, e.Apart x)
    (hpair : es.Pairwise Entity.Apart) : ∃ t, es.foldlM insert s = .ok t := by
  induction es generalizing s with
  | nil => exact ⟨s, rfl⟩
  | cons e rest ih =>
    obtain ⟨hfirst, heach⟩ := List.forall_mem_cons.1 heach
    obtain ⟨hbeside, hpair⟩ := List.pairwise_cons.1 hpair
    obtain ⟨u, hu⟩ := exists_insert_iff.2 hfirst
    have hrest : ∀ a ∈ rest, a.id?.isSome ∧ ∀ x ∈ u, a.Apart x := by
      intro a ha
      refine ⟨(heach a ha).1, fun x hx => ?_⟩
      rcases (mem_insert hu).1 hx with rfl | hx
      · exact (hbeside a ha).symm
      · exact (heach a ha).2 x hx
    obtain ⟨t, ht⟩ := ih hrest hpair
    refine ⟨t, ?_⟩
    rw [List.foldlM_cons, Except.bind_eq_ok_iff]
    exact ⟨u, hu, ht⟩

/-- A list makes up the state that holds its entities, if they can be indexed. -/
theorem ofEntities_eq_ok_iff :
    ofEntities es = .ok s ↔ Indexable es ∧ ∀ x, x ∈ s ↔ x ∈ es := by
  unfold ofEntities
  rw [foldlM_insert_eq_ok_iff, indexable_iff]
  simp [and_assoc]

/-- A list makes up some state exactly when its entities can be indexed. -/
theorem exists_ofEntities_iff : (∃ s, ofEntities es = .ok s) ↔ Indexable es := by
  constructor
  · rintro ⟨s, hs⟩
    exact (ofEntities_eq_ok_iff.1 hs).1
  · intro h
    obtain ⟨hid, hpair⟩ := indexable_iff.1 h
    exact exists_foldlM_insert (fun e he => ⟨hid e he, fun _ hx => absurd hx not_mem_empty⟩) hpair

/-- A state holds each of the entities that make it up once. -/
theorem entities_perm (h : ofEntities es = .ok s) : s.entities.Perm es := by
  obtain ⟨hindex, hmem⟩ := ofEntities_eq_ok_iff.1 h
  have nodup_of_apart : ∀ l : List Entity, l.Pairwise Entity.Apart → l.Nodup :=
    fun l hl => hl.imp fun hab heq => hab.1 (congrArg Entity.ref heq)
  exact (List.perm_ext_iff_of_nodup (nodup_of_apart _ s.pairwise_apart)
    (nodup_of_apart _ (indexable_iff.1 hindex).2)).2 hmem

/-- The order in which entities are listed makes no difference. -/
theorem ofEntities_of_perm {es' : List Entity} (h : ofEntities es = .ok s) (hperm : es'.Perm es) :
    ofEntities es' = .ok s := by
  obtain ⟨hindex, hmem⟩ := ofEntities_eq_ok_iff.1 h
  obtain ⟨hid, hpair⟩ := indexable_iff.1 hindex
  refine ofEntities_eq_ok_iff.2 ⟨indexable_iff.2 ⟨fun e he => ?_, ?_⟩, fun x => ?_⟩
  · exact hid e (hperm.mem_iff.1 he)
  · exact (hperm.pairwise_iff fun hab => hab.symm).2 hpair
  · rw [hmem, hperm.mem_iff]

end State

/-! ### Filling indexes -/

namespace Register

/-- The object with a natural key: the one under the id that is kept for the key. -/
def getByKey? (g : Register) (key : NaturalKey) : Option Entity :=
  g.byKey[key.parts]?.bind fun id => g.byId[id]?

/-- A register that looks like a state finds what the state finds. -/
theorem getByKey?_eq {g : Register} {s : State} (h : g.index = s.catalog kind) (key : NaturalKey) :
    g.getByKey? key = s.getByKey? kind key := by
  have hkey : g.byKey[key.parts]? = (s.getByKey? kind key).map (·.idText) :=
    congrFun (congrArg Index.byKey h) key
  have hget : ∀ id, g.byId[id]? = s.get? kind id := congrFun (congrArg Index.byId h)
  unfold getByKey?
  rw [hkey, Option.bind_map]
  cases hheld : s.getByKey? kind key with
  | none => rfl
  | some x =>
    obtain ⟨hmem, rfl, -⟩ := State.getByKey?_eq_some_iff.1 hheld
    exact (hget x.idText).trans (State.get?_of_mem hmem)

end Register

namespace Registry

variable {v : Registry} {s : State} {err : StateError}

/-- Loading what cannot be added to a state fails in the same way. -/
theorem exists_run_load_error (hv : v.catalog = s.catalog)
    (h : es.foldlM State.insert s = .error err) : ∃ v', (load es).run v = .error err v' := by
  induction es generalizing v s with
  | nil => cases h
  | cons e rest ih =>
    have hinsert := run_insert hv e
    show ∃ v', (insert e >>= fun _ => load rest).run v = .error err v'
    rw [EStateM.run_bind]
    rw [List.foldlM_cons, Except.bind_eq_error_iff] at h
    cases hrun : (insert e).run v with
    | error err' v₁ =>
      rw [hrun] at hinsert
      rcases h with hfirst | ⟨s₁, hs₁, -⟩
      · rw [hfirst] at hinsert
        obtain ⟨rfl, -⟩ := EStateM.Result.error.inj hinsert
        exact ⟨v₁, rfl⟩
      · rw [hs₁] at hinsert
        cases hinsert
    | ok _ v₁ =>
      rw [hrun] at hinsert
      rcases h with hfirst | ⟨s₁, hs₁, hrest⟩
      · rw [hfirst] at hinsert
        cases hinsert
      · rw [hs₁] at hinsert
        exact ih (EStateM.Result.ok.inj hinsert).2 hrest

end Registry

namespace State

/-- A list makes up a state when every entity has an id and, within each kind, ids differ and so do
natural keys. The state then holds each entity of the list once and nothing else, it finds under a
natural key the entity that has it, and every other order of the list makes up the same state.
Filling the indexes of each kind, entity by entity, comes to the same: the same objects are listed
and found, in whatever order they are added, and a list that makes up no state fails there with the
same error. -/
theorem ofEntities_exact (es : List Entity) :
    ((∃ s, ofEntities es = .ok s) ↔
      (∀ e ∈ es, e.id?.isSome) ∧ ∀ kind, (idsOfKind kind es).Nodup ∧ (keysOfKind kind es).Nodup) ∧
    (∀ s, ofEntities es = .ok s → s.entities.Perm es ∧
      (∀ kind key e, s.getByKey? kind key = some e ↔
        e ∈ es ∧ e.kind = kind ∧ e.naturalKey? = some key) ∧
      (∀ es', es'.Perm es → ofEntities es' = .ok s) ∧
      ∃ v : Registry, v.entities = s.entities ∧
        (∀ kind key, (v kind).getByKey? key = s.getByKey? kind key) ∧
        ∀ es', es'.Perm es → (Registry.load es').run .empty = .ok () v) ∧
    ∀ err, ofEntities es = .error err → ∃ v, (Registry.load es).run .empty = .error err v := by
  refine ⟨?_, fun s hs => ⟨entities_perm hs, fun kind key e => ?_, ?_, ?_⟩, fun err herr => ?_⟩
  · rw [exists_ofEntities_iff]
    constructor
    · rintro ⟨hid, hids, hkeys⟩
      exact ⟨hid, fun kind => ⟨hids kind, hkeys kind⟩⟩
    · rintro ⟨hid, h⟩
      exact ⟨hid, fun kind => (h kind).1, fun kind => (h kind).2⟩
  · rw [getByKey?_eq_some_iff, (ofEntities_eq_ok_iff.1 hs).2]
  · exact fun es' => ofEntities_of_perm hs
  · obtain ⟨v, hload, hv⟩ := Registry.exists_run_load Registry.catalog_empty hs
    refine ⟨v, Registry.entities_eq hv, fun kind => Register.getByKey?_eq (congrFun hv kind), ?_⟩
    intro es' hperm
    obtain ⟨v', hload', hv'⟩ :=
      Registry.exists_run_load Registry.catalog_empty (ofEntities_of_perm hs hperm)
    rw [hload', Registry.catalog_inj.1 (hv'.trans hv.symm)]
  · exact Registry.exists_run_load_error Registry.catalog_empty herr

end State

end Gateway
