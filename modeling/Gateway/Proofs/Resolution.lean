import Gateway.Proofs.Planning
import Gateway.Proofs.State

/-!
# What resolution does with a declaration

`Resolution.Step` lists what can become of one declared entity, and `Resolution.yields_step_iff`
says that the list is exact: it repeats an earlier one, or it is added under the id that
`Resolution.Identified` gives it. References are resolved one by one (`Entity.forall₂_links_relink`)
to ids of what has been resolved or carries a lookup tag (`Resolution.lookUp_ok`).

Of the resolved state follows (`Resolution.Sound`): a visible object with the natural key of a
resolved entity has the id of that entity (`Content.idText_of_sameKey`), and resolved entities refer
to each other by id, and to nothing else where there are no lookup tags
(`Content.exists_byId_of_mem_links`, `Content.contains_of_mem_references`).
-/

namespace Gateway

/-! ### Replacing references -/

namespace Detail

/-- A resolved reference stands in the place of a declared one. -/
def Relinked (find : Kind → ForeignKey → Except PlanError String) (l l' : Kind × ForeignKey) :
    Prop :=
  l'.1 = l.1 ∧ ∃ id, find l.1 l.2 = .ok id ∧ l'.2 = .byId id

variable {find : Kind → ForeignKey → Except PlanError String}

/-- A reference that may be missing is replaced where it stands. -/
theorem forall₂_relinkOption {kind : Kind} {fk fk' : Option ForeignKey}
    (h : relinkOption find kind fk = .ok fk') :
    List.Forall₂ (Relinked find) (fk.toList.map (kind, ·)) (fk'.toList.map (kind, ·)) := by
  cases fk with
  | none =>
    cases h
    exact .nil
  | some fk =>
    obtain ⟨id, hid, h⟩ := Except.bind_eq_ok_iff.1 h
    cases h
    exact .cons ⟨rfl, id, hid, rfl⟩ .nil

/-- Every reference of a relinked object is the resolved form of the one in its place. -/
theorem forall₂_links_relink {k : Kind} {d d' : Detail k} (h : relink find k d = .ok d') :
    List.Forall₂ (Relinked find) (links k d) (links k d') := by
  cases k <;> simp only [relink, Except.bind_eq_ok_iff, Except.pure_eq_ok_iff] at h
  case service =>
    obtain ⟨certificate, hcertificate, cas, hcas, rfl⟩ := h
    refine List.rel_append (forall₂_relinkOption hcertificate) ?_
    rw [List.forall₂_map_left_iff, List.forall₂_map_right_iff]
    exact (Except.mapM_eq_ok_iff.1 hcas).imp fun _ id hid => ⟨rfl, id, hid, rfl⟩
  case plugin =>
    obtain ⟨service, hservice, route, hroute, consumer, hconsumer, group, hgroup, partials,
      hpartials, rfl⟩ := h
    refine List.rel_append (List.rel_append (List.rel_append (List.rel_append
      (forall₂_relinkOption hservice) (forall₂_relinkOption hroute))
      (forall₂_relinkOption hconsumer)) (forall₂_relinkOption hgroup)) ?_
    rw [List.forall₂_map_left_iff, List.forall₂_map_right_iff]
    refine (Except.mapM_eq_ok_iff.1 hpartials).imp fun l l' hl => ?_
    obtain ⟨id, hid, hl⟩ := Except.bind_eq_ok_iff.1 hl
    cases hl
    exact ⟨rfl, id, hid, rfl⟩
  case membership =>
    obtain ⟨group, hgroup, consumer, hconsumer, rfl⟩ := h
    exact .cons ⟨rfl, group, hgroup, rfl⟩ (.cons ⟨rfl, consumer, hconsumer, rfl⟩ .nil)
  case route | target | sni | key | permission | custom =>
    obtain ⟨fk, hfk, rfl⟩ := h
    exact forall₂_relinkOption hfk
  all_goals exact .nil

end Detail

namespace Entity

variable {find : Kind → ForeignKey → Except PlanError String} {e e' : Entity}

/-- An entity has its references replaced when all of them can be looked up. -/
theorem relink_eq_ok_iff : e.relink find = .ok e' ↔ ∃ d,
    Detail.relink find e.kind e.resource.detail = .ok d ∧
      e' = ⟨e.kind, { e.resource with detail := d }⟩ := by
  unfold relink
  simp only [Except.bind_eq_ok_iff, Except.pure_eq_ok_iff]
  exact exists_congr fun d => and_congr_right fun _ => eq_comm

/-- The references are replaced one by one, each where it stands. -/
theorem forall₂_links_relink (h : e.relink find = .ok e') :
    List.Forall₂ (Detail.Relinked find) e.links e'.links := by
  obtain ⟨d, hd, rfl⟩ := relink_eq_ok_iff.1 h
  exact Detail.forall₂_links_relink hd

/-- What is referred to after relinking was found. -/
theorem exists_find_of_mem_references (h : e.relink find = .ok e') {r : Reference}
    (hr : r ∈ e'.references) : ∃ fk, find r.kind fk = .ok r.id := by
  obtain ⟨⟨kind, fk⟩, hl, hr⟩ := List.mem_filterMap.1 hr
  obtain ⟨id, hid, rfl⟩ := Option.map_eq_some_iff.1 hr
  obtain ⟨l, -, hkind, id', hfind, hbyId⟩ := (forall₂_links_relink h).exists_of_mem_right hl
  cases hkind
  cases hbyId
  cases hid
  exact ⟨l.2, hfind⟩

/-- After relinking, every reference is one to an id. -/
theorem exists_byId_of_mem_links (h : e.relink find = .ok e') {l : Kind × ForeignKey}
    (hl : l ∈ e'.links) : ∃ id, l.2 = .byId id := by
  obtain ⟨_, -, -, id, -, hbyId⟩ := (forall₂_links_relink h).exists_of_mem_right hl
  exact ⟨id, hbyId⟩

/-- It stays of its kind. -/
@[simp] theorem kind_relink (h : e.relink find = .ok e') : e'.kind = e.kind := by
  obtain ⟨d, -, rfl⟩ := relink_eq_ok_iff.1 h
  rfl

/-- It keeps its id. -/
@[simp] theorem id?_relink (h : e.relink find = .ok e') : e'.id? = e.id? := by
  obtain ⟨d, -, rfl⟩ := relink_eq_ok_iff.1 h
  rfl

end Entity

namespace Resolution

open Planning

variable {r r' : Resolution} {e : Entity} {s s' : IdSupply}

/-! ### What references mean -/

/-- One object that is looked for is found when there is no other. -/
theorem only_eq_ok_iff {owner reference : String} {kind : Kind} {es : List Entity} {id : String} :
    only owner kind reference es = .ok id ↔ ∃ e, es = [e] ∧ e.idText = id := by
  unfold only
  split
  · simp
  · simp
  · rename_i hno
    constructor
    · intro h
      cases h
    · rintro ⟨x, hx, -⟩
      exact absurd hx (hno x)

/-- A reference means something that has been resolved, or an object that carries a lookup tag. -/
theorem lookUp_ok {owner : String} {kind : Kind} {fk : ForeignKey} {id : String}
    (h : r.lookUp owner kind fk = .ok id) :
    (∃ x ∈ r.desired, x.kind = kind ∧ x.idText = id) ∨
      ∃ x ∈ r.current, x.kind = kind ∧ x.idText = id ∧ r.isShared x = true := by
  have shared_of_mem : ∀ {x : Entity} {p : Entity → Bool},
      x ∈ (r.current.ofKind kind).filter p → x ∈ r.current ∧ x.kind = kind ∧ p x = true := by
    intro x p hx
    obtain ⟨hx, hp⟩ := List.mem_filter.1 hx
    exact ⟨(State.mem_ofKind.1 hx).1, (State.mem_ofKind.1 hx).2, hp⟩
  unfold lookUp at h
  split at h
  · cases h
  · split at h
    · rename_i declared _ _
      simp only at h
      split at h
      · rename_i hfound
        cases h
        rcases Bool.or_eq_true_iff.1 hfound with hdesired | hcurrent
        · exact .inl (State.contains_iff.1 hdesired)
        · obtain ⟨x, hx, hshared⟩ := (Option.any_eq_true _ _).1 hcurrent
          obtain ⟨hmem, hk, hid⟩ := State.get?_eq_some_iff.1 hx
          exact .inr ⟨x, hmem, hk, hid, hshared⟩
      · cases h
    · rename_i name _ _
      obtain ⟨x, hx, rfl⟩ := only_eq_ok_iff.1 h
      have hmem : x ∈ r.named kind name := by simp [hx]
      unfold named at hmem
      simp only at hmem
      split at hmem
      · obtain ⟨hmem, hk, hp⟩ := shared_of_mem hmem
        exact .inr ⟨x, hmem, hk, rfl, (Bool.and_eq_true_iff.1 hp).1⟩
      · obtain ⟨hmem, hk⟩ := State.mem_ofKind.1 (List.mem_filter.1 hmem).1
        exact .inl ⟨x, hmem, hk, rfl⟩
    · simp only at h
      split at h
      · cases h
      · obtain ⟨x, hx, rfl⟩ := only_eq_ok_iff.1 h
        have hmem : x ∈ (r.current.ofKind kind).filter r.isShared := by simp [hx]
        obtain ⟨hmem, hk, hp⟩ := shared_of_mem hmem
        exact .inr ⟨x, hmem, hk, rfl, hp⟩

/-- Without lookup tags nothing can be referred to that is not declared. -/
theorem isShared_eq_false (h : r.options.lookupTags.isEmpty = true) (e : Entity) :
    r.isShared e = false := by
  unfold LookupTags.isEmpty at h
  have hnone : r.options.lookupTags.forKind e.kind = [] := by
    simpa using List.all_eq_true.1 h e.kind e.kind.mem_creationOrder
  unfold isShared Entity.hasAnyTag
  rw [hnone]
  simp

/-! ### One declaration -/

/-- How an entity gets its final id. -/
inductive Identified (r : Resolution) (e : Entity) (s : IdSupply) :
    String → Moves → IdSupply → Prop
  /-- It is a visible object, and has its id. -/
  | same {x : Entity} (hmatch : r.visible.match? e = some x) (hid : e.id? = some x.idText) :
      Identified r e s x.idText r.moves s
  /-- It is a visible object, to whose id the declared one gives way. -/
  | moved {x : Entity} {id : String} (hmatch : r.visible.match? e = some x)
      (hid : e.id? = some id) (hne : id ≠ x.idText) :
      Identified r e s x.idText (r.moves.record e.kind id x.idText) s
  /-- It is a visible object, and takes its id. -/
  | adopted {x : Entity} (hmatch : r.visible.match? e = some x) (hid : e.id? = none) :
      Identified r e s x.idText r.moves s
  /-- It is new, and has the declared id. -/
  | declared {id : String} (hmatch : r.visible.match? e = none) (hid : e.id? = some id) :
      Identified r e s id r.moves s
  /-- It is new, and takes a fresh id. -/
  | fresh (hmatch : r.visible.match? e = none) (hid : e.id? = none) :
      Identified r e s (s.issue s.taken) r.moves { s with taken := s.taken + 1 }

/-- An entity is settled by the id that it gets, and nothing else of it is changed. -/
theorem yields_settle_iff {b : Entity} {moves : Moves} :
    Yields (r.settle e) s (b, moves) s' ↔
      ∃ id, b = e.withId id ∧ Identified r e s id moves s' := by
  unfold settle
  split
  · rename_i x a hmatch hid
    split
    · rename_i heq
      subst heq
      rw [yields_pure]
      constructor
      · rintro ⟨heq, rfl⟩
        cases heq
        exact ⟨_, (Entity.withId_of_id? hid).symm, .same hmatch hid⟩
      · rintro ⟨id, rfl, hident⟩
        cases hident <;> simp_all [Entity.withId_of_id? hid]
    · rename_i hne
      rw [yields_pure]
      constructor
      · rintro ⟨heq, rfl⟩
        cases heq
        exact ⟨_, rfl, .moved hmatch hid hne⟩
      · rintro ⟨id, rfl, hident⟩
        cases hident <;> simp_all
  · rename_i x hmatch hid
    rw [yields_pure]
    constructor
    · rintro ⟨heq, rfl⟩
      cases heq
      exact ⟨_, rfl, .adopted hmatch hid⟩
    · rintro ⟨id, rfl, hident⟩
      cases hident <;> simp_all
  · rename_i a hmatch hid
    rw [yields_pure]
    constructor
    · rintro ⟨heq, rfl⟩
      cases heq
      exact ⟨_, (Entity.withId_of_id? hid).symm, .declared hmatch hid⟩
    · rintro ⟨id, rfl, hident⟩
      cases hident <;> simp_all [Entity.withId_of_id? hid]
  · rename_i hmatch hid
    simp only [yields_bind, yields_freshId, yields_pure]
    constructor
    · rintro ⟨id, t, ⟨rfl, rfl⟩, heq, rfl⟩
      cases heq
      exact ⟨_, rfl, .fresh hmatch hid⟩
    · rintro ⟨id, rfl, hident⟩
      cases hident <;> simp_all

/-- A declaration as it is added to what has been resolved, but for its id. -/
def candidate (r : Resolution) (linked : Entity) : Entity :=
  r.options.selection.apply linked.withDerivedId

/-- What becomes of one declaration. -/
inductive Step (r : Resolution) (e : Entity) (s : IdSupply) : Resolution → IdSupply → Prop
  /-- It repeats an earlier one. -/
  | repeated {linked : Entity} (hlink : r.link e = .ok linked)
      (hrepeats : r.repeats linked.withDerivedId = .ok true) : Step r e s r s
  /-- It is added under its final id. -/
  | added {linked : Entity} {id : String} {moves : Moves} {desired : State} {s' : IdSupply}
      (hlink : r.link e = .ok linked) (hrepeats : r.repeats linked.withDerivedId = .ok false)
      (hrefuse : r.refuse (r.candidate linked) = .ok ())
      (hident : Identified r (r.candidate linked) s id moves s')
      (hadd : r.desired.insert ((r.candidate linked).withId id) = .ok desired) :
      Step r e s { r with desired := desired, moves := moves } s'

/-- An entity is added to what has been resolved, and what is noted of ids is kept. -/
theorem add_eq_ok_iff {moves : Moves} : r.add e moves = .ok r' ↔
    ∃ desired, r.desired.insert e = .ok desired ∧
      r' = { r with desired := desired, moves := moves } := by
  unfold add
  split
  · rename_i desired h
    simp [h, eq_comm]
  · rename_i err h
    simp [h]

/-- Nothing else can become of a declaration. -/
theorem yields_step_iff : Yields (r.step e) s r' s' ↔ Step r e s r' s' := by
  unfold step accept
  simp only [yields_bind, yields_lift]
  constructor
  · rintro ⟨linked, t, ⟨hlink, rfl⟩, rep, t', ⟨hrep, rfl⟩, h⟩
    cases rep with
    | true =>
      rw [if_pos rfl, yields_pure] at h
      obtain ⟨rfl, rfl⟩ := h
      exact .repeated hlink hrep
    | false =>
      rw [if_neg (by simp)] at h
      simp only [yields_bind, yields_lift] at h
      obtain ⟨⟨⟩, t, ⟨hrefuse, rfl⟩, ⟨b, moves⟩, t', hsettle, hadd, rfl⟩ := h
      obtain ⟨id, rfl, hident⟩ := yields_settle_iff.1 hsettle
      obtain ⟨desired, hinsert, rfl⟩ := add_eq_ok_iff.1 hadd
      exact .added hlink hrep hrefuse hident hinsert
  · intro h
    cases h with
    | @repeated linked hlink hrep =>
      refine ⟨linked, s, ⟨hlink, rfl⟩, true, s, ⟨hrep, rfl⟩, ?_⟩
      rw [if_pos rfl, yields_pure]
      exact ⟨rfl, rfl⟩
    | @added linked id moves desired t hlink hrep hrefuse hident hadd =>
      refine ⟨linked, s, ⟨hlink, rfl⟩, false, s, ⟨hrep, rfl⟩, ?_⟩
      rw [if_neg (by simp)]
      simp only [yields_bind, yields_lift]
      exact ⟨(), s, ⟨hrefuse, rfl⟩, (_, moves), s', yields_settle_iff.2 ⟨id, rfl, hident⟩,
        add_eq_ok_iff.2 ⟨desired, hadd, rfl⟩, rfl⟩

/-! ### What the resolved state is like -/

/-- A visible object with the natural key of an entity is the one that the entity denotes. -/
theorem match?_of_sameKey {v : State} {x : Entity} (hx : x ∈ v) (h : e.SameKey x) :
    v.match? e = some x := by
  have hholder : v.keyHolder? e = some x := State.keyHolder?_eq_some_iff.2 ⟨hx, h⟩
  unfold State.keyHolder? at hholder
  unfold State.match?
  rw [hholder]
  rfl

/-- Neither an id that is derived nor the tags of the selection have a part in references. -/
@[simp] theorem references_candidate (linked : Entity) :
    (r.candidate linked).references = linked.references := by
  simp [candidate]

/-- Nor in what is written of them. -/
@[simp] theorem links_candidate (linked : Entity) : (r.candidate linked).links = linked.links := by
  obtain ⟨k, e⟩ := linked
  cases k <;> rfl

/-- Nor in natural keys. -/
@[simp] theorem naturalKey?_candidate (linked : Entity) :
    (r.candidate linked).naturalKey? = linked.naturalKey? := by
  simp [candidate]

/-- Nor in kinds. -/
@[simp] theorem kind_candidate (linked : Entity) : (r.candidate linked).kind = linked.kind := by
  simp [candidate]

/-- The final id of an entity that denotes a visible object is that of the object. -/
theorem Identified.eq_of_match? {id : String} {moves : Moves} (h : Identified r e s id moves s')
    {x : Entity} (hmatch : r.visible.match? e = some x) : id = x.idText := by
  cases h with
  | same h _ => rw [Option.some.inj (hmatch.symm.trans h)]
  | moved h _ _ => rw [Option.some.inj (hmatch.symm.trans h)]
  | adopted h _ => rw [Option.some.inj (hmatch.symm.trans h)]
  | declared h _ => cases hmatch.symm.trans h
  | fresh h _ => cases hmatch.symm.trans h

/-- The final id of an entity with the natural key of a visible object is that of the object. -/
theorem Identified.eq_of_sameKey {id : String} {moves : Moves} (h : Identified r e s id moves s')
    {x : Entity} (hx : x ∈ r.visible) (hsame : e.SameKey x) : id = x.idText :=
  h.eq_of_match? (match?_of_sameKey hx hsame)

/-- What has been resolved stays resolved. -/
theorem Step.desired_subset (h : Step r e s r' s') {x : Entity} (hx : x ∈ r.desired) :
    x ∈ r'.desired := by
  cases h with
  | repeated _ _ => exact hx
  | added _ _ _ _ hadd => exact (State.mem_insert hadd).2 (.inr hx)

/-- What is known of resolved entities: they have the ids of the visible objects that share their
natural keys, and they refer to resolved entities or to objects with lookup tags. -/
structure Sound (o : Options) (held : State) (r : Resolution) : Prop where
  options : r.options = o
  current : r.current = held
  visible : r.visible = held.select o.selection
  tagged : ∀ d ∈ r.desired, d.kind.taggable = true → o.selection.tags ⊆ d.tags
  keyFirst : ∀ d ∈ r.desired, ∀ x ∈ r.visible, d.SameKey x → x.idText = d.idText
  linked : ∀ d ∈ r.desired, ∀ l ∈ d.links, ∃ id, l.2 = .byId id
  closed : ∀ d ∈ r.desired, ∀ ref ∈ d.references, (∃ x ∈ r.desired, x.ref = ref) ∨
    ∃ x ∈ r.current, x.ref = ref ∧ r.isShared x = true

variable {o : Options} {current : State}

/-- Nothing has been resolved at the start. -/
theorem sound_start (o : Options) (current : State) : Sound o current (start o current) where
  options := rfl
  current := rfl
  visible := rfl
  tagged _ hd := absurd hd State.not_mem_empty
  keyFirst _ hd := absurd hd State.not_mem_empty
  linked _ hd := absurd hd State.not_mem_empty
  closed _ hd := absurd hd State.not_mem_empty

/-- References of an entity that is added lead to what has been resolved, or to objects with lookup
tags. -/
theorem closed_of_link {linked : Entity} (hlink : r.link e = .ok linked) {ref : Reference}
    (href : ref ∈ linked.references) :
    (∃ x ∈ r.desired, x.ref = ref) ∨ ∃ x ∈ r.current, x.ref = ref ∧ r.isShared x = true := by
  obtain ⟨fk, hfind⟩ := Entity.exists_find_of_mem_references hlink href
  rcases lookUp_ok hfind with ⟨x, hx, hk, hid⟩ | ⟨x, hx, hk, hid, hshared⟩
  · exact .inl ⟨x, hx, by rw [Entity.ref, hk, hid]⟩
  · exact .inr ⟨x, hx, by rw [Entity.ref, hk, hid], hshared⟩

/-- Every step keeps the resolution sound. -/
theorem Sound.step (h : Sound o current r) (hstep : Step r e s r' s') : Sound o current r' := by
  have hsub := @hstep.desired_subset
  cases hstep with
  | repeated _ _ => exact h
  | @added linked id moves desired _ hlink _ _ hident hadd =>
    refine ⟨h.options, h.current, h.visible, ?_, ?_, ?_, ?_⟩
    · intro d hd htag
      rcases (State.mem_insert hadd).1 hd with rfl | hd
      · rw [← h.options]
        exact fun t ht => Entity.mem_tags_apply _ _ ht htag
      · exact h.tagged d hd htag
    · intro d hd x hx hsame
      rcases (State.mem_insert hadd).1 hd with rfl | hd
      · exact (hident.eq_of_sameKey hx hsame).symm
      · exact h.keyFirst d hd x hx hsame
    · intro d hd l hl
      rcases (State.mem_insert hadd).1 hd with rfl | hd
      · exact Entity.exists_byId_of_mem_links hlink (by simpa using hl)
      · exact h.linked d hd l hl
    · intro d hd ref href
      have hcase : (∃ x ∈ r.desired, x.ref = ref) ∨
          ∃ x ∈ r.current, x.ref = ref ∧ r.isShared x = true := by
        rcases (State.mem_insert hadd).1 hd with rfl | hd
        · exact closed_of_link hlink (by simpa using href)
        · exact h.closed d hd ref href
      refine hcase.imp_left fun hresolved => ?_
      obtain ⟨x, hx, hxref⟩ := hresolved
      exact ⟨x, hsub hx, hxref⟩

/-- So it is sound after any number of declarations. -/
theorem Sound.foldlM {es : List Entity} (h : Sound o current r)
    (hyields : Yields (es.foldlM Resolution.step r) s r' s') : Sound o current r' :=
  foldlM_induction (fun _ _ _ _ _ _ hr hx => hr.step (yields_step_iff.1 hx)) h hyields

/-- What has been resolved is in the state that results. -/
theorem desired_subset_foldlM {es : List Entity} (hyields : Yields (es.foldlM step r) s r' s')
    {x : Entity} (hx : x ∈ r.desired) : x ∈ r'.desired :=
  foldlM_induction (P := fun r => x ∈ r.desired)
    (fun _ _ _ _ _ _ hr hy => (yields_step_iff.1 hy).desired_subset hr) hx hyields

/-- All entities are resolved, and no others. -/
theorem mem_inOrder {es : List Entity} : e ∈ inOrder es ↔ e ∈ es := by
  unfold inOrder entitiesOfKind
  simp only [List.mem_flatMap, List.mem_filter, beq_iff_eq]
  constructor
  · rintro ⟨_, -, he, -⟩
    exact he
  · intro he
    exact ⟨e.kind, e.kind.mem_creationOrder, he, rfl⟩

/-- Partners of one kind stand in the same places in the order of resolution. -/
theorem forall₂_inOrder {R : Entity → Entity → Prop} (hkind : ∀ a b, R a b → b.kind = a.kind)
    {es es' : List Entity} (h : List.Forall₂ R es es') :
    List.Forall₂ R (inOrder es) (inOrder es') := by
  unfold inOrder
  refine List.rel_flatMap (R := Eq) (List.forall₂_same.2 fun _ _ => rfl) ?_
  rintro kind _ rfl
  refine List.rel_filter (fun a b hab => ?_) h
  show (a.kind == kind) = true ↔ (b.kind == kind) = true
  rw [hkind a b hab]

/-- Running the resolution is one step for each entity. -/
theorem yields_run_iff {es : List Entity} {desired : State} :
    Yields (run o current es) s desired s' ↔
      ∃ r, Yields ((inOrder es).foldlM step (start o current)) s r s' ∧ r.desired = desired := by
  unfold run
  rw [yields_bind]
  constructor
  · rintro ⟨r, t, hr, hpure⟩
    obtain ⟨rfl, rfl⟩ := yields_pure.1 hpure
    exact ⟨r, hr, rfl⟩
  · rintro ⟨r, hr, rfl⟩
    exact ⟨r, s', hr, yields_pure.2 ⟨rfl, rfl⟩⟩

end Resolution

namespace Content

open Planning

variable {c : Content} {o : Options} {current desired : State} {s s' : IdSupply}

/-- A document is resolved by flattening, checking and then resolving it. -/
theorem yields_resolve_iff : Yields (c.resolve current o) s desired s' ↔ ∃ es t,
    Yields c.flatten s es t ∧ o.check es = .ok () ∧
      Yields (Resolution.run o current es) t desired s' := by
  unfold resolve
  simp only [yields_bind, yields_lift]
  constructor
  · rintro ⟨es, t, hes, ⟨⟩, t', ⟨hcheck, rfl⟩, hrun⟩
    exact ⟨es, t, hes, hcheck, hrun⟩
  · rintro ⟨es, t, hes, hcheck, hrun⟩
    exact ⟨es, t, hes, (), t, ⟨hcheck, rfl⟩, hrun⟩

/-- What the state that declarations ask for is like. -/
theorem exists_sound_of_resolve (h : Yields (c.resolve current o) s desired s') :
    ∃ r, Resolution.Sound o current r ∧ r.desired = desired := by
  obtain ⟨es, t, -, -, hrun⟩ := yields_resolve_iff.1 h
  obtain ⟨r, hr, rfl⟩ := Resolution.yields_run_iff.1 hrun
  exact ⟨r, (Resolution.sound_start o current).foldlM hr, rfl⟩

/-- A visible object with the natural key of a resolved entity has the id of that entity. -/
theorem idText_of_sameKey (h : Yields (c.resolve current o) s desired s') {d x : Entity}
    (hd : d ∈ desired) (hx : x ∈ current.select o.selection) (hsame : d.SameKey x) :
    x.idText = d.idText := by
  obtain ⟨r, hr, rfl⟩ := exists_sound_of_resolve h
  exact hr.keyFirst d hd x (by rw [hr.visible]; exact hx) hsame

/-- A resolved entity of a kind with tags carries the tags of the selection. -/
theorem tags_subset_of_resolve (h : Yields (c.resolve current o) s desired s') {d : Entity}
    (hd : d ∈ desired) (htag : d.kind.taggable = true) : o.selection.tags ⊆ d.tags := by
  obtain ⟨r, hr, rfl⟩ := exists_sound_of_resolve h
  exact hr.tagged d hd htag

/-- A resolved entity is a declared one with its references resolved, the tags of the selection
added, and an id. -/
theorem exists_declared_of_resolve (h : Yields (c.resolve current o) s desired s') : ∃ es t,
    Yields c.flatten s es t ∧ o.check es = .ok () ∧ ∀ d ∈ desired, ∃ e ∈ es, ∃ r linked id,
      Resolution.link r e = .ok linked ∧ d = (r.candidate linked).withId id := by
  obtain ⟨es, t, hes, hcheck, hrun⟩ := yields_resolve_iff.1 h
  obtain ⟨r, hr, rfl⟩ := Resolution.yields_run_iff.1 hrun
  refine ⟨es, t, hes, hcheck, ?_⟩
  refine foldlM_induction (P := fun r => ∀ d ∈ r.desired, ∃ e ∈ es, ∃ r linked id,
    Resolution.link r e = .ok linked ∧ d = (r.candidate linked).withId id) ?_
    (fun d hd => absurd hd State.not_mem_empty) hr
  intro r e s r' s' he hall hstep d hd
  cases Resolution.yields_step_iff.1 hstep with
  | repeated _ _ => exact hall d hd
  | added hlink _ _ _ hadd =>
    rcases (State.mem_insert hadd).1 hd with rfl | hd
    · exact ⟨e, Resolution.mem_inOrder.1 he, r, _, _, hlink, rfl⟩
    · exact hall d hd

/-- A resolved entity is of the kind of a declared one. -/
theorem exists_kind_of_resolve (h : Yields (c.resolve current o) s desired s') : ∃ es t,
    Yields c.flatten s es t ∧ o.check es = .ok () ∧ ∀ d ∈ desired, ∃ e ∈ es, e.kind = d.kind := by
  obtain ⟨es, t, hes, hcheck, hdeclared⟩ := exists_declared_of_resolve h
  refine ⟨es, t, hes, hcheck, fun d hd => ?_⟩
  obtain ⟨e, he, r, linked, id, hlink, rfl⟩ := hdeclared d hd
  refine ⟨e, he, ?_⟩
  simp [Entity.kind_relink hlink]

/-- Every reference of a resolved entity is one to an id. -/
theorem exists_byId_of_mem_links (h : Yields (c.resolve current o) s desired s') {d : Entity}
    (hd : d ∈ desired) {l : Kind × ForeignKey} (hl : l ∈ d.links) : ∃ id, l.2 = .byId id := by
  obtain ⟨r, hr, rfl⟩ := exists_sound_of_resolve h
  exact hr.linked d hd l hl

/-- Without lookup tags, resolved entities refer to resolved entities alone. -/
theorem contains_of_mem_references (hlookup : o.lookupTags.isEmpty = true)
    (h : Yields (c.resolve current o) s desired s') {d : Entity} (hd : d ∈ desired)
    {ref : Reference} (href : ref ∈ d.references) : ∃ x ∈ desired, x.ref = ref := by
  obtain ⟨r, hr, rfl⟩ := exists_sound_of_resolve h
  refine (hr.closed d hd ref href).resolve_right ?_
  rintro ⟨x, -, -, hshared⟩
  rw [Resolution.isShared_eq_false (by rw [hr.options]; exact hlookup)] at hshared
  cases hshared

end Content

end Gateway
