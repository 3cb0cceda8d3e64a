import Mathlib.Data.List.Pairwise
import Mathlib.Data.List.Sort
import Gateway.Proofs.Entity
import Gateway.Proofs.Planning
import Gateway.ControlPlane

/-!
# States as sets of objects

A state is determined by its members, and each member by its kind and id, or by its kind and
natural key. Look-ups are described by membership (`State.get?_eq_some_iff`,
`State.getByKey?_eq_some_iff`), and so is what every operation does: `State.mem_insert` and
`State.exists_insert` for adding, `State.mem_erase` for taking away, `State.mem_upsert` and
`State.exists_upsert` for replacing. Entities can be added one after the other when they can be held
side by side (`State.foldlM_insert_eq_ok_iff`), as the members of a state can, so a state is made up
of them again (`State.ofEntities_entities`).
-/

/-- The entities that a state holds. -/
instance : Membership Gateway.Entity Gateway.State := ⟨fun s e => e ∈ s.entities⟩

namespace Gateway

/-- No entity stands before itself. -/
theorem Entity.not_precedes_self (e : Entity) : ¬e.Precedes e := by
  rintro (h | ⟨-, h⟩)
  · exact Nat.lt_irrefl _ h
  · exact String.lt_irrefl _ h

/-- The order of entities is strict, as the order of the standard library wants it. -/
instance : Std.Irrefl Entity.Precedes := ⟨Entity.not_precedes_self⟩

/-- So no two entities stand before each other. -/
instance : Std.Antisymm Entity.Precedes :=
  ⟨fun a _ hab hba => absurd (hab.trans hba) a.not_precedes_self⟩

/-- Two entities can be held side by side: they differ in kind or id, and share no natural key. -/
def Entity.Apart (a b : Entity) : Prop := a.ref ≠ b.ref ∧ ¬a.SameKey b

/-- Being apart goes both ways. -/
theorem Entity.Apart.symm {a b : Entity} (h : a.Apart b) : b.Apart a :=
  ⟨h.1.symm, fun hkey => h.2 hkey.symm⟩

namespace State

variable {s s' t : State} {e x y : Entity} {es : List Entity} {kind : Kind} {id : String}

/-- The entities of a state are those in its list. -/
theorem mem_def : e ∈ s ↔ e ∈ s.entities := Iff.rfl

/-! ### Members -/

/-- The id of a member. -/
theorem id?_of_mem (h : e ∈ s) : e.id? = some e.idText := Entity.id?_of_isSome (s.identified e h)

/-- Two members of one kind and id are the same. -/
theorem eq_of_mem (hx : x ∈ s) (hy : y ∈ s) (hk : x.kind = y.kind) (hid : x.idText = y.idText) :
    x = y := by
  by_contra hne
  have hdiff : s.entities.Pairwise fun a b => ¬(a.kind = b.kind ∧ a.idText = b.idText) := by
    refine s.ordered.imp fun h hab => ?_
    rcases h with h | ⟨-, h⟩
    · exact Nat.lt_irrefl _ (hab.1 ▸ h)
    · exact String.lt_irrefl _ (hab.2 ▸ h)
  have : Std.Symm fun a b : Entity => ¬(a.kind = b.kind ∧ a.idText = b.idText) :=
    ⟨fun _ _ h hab => h ⟨hab.1.symm, hab.2.symm⟩⟩
  exact hdiff.forall hx hy hne ⟨hk, hid⟩

/-- Kind and id tell the entities of a state apart. -/
theorem eq_of_ref (hx : x ∈ s) (hy : y ∈ s) (h : x.ref = y.ref) : x = y :=
  eq_of_mem hx hy (congrArg Reference.kind h) (congrArg Reference.id h)

/-- Two members that share a natural key are the same. -/
theorem eq_of_sameKey (hx : x ∈ s) (hy : y ∈ s) (h : x.SameKey y) : x = y := by
  by_contra hne
  have : Std.Symm fun a b => ¬Entity.SameKey a b := ⟨fun _ _ h hab => h hab.symm⟩
  exact s.keyed.forall hx hy hne h

/-- Any two members can be held side by side. -/
theorem pairwise_apart (s : State) : s.entities.Pairwise Entity.Apart := by
  refine (s.ordered.and s.keyed).imp fun {a b} ⟨hprecedes, hkey⟩ => ⟨fun href => ?_, hkey⟩
  have hk : a.kind = b.kind := congrArg Reference.kind href
  have hid : a.idText = b.idText := congrArg Reference.id href
  rcases hprecedes with hlt | ⟨-, hlt⟩
  · exact Nat.lt_irrefl _ (hk ▸ hlt)
  · exact String.lt_irrefl _ (hid ▸ hlt)

/-- A state is determined by its members. -/
theorem ext_mem (h : ∀ x, x ∈ s ↔ x ∈ t) : s = t := by
  have hentities : s.entities = t.entities :=
    s.ordered.eq_of_mem_iff t.ordered (fun {x} => h x)
  cases s
  cases t
  cases hentities
  rfl

/-! ### Looking up -/

/-- What is found under an id is held, and has this kind and this id. -/
theorem get?_eq_some_iff : s.get? kind id = some e ↔ e ∈ s ∧ e.kind = kind ∧ e.idText = id := by
  constructor
  · intro h
    have hp := List.find?_some h
    simp only [Bool.and_eq_true, beq_iff_eq] at hp
    exact ⟨List.mem_of_find?_eq_some h, hp.1, Entity.idText_of_id? hp.2⟩
  · rintro ⟨hmem, rfl, rfl⟩
    cases hfind : s.get? e.kind e.idText with
    | none =>
      have hno := List.find?_eq_none.1 hfind e hmem
      rw [id?_of_mem hmem] at hno
      simp at hno
    | some x =>
      have hp := List.find?_some hfind
      simp only [Bool.and_eq_true, beq_iff_eq] at hp
      rw [eq_of_mem (List.mem_of_find?_eq_some hfind) hmem hp.1 (Entity.idText_of_id? hp.2)]

/-- Nothing is found where nothing has this kind and this id. -/
theorem get?_eq_none_iff :
    s.get? kind id = none ↔ ∀ x ∈ s, x.kind = kind → x.idText ≠ id := by
  rw [Option.eq_none_iff_forall_ne_some]
  constructor
  · intro h x hx hk hid
    exact h x (get?_eq_some_iff.2 ⟨hx, hk, hid⟩)
  · intro h x hx
    obtain ⟨hmem, hk, hid⟩ := get?_eq_some_iff.1 hx
    exact h x hmem hk hid

/-- A member is found under its kind and id. -/
theorem get?_of_mem (h : e ∈ s) : s.get? e.kind e.idText = some e :=
  get?_eq_some_iff.2 ⟨h, rfl, rfl⟩

/-- What is found is held. -/
theorem mem_of_get? (h : s.get? kind id = some e) : e ∈ s := (get?_eq_some_iff.1 h).1

/-- What is found under a kind and id has them. -/
theorem ref_of_get? (h : s.get? kind id = some e) : e.ref = ⟨kind, id⟩ := by
  obtain ⟨-, rfl, rfl⟩ := get?_eq_some_iff.1 h
  rfl

/-- An id is taken where something of the kind has it. -/
theorem contains_iff : s.contains kind id = true ↔ ∃ x ∈ s, x.kind = kind ∧ x.idText = id := by
  unfold contains
  rw [Option.isSome_iff_exists]
  exact exists_congr fun x => get?_eq_some_iff.trans (by simp)

/-- The id of what is held is taken. -/
theorem contains_of_mem (h : e ∈ s) : s.contains e.kind e.idText = true :=
  contains_iff.2 ⟨e, h, rfl, rfl⟩

/-- What a reference to a member names is there. -/
theorem contains_of_ref {ref : Reference} (h : e ∈ s) (href : e.ref = ref) :
    s.contains ref.kind ref.id = true :=
  href ▸ contains_of_mem h

/-- The same of a kind and an id that make a reference. -/
theorem contains_ref_iff {ref : Reference} :
    s.contains ref.kind ref.id = true ↔ ∃ x ∈ s, x.ref = ref := by
  rw [contains_iff]
  refine exists_congr fun x => and_congr_right fun _ => ⟨fun h => ?_, fun h => ?_⟩
  · rw [Entity.ref, h.1, h.2]
  · exact ⟨congrArg Reference.kind h, congrArg Reference.id h⟩

/-- An id is free where nothing of the kind has it. -/
theorem contains_eq_false_iff :
    s.contains kind id = false ↔ ∀ x ∈ s, x.kind = kind → x.idText ≠ id := by
  rw [← get?_eq_none_iff, contains, Option.isSome_eq_false_iff, Option.isNone_iff_eq_none]

/-- Two states with the same look-ups are the same. -/
theorem ext_get? (h : ∀ kind id, s.get? kind id = t.get? kind id) : s = t := by
  refine ext_mem fun x => ⟨fun hx => ?_, fun hx => ?_⟩
  · exact mem_of_get? ((h x.kind x.idText).symm.trans (get?_of_mem hx))
  · exact mem_of_get? ((h x.kind x.idText).trans (get?_of_mem hx))

/-- What is found under a key is held, and has this kind and this natural key. -/
theorem getByKey?_eq_some_iff {key : NaturalKey} :
    s.getByKey? kind key = some e ↔ e ∈ s ∧ e.kind = kind ∧ e.naturalKey? = some key := by
  constructor
  · intro h
    have hp := List.find?_some h
    simp only [Bool.and_eq_true, beq_iff_eq] at hp
    exact ⟨List.mem_of_find?_eq_some h, hp⟩
  · rintro ⟨hmem, rfl, hkey⟩
    cases hfind : s.getByKey? e.kind key with
    | none =>
      have hno := List.find?_eq_none.1 hfind e hmem
      simp [hkey] at hno
    | some x =>
      have hp := List.find?_some hfind
      simp only [Bool.and_eq_true, beq_iff_eq] at hp
      have hsame : x.SameKey e := ⟨hp.1, hp.2.trans hkey.symm, by simp [hp.2]⟩
      rw [eq_of_sameKey (List.mem_of_find?_eq_some hfind) hmem hsame]

/-- The holder of a key is the one that shares it. -/
theorem keyHolder?_eq_some_iff : s.keyHolder? e = some x ↔ x ∈ s ∧ e.SameKey x := by
  unfold keyHolder? Entity.SameKey
  cases hkey : e.naturalKey? with
  | none => simp
  | some key =>
    rw [Option.bind_some, getByKey?_eq_some_iff]
    constructor
    · rintro ⟨hmem, hk, hx⟩
      exact ⟨hmem, hk.symm, hx.symm, rfl⟩
    · rintro ⟨hmem, hk, hx, -⟩
      exact ⟨hmem, hk.symm, hx.symm⟩

/-- A key has no holder where nothing shares it. -/
theorem keyHolder?_eq_none_iff : s.keyHolder? e = none ↔ ∀ x ∈ s, ¬e.SameKey x := by
  rw [Option.eq_none_iff_forall_ne_some]
  constructor
  · intro h x hx hsame
    exact h x (keyHolder?_eq_some_iff.2 ⟨hx, hsame⟩)
  · intro h x hx
    obtain ⟨hmem, hsame⟩ := keyHolder?_eq_some_iff.1 hx
    exact h x hmem hsame

/-- The entities of a kind are those among all that are of it. -/
theorem mem_ofKind : x ∈ s.ofKind kind ↔ x ∈ s ∧ x.kind = kind := by
  simp [ofKind, mem_def]

/-- The members of a kind stand in the order of their ids. -/
theorem pairwise_ofKind (s : State) (kind : Kind) :
    (s.ofKind kind).Pairwise fun a b => a.idText < b.idText := by
  refine (s.ordered.filter _).imp_of_mem fun {a b} ha hb hab => ?_
  have hk : a.kind = b.kind := (mem_ofKind.1 ha).2.trans (mem_ofKind.1 hb).2.symm
  rcases hab with hlt | ⟨-, hlt⟩
  · exact absurd (hk ▸ hlt) (Nat.lt_irrefl _)
  · exact hlt

/-- The entities of a state, kind by kind. -/
theorem entities_eq_flatMap (s : State) : s.entities = Kind.creationOrder.flatMap s.ofKind := by
  have hranks : Kind.creationOrder.Pairwise fun k l => k.rank < l.rank := by decide
  have hordered : (Kind.creationOrder.flatMap s.ofKind).Pairwise Entity.Precedes := by
    refine List.pairwise_flatMap.2 ⟨fun kind _ => s.ordered.filter _, hranks.imp ?_⟩
    intro k l hlt a ha b hb
    rw [← (mem_ofKind.1 ha).2, ← (mem_ofKind.1 hb).2] at hlt
    exact .inl hlt
  refine s.ordered.eq_of_mem_iff hordered fun {x} => ?_
  simp only [List.mem_flatMap, mem_ofKind]
  constructor
  · intro hx
    exact ⟨x.kind, x.kind.mem_creationOrder, hx, rfl⟩
  · rintro ⟨_, -, hx, -⟩
    exact hx

/-- An empty state holds nothing. -/
@[simp] theorem not_mem_empty : ¬x ∈ empty := List.not_mem_nil

/-! ### Taking away -/

/-- A part of a state holds what satisfies the condition. -/
theorem mem_filter {p : Entity → Bool} : x ∈ s.filter p ↔ x ∈ s ∧ p x = true := List.mem_filter

/-- Narrowing a state narrows every look-up. -/
theorem get?_filter (p : Entity → Bool) (id : String) :
    (s.filter p).get? kind id = (s.get? kind id).filter p := by
  ext x
  rw [get?_eq_some_iff, mem_filter, Option.filter_eq_some_iff, get?_eq_some_iff]
  tauto

/-- Everything is left but what has this kind and this id. -/
theorem mem_erase : x ∈ s.erase kind id ↔ x ∈ s ∧ ¬(x.kind = kind ∧ x.idText = id) := by
  rw [erase, mem_filter]
  refine and_congr_right fun hx => ?_
  simp [id?_of_mem hx, imp_iff_not_or]

/-- Taking an object away leaves all other look-ups as they are. -/
theorem get?_erase (k : Kind) (i : String) :
    (s.erase kind id).get? k i = if kind = k ∧ id = i then none else s.get? k i := by
  ext x
  rw [get?_eq_some_iff, mem_erase]
  split
  · rename_i heq
    obtain ⟨rfl, rfl⟩ := heq
    simp only [reduceCtorEq, iff_false]
    rintro ⟨⟨-, hne⟩, hx⟩
    exact hne hx
  · rename_i hne
    rw [get?_eq_some_iff]
    constructor
    · rintro ⟨⟨hmem, -⟩, hx⟩
      exact ⟨hmem, hx⟩
    · rintro ⟨hmem, rfl, rfl⟩
      exact ⟨⟨hmem, fun h => hne ⟨h.1.symm, h.2.symm⟩⟩, rfl, rfl⟩

/-- Taking an object away leaves the natural keys of all others as they are. -/
theorem getByKey?_erase (k : Kind) (key : NaturalKey) :
    (s.erase kind id).getByKey? k key =
      (s.getByKey? k key).filter fun x => !(x.kind == kind && x.idText == id) := by
  ext x
  rw [Option.filter_eq_some_iff, getByKey?_eq_some_iff, getByKey?_eq_some_iff, mem_erase]
  simp only [Bool.not_eq_true', Bool.and_eq_false_iff, beq_eq_false_iff_ne]
  tauto

/-- There is nothing to take away where nothing is held. -/
theorem erase_eq_self (h : s.get? kind id = none) : s.erase kind id = s := by
  refine ext_mem fun x => mem_erase.trans ⟨And.left, fun hx => ⟨hx, ?_⟩⟩
  rintro ⟨hk, hid⟩
  exact get?_eq_none_iff.1 h x hx hk hid

/-- The same where the id may be missing, and then everything is left. -/
theorem mem_without : x ∈ s.without e ↔ x ∈ s ∧ ¬(x.kind = e.kind ∧ some x.idText = e.id?) := by
  unfold without
  cases e.id? with
  | none => simp
  | some id => rw [mem_erase]; simp

/-! ### Adding -/

/-- What it takes to add an entity, and what the state holds then. -/
theorem insert_eq_ok_iff : (∃ t, s.insert e = .ok t) ↔
    e.id?.isSome ∧ s.contains e.kind e.idText = false ∧ ∀ x ∈ s, ¬e.SameKey x := by
  unfold insert
  split
  · rename_i hid
    simp [hid]
  · rename_i id hid
    have htext : e.idText = id := Entity.idText_of_id? hid
    have hsome : e.id?.isSome := by simp [hid]
    split
    · rename_i held hget
      simp [contains, htext, hget]
    · rename_i hget
      split
      · rename_i holder hkey
        obtain ⟨hmem, hsame⟩ := keyHolder?_eq_some_iff.1 hkey
        simp only [reduceCtorEq, exists_false, false_iff, not_and]
        intro _ _ hno
        exact hno holder hmem hsame
      · rename_i hkey
        have hfree := keyHolder?_eq_none_iff.1 hkey
        simp only [Except.ok.injEq, exists_eq', true_iff]
        exact ⟨hsome, by simp [contains, htext, hget], hfree⟩

/-- Without an id nothing is inserted. -/
theorem insert_of_missingId (hid : e.id? = none) :
    s.insert e = .error (.missingId e.kind e.label) := by
  unfold insert
  grind

/-- Under an id that is taken nothing is inserted. -/
theorem insert_of_duplicateId (hid : e.id? = some id) (hget : s.get? e.kind id = some x) :
    s.insert e = .error (.duplicateId e.kind id) := by
  unfold insert
  grind

/-- Under a free id, but with a natural key that is taken, nothing is inserted either. -/
theorem insert_of_duplicateKey {key : NaturalKey} (hid : e.id? = some id)
    (hget : s.get? e.kind id = none) (hkey : e.naturalKey? = some key)
    (hheld : s.getByKey? e.kind key = some x) :
    s.insert e = .error (.duplicateKey e.kind key.text x.idText id) := by
  have hholder : s.keyHolder? e = some x := by rw [keyHolder?, hkey, Option.bind_some, hheld]
  have htext : (e.naturalKey?.map (·.text)).getD "" = key.text := by simp [hkey]
  unfold insert
  rw [htext]
  grind

/-- An entity whose id and natural key are free can be added. -/
theorem exists_insert (hid : e.id?.isSome) (hfree : s.contains e.kind e.idText = false)
    (hkey : ∀ x ∈ s, ¬e.SameKey x) : ∃ t, s.insert e = .ok t :=
  insert_eq_ok_iff.2 ⟨hid, hfree, hkey⟩

/-- What is inserted has an id. -/
theorem id?_of_insert (h : s.insert e = .ok t) : e.id? = some e.idText :=
  Entity.id?_of_isSome (insert_eq_ok_iff.1 ⟨t, h⟩).1

/-- Afterwards the state holds what it held, and what is inserted. -/
theorem mem_insert (h : s.insert e = .ok t) : x ∈ t ↔ x = e ∨ x ∈ s := by
  unfold insert at h
  split at h
  · cases h
  · split at h
    · cases h
    · split at h
      · cases h
      · cases h
        exact mem_place

/-- What is inserted is held. -/
theorem mem_insert_self (h : s.insert e = .ok t) : e ∈ t := (mem_insert h).2 (.inl rfl)

/-- Adding an entity changes the look-up of its own kind and id only. -/
theorem get?_insert (h : s.insert e = .ok t) (k : Kind) (i : String) :
    t.get? k i = if e.kind = k ∧ e.idText = i then some e else s.get? k i := by
  split
  · rename_i heq
    exact get?_eq_some_iff.2 ⟨mem_insert_self h, heq⟩
  · rename_i hne
    ext x
    rw [get?_eq_some_iff, get?_eq_some_iff, mem_insert h]
    constructor
    · rintro ⟨rfl | hx, hk⟩
      · exact absurd hk hne
      · exact ⟨hx, hk⟩
    · rintro ⟨hx, hk⟩
      exact ⟨.inr hx, hk⟩

/-- Adding an entity changes the look-up of its own kind and natural key only. -/
theorem getByKey?_insert (h : s.insert e = .ok t) (k : Kind) (key : NaturalKey) :
    t.getByKey? k key =
      if e.kind = k ∧ e.naturalKey? = some key then some e else s.getByKey? k key := by
  split
  · rename_i heq
    exact getByKey?_eq_some_iff.2 ⟨mem_insert_self h, heq⟩
  · rename_i hne
    ext x
    rw [getByKey?_eq_some_iff, getByKey?_eq_some_iff, mem_insert h]
    constructor
    · rintro ⟨rfl | hx, hk⟩
      · exact absurd hk hne
      · exact ⟨hx, hk⟩
    · rintro ⟨hx, hk⟩
      exact ⟨.inr hx, hk⟩

/-! ### Adding one after the other -/

/-- An entity can be added when it has an id and can be held beside every member. -/
theorem exists_insert_iff : (∃ t, s.insert e = .ok t) ↔
    e.id?.isSome ∧ ∀ x ∈ s, e.Apart x := by
  rw [insert_eq_ok_iff, contains_eq_false_iff]
  refine and_congr_right fun _ => ?_
  constructor
  · rintro ⟨hfree, hkey⟩ x hx
    refine ⟨fun href => ?_, hkey x hx⟩
    exact hfree x hx (congrArg Reference.kind href).symm (congrArg Reference.id href).symm
  · intro h
    refine ⟨fun x hx hk hid => (h x hx).1 ?_, fun x hx => (h x hx).2⟩
    rw [Entity.ref, Entity.ref, hk, hid]

/-- Entities can be added one after the other when each has an id and they can be held beside each
other and beside every member. -/
theorem foldlM_insert_eq_ok_iff : es.foldlM insert s = .ok t ↔
    (∀ e ∈ es, e.id?.isSome ∧ ∀ x ∈ s, e.Apart x) ∧ es.Pairwise Entity.Apart ∧
      ∀ x, x ∈ t ↔ x ∈ es ∨ x ∈ s := by
  induction es generalizing s with
  | nil =>
    rw [List.foldlM_nil, Except.pure_eq_ok_iff]
    simp only [List.not_mem_nil, false_or, List.Pairwise.nil, false_imp_iff, implies_true, true_and]
    constructor
    · rintro rfl x
      rfl
    · intro h
      exact ext_mem fun x => (h x).symm
  | cons e rest ih =>
    rw [List.foldlM_cons, Except.bind_eq_ok_iff, List.forall_mem_cons, List.pairwise_cons]
    constructor
    · rintro ⟨u, hu, hrest⟩
      obtain ⟨heach, hpair, ht⟩ := ih.1 hrest
      refine ⟨⟨exists_insert_iff.1 ⟨u, hu⟩, fun a ha => ⟨(heach a ha).1, fun x hx => ?_⟩⟩,
        ⟨fun a ha => ?_, hpair⟩, fun x => ?_⟩
      · exact (heach a ha).2 x ((mem_insert hu).2 (.inr hx))
      · exact ((heach a ha).2 e (mem_insert_self hu)).symm
      · rw [ht, mem_insert hu, List.mem_cons]
        tauto
    · rintro ⟨⟨hfirst, heach⟩, ⟨hbeside, hpair⟩, ht⟩
      obtain ⟨u, hu⟩ := exists_insert_iff.2 hfirst
      refine ⟨u, hu, ih.2 ⟨fun a ha => ⟨(heach a ha).1, fun x hx => ?_⟩, hpair, fun x => ?_⟩⟩
      · rcases (mem_insert hu).1 hx with rfl | hx
        · exact (hbeside a ha).symm
        · exact (heach a ha).2 x hx
      · rw [ht, mem_insert hu, List.mem_cons]
        tauto

/-- The members of a state make up the state. -/
theorem ofEntities_entities (s : State) : ofEntities s.entities = .ok s :=
  foldlM_insert_eq_ok_iff.2 ⟨fun e he => ⟨s.identified e he, fun _ hx => absurd hx not_mem_empty⟩,
    s.pairwise_apart, fun _ => (or_iff_left not_mem_empty).symm⟩

/-! ### Replacing -/

/-- An entity whose natural key belongs to no object but itself can be put in place. -/
theorem exists_upsert (hid : e.id?.isSome) (hkey : ∀ x ∈ s, e.SameKey x → x.idText = e.idText) :
    ∃ t, s.upsert e = .ok t := by
  have he := Entity.id?_of_isSome hid
  refine exists_insert hid (contains_eq_false_iff.2 fun x hx hk hx' => ?_) fun x hx hsame => ?_
  · obtain ⟨-, hne⟩ := mem_without.1 hx
    exact hne ⟨hk, by rw [he, hx']⟩
  · obtain ⟨hmem, hne⟩ := mem_without.1 hx
    exact hne ⟨hsame.1.symm, by rw [he, hkey x hmem hsame]⟩

/-- Afterwards the state holds what is written, and what it held but for what had the same kind and
id. -/
theorem mem_upsert (h : s.upsert e = .ok t) :
    x ∈ t ↔ x = e ∨ (x ∈ s ∧ ¬(x.kind = e.kind ∧ x.idText = e.idText)) := by
  rw [mem_insert h, mem_without, id?_of_insert h, Option.some_inj]

/-- Putting an entity in place changes the look-up of its own kind and id only. -/
theorem get?_upsert (h : s.upsert e = .ok t) (k : Kind) (i : String) :
    t.get? k i = if e.kind = k ∧ e.idText = i then some e else s.get? k i := by
  rw [get?_insert h]
  split
  · rfl
  · rename_i hne
    rw [without, id?_of_insert h]
    simp only [get?_erase, if_neg hne]

end State

end Gateway
