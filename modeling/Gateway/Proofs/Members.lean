import Gateway.Proofs.Numbering
import Gateway.Proofs.Parentage

/-!
# Consumers that groups list

A group may list a consumer by one of its identifiers instead of an id. Which identifier it is gets
lost on the way: the entry becomes a name, a name is answered by either identifier, and those who
are declared answer before the gateway's. So the membership that is made of an entry leads to a
consumer with that identifier exactly when a declared consumer has it, or when nobody who is
declared answers to it at all and a shared consumer has it that is not declared
(`Content.members_identified_iff`).
-/

namespace Gateway

open Planning Resolution

/-! ### Identifiers -/

/-- What a consumer is known by beside its id. -/
inductive Identifier
  | username
  | customId
  deriving DecidableEq, Repr

/-- The name of the field that holds the identifier. -/
def Identifier.field : Identifier → String
  | username => "username"
  | customId => "custom_id"

/-- The entry of a group that lists a consumer by an identifier. -/
def Identifier.entry (i : Identifier) (name : String) : ForeignKey :=
  ⟨none, none, [(i.field, .str name)]⟩

/-- An entry by either identifier becomes a reference by name. -/
theorem Identifier.ofMember_entry (i : Identifier) (name : String) :
    (i.entry name).ofMember = .byName name := by
  cases i <;> rfl

namespace Entity

variable {e : Entity} {i : Identifier} {name : String}

/-- An identifier of a consumer. -/
def identifier? (e : Entity) (i : Identifier) : Option String :=
  match e, i with
  | ⟨.consumer, r⟩, .username => r.detail.username
  | ⟨.consumer, r⟩, .customId => r.detail.customId
  | _, _ => none

/-- Consumers alone have a username or a custom id. -/
theorem kind_of_identifier? (h : e.identifier? i = some name) : e.kind = .consumer := by
  obtain ⟨k, r⟩ := e
  cases k <;> first | rfl | cases h

/-- A consumer answers to either of its identifiers. -/
theorem answersToName_iff (hk : e.kind = .consumer) :
    e.answersToName name = true ↔ ∃ i, e.identifier? i = some name := by
  obtain ⟨k, r⟩ := e
  cases hk
  have hanswers : answersToName ⟨.consumer, r⟩ name = true ↔
      r.detail.username = some name ∨ r.detail.customId = some name := by
    simp [answersToName, Consumer.answersTo]
  rw [hanswers]
  constructor
  · rintro (h | h)
    · exact ⟨.username, h⟩
    · exact ⟨.customId, h⟩
  · rintro ⟨i, hi⟩
    cases i with
    | username => exact .inl hi
    | customId => exact .inr hi

theorem answersToName_of_identifier? (h : e.identifier? i = some name) :
    e.answersToName name = true :=
  (answersToName_iff (kind_of_identifier? h)).2 ⟨i, h⟩

end Entity

/-! ### References by name -/

/-- The consumer that an id means: the one that is asked for, or else the one that is there. -/
def State.consumer? (desired current : State) (id : String) : Option Entity :=
  desired.get? .consumer id <|> current.get? .consumer id

/-- A consumer with an identifier can be found by name: a declared one has it, or no declared one
answers to it and a shared one has it that is not declared. -/
def Identifier.Finds (i : Identifier) (o : Options) (current desired : State) (name : String) :
    Prop :=
  (∃ z ∈ desired, z.identifier? i = some name) ∨
    (∀ z ∈ desired, z.kind = .consumer → z.answersToName name = false) ∧
    ∃ z ∈ current, z.identifier? i = some name ∧
      z.hasAnyTag (o.lookupTags.forKind .consumer) = true ∧
      desired.contains .consumer z.idText = false

namespace Resolution

variable {r r' : Resolution} {e x : Entity} {o : Options} {current desired : State}
  {ref : Reference} {s s' : IdSupply} {kind : Kind} {name id : String}
  {xs : List (Entity × Reference)} {i : Identifier}

/-- The id that a reference by name means is that of the one object that has the name. -/
theorem lookUp_byName_iff {owner : String} :
    r.lookUp owner kind (.byName name) = .ok id ↔ ∃ x, r.named kind name = [x] ∧ x.idText = id :=
  only_eq_ok_iff

/-- A declaration adds nothing of other kinds. -/
theorem Placed.mem_iff_of_kind_ne (h : Placed r e s ref r' s') (hne : e.kind ≠ x.kind) :
    x ∈ r'.desired ↔ x ∈ r.desired := by
  cases h with
  | repeated _ _ => rfl
  | @added linked id moves desired _ hlink _ _ _ hadd =>
    rw [State.mem_insert hadd, or_iff_right]
    rintro rfl
    rw [Entity.kind_withId, kind_candidate, Entity.kind_relink hlink] at hne
    exact hne rfl

/-- Declarations of other kinds neither add nor drop anything of a kind. -/
theorem PlacedAll.mem_iff_of_kind_ne (h : PlacedAll r s xs r' s')
    (hne : ∀ y ∈ xs, y.1.kind ≠ x.kind) : x ∈ r'.desired ↔ x ∈ r.desired := by
  induction h with
  | nil => rfl
  | cons hfirst _ ih =>
    rw [ih fun y hy => hne y (List.mem_cons_of_mem _ hy)]
    exact hfirst.mem_iff_of_kind_ne (hne _ List.mem_cons_self)

/-- The one consumer that a name means is a declared one that answers to it, or else, where none
does, a shared one. -/
theorem named_cases (hr : Sound o current r) (hx : r.named .consumer name = [x]) :
    (∀ z, z ∈ r.desired ∧ z.kind = .consumer ∧ z.answersToName name = true ↔ z = x) ∨
      (∀ z ∈ r.desired, z.kind = .consumer → z.answersToName name = false) ∧
      ∀ z, z ∈ current ∧ z.kind = .consumer ∧
        z.hasAnyTag (o.lookupTags.forKind .consumer) = true ∧ z.answersToName name = true ↔
          z = x := by
  unfold named at hx
  simp only at hx
  split at hx
  · rename_i hempty
    right
    have hnone : ∀ z ∈ r.desired, z.kind = .consumer → z.answersToName name = false := by
      intro z hz hk
      have hno := List.filter_eq_nil_iff.1 (List.isEmpty_iff.1 hempty) z
        (State.mem_ofKind.2 ⟨hz, hk⟩)
      exact Bool.eq_false_iff.2 hno
    refine ⟨hnone, fun z => ?_⟩
    have hmem : z ∈ [x] ↔ z = x := List.mem_singleton
    rw [← hmem, ← hx, List.mem_filter, State.mem_ofKind, Bool.and_eq_true, hr.current,
      and_assoc]
    refine and_congr_right fun _ => and_congr_right fun hk => ?_
    rw [isShared, hk, hr.options]
  · left
    intro z
    have hmem : z ∈ [x] ↔ z = x := List.mem_singleton
    rw [← hmem, ← hx, List.mem_filter, State.mem_ofKind, and_assoc]

/-- The one consumer that a name means has it for an identifier exactly when a consumer with that
identifier can be found. -/
theorem identified_iff_of_named (hr : Sound o current r)
    (hsame : ∀ z : Entity, z.kind = .consumer → (z ∈ desired ↔ z ∈ r.desired))
    (hx : r.named .consumer name = [x]) (i : Identifier) :
    ∃ y, desired.consumer? current x.idText = some y ∧
      (y.identifier? i = some name ↔ i.Finds o current desired name) := by
  have hanswers : ∀ z : Entity, z.identifier? i = some name → z.answersToName name = true :=
    fun z hz => Entity.answersToName_of_identifier? hz
  rcases named_cases hr hx with hone | ⟨hnone, hone⟩
  · obtain ⟨hmem, hk, hxname⟩ := (hone x).2 rfl
    have hget : desired.get? .consumer x.idText = some x :=
      State.get?_eq_some_iff.2 ⟨(hsame x hk).2 hmem, hk, rfl⟩
    refine ⟨x, by simp [State.consumer?, hget], ?_⟩
    constructor
    · intro hi
      exact .inl ⟨x, (hsame x hk).2 hmem, hi⟩
    · rintro (⟨z, hz, hi⟩ | ⟨hno, -⟩)
      · have hzk := Entity.kind_of_identifier? hi
        rwa [← (hone z).1 ⟨(hsame z hzk).1 hz, hzk, hanswers z hi⟩]
      · rw [hno x ((hsame x hk).2 hmem) hk] at hxname
        cases hxname
  · have hnone' : ∀ z ∈ desired, z.kind = .consumer → z.answersToName name = false :=
      fun z hz hzk => hnone z ((hsame z hzk).1 hz) hzk
    have hno : ∀ z ∈ desired, z.identifier? i ≠ some name := by
      intro z hz hi
      have hzname := hanswers z hi
      rw [hnone' z hz (Entity.kind_of_identifier? hi)] at hzname
      cases hzname
    have hshared : ∀ z ∈ current, z.identifier? i = some name →
        z.hasAnyTag (o.lookupTags.forKind .consumer) = true → z = x := fun z hz hi htag =>
      (hone z).1 ⟨hz, Entity.kind_of_identifier? hi, htag, hanswers z hi⟩
    obtain ⟨hmem, hk, htag, -⟩ := (hone x).2 rfl
    cases hget : desired.get? .consumer x.idText with
    | some y =>
      -- the shared consumer is declared too, and has become one that does not answer
      refine ⟨y, by simp [State.consumer?, hget], ?_⟩
      constructor
      · intro hi
        exact absurd hi (hno y (State.mem_of_get? hget))
      · rintro (⟨z, hz, hi⟩ | ⟨-, z, hz, hi, hztag, hfree⟩)
        · exact absurd hi (hno z hz)
        · rw [hshared z hz hi hztag, State.contains, hget] at hfree
          cases hfree
    | none =>
      have hcurrent : current.get? .consumer x.idText = some x :=
        State.get?_eq_some_iff.2 ⟨hmem, hk, rfl⟩
      refine ⟨x, by simp [State.consumer?, hget, hcurrent], ?_⟩
      constructor
      · intro hi
        exact .inr ⟨hnone', x, hmem, hi, htag, by rw [State.contains, hget]; rfl⟩
      · rintro (⟨z, hz, hi⟩ | ⟨-, z, hz, hi, hztag, -⟩)
        · exact absurd hi (hno z hz)
        · rwa [← hshared z hz hi hztag]

/-- What becomes of a declaration that names a consumer, when all consumers have been resolved,
refers to one that has the name for an identifier exactly when a consumer with that identifier can
be found. -/
theorem PlacedAll.exists_consumer {before after : List (Entity × Reference)}
    (h : PlacedAll r s (before ++ (e, ref) :: after) r' s') (hr : Sound o current r)
    (hlink : e.links.filter (·.1 = .consumer) = [(.consumer, .byName name)])
    (hlater : ∀ y ∈ (e, ref) :: after, y.1.kind ≠ .consumer) (i : Identifier) :
    ∃ m ∈ r'.desired, m.ref = ref ∧ ∃ id y,
      m.references.filter (·.kind = .consumer) = [⟨.consumer, id⟩] ∧
      r'.desired.consumer? current id = some y ∧
      (y.identifier? i = some name ↔ i.Finds o current r'.desired name) := by
  obtain ⟨r₁, t, hbefore, hrest⟩ := h.split
  have hsound := hbefore.sound hr
  have hsame : ∀ z : Entity, z.kind = .consumer → (z ∈ r'.desired ↔ z ∈ r₁.desired) := fun z hz =>
    hrest.mem_iff_of_kind_ne fun y hy => hz ▸ hlater y hy
  cases hrest with
  | cons hplaced hafter =>
    obtain ⟨id, hid, m, hm, href, hrefs⟩ := hplaced.exists_lookUp hsound hlink
    obtain ⟨x, hx, rfl⟩ := lookUp_byName_iff.1 hid
    obtain ⟨y, hy, hiff⟩ := identified_iff_of_named hsound hsame hx i
    exact ⟨m, hafter.desired_subset hm, href, x.idText, y, hrefs, hy, hiff⟩

end Resolution

/-! ### Members of declared groups -/

/-- The membership that is made of an entry that names a consumer, under the group with an id. -/
def ConsumerGroupDecl.member (g : ConsumerGroupDecl) (gid name : String) : Nested :=
  ⟨Membership.declared (.byId gid) (.byName name), some { g.group with id := some gid }.toEntity⟩

section

variable {g : ConsumerGroupDecl} {c : Content} {ns : List Nested} {s s' : IdSupply}
  {i : Identifier} {name : String}

/-- Every entry by an identifier is made a membership under the group. -/
theorem ConsumerGroupDecl.exists_member (h : Yields g.nestings s ns s')
    (hentry : i.entry name ∈ g.consumers) : ∃ gid, g.member gid name ∈ ns := by
  unfold nestings Resource.nestings at h
  split at h
  · rename_i hempty
    have hnil := List.isEmpty_iff.1 (Bool.and_eq_true_iff.1 hempty).2
    rw [hnil] at hentry
    cases hentry
  · simp only [yields_bind, yields_lift, yields_pure] at h
    obtain ⟨q, t, hopen, ms, t', ⟨plugins, u, ⟨-, rfl⟩, rfl, rfl⟩, rfl, rfl⟩ := h
    obtain ⟨gid, rfl, -⟩ := Resource.yields_enclose_iff.1 hopen
    refine ⟨gid, List.mem_append_left _ (List.mem_map.2 ⟨_, List.mem_append_right _ ?_, rfl⟩)⟩
    exact List.mem_map.2 ⟨_, hentry, by rw [i.ofMember_entry]; rfl⟩

/-- Every entry of a declared group is a member nested in it, under one id of the group. -/
theorem Content.exists_member (h : Yields c.nestings s ns s') (hg : g ∈ c.consumerGroups)
    (hentry : i.entry name ∈ g.consumers) : ∃ gid, g.member gid name ∈ ns := by
  unfold nestings at h
  simp only [yields_bind, yields_pure] at h
  obtain ⟨services, _, -, routes, _, -, consumers, _, -, groups, _, hgroups, upstreams, _, -,
    certificates, _, -, keySets, _, -, roles, _, -, rfl, -⟩ := h
  have hall := forall₂_of_mapM (P := fun _ => True) (fun _ _ _ _ _ _ => trivial) trivial hgroups
  obtain ⟨ms, hms, t, t', -, hyields⟩ := hall.exists_of_mem_left hg
  obtain ⟨gid, hmem⟩ := ConsumerGroupDecl.exists_member hyields hentry
  refine ⟨gid, List.mem_append_left _ (List.mem_flatten.2 ⟨ms, ?_, hmem⟩)⟩
  simp only [List.mem_append]
  tauto

end

namespace Content

/-- For every document that can be resolved, and every entry of a group that lists a consumer by an
identifier: the entry is made a membership, and whatever the membership ends up as refers to one
consumer, which has that identifier exactly when a consumer with it can be found. -/
theorem members_identified_iff (c : Content) (o : Options) (current desired : State)
    (ids ids' : IdSupply) (hres : Yields (c.resolve current o) ids desired ids') :
    ∃ ns t refs, Yields c.nestings ids ns t ∧ Yields (c.finalIds current o) ids refs ids' ∧
      ∀ g ∈ c.consumerGroups, ∀ (i : Identifier) (name : String), i.entry name ∈ g.consumers →
        (∃ gid ref, g.member gid name ∈ ns ∧
          ((g.member gid name).entity, ref) ∈ Nested.outcomes ns refs) ∧
        ∀ gid ref, ((g.member gid name).entity, ref) ∈ Nested.outcomes ns refs →
          ∃ m ∈ desired, m.ref = ref ∧ ∃ id y,
            m.references.filter (·.kind = .consumer) = [⟨.consumer, id⟩] ∧
            desired.consumer? current id = some y ∧
            (y.identifier? i = some name ↔ i.Finds o current desired name) := by
  obtain ⟨refs, hrefs⟩ := exists_finalIds hres
  obtain ⟨es, t, hes, -⟩ := yields_resolve_iff.1 hres
  obtain ⟨ns, hns, -⟩ := yields_flatten_iff.1 hes
  obtain ⟨r, hall, rfl, hfst⟩ := exists_placedAll hres hns hrefs
  refine ⟨ns, t, refs, hns, hrefs, fun g hg i name hentry => ⟨?_, fun gid ref hmember => ?_⟩⟩
  · obtain ⟨gid, hmem⟩ := exists_member hns hg hentry
    obtain ⟨ref, hout⟩ := exists_outcome hfst hmem
    exact ⟨gid, ref, hmem, hout⟩
  · obtain ⟨before, after, hsplit⟩ := List.append_of_mem hmember
    rw [hsplit] at hall hfst
    have hrank : Kind.consumer.rank < Kind.membership.rank := by decide
    exact hall.exists_consumer (sound_start o current) rfl (kind_ne_of_rank_lt hfst hrank) i

end Content

/-! ### A username that is the custom id of another consumer -/

/-- A group that lists a consumer by its custom id. -/
def listingGroup : ConsumerGroupDecl :=
  ⟨Resource.ofDetail .consumerGroup (some "g1")
    { (default : ConsumerGroup) with name := some "gold" }, [Identifier.customId.entry "bob"], []⟩

/-- A document with the group and a consumer with that for a username. -/
def listing : Content where
  consumers := [⟨Resource.ofDetail .consumer (some "c1")
    { (default : Consumer) with username := some "bob" }, [], []⟩]
  consumerGroups := [listingGroup]

/-- A gateway with a shared consumer that has the custom id. -/
def listingGateway : State :=
  .collect [(Resource.make .consumer (some "c2")
    { (default : Consumer) with customId := some "bob" } ["platform"] none none).toEntity]

/-- Shared consumers may be referred to. -/
def listingOptions : Options where
  lookupTags := { consumers := ["platform"] }

/-- What the document declares, each with what it is nested under. -/
def listingNests : List Nested :=
  [⟨(Resource.ofDetail .consumer (some "c1")
      { (default : Consumer) with username := some "bob" }).toEntity, none⟩,
    listingGroup.member "g1" "bob", ⟨listingGroup.group.toEntity, none⟩]

theorem yields_listing (s : IdSupply) : Yields listing.nestings s listingNests s := rfl

/-- What the consumer, the group and the membership end up as. -/
def listingRefs : List Reference :=
  [⟨.consumer, "c1"⟩, ⟨.consumerGroup, "g1"⟩, ⟨.membership, "g1:c1"⟩]

theorem mem_outcomes_listing : ((listingGroup.member "g1" "bob").entity, ⟨.membership, "g1:c1"⟩) ∈
    Nested.outcomes listingNests listingRefs := by
  have houtcomes : Nested.outcomes listingNests listingRefs =
      [((Resource.ofDetail .consumer (some "c1")
          { (default : Consumer) with username := some "bob" }).toEntity, ⟨.consumer, "c1"⟩),
        (listingGroup.group.toEntity, ⟨.consumerGroup, "g1"⟩),
        ((listingGroup.member "g1" "bob").entity, ⟨.membership, "g1:c1"⟩)] := rfl
  rw [houtcomes]
  simp

/-- The membership leads to somebody without the custom id. -/
theorem not_identified_of_listing : ∃ desired,
    listing.outcome? listingGateway listingOptions .numbered = some (desired, listingRefs) ∧
      ∃ m ∈ desired, m.ref = ⟨.membership, "g1:c1"⟩ ∧ ∃ id y,
        m.references.filter (·.kind = .consumer) = [⟨.consumer, id⟩] ∧
        desired.consumer? listingGateway id = some y ∧
        y.identifier? .customId ≠ some "bob" := by
  have heval : (listing.outcome? listingGateway listingOptions .numbered).any
      (fun x => x.2 == listingRefs && x.1.entities.all (·.identifier? .customId != some "bob") &&
        x.1.entities.any fun z => z.kind == .consumer && z.answersToName "bob") = true := by
    decide +kernel
  obtain ⟨⟨desired, refs⟩, hx, hfacts⟩ := (Option.any_eq_true _ _).1 heval
  simp only [Bool.and_eq_true, beq_iff_eq, List.all_eq_true, List.any_eq_true, bne_iff_ne]
    at hfacts
  obtain ⟨⟨rfl, hnobody⟩, z, hz, hzk, hzname⟩ := hfacts
  obtain ⟨ids, hres, hfinal⟩ := Content.yields_of_outcome? hx
  obtain ⟨ns, t, refs, hns, hrefs, hlisted⟩ := Content.members_identified_iff listing listingOptions
    listingGateway desired .numbered ids hres
  obtain ⟨rfl, -⟩ := hns.unique (yields_listing _)
  obtain ⟨rfl, -⟩ := hrefs.unique hfinal
  obtain ⟨-, hmember⟩ := hlisted listingGroup List.mem_cons_self .customId "bob" List.mem_cons_self
  obtain ⟨m, hm, href, id, y, hrefs, hy, hiff⟩ := hmember "g1" _ mem_outcomes_listing
  refine ⟨desired, hx, m, hm, href, id, y, hrefs, hy, fun hi => ?_⟩
  rcases hiff.1 hi with ⟨x, hx, hxi⟩ | ⟨hnone, -⟩
  · exact hnobody x hx hxi
  · rw [hnone z hz hzk] at hzname
    cases hzname

/-- It is not so that whoever a group lists by an identifier becomes a member. -/
theorem not_always_identified : ¬∀ (c : Content) (o : Options) (current desired : State)
    (ids ids' t : IdSupply) (ns : List Nested) (refs : List Reference),
      Yields (c.resolve current o) ids desired ids' → Yields c.nestings ids ns t →
      Yields (c.finalIds current o) ids refs ids' → ∀ g ∈ c.consumerGroups,
        ∀ (i : Identifier) (name : String), i.entry name ∈ g.consumers →
        ∀ gid ref, ((g.member gid name).entity, ref) ∈ Nested.outcomes ns refs →
        ∀ m ∈ desired, m.ref = ref →
        ∀ id, m.references.filter (·.kind = .consumer) = [⟨.consumer, id⟩] →
          ∃ y, desired.consumer? current id = some y ∧ y.identifier? i = some name := by
  intro h
  have heval : (listing.outcome? listingGateway listingOptions .numbered).any
      (fun x => x.2 == listingRefs && (x.1.get? .membership "g1:c1").any fun m =>
        m.references.filter (·.kind = .consumer) == [⟨.consumer, "c1"⟩] &&
          (x.1.consumer? listingGateway "c1").all fun y =>
            y.identifier? .customId != some "bob") = true := by
    decide +kernel
  obtain ⟨⟨desired, refs⟩, hx, hfacts⟩ := (Option.any_eq_true _ _).1 heval
  obtain ⟨hrefs, hfacts⟩ := Bool.and_eq_true_iff.1 hfacts
  obtain ⟨m, hget, hfacts⟩ := (Option.any_eq_true _ _).1 hfacts
  obtain ⟨hconsumer, hother⟩ := Bool.and_eq_true_iff.1 hfacts
  obtain rfl : refs = listingRefs := by simpa using hrefs
  obtain ⟨ids, hres, hfinal⟩ := Content.yields_of_outcome? hx
  obtain ⟨y, hy, hi⟩ := h listing listingOptions listingGateway desired .numbered ids .numbered
    listingNests listingRefs hres (yields_listing _) hfinal listingGroup List.mem_cons_self
    .customId "bob" List.mem_cons_self "g1" _ mem_outcomes_listing m (State.mem_of_get? hget)
    (State.ref_of_get? hget) "c1" (eq_of_beq hconsumer)
  rw [hy] at hother
  simp [hi] at hother

end Gateway
