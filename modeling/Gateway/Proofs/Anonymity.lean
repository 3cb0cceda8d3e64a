import Gateway.Proofs.Provenance

/-!
# Consumers without an identity

A consumer is to have a username, a custom id or an id, and flat declarations of consumers that have
none of them are refused. Declarations are flattened first, though, and there a consumer takes a
fresh id when something is nested under it. So the refusal meets the consumers under which nothing
is nested, and these alone. Any other one is created under a fresh id, and as the gateway recognises
it neither by that id nor by a natural key, the next run deletes it and creates it again
(`Content.refused_iff_bare`).
-/

namespace Gateway

open Planning Resolution

/-! ### The kinds of flat declarations -/

section

variable (K : Kind → Prop) {k kind : Kind} {r : Resource k} {rs : List (Resource kind)}
  {p : Enclosing} {es : List Entity} {s s' : IdSupply}

/-- Children are of their own kind. -/
theorem Enclosing.forall_kind_attachAll (hk : K kind)
    (h : Yields (liftM (p.attachAll rs)) s es s') : ∀ e ∈ es, K e.kind := by
  obtain ⟨hes, -⟩ := yields_lift.1 h
  intro e he
  obtain ⟨r, -, hr⟩ := (Except.mapM_eq_ok_iff.1 hes).exists_of_mem_right he
  obtain ⟨x, -, hx⟩ := Except.bind_eq_ok_iff.1 hr
  cases hx
  exact hk

/-- An object and what is nested in it are of the kinds of both. -/
theorem Resource.forall_kind_flattenNested {empty : Bool}
    {nested : Enclosing → Planning (List Entity)} (hk : K k)
    (hnested : ∀ p s es s', Yields (nested p) s es s' → ∀ e ∈ es, K e.kind)
    (h : Yields (r.flattenNested empty nested) s es s') : ∀ e ∈ es, K e.kind := by
  rcases yields_flattenNested_iff.1 h with ⟨-, rfl, -⟩ | ⟨-, q, t, fs, -, hfs, rfl⟩
  · exact List.forall_mem_singleton.2 hk
  · exact List.forall_mem_append.2 ⟨hnested _ _ _ _ hfs, List.forall_mem_singleton.2 hk⟩

/-- The same of an object with children of one kind. -/
theorem Resource.forall_kind_flatten (hk : K k) (hkind : K kind)
    (h : Yields (r.flattenNested rs.isEmpty fun p => p.attachAll rs) s es s') :
    ∀ e ∈ es, K e.kind :=
  forall_kind_flattenNested K hk (fun _ _ _ _ => Enclosing.forall_kind_attachAll K hkind) h

/-- The same of a list of declarations. -/
theorem forall_kind_mapM {α : Type} {f : α → Planning (List Entity)} {xs : List α}
    {ess : List (List Entity)} (hf : ∀ x s es s', Yields (f x) s es s' → ∀ e ∈ es, K e.kind)
    (h : Yields (xs.mapM f) s ess s') : ∀ e ∈ ess.flatten, K e.kind := by
  intro e he
  obtain ⟨es, hes, he⟩ := List.mem_flatten.1 he
  exact forall_of_mapM (P := fun es => ∀ e ∈ es, K e.kind) (fun x _ => hf x) h es hes e he

/-- A route is flattened into routes and plugins. -/
theorem RouteDecl.forall_kind_flatten {p : Option Enclosing} {d : RouteDecl} (hroute : K .route)
    (hplugin : K .plugin) (h : Yields (d.flatten p) s es s') : ∀ e ∈ es, K e.kind := by
  obtain ⟨route, -, h⟩ := exists_of_flatten h
  exact Resource.forall_kind_flatten K hroute hplugin h

/-- A service is flattened into services, routes and plugins. -/
theorem ServiceDecl.forall_kind_flatten {d : ServiceDecl} (hservice : K .service)
    (hroute : K .route) (hplugin : K .plugin) (h : Yields d.flatten s es s') :
    ∀ e ∈ es, K e.kind := by
  refine Resource.forall_kind_flattenNested K hservice (fun p t fs t' hfs => ?_) h
  simp only [yields_bind, yields_pure] at hfs
  obtain ⟨routes, t₁, hroutes, plugins, t₂, hplugins, rfl, rfl⟩ := hfs
  exact List.forall_mem_append.2
    ⟨forall_kind_mapM K (fun _ _ _ _ => RouteDecl.forall_kind_flatten K hroute hplugin) hroutes,
      Enclosing.forall_kind_attachAll K hplugin hplugins⟩

/-- A group is flattened into groups, plugins and memberships. -/
theorem ConsumerGroupDecl.forall_kind_flatten {d : ConsumerGroupDecl} (hgroup : K .consumerGroup)
    (hplugin : K .plugin) (hmembership : K .membership) (h : Yields d.flatten s es s') :
    ∀ e ∈ es, K e.kind := by
  refine Resource.forall_kind_flattenNested K hgroup (fun p t fs t' hfs => ?_) h
  simp only [yields_bind, yields_pure] at hfs
  obtain ⟨plugins, t₁, hplugins, rfl, rfl⟩ := hfs
  exact List.forall_mem_append.2 ⟨Enclosing.forall_kind_attachAll K hplugin hplugins,
    List.forall_mem_map.2 fun _ _ => hmembership⟩

end

/-! ### What flattening makes of consumers -/

namespace ConsumerDecl

variable {d : ConsumerDecl} {S s' : IdSupply} {n : Nat} {es : List Entity} {e : Entity}

/-- Nothing tells who the consumer is. -/
def Anonymous (d : ConsumerDecl) : Prop :=
  d.consumer.id = none ∧ d.consumer.detail.username = none ∧ d.consumer.detail.customId = none

/-- Whether a consumer is anonymous can be computed. -/
instance (d : ConsumerDecl) : Decidable d.Anonymous :=
  inferInstanceAs (Decidable (_ ∧ _ ∧ _))

/-- Nothing is nested under the consumer. -/
def Bare (d : ConsumerDecl) : Prop := d.plugins.isEmpty = true ∧ d.groups.isEmpty = true

/-- Whether a consumer is bare can be computed. -/
instance (d : ConsumerDecl) : Decidable d.Bare := inferInstanceAs (Decidable (_ ∧ _))

/-- What flattening makes of a consumer. -/
inductive FlatAs (d : ConsumerDecl) (S : IdSupply) : Entity → Prop
  /-- It stays as it is where nothing is nested under it. -/
  | bare (h : d.Bare) : FlatAs d S d.consumer.toEntity
  /-- It stays as it is where it has an id. -/
  | given (hid : d.consumer.id ≠ none) : FlatAs d S d.consumer.toEntity
  /-- It takes a fresh id otherwise. -/
  | fresh {i : Nat} (h : ¬d.Bare) (hid : d.consumer.id = none) :
    FlatAs d S (d.consumer.toEntity.withId (S.nth i))

/-- A consumer is flattened into one. -/
theorem FlatAs.kind_eq (h : d.FlatAs S e) : e.kind = .consumer := by
  cases h <;> rfl

/-- A consumer lacks an identity after flattening when it does before, unless it took an id. -/
theorem FlatAs.missingField?_eq (h : d.FlatAs S e) : e.missingField? =
    if d.Anonymous ∧ d.Bare then some "username or custom_id" else none := by
  have hcheck : ∀ r : Resource .consumer, r.toEntity.missingField? =
      if r.id = none ∧ r.detail.username = none ∧ r.detail.customId = none then
        some "username or custom_id" else none := by
    intro r
    show (if _ then _ else _) = _
    congr 1
    simp only [Bool.and_eq_true, Option.isNone_iff_eq_none, eq_iff_iff]
    tauto
  cases h with
  | bare h =>
    rw [hcheck]
    simp [Anonymous, h]
  | given hid =>
    rw [hcheck]
    simp [Anonymous, hid]
  | @fresh i h hid =>
    have hsome := hcheck { d.consumer with id := some (S.nth i) }
    rw [if_neg (by simp)] at hsome
    rw [if_neg (fun hno => h hno.2)]
    exact hsome

/-- A consumer that lacks an identity after flattening has nothing to be called by. -/
theorem FlatAs.faultLabel_eq (h : d.FlatAs S e) (hanon : d.Anonymous) (hbare : d.Bare) :
    e.faultLabel = "<anonymous>" := by
  obtain ⟨hid, hname, hcustom⟩ := hanon
  have hlabel : d.consumer.toEntity.faultLabel = "<anonymous>" := by
    show (d.consumer.detail.username <|> d.consumer.detail.customId <|> d.consumer.id).getD _ = _
    rw [hid, hname, hcustom]
    rfl
  cases h with
  | bare _ => exact hlabel
  | given _ => exact hlabel
  | fresh hno _ => exact absurd hbare hno

/-- A consumer is flattened behind what is nested under it. -/
theorem exists_flatAs (h : Yields d.flatten (S.after n) es s') :
    (∃ e ∈ es, d.FlatAs S e) ∧ ∀ e ∈ es, e.kind = .consumer → d.FlatAs S e := by
  rcases Resource.yields_flattenNested_iff.1 h with
    ⟨hempty, rfl, -⟩ | ⟨hempty, q, t, fs, hopen, hfs, rfl⟩
  · have hflat : d.FlatAs S d.consumer.toEntity := .bare (Bool.and_eq_true_iff.1 hempty)
    exact ⟨⟨_, List.mem_singleton_self _, hflat⟩, List.forall_mem_singleton.2 fun _ => hflat⟩
  · have hbare : ¬d.Bare := fun hbare => by
      rw [Bool.and_eq_true_iff.2 hbare] at hempty
      cases hempty
    have hnested : ∀ e ∈ fs, e.kind ≠ .consumer := by
      simp only [yields_bind, yields_pure] at hfs
      obtain ⟨plugins, t₁, hplugins, rfl, rfl⟩ := hfs
      refine List.forall_mem_append.2 ⟨?_, List.forall_mem_map.2 fun _ _ => ?_⟩
      · exact Enclosing.forall_kind_attachAll (· ≠ .consumer) (by simp) hplugins
      · exact fun hk => Kind.noConfusion hk
    have hflat : d.FlatAs S q.2.toEntity := by
      obtain ⟨id, rfl, ⟨hid, -⟩ | ⟨hid, rfl, -⟩⟩ := Resource.yields_enclose_iff.1 hopen
      · have hsame : d.consumer.toEntity.withId id = d.consumer.toEntity :=
          Entity.withId_of_id? hid
        show d.FlatAs S (d.consumer.toEntity.withId id)
        rw [hsame]
        exact .given (by rw [hid]; simp)
      · rw [IdSupply.nth_after]
        exact .fresh hbare hid
    refine ⟨⟨_, List.mem_append_right _ (List.mem_singleton_self _), hflat⟩, ?_⟩
    refine List.forall_mem_append.2 ⟨fun e he hk => absurd hk (hnested e he), ?_⟩
    exact List.forall_mem_singleton.2 fun _ => hflat

end ConsumerDecl

/-- Nothing that stands at the top by itself is a consumer. -/
theorem Content.kind_ne_of_mem_plainEntities {c : Content} :
    ∀ e ∈ c.plainEntities, e.kind ≠ .consumer := by
  intro e he hk
  simp only [plainEntities, List.mem_append, List.mem_map, or_assoc] at he
  rcases he with ⟨r, -, rfl⟩ | ⟨r, -, rfl⟩ | ⟨r, -, rfl⟩ | ⟨r, -, rfl⟩ | ⟨r, -, rfl⟩ |
    ⟨r, -, rfl⟩ | ⟨r, -, rfl⟩ | ⟨r, -, rfl⟩ | ⟨r, -, rfl⟩ | ⟨r, -, rfl⟩ <;> cases hk

/-- The flat consumers are what flattening makes of the declared ones. -/
theorem Content.exists_flatAs {c : Content} {S s' : IdSupply} {es : List Entity}
    (h : Yields c.flatten S es s') : (∀ d ∈ c.consumers, ∃ e ∈ es, d.FlatAs S e) ∧
      ∀ e ∈ es, e.kind = .consumer → ∃ d ∈ c.consumers, d.FlatAs S e := by
  unfold flatten at h
  simp only [yields_bind, yields_pure] at h
  obtain ⟨services, _, hservices, routes, _, hroutes, consumers, _, hconsumers, groups, _, hgroups,
    upstreams, _, hupstreams, certificates, _, hcertificates, keySets, _, hkeySets, roles, _,
    hroles, rfl, rfl⟩ := h
  obtain ⟨kinds, rfl, -⟩ := Numbered.mapM (fun _ _ _ _ => ServiceDecl.numbered_flatten) hservices
  obtain ⟨kinds', rfl, -⟩ := Numbered.mapM (fun _ _ _ _ => RouteDecl.numbered_flatten) hroutes
  have hflat : List.Forall₂ (fun d es => (∃ e ∈ es, ConsumerDecl.FlatAs d S e) ∧
      ∀ e ∈ es, e.kind = .consumer → d.FlatAs S e) c.consumers consumers := by
    refine (forall₂_of_mapM (P := fun t => ∃ n, t = S.after n) ?_ ⟨_, S.after_after _ _⟩
      hconsumers).imp ?_
    · rintro d _ es t ⟨n, rfl⟩ hes
      obtain ⟨kinds, rfl, -⟩ := ConsumerDecl.numbered_flatten hes
      exact ⟨_, S.after_after n _⟩
    · rintro d es ⟨_, t, ⟨n, rfl⟩, hes⟩
      exact ConsumerDecl.exists_flatAs hes
  -- no other declarations have consumers among theirs
  have hservices := forall_kind_mapM (· ≠ .consumer) (fun _ _ _ _ =>
    ServiceDecl.forall_kind_flatten (· ≠ .consumer) (by simp) (by simp) (by simp)) hservices
  have hroutes := forall_kind_mapM (· ≠ .consumer) (fun _ _ _ _ =>
    RouteDecl.forall_kind_flatten (· ≠ .consumer) (by simp) (by simp)) hroutes
  have hgroups := forall_kind_mapM (· ≠ .consumer) (fun _ _ _ _ =>
    ConsumerGroupDecl.forall_kind_flatten (· ≠ .consumer) (by simp) (by simp) (by simp)) hgroups
  have hupstreams := forall_kind_mapM (· ≠ .consumer) (fun _ _ _ _ =>
    Resource.forall_kind_flatten (· ≠ .consumer) (by simp) (by simp)) hupstreams
  have hcertificates := forall_kind_mapM (· ≠ .consumer) (fun _ _ _ _ =>
    Resource.forall_kind_flatten (· ≠ .consumer) (by simp) (by simp)) hcertificates
  have hkeySets := forall_kind_mapM (· ≠ .consumer) (fun _ _ _ _ =>
    Resource.forall_kind_flatten (· ≠ .consumer) (by simp) (by simp)) hkeySets
  have hroles := forall_kind_mapM (· ≠ .consumer) (fun _ _ _ _ =>
    Resource.forall_kind_flatten (· ≠ .consumer) (by simp) (by simp)) hroles
  simp only [List.flatten_append]
  constructor
  · intro d hd
    obtain ⟨es, hes, ⟨e, he, hflat⟩, -⟩ := hflat.exists_of_mem_left hd
    refine ⟨e, ?_, hflat⟩
    simp only [List.mem_append]
    have : e ∈ consumers.flatten := List.mem_flatten.2 ⟨es, hes, he⟩
    tauto
  · intro e he hk
    simp only [List.mem_append] at he
    have hmem : e ∈ consumers.flatten := by
      rcases he with (((((((he | he) | he) | he) | he) | he) | he) | he) | he
      · exact absurd hk (hservices e he)
      · exact absurd hk (hroutes e he)
      · exact he
      · exact absurd hk (hgroups e he)
      · exact absurd hk (hupstreams e he)
      · exact absurd hk (hcertificates e he)
      · exact absurd hk (hkeySets e he)
      · exact absurd hk (hroles e he)
      · exact absurd hk (kind_ne_of_mem_plainEntities e he)
    obtain ⟨es, hes, he⟩ := List.mem_flatten.1 hmem
    obtain ⟨d, hd, -, hall⟩ := hflat.exists_of_mem_right hes
    exact ⟨d, hd, hall e he hk⟩

/-! ### What becomes of consumers without identity -/

/-- A consumer with neither of its names keeps the id that it is declared with. -/
theorem Resolution.Placed.mem_of_unnamed {r r' : Resolution} {x : Resource .consumer} {a : String}
    {ref : Reference} {s s' : IdSupply} (h : Placed r x.toEntity s ref r' s')
    (hkey : x.toEntity.naturalKey? = none) (hid : x.id = some a) :
    r.options.selection.apply x.toEntity ∈ r'.desired := by
  cases h with
  | @repeated linked hlink hrepeats =>
    cases hlink
    rw [repeats_of_isReferable (by rfl)] at hrepeats
    cases hrepeats
  | @added linked id moves desired _ hlink _ _ hident hadd =>
    cases hlink
    have hid' : (r.candidate x.toEntity).id? = some a := hid
    have hkey' : (r.candidate x.toEntity).naturalKey? = none := hkey
    rw [hident.eq_of_naturalKey? hkey' hid', Entity.withId_of_id? hid'] at hadd
    exact State.mem_insert_self hadd

namespace Content

variable {c : Content} {o : Options} {current desired : State} {S s' : IdSupply}
  {d : ConsumerDecl} {p : Plan} {x : Entity}

/-- Where a document can be resolved, something is nested under every consumer without identity, and
the consumer is wanted under a fresh id. -/
theorem mem_of_anonymous (h : Yields (c.resolve current o) S desired s') (hd : d ∈ c.consumers)
    (hanon : d.Anonymous) : ¬d.Bare ∧
      ∃ i, o.selection.apply (d.consumer.toEntity.withId (S.nth i)) ∈ desired := by
  obtain ⟨es, k, ps, r, m, hes, hcheck, hps, hall, rfl⟩ := exists_placedAll_of_resolve h
  obtain ⟨e, he, hflat⟩ := (exists_flatAs hes).1 d hd
  have hcomplete : e.missingField? = none := (Options.check_eq_ok_iff.1 hcheck e he).complete
  have hbare : ¬d.Bare := by
    intro hbare
    rw [hflat.missingField?_eq, if_pos ⟨hanon, hbare⟩] at hcomplete
    cases hcomplete
  refine ⟨hbare, ?_⟩
  cases hflat with
  | bare h => exact absurd h hbare
  | given hid => exact absurd hanon.1 hid
  | @fresh i _ _ =>
    refine ⟨i, ?_⟩
    have hmem : d.consumer.toEntity.withId (S.nth i) ∈ ps.map Prod.fst := hps ▸ mem_inOrder.2 he
    obtain ⟨⟨_, ref⟩, hp, rfl⟩ := List.mem_map.1 hmem
    obtain ⟨r₁, t, r₂, t', hr₁, hplaced, hsub⟩ := hall.exists_placed (sound_start o current) hp
    have hkey : (d.consumer.toEntity.withId (S.nth i)).naturalKey? = none := by
      show Detail.naturalKey? .consumer d.consumer.detail = none
      simp [Detail.naturalKey?, hanon.2.1, hanon.2.2]
    have hwanted := Placed.mem_of_unnamed (x := { d.consumer with id := some (S.nth i) }) hplaced
      hkey rfl
    rw [hr₁.options] at hwanted
    exact hsub _ hwanted

/-- A visible consumer with neither of its names is not wanted, unless it is declared by its id. -/
theorem not_contains_of_unnamed (h : Yields (c.resolve current o) S desired s')
    (hheld : ∀ x ∈ current, S.Spares x.idText) (hx : x ∈ current.select o.selection)
    (hk : x.kind = .consumer) (hkey : x.naturalKey? = none)
    (hid : ∀ d ∈ c.consumers, d.consumer.id ≠ some x.idText) :
    desired.contains x.kind x.idText = false := by
  have hspare : S.Spares x.idText := hheld x (State.mem_of_mem_select hx)
  rw [State.contains_eq_false_iff]
  intro y hy hyk hyid
  obtain ⟨es, k, m, hes, hsourced⟩ := exists_sourced h
  obtain ⟨e, he, hbecomes, hsource⟩ := hsourced y hy
  cases hsource with
  | declared hdeclared =>
    obtain ⟨d, hd, hflat⟩ := (exists_flatAs hes).2 e he (hbecomes.kind_eq.symm.trans (hyk.trans hk))
    rw [hyid] at hdeclared
    cases hflat with
    | bare _ => exact hid d hd hdeclared
    | given _ => exact hid d hd hdeclared
    | fresh _ _ => exact hspare _ (Option.some.inj hdeclared)
  | adopted hadopts =>
    obtain ⟨z, hz, href, hkeys⟩ := hadopts
    -- what is adopted is `x` itself, which has no natural key
    have hzx : z = x := State.eq_of_ref hz hx (href.trans (by rw [Entity.ref, hyk, hyid]; rfl))
    rw [hzx] at hkeys
    rcases hkeys with ⟨-, heq, hsome⟩ | ⟨key, -, hsome⟩
    · rw [heq, hkey] at hsome
      cases hsome
    · cases hkey.symm.trans hsome
  | derived hderived =>
    rcases Entity.kind_of_derivedId? hderived with hk' | hk' <;>
      exact absurd (hk'.symm.trans (hyk.trans hk)) (by simp)
  | fresh _ _ heq _ => exact hspare _ (heq.symm.trans hyid)

/-- For every document: the missing identity of a consumer is reported exactly when there is a
consumer without identity under which nothing is nested, and then there is neither a state that the
document asks for nor a plan. Every other consumer without identity is created under a fresh id by
whatever plan there is, and a visible one is deleted, unless it is declared by its id. -/
theorem refused_iff_bare (c : Content) (current : State) (o : Options) (ids : IdSupply)
    (hheld : ∀ x ∈ current, ids.Spares x.idText) :
    (∀ es t, Yields c.flatten ids es t →
      (.missingField .consumer "<anonymous>" "username or custom_id" ∈ o.faults es ↔
        ∃ d ∈ c.consumers, d.Anonymous ∧ d.Bare)) ∧
    ((∃ d ∈ c.consumers, d.Anonymous ∧ d.Bare) → ∀ ids',
      (∀ desired, ¬Yields (c.resolve current o) ids desired ids') ∧
        ∀ p, ¬Yields (c.plan current o) ids p ids') ∧
    ∀ p ids', Yields (c.plan current o) ids p ids' →
      (∀ d ∈ c.consumers, d.Anonymous → ∃ i,
        ⟨.create, o.selection.apply (d.consumer.toEntity.withId (ids.nth i)), none, []⟩ ∈ p.ops) ∧
      ∀ x ∈ current.select o.selection, x.kind = .consumer → x.naturalKey? = none →
        (∀ d ∈ c.consumers, d.consumer.id ≠ some x.idText) → ⟨.delete, x, none, []⟩ ∈ p.ops := by
  have hresolve : (∃ d ∈ c.consumers, d.Anonymous ∧ d.Bare) → ∀ desired ids',
      ¬Yields (c.resolve current o) ids desired ids' := by
    rintro ⟨d, hd, hanon, hbare⟩ desired ids' hres
    exact (mem_of_anonymous hres hd hanon).1 hbare
  refine ⟨fun es t hes => ?_,
    fun hsome ids' => ⟨fun desired => hresolve hsome desired ids', ?_⟩, ?_⟩
  · obtain ⟨hforth, hback⟩ := exists_flatAs hes
    rw [Options.missingField_mem_faults_iff]
    constructor
    · rintro ⟨e, he, hk, -, hmissing⟩
      obtain ⟨d, hd, hflat⟩ := hback e he hk
      rw [hflat.missingField?_eq, ite_eq_left_iff] at hmissing
      have hboth : d.Anonymous ∧ d.Bare := by
        by_contra hno
        cases hmissing hno
      exact ⟨d, hd, hboth⟩
    · rintro ⟨d, hd, hanon, hbare⟩
      obtain ⟨e, he, hflat⟩ := hforth d hd
      have hmissing := hflat.missingField?_eq
      rw [if_pos ⟨hanon, hbare⟩] at hmissing
      exact ⟨e, he, hflat.kind_eq, hflat.faultLabel_eq hanon hbare, hmissing⟩
  · intro p hp
    obtain ⟨desired, hres, -⟩ := yields_plan_iff.1 hp
    exact hresolve hsome desired ids' hres
  · intro p ids' hp
    obtain ⟨desired, hres, hplan⟩ := yields_plan_iff.1 hp
    refine ⟨fun d hd hanon => ?_, fun x hx hk hkey hid => ?_⟩
    · obtain ⟨-, i, hmem⟩ := mem_of_anonymous hres hd hanon
      refine ⟨i, State.create_mem_ops_of_planTo hplan hmem ?_⟩
      exact State.contains_eq_false_iff.2 fun y hy _ hyid => hheld y hy i hyid.symm
    · have hno := not_contains_of_unnamed hres hheld hx hk hkey hid
      exact (State.mem_ops_of_planTo hplan).2 (.inr ⟨x, hx, hno, rfl⟩)

end Content

/-! ### A consumer that says nothing but what it may do -/

/-- A document with a consumer that has a plugin, and nothing else. -/
def keyHolder : Content where
  consumers := [⟨Resource.ofDetail .consumer none default,
    [Resource.ofDetail .plugin none { (default : Plugin) with name := "key-auth" }], []⟩]

/-- The consumer is created. -/
theorem created_of_keyHolder : ∃ p, result? (keyHolder.plan .empty {}) .numbered = some p ∧
    ∃ i, ⟨.create, (Resource.ofDetail .consumer (some (IdSupply.numbered.nth i))
      default).toEntity, none, []⟩ ∈ p.ops := by
  have heval : (result? (keyHolder.plan .empty {}) .numbered).isSome = true := by
    decide +kernel
  obtain ⟨p, hp⟩ := Option.isSome_iff_exists.1 heval
  obtain ⟨ids, hplan⟩ := yields_of_result? hp
  obtain ⟨-, -, hcreate⟩ := Content.refused_iff_bare keyHolder .empty {} .numbered
    fun x hx => absurd hx State.not_mem_empty
  exact ⟨p, hp, (hcreate p ids hplan).1 _ List.mem_cons_self (by decide)⟩

/-- It is not so that whoever declares a consumer without identity is refused. -/
theorem not_always_refused : ¬∀ (c : Content) (current : State) (o : Options) (ids : IdSupply),
    (∃ d ∈ c.consumers, d.Anonymous) →
      ∀ desired ids', ¬Yields (c.resolve current o) ids desired ids' := by
  intro h
  have heval : (result? (keyHolder.resolve .empty {}) .numbered).isSome = true := by
    decide +kernel
  obtain ⟨desired, hdesired⟩ := Option.isSome_iff_exists.1 heval
  obtain ⟨ids, hres⟩ := yields_of_result? hdesired
  exact h keyHolder .empty {} .numbered ⟨_, List.mem_cons_self, by decide⟩ desired ids hres

end Gateway
