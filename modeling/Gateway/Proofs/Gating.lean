import Gateway.Proofs.Check
import Gateway.Proofs.Successor
import Gateway.Sample

/-!
# What plans never ask of a gateway

The checks are made on flat declarations, before anything is resolved. What they look at survives
resolution: references are replaced, none is added or dropped, and the tags and the id that are
given only add to what is there. So every wanted entity passes the checks again
(`Content.permits_of_resolve`), and what a plan creates, updates or keeps is within the capabilities
of the gateway. Deletions are of objects that the selection shows; those of kinds that an active
selection cannot confine are not among them (`State.kind_not_mem_unconfinedKinds`). Both together
are `Content.gated_of_plan`.
-/

namespace Gateway

open Planning

/-! ### What the checks look at -/

namespace Detail

variable {find : Kind → ForeignKey → Except PlanError String}

/-- A reference is replaced where there is one. -/
theorem isSome_relinkOption {kind : Kind} {fk fk' : Option ForeignKey}
    (h : relinkOption find kind fk = .ok fk') : fk'.isSome = fk.isSome := by
  cases fk with
  | none =>
    cases h
    rfl
  | some fk =>
    obtain ⟨id, -, h⟩ := Except.bind_eq_ok_iff.1 h
    cases h
    rfl

end Detail

namespace Entity

variable {find : Kind → ForeignKey → Except PlanError String} {e e' : Entity}

/-- Replacing references takes no plugin into or out of the scope of a consumer-group. -/
theorem isGroupScoped_relink (h : e.relink find = .ok e') : e'.isGroupScoped = e.isGroupScoped := by
  obtain ⟨d, hd, rfl⟩ := relink_eq_ok_iff.1 h
  obtain ⟨k, r⟩ := e
  cases k
  case plugin =>
    simp only [Detail.relink, Except.bind_eq_ok_iff, Except.pure_eq_ok_iff] at hd
    obtain ⟨_, -, _, -, _, -, group, hgroup, _, -, rfl⟩ := hd
    exact Detail.isSome_relinkOption hgroup
  all_goals rfl

/-- Replacing references adds and drops no link to shared configuration. -/
theorem linksPartials_relink (h : e.relink find = .ok e') : e'.linksPartials = e.linksPartials := by
  obtain ⟨d, hd, rfl⟩ := relink_eq_ok_iff.1 h
  obtain ⟨k, r⟩ := e
  cases k
  case plugin =>
    simp only [Detail.relink, Except.bind_eq_ok_iff, Except.pure_eq_ok_iff] at hd
    obtain ⟨_, -, _, -, _, -, _, -, partials, hpartials, rfl⟩ := hd
    have hlength := (Except.mapM_eq_ok_iff.1 hpartials).length_eq
    have hempty : partials.isEmpty = r.detail.partials.isEmpty := by
      rw [Bool.eq_iff_iff, List.isEmpty_iff_length_eq_zero, List.isEmpty_iff_length_eq_zero,
        hlength]
    exact congrArg not hempty
  all_goals rfl

/-- Replacing references supplies and takes away no field. -/
theorem missingField?_relink (h : e.relink find = .ok e') : e'.missingField? = e.missingField? := by
  obtain ⟨d, hd, rfl⟩ := relink_eq_ok_iff.1 h
  obtain ⟨k, r⟩ := e
  have isNone_eq : ∀ {kind : Kind} {fk fk' : Option ForeignKey},
      Detail.relinkOption find kind fk = .ok fk' → fk'.isNone = fk.isNone := by
    intro kind fk fk' hfk
    rw [← Option.not_isSome, Detail.isSome_relinkOption hfk, Option.not_isSome]
  cases k <;> simp only [Detail.relink, Except.bind_eq_ok_iff, Except.pure_eq_ok_iff] at hd
  case plugin =>
    obtain ⟨_, -, _, -, _, -, _, -, _, -, rfl⟩ := hd
    rfl
  case target | sni | permission =>
    obtain ⟨fk, hfk, rfl⟩ := hd
    simp only [missingField?, isNone_eq hfk]
  all_goals
    first
    | rfl
    | (cases hd; rfl)

/-- What is in the scope of no consumer-group is no plugin that names one. -/
theorem isGroupScoped_eq_false_iff : e.isGroupScoped = false ↔
    ∀ plugin : Resource .plugin, e = plugin.toEntity → plugin.detail.consumerGroup = none := by
  constructor
  · rintro h plugin rfl
    simpa [isGroupScoped, Resource.toEntity] using h
  · intro h
    obtain ⟨k, r⟩ := e
    cases k
    case plugin => simpa [isGroupScoped] using h r rfl
    all_goals rfl

/-- What has no links to shared configuration is no plugin that lists any. -/
theorem linksPartials_eq_false_iff : e.linksPartials = false ↔
    ∀ plugin : Resource .plugin, e = plugin.toEntity → plugin.detail.partials = [] := by
  constructor
  · rintro h plugin rfl
    simpa [linksPartials, Resource.toEntity] using h
  · intro h
    obtain ⟨k, r⟩ := e
    cases k
    case plugin => simpa [linksPartials] using h r rfl
    all_goals rfl

theorem isGroupScoped_withoutTimestamps (e : Entity) :
    e.withoutTimestamps.isGroupScoped = e.isGroupScoped := by
  obtain ⟨k, r⟩ := e
  cases k <;> rfl

theorem linksPartials_withoutTimestamps (e : Entity) :
    e.withoutTimestamps.linksPartials = e.linksPartials := by
  obtain ⟨k, r⟩ := e
  cases k <;> rfl

end Entity

/-! ### The checks made again -/

namespace Resolution

variable {r : Resolution} {o : Options} {e linked : Entity}

/-- Tags and an id do not count for the scope of a plugin. -/
theorem isGroupScoped_added (id : String) :
    ((r.candidate linked).withId id).isGroupScoped = linked.isGroupScoped := by
  obtain ⟨k, res⟩ := linked
  cases k <;> rfl

/-- Tags and an id do not count for links to shared configuration. -/
theorem linksPartials_added (id : String) :
    ((r.candidate linked).withId id).linksPartials = linked.linksPartials := by
  obtain ⟨k, res⟩ := linked
  cases k <;> rfl

/-- An id makes an entity more complete, if anything. -/
theorem missingField?_added (h : linked.missingField? = none) (id : String) :
    ((r.candidate linked).withId id).missingField? = none := by
  obtain ⟨k, res⟩ := linked
  cases k
  case consumer =>
    refine if_neg ?_
    rw [Bool.not_eq_true, Bool.and_eq_false_iff]
    exact .inr rfl
  all_goals exact h

/-- What passes the checks as it is declared passes them as it is added. -/
theorem permits_added (h : o.Permits e) (hlink : r.link e = .ok linked) (id : String) :
    o.Permits ((r.candidate linked).withId id) where
  supported := by simpa [Entity.kind_relink hlink] using h.supported
  scope := h.scope.imp_right fun hscope => by
    rw [isGroupScoped_added, Entity.isGroupScoped_relink hlink, hscope]
  partials := h.partials.imp_right fun hlinks => by
    rw [linksPartials_added, Entity.linksPartials_relink hlink, hlinks]
  confined hact := by simpa [Entity.kind_relink hlink] using h.confined hact
  complete := missingField?_added ((Entity.missingField?_relink hlink).trans h.complete) id

end Resolution

namespace Content

variable {c : Content} {o : Options} {current desired : State} {s s' : IdSupply} {d : Entity}

/-- Every wanted entity passes the checks that were made on what is declared. -/
theorem permits_of_resolve (h : Yields (c.resolve current o) s desired s') (hd : d ∈ desired) :
    o.Permits d := by
  obtain ⟨es, t, -, hcheck, hdeclared⟩ := exists_declared_of_resolve h
  obtain ⟨e, he, r, linked, id, hlink, rfl⟩ := hdeclared d hd
  exact Resolution.permits_added (Options.check_eq_ok_iff.1 hcheck e he) hlink id

end Content

/-! ### Plans -/

/-- What a selection cannot confine carries no tags. -/
theorem taggable_of_mem_unconfinedKinds {kind : Kind} (h : kind ∈ unconfinedKinds) :
    kind.taggable = false := by
  revert h
  cases kind <;> decide

/-- An active selection shows no object of a kind that it cannot confine. -/
theorem State.kind_not_mem_unconfinedKinds {current : State} {sel : Selection} {x : Entity}
    (hact : sel.isActive = true) (hx : x ∈ current.select sel) : x.kind ∉ unconfinedKinds := by
  intro hmem
  have hmember : x.kind ≠ .membership := by
    intro hk
    simp [hk, unconfinedKinds] at hmem
  have hvisible := (State.mem_filter.1 hx).2
  rw [State.visible_of_ne hmember, Selection.admits, hact, taggable_of_mem_unconfinedKinds hmem]
    at hvisible
  cases hvisible

namespace Content

/-- For every plan of declarations: whatever it creates, updates or keeps is of a kind that the
gateway supports; a plugin among it names a consumer-group only where the gateway has such scopes,
and lists shared configuration only where the gateway has that; and under an active selection
nothing at all is done to licences, roles and permissions. -/
theorem gated_of_plan (c : Content) (current : State) (o : Options) (ids ids' : IdSupply) (p : Plan)
    (hplan : Yields (c.plan current o) ids p ids') :
    (∀ op ∈ p.ops, op.action ≠ .delete →
      o.capabilities.supports op.kind = true ∧
      (o.capabilities.consumerGroupScoping = false → ∀ plugin : Resource .plugin,
        op.entity = plugin.toEntity → plugin.detail.consumerGroup = none) ∧
      (o.capabilities.partials = false → ∀ plugin : Resource .plugin,
        op.entity = plugin.toEntity → plugin.detail.partials = [])) ∧
    (o.selection.isActive = true →
      ∀ op ∈ p.ops, op.kind ≠ .license ∧ op.kind ≠ .role ∧ op.kind ≠ .permission) := by
  obtain ⟨desired, hres, hto⟩ := yields_plan_iff.1 hplan
  constructor
  · intro op hop hact
    obtain ⟨d, hd, hplanned⟩ := State.exists_planFor_of_mem_ops hto hop hact
    have hpermits := permits_of_resolve hres hd
    have hkind : op.kind = d.kind := congrArg Reference.kind (State.key_of_planFor hplanned)
    have hsame : op.entity.isGroupScoped = d.isGroupScoped ∧
        op.entity.linksPartials = d.linksPartials := by
      rcases State.entity_of_planFor hplanned with heq | heq <;> rw [heq]
      · exact ⟨rfl, rfl⟩
      · exact ⟨Entity.isGroupScoped_withoutTimestamps d, Entity.linksPartials_withoutTimestamps d⟩
    simp only [← Entity.isGroupScoped_eq_false_iff, ← Entity.linksPartials_eq_false_iff]
    rw [hkind, hsame.1, hsame.2]
    exact ⟨hpermits.supported, fun hno => hpermits.scope.resolve_left (by simp [hno]),
      fun hno => hpermits.partials.resolve_left (by simp [hno])⟩
  · intro hact op hop
    have hconfined : op.kind ∉ unconfinedKinds := by
      rcases (State.mem_ops_of_planTo hto).1 hop with ⟨d, hd, hplanned⟩ | ⟨x, hx, -, rfl⟩
      · have hkind : op.kind = d.kind := congrArg Reference.kind (State.key_of_planFor hplanned)
        exact hkind ▸ (permits_of_resolve hres hd).confined hact
      · exact State.kind_not_mem_unconfinedKinds hact hx
    simpa [unconfinedKinds] using hconfined

end Content

/-! ### An old gateway -/

/-- The options of the team on a gateway that has no scopes of consumer-groups, no shared
configuration, and nothing of the enterprise edition. -/
def oldGatewayOptions : Options :=
  { Sample.teamOptions with capabilities := .ofVersion ⟨3, 0, 0⟩ false }

/-- The document of the team with a plugin for all traffic. -/
def loggedDocument : Content :=
  { Sample.teamDocument with
    plugins := [.ofDetail .plugin none { (default : Plugin) with name := "log" }] }

/-- What the team asks for is planned on the old gateway, and within its capabilities. -/
theorem gated_of_oldGateway : ∃ p,
    result? (loggedDocument.plan Sample.sharedGateway oldGatewayOptions) .numbered = some p ∧
      (∃ op ∈ p.ops, op.action = .create ∧ op.kind = .plugin) ∧
      (∀ op ∈ p.ops, op.action ≠ .delete → ∀ plugin : Resource .plugin,
        op.entity = plugin.toEntity →
          plugin.detail.consumerGroup = none ∧ plugin.detail.partials = []) ∧
      ∀ op ∈ p.ops, op.kind ≠ .license := by
  have heval : (result? (loggedDocument.plan Sample.sharedGateway oldGatewayOptions)
      .numbered).any (fun p => p.ops.any fun op =>
        op.action = .create ∧ op.kind = .plugin) = true := by
    decide +kernel
  obtain ⟨p, hp, hfacts⟩ := (Option.any_eq_true _ _).1 heval
  obtain ⟨ids, hplan⟩ := yields_of_result? hp
  have hgated := Content.gated_of_plan loggedDocument Sample.sharedGateway oldGatewayOptions
    .numbered ids p hplan
  refine ⟨p, hp, by simpa using List.any_eq_true.1 hfacts, fun op hop hact plugin hplugin => ?_,
    fun op hop => ?_⟩
  · obtain ⟨-, hscope, hlinks⟩ := hgated.1 op hop hact
    exact ⟨hscope (by decide) plugin hplugin, hlinks (by decide) plugin hplugin⟩
  · exact (hgated.2 (by decide) op hop).1

end Gateway
