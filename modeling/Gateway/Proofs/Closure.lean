import Gateway.Proofs.Deletion

/-!
# Reference closure

The places in which an object can refer to others are read off the list of its fields
(`Entity.slots`), apart from the functions that resolve references: the name of a field tells what
it is to, and the ids of certificate authorities count as well, which are kept as texts. In a
resolved state each of these places holds an id and nothing else, and the id is that of a resolved
object of the right kind, or of an object of the gateway that is offered by a lookup tag
(`Content.slots_closed`).
-/

namespace Gateway

/-! ### Where references stand -/

/-- The kind of object to which the values of a field refer, going by the name of the field. -/
def Field.target? (f : Field) : Option Kind :=
  match f.name with
  | "service" => some .service
  | "route" => some .route
  | "consumer" => some .consumer
  | "consumer_group" => some .consumerGroup
  | "upstream" => some .upstream
  | "certificate" | "client_certificate" => some .certificate
  | "ca_certificates" => some .caCertificate
  | "set" => some .keySet
  | "partials" => some .partialConfig
  | "role" => some .role
  | _ => none

namespace FieldType

/-- The references in a value, if it is the value of a field that refers to something. -/
def foreignKeys : (t : FieldType) → t.Carrier → List ForeignKey
  | optionalLink, fk => fk.toList
  | link, fk => [fk]
  | partialLinks, ls => ls.map PartialLink.toForeignKey
  | filledTexts, ids => ids.map .byId
  | _, _ => []

end FieldType

/-- The references in the fields of a record, each with the kind of object that it is to. -/
def Record.slots : (fields : List Field) → Record fields → List (Kind × ForeignKey)
  | [], _ => []
  | f :: fields, (first, rest) =>
    (match f.target? with
      | some kind => (f.type.foreignKeys first).map (kind, ·)
      | none => []) ++ slots fields rest

/-- The references in the fields of an object, each with the kind of object that it is to. -/
def Entity.slots (e : Entity) : List (Kind × ForeignKey) :=
  Record.slots e.kind.ownFields (Detail.toRecord e.kind e.resource.detail)

/-- What is resolved are the references in the fields. -/
theorem Detail.slots_eq_links (k : Kind) (d : Detail k) :
    Record.slots k.ownFields (toRecord k d) = links k d := by
  cases k <;> simp [Record.slots, Field.target?, FieldType.foreignKeys, toRecord, links]

theorem Entity.slots_eq_links (e : Entity) : e.slots = e.links :=
  Detail.slots_eq_links e.kind e.resource.detail

/-! ### Resolved states -/

namespace Content

open Planning

/-- For every resolved entity and every place in which it refers to an object: there stands an id
and nothing else, and it is the id of a resolved entity of the kind in question, or of an object of
the gateway that is of this kind and carries one of the lookup tags of the kind. -/
theorem slots_closed (c : Content) (o : Options) (current : State) (ids ids' : IdSupply)
    (desired : State) (hres : Yields (c.resolve current o) ids desired ids') (d : Entity)
    (hd : d ∈ desired) (kind : Kind) (fk : ForeignKey) (hslot : (kind, fk) ∈ d.slots) :
    ∃ id, fk = .byId id ∧
      ((∃ x ∈ desired, x.ref = ⟨kind, id⟩) ∨
        ∃ x ∈ current, x.ref = ⟨kind, id⟩ ∧
          x.hasAnyTag (o.lookupTags.forKind kind) = true) := by
  rw [Entity.slots_eq_links] at hslot
  obtain ⟨id, hid⟩ := exists_byId_of_mem_links hres hd hslot
  refine ⟨id, hid, ?_⟩
  have href : (⟨kind, id⟩ : Reference) ∈ d.references :=
    List.mem_filterMap.2 ⟨(kind, fk), hslot, congrArg (·.toReference? kind) hid⟩
  rcases wanted_or_offered hres hd href with hwanted | ⟨x, hx, hxref, hoffer⟩
  · exact .inl (State.contains_ref_iff.1 hwanted)
  · have hk : x.kind = kind := congrArg Reference.kind hxref
    exact .inr ⟨x, hx, hxref, hk ▸ hoffer⟩

end Content

/-! ### A reference to a group that is offered -/

/-- What the team asks for, if it can be resolved. -/
def teamDesired : Option State :=
  Planning.result? (Sample.teamDocument.resolve Sample.sharedGateway Sample.teamOptions) .numbered

/-- The group of the team's membership is not declared, so the gateway offers it. -/
theorem slots_closed_of_team : ∃ desired d fk, teamDesired = some desired ∧ d ∈ desired ∧
    (Kind.consumerGroup, fk) ∈ d.slots ∧ fk = .byId "g1" ∧
      ∃ x ∈ Sample.sharedGateway, x.ref = ⟨.consumerGroup, "g1"⟩ ∧
        x.hasAnyTag (Sample.offered.forKind .consumerGroup) = true := by
  have heval : teamDesired.any (fun desired => !desired.contains .consumerGroup "g1" &&
      desired.entities.any fun d =>
        d.slots.any fun slot => slot.1 == .consumerGroup && slot.2.id == some "g1") = true := by
    decide +kernel
  obtain ⟨desired, hdesired, hfacts⟩ := (Option.any_eq_true _ _).1 heval
  obtain ⟨hno, hfacts⟩ := Bool.and_eq_true_iff.1 hfacts
  obtain ⟨d, hd, hfacts⟩ := List.any_eq_true.1 hfacts
  obtain ⟨⟨kind, fk⟩, hslot, hfacts⟩ := List.any_eq_true.1 hfacts
  simp only [Bool.and_eq_true, beq_iff_eq] at hfacts
  obtain ⟨rfl, hfk⟩ := hfacts
  obtain ⟨ids, hres⟩ := Planning.yields_of_result? hdesired
  obtain ⟨id, rfl, hclosed⟩ := Content.slots_closed Sample.teamDocument Sample.teamOptions
    Sample.sharedGateway .numbered ids desired hres d hd _ _ hslot
  cases hfk
  refine ⟨desired, d, _, hdesired, hd, hslot, rfl, hclosed.resolve_left ?_⟩
  rintro ⟨x, hx, hxref⟩
  rw [State.contains_of_ref hx hxref] at hno
  cases hno

end Gateway
