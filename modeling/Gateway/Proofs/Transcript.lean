import Gateway.Proofs.Reading

/-!
# Documents are read as they were written

The written form of a declaration puts the lists of what is nested beside the fields of the object
itself. No list has the name of a field, so that what is left when the lists are taken out is the
written form of the object (`takeNested?_nestedValue`), and every sort of declaration is read again
with all that is nested under it. So are whole documents.

Together with what holds of single objects this is `read_written`.
-/

namespace Gateway

/-! ### Declarations -/

section Nested

variable {k : Kind} {r : Resource k} {lists : List (String × List Value)} {names : List String}

/-- A map with lists put beside its entries. -/
def putLists (d : Settings) (lists : List (String × List Value)) : Settings :=
  lists.foldl (fun d l => Dict.insert d l.1 (.list l.2)) d

/-- Lists that are put into a map keep it in order. -/
theorem sorted_putLists {d : Settings} (hd : Dict.Sorted d) :
    Dict.Sorted (putLists d lists) := by
  induction lists generalizing d with
  | nil => exact hd
  | cons l rest ih => exact ih (hd.insert l.1 (.list l.2))

/-- Nothing changes under other names than those of the lists. -/
theorem get?_putLists {d : Settings} {key : String} (h : key ∉ lists.map (·.1)) :
    Dict.get? (putLists d lists) key = Dict.get? d key := by
  induction lists generalizing d with
  | nil => rfl
  | cons l rest ih =>
    rw [List.map_cons, List.mem_cons, not_or] at h
    have hrest : Dict.get? (putLists (Dict.insert d l.1 (.list l.2)) rest) key =
        Dict.get? (Dict.insert d l.1 (.list l.2)) key := ih h.2
    exact hrest.trans (by rw [Dict.get?_insert, if_neg (Ne.symm h.1)])

/-- Under the name of each list stands the list. -/
theorem get?_putLists_of_mem {d : Settings} (hnodup : (lists.map (·.1)).Nodup)
    {l : String × List Value} (h : l ∈ lists) :
    Dict.get? (putLists d lists) l.1 = some (.list l.2) := by
  induction lists generalizing d with
  | nil => cases h
  | cons first rest ih =>
    obtain ⟨hfirst, hnodup⟩ := List.nodup_cons.1 hnodup
    rcases List.mem_cons.1 h with rfl | h
    · have hrest : Dict.get? (putLists (Dict.insert d l.1 (.list l.2)) rest) l.1 =
          Dict.get? (Dict.insert d l.1 (.list l.2)) l.1 := get?_putLists hfirst
      exact hrest.trans (by rw [Dict.get?_insert, if_pos rfl])
    · exact ih hnodup h

/-- An object is written under the names of fields only. -/
theorem get?_toSettings_eq_none {key : String} (h : key ∉ k.fieldNames) :
    Dict.get? r.toSettings key = none := by
  simp only [Kind.fieldNames, Kind.commonFieldNames, List.mem_cons, List.mem_append, not_or] at h
  obtain ⟨hid, hown, ⟨htags, hcreated⟩, hupdated⟩ := h
  have hupdatedAt : (if "updated_at" = key then FieldType.optionalInt64.write? r.updatedAt
      else none) = none := by
    split
    · rename_i heq
      cases hupdate : k.recordsUpdate with
      | false =>
        rw [r.updatedAt_eq_none hupdate]
        rfl
      | true => simp [hupdate, heq] at hupdated
    · rfl
  have hbody : Dict.get? r.toEntity.body key = none := by
    by_cases hkey : key = "tags"
    · rw [hkey, Entity.get?_body_tags]
      refine if_neg fun htag => ?_
      have htag : k.taggable = true := htag
      simp [htag, hkey] at htags
    · exact Resource.get?_body_eq_none hkey hown
  rw [Resource.get?_toSettings, hupdatedAt, hbody, if_neg (Ne.symm hid),
    if_neg (by simpa using Ne.symm hcreated.1)]
  rfl

/-- Taking the lists out of the written form of a declaration leaves that of the object itself. -/
theorem takeNested?_nestedValue (hr : r.Readable) (heq : lists.map (·.1) = names)
    (hnames : (names ++ k.fieldNames).Nodup) :
    takeNested? names (.ofValue (nestedValue r lists)) =
      some (lists.map fun l => some (.ofValue (.list l.2)), .ofValue r.toValue) := by
  subst heq
  obtain ⟨hnodup, -, hdisjoint⟩ := List.nodup_append.1 hnames
  have hsorted : Dict.Sorted (putLists r.toSettings lists) := sorted_putLists r.sorted_toSettings
  have hlists : (lists.map (·.1)).map (fun name =>
      (Dict.get? (putLists r.toSettings lists) name).map Json.ofValue) =
      lists.map fun l => some (.ofValue (.list l.2)) := by
    rw [List.map_map]
    refine List.map_congr_left fun l hl => ?_
    rw [Function.comp_apply, get?_putLists_of_mem hnodup hl, Option.map_some]
  have hown : (putLists r.toSettings lists).filter (fun e => !(lists.map (·.1)).contains e.1) =
      r.toSettings := by
    refine Dict.ext_get? (hsorted.filter _) r.sorted_toSettings fun key => ?_
    rw [Dict.get?_filter fun key => !(lists.map (·.1)).contains key]
    by_cases hkey : key ∈ lists.map (·.1)
    · have hfield : key ∉ k.fieldNames := fun hmem => hdisjoint key hkey key hmem rfl
      rw [get?_toSettings_eq_none hfield, if_neg (by simpa using hkey)]
    · rw [get?_putLists hkey, if_pos (by simpa using hkey)]
  have hvalues : Json.memberValues? (Json.ofEntries r.toSettings) = some r.toSettings := by
    have hwf := Resource.wellFormed_toValue hr.wellFormed
    rw [Resource.toValue, Value.WellFormed] at hwf
    exact Json.memberValues?_ofEntries _ hwf.2
  change takeNested? (lists.map (·.1)) (.obj (Json.ofEntries (putLists r.toSettings lists))) = _
  rw [takeNested?, Json.membersNamed?_ofEntries hsorted, hlists,
    Json.ofEntries_filter fun key => !(lists.map (·.1)).contains key, hown]
  simp only [hvalues, Option.bind_eq_bind, Option.bind_some]
  rfl

end Nested

/-- A list is read from its written form. -/
theorem listOr_restores {α : Type} {read : Json → Option α} {write : α → Value}
    (hread : Json.Restores read write) {j : Option Json} {as : List α}
    (h : listOr read j = some as) :
    listOr read (some (.ofValue (.list (as.map write)))) = some as :=
  hread.list.fieldOr rfl h

section Declarations

variable {k : Kind} {α β δ : Type} {read : Json → Option α} {write : α → Value}
  {read' : Json → Option β} {write' : β → Value} {name name' : String}

/-- A declaration with one list of nested objects is read from its written form. -/
theorem restores_of_list (make : Resource k → List α → δ) (object : δ → Resource k)
    (items : δ → List α) (hread : Json.Restores read write)
    (hnames : ([name] ++ k.fieldNames).Nodup) (hobject : ∀ r as, object (make r as) = r)
    (hitems : ∀ r as, items (make r as) = as) :
    Json.Restores
      (fun j => do
        match ← takeNested? [name] j with
        | ([list], own) => some (make (← Resource.ofJson? k own) (← listOr read list))
        | _ => none)
      fun d => nestedValue (object d) [(name, (items d).map write)] := by
  intro j d h
  obtain ⟨⟨nested, own⟩, -, h⟩ := Option.bind_eq_some_iff.1 h
  split at h
  · simp only [Option.bind_eq_bind, Option.bind_eq_some_iff, Option.some.injEq] at h
    obtain ⟨r, hr, as, has, rfl⟩ := h
    have hr := Resource.readable_of_ofJson? hr
    have htake : takeNested? [name] (.ofValue (nestedValue r [(name, as.map write)])) = _ :=
      takeNested?_nestedValue hr rfl hnames
    simp [hobject, hitems, htake, Resource.ofJson?_toValue hr, listOr_restores hread has]
  · cases h

/-- A declaration with two lists of nested objects is read from its written form. -/
theorem restores_of_lists (make : Resource k → List α → List β → δ) (object : δ → Resource k)
    (items : δ → List α) (items' : δ → List β) (hread : Json.Restores read write)
    (hread' : Json.Restores read' write') (hnames : ([name, name'] ++ k.fieldNames).Nodup)
    (hobject : ∀ r as bs, object (make r as bs) = r) (hitems : ∀ r as bs, items (make r as bs) = as)
    (hitems' : ∀ r as bs, items' (make r as bs) = bs) :
    Json.Restores
      (fun j => do
        match ← takeNested? [name, name'] j with
        | ([list, list'], own) =>
          some (make (← Resource.ofJson? k own) (← listOr read list) (← listOr read' list'))
        | _ => none)
      fun d => nestedValue (object d)
        [(name, (items d).map write), (name', (items' d).map write')] := by
  intro j d h
  obtain ⟨⟨nested, own⟩, -, h⟩ := Option.bind_eq_some_iff.1 h
  split at h
  · simp only [Option.bind_eq_bind, Option.bind_eq_some_iff, Option.some.injEq] at h
    obtain ⟨r, hr, as, has, bs, hbs, rfl⟩ := h
    have hr := Resource.readable_of_ofJson? hr
    have htake : takeNested? [name, name']
        (.ofValue (nestedValue r [(name, as.map write), (name', bs.map write')])) = _ :=
      takeNested?_nestedValue hr rfl hnames
    simp [hobject, hitems, hitems', htake, Resource.ofJson?_toValue hr, listOr_restores hread has,
      listOr_restores hread' hbs]
  · cases h

/-- Routes are read back, with the plugins nested in them. -/
theorem RouteDecl.restores : Json.Restores RouteDecl.ofJson? RouteDecl.toValue :=
  restores_of_list RouteDecl.mk RouteDecl.route RouteDecl.plugins (Resource.restores .plugin)
    (by decide) (fun _ _ => rfl) fun _ _ => rfl

/-- Services are read back, with the routes and plugins nested in them. -/
theorem ServiceDecl.restores : Json.Restores ServiceDecl.ofJson? ServiceDecl.toValue :=
  restores_of_lists ServiceDecl.mk ServiceDecl.service ServiceDecl.routes ServiceDecl.plugins
    RouteDecl.restores (Resource.restores .plugin) (by decide) (fun _ _ _ => rfl)
    (fun _ _ _ => rfl) fun _ _ _ => rfl

/-- Consumers are read back, with their plugins and groups. -/
theorem ConsumerDecl.restores : Json.Restores ConsumerDecl.ofJson? ConsumerDecl.toValue :=
  restores_of_lists ConsumerDecl.mk ConsumerDecl.consumer ConsumerDecl.plugins ConsumerDecl.groups
    (Resource.restores .plugin) ForeignKey.restores (by decide) (fun _ _ _ => rfl)
    (fun _ _ _ => rfl) fun _ _ _ => rfl

/-- Groups are read back, with their plugins and consumers. -/
theorem ConsumerGroupDecl.restores :
    Json.Restores ConsumerGroupDecl.ofJson? ConsumerGroupDecl.toValue :=
  restores_of_lists ConsumerGroupDecl.mk ConsumerGroupDecl.group ConsumerGroupDecl.consumers
    ConsumerGroupDecl.plugins ForeignKey.restores (Resource.restores .plugin) (by decide)
    (fun _ _ _ => rfl) (fun _ _ _ => rfl) fun _ _ _ => rfl

/-- Upstreams are read back, with their targets. -/
theorem UpstreamDecl.restores : Json.Restores UpstreamDecl.ofJson? UpstreamDecl.toValue :=
  restores_of_list UpstreamDecl.mk UpstreamDecl.upstream UpstreamDecl.targets
    (Resource.restores .target) (by decide) (fun _ _ => rfl) fun _ _ => rfl

/-- Certificates are read back, with their server names. -/
theorem CertificateDecl.restores :
    Json.Restores CertificateDecl.ofJson? CertificateDecl.toValue :=
  restores_of_list CertificateDecl.mk CertificateDecl.certificate CertificateDecl.snis
    (Resource.restores .sni) (by decide) (fun _ _ => rfl) fun _ _ => rfl

/-- Sets are read back, with their keys. -/
theorem KeySetDecl.restores : Json.Restores KeySetDecl.ofJson? KeySetDecl.toValue :=
  restores_of_list KeySetDecl.mk KeySetDecl.keySet KeySetDecl.keys (Resource.restores .key)
    (by decide) (fun _ _ => rfl) fun _ _ => rfl

/-- Roles are read back, with their permissions. -/
theorem RoleDecl.restores : Json.Restores RoleDecl.ofJson? RoleDecl.toValue :=
  restores_of_list RoleDecl.mk RoleDecl.role RoleDecl.permissions (Resource.restores .permission)
    (by decide) (fun _ _ => rfl) fun _ _ => rfl

end Declarations

/-! ### Documents -/

/-- The fields of a structure are the entries that were written in their order. -/
theorem Json.fields?_ofEntries {entries : List (String × Value)} {names : List String}
    (heq : entries.map (·.1) = names) (hnodup : names.Nodup) :
    fields? names (ofValue (.ofEntries entries)) =
      some (entries.map fun e => some (ofValue e.2)) := by
  subst heq
  rw [Value.ofEntries, fields?_ofValue (Dict.sorted_ofList entries), List.map_map]
  refine congrArg some (List.map_congr_left fun e he => ?_)
  have hget : Dict.get? (Dict.ofList entries) e.1 = some e.2 := by
    refine Dict.get?_ofList_of_unique he fun v hv => ?_
    exact congrArg Prod.snd (List.inj_on_of_nodup_map hnodup hv he rfl)
  rw [Function.comp_apply, hget, Option.map_some]

/-- A document is read from its written form. -/
theorem Content.restores : Json.Restores Content.ofJson? Content.toValue := by
  intro j c h
  obtain ⟨_, _, _, _, _, _, _, _, _, _, _, _, _, _, _, _, _, _, -, hservices, hroutes, hplugins,
    hconsumers, hgroups, hupstreams, htargets, hcertificates, hsnis, hcas, hvaults, hkeySets, hkeys,
    hpartials, hlicenses, hroles, hpermissions, hcustoms⟩ :=
    ofJson?_eq_some_iff.1 h
  exact ofJson?_eq_some_iff.2 ⟨_, _, _, _, _, _, _, _, _, _, _, _, _, _, _, _, _, _,
    Json.fields?_ofEntries rfl (by decide),
    listOr_restores ServiceDecl.restores hservices,
    listOr_restores RouteDecl.restores hroutes,
    listOr_restores (Resource.restores .plugin) hplugins,
    listOr_restores ConsumerDecl.restores hconsumers,
    listOr_restores ConsumerGroupDecl.restores hgroups,
    listOr_restores UpstreamDecl.restores hupstreams,
    listOr_restores (Resource.restores .target) htargets,
    listOr_restores CertificateDecl.restores hcertificates,
    listOr_restores (Resource.restores .sni) hsnis,
    listOr_restores (Resource.restores .caCertificate) hcas,
    listOr_restores (Resource.restores .vault) hvaults,
    listOr_restores KeySetDecl.restores hkeySets,
    listOr_restores (Resource.restores .key) hkeys,
    listOr_restores (Resource.restores .partialConfig) hpartials,
    listOr_restores (Resource.restores .license) hlicenses,
    listOr_restores RoleDecl.restores hroles,
    listOr_restores (Resource.restores .permission) hpermissions,
    listOr_restores (Resource.restores .custom) hcustoms⟩

/-! ### Reading undoes writing -/

/-- For every document: what is read from it as an entity of any kind is read again from its
written form; from that form without the time stamps the same entity is read without them, under
its id and natural key and with its references; and what is read from it as declarations is read
again from its written form. -/
theorem read_written (j : Json) :
    (∀ e, Entity.ofJson? j = some e →
      Entity.ofValue? e.toValue = some e ∧
      e.reread? = some e.withoutTimestamps ∧
      e.withoutTimestamps.id? = e.id? ∧
      e.withoutTimestamps.naturalKey? = e.naturalKey? ∧
      e.withoutTimestamps.references = e.references) ∧
    ∀ c, Content.ofJson? j = some c → Content.ofJson? (.ofValue c.toValue) = some c := by
  constructor
  · intro e he
    have hr := Entity.readable_of_ofJson? he
    exact ⟨Entity.ofValue?_toValue hr, Entity.reread?_eq hr, rfl, rfl, rfl⟩
  · intro c hc
    exact Content.restores j c hc

/-- A route with a reference that says more than it should, a header and a time stamp. -/
def stampedRoute : Json :=
  .obj [("name", .str "main"), ("service", .obj [("name", .str "shop"), ("zone", .str "eu")]),
    ("headers", .obj [("x-team", .arr [.str "a", .str "b"])]), ("created_at", .num (.whole 7))]

/-- The route is read as an entity and as a declaration, and both are read again. -/
theorem read_written_of_stampedRoute :
    (∃ e, Entity.ofJson? (.obj [("kind", .str "route"), ("entity", stampedRoute)]) = some e ∧
      e.resource.createdAt = some 7 ∧ Entity.ofValue? e.toValue = some e ∧
      e.reread? = some e.withoutTimestamps) ∧
    ∃ c, Content.ofJson? (.obj [("routes", .arr [stampedRoute])]) = some c ∧
      c.routes.length = 1 ∧ Content.ofJson? (.ofValue c.toValue) = some c := by
  have hentity : (Entity.ofJson? (.obj [("kind", .str "route"), ("entity", stampedRoute)])).any
      (fun e => e.resource.createdAt == some 7) = true := by
    decide +kernel
  have hcontent : (Content.ofJson? (.obj [("routes", .arr [stampedRoute])])).any
      (fun c => c.routes.length == 1) = true := by
    decide +kernel
  obtain ⟨e, he, hstamp⟩ := (Option.any_eq_true _ _).1 hentity
  obtain ⟨c, hc, hlength⟩ := (Option.any_eq_true _ _).1 hcontent
  obtain ⟨hread, hreread, -⟩ := (read_written _).1 e he
  exact ⟨⟨e, he, by simpa using hstamp, hread, hreread⟩, c, hc, by simpa using hlength,
    (read_written _).2 c hc⟩

end Gateway
