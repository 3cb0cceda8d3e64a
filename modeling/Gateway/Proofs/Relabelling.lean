import Gateway.Proofs.Check
import Gateway.Proofs.Resolution
import Gateway.Proofs.Sameness

/-!
# Objects under other ids and with tags in another order

A `Relabelling` is a way to see the objects of one run in another run: every id has another name,
and tags may stand in another order. The image of an object (`Entity.Image`) differs from it in
nothing else, so whatever planning asks of objects has the same answer for their images: the checks
(`Entity.Image.permits`), natural keys (`Entity.Image.naturalKey?`), references
(`Entity.Image.relink`), and look-ups in states (`State.Image.get?`, `State.Image.match?`,
`State.Image.insert`).

What the order of tags does count for is whether a plugin repeats another: the images of two plugins
with the same body have the same body when their tags are equal (`Entity.Image.sameBody`).
-/

/-- A list whose members are left as they are is left as it is. -/
theorem List.map_eq_self {α : Type} {f : α → α} {xs : List α} (h : ∀ x ∈ xs, f x = x) :
    xs.map f = xs :=
  (List.map_congr_left h).trans (List.map_id' xs)

/-- Partners stand in every relation that any two members which are partners stand in. -/
theorem List.Forall₂.imp_of_mem {α β : Type} {R S : α → β → Prop} {xs : List α} {ys : List β}
    (h : List.Forall₂ R xs ys) (himp : ∀ x ∈ xs, ∀ y ∈ ys, R x y → S x y) :
    List.Forall₂ S xs ys := by
  induction h with
  | nil => exact .nil
  | cons hR _ ih =>
    refine .cons (himp _ mem_cons_self _ mem_cons_self hR) (ih fun x hx y hy => ?_)
    exact himp x (mem_cons_of_mem _ hx) y (mem_cons_of_mem _ hy)

/-- Of related values both are there or neither is. -/
theorem Option.Rel.isSome_eq {α β : Type} {R : α → β → Prop} {o : Option α} {o' : Option β}
    (h : Option.Rel R o o') : o'.isSome = o.isSome := by
  cases h <;> rfl

/-- What is there on either side has its partner on the other. -/
theorem Option.rel_of {α β : Type} {R : α → β → Prop} {o : Option α} {o' : Option β}
    (h : ∀ x, o = some x → ∃ y, o' = some y ∧ R x y) (h' : ∀ y, o' = some y → o.isSome) :
    Option.Rel R o o' := by
  cases o with
  | none =>
    cases o' with
    | none => exact .none
    | some y => cases h' y rfl
  | some x =>
    obtain ⟨y, rfl, hxy⟩ := h x rfl
    exact .some hxy

namespace Gateway

/-! ### Ids under other names -/

section rename

variable (f : String → String)

/-- The reference with its id under another name. -/
def ForeignKey.rename (fk : ForeignKey) : ForeignKey := { fk with id := fk.id.map f }

/-- The link with its id under another name. -/
def PartialLink.rename (l : PartialLink) : PartialLink := { l with id := l.id.map f }

/-- The same object with all ids it refers to under other names. The workspace and the endpoint of
a permission are part of its own id, and are renamed as parts of ids are. -/
def Detail.rename : (k : Kind) → Detail k → Detail k
  | .service, s => { s with
      clientCertificate := s.clientCertificate.map (.rename f)
      caCertificates := s.caCertificates.map f }
  | .route, r => { r with service := r.service.map (.rename f) }
  | .plugin, p => { p with
      service := p.service.map (.rename f)
      route := p.route.map (.rename f)
      consumer := p.consumer.map (.rename f)
      consumerGroup := p.consumerGroup.map (.rename f)
      partials := p.partials.map (.rename f) }
  | .membership, m => ⟨m.consumerGroup.rename f, m.consumer.rename f⟩
  | .target, t => { t with upstream := t.upstream.map (.rename f) }
  | .sni, s => { s with certificate := s.certificate.map (.rename f) }
  | .key, k => { k with keySet := k.keySet.map (.rename f) }
  | .permission, p => { p with
      role := p.role.map (.rename f)
      workspace := f p.workspace
      endpoint := f p.endpoint }
  | .custom, c => { c with service := c.service.map (.rename f) }
  | .consumer, d => d
  | .consumerGroup, d => d
  | .upstream, d => d
  | .certificate, d => d
  | .caCertificate, d => d
  | .vault, d => d
  | .keySet, d => d
  | .partialConfig, d => d
  | .license, d => d
  | .role, d => d

/-- Which parts of the natural keys of a kind are ids. -/
def Kind.keyIds : Kind → List Bool
  | .target => [false, true]
  | .plugin => [false, false, true, true, true, true]
  | .membership => [true, true]
  | .key => [false, true]
  | .permission => [true, true, true]
  | .custom => [false, false, true]
  | _ => []

namespace NaturalKey

/-- The parts with those that are ids under other names. -/
def renameParts : List Bool → List String → List String
  | true :: mask, p :: ps => f p :: renameParts mask ps
  | false :: mask, p :: ps => p :: renameParts mask ps
  | _, ps => ps

/-- The natural key with the ids in it under other names. -/
def rename (k : Kind) (key : NaturalKey) : NaturalKey := ⟨renameParts f k.keyIds key.parts⟩

variable {f}

/-- Beyond the end of the mask no part is an id. -/
theorem renameParts_nil (ps : List String) : renameParts f [] ps = ps := by
  cases ps <;> rfl

/-- Keys of a kind are kept apart by the parts that are ids as well as by those that are not. -/
theorem renameParts_injective (hf : Function.Injective f) (mask : List Bool) :
    Function.Injective (renameParts f mask) := by
  intro ps qs h
  induction mask generalizing ps qs with
  | nil => rwa [renameParts_nil, renameParts_nil] at h
  | cons m mask ih =>
    cases ps with
    | nil => cases m <;> cases qs <;> cases h <;> rfl
    | cons p ps =>
      cases qs with
      | nil => cases m <;> cases h
      | cons q qs =>
        cases m <;> obtain ⟨hfirst, hrest⟩ := List.cons.inj h
        · rw [hfirst, ih hrest]
        · rw [hf hfirst, ih hrest]

/-- Different keys are different under other names. -/
theorem rename_injective (hf : Function.Injective f) (k : Kind) :
    Function.Injective (rename f k) := by
  rintro ⟨ps⟩ ⟨qs⟩ h
  exact congrArg NaturalKey.mk (renameParts_injective hf _ (congrArg parts h))

end NaturalKey

end rename

/-- A reference whose id keeps its name is left as it is. -/
theorem ForeignKey.rename_eq_self {f : String → String} {fk : ForeignKey}
    (h : ∀ id ∈ fk.id, f id = id) : fk.rename f = fk := by
  obtain ⟨id, name, extra⟩ := fk
  cases id with
  | none => rfl
  | some id => exact congrArg (fun id => ForeignKey.mk (some id) name extra) (h id rfl)

/-- The same of a reference to a partial configuration. -/
theorem PartialLink.rename_eq_self {f : String → String} {l : PartialLink}
    (h : ∀ id ∈ l.id, f id = id) : l.rename f = l := by
  obtain ⟨id, name, path⟩ := l
  cases id with
  | none => rfl
  | some id => exact congrArg (fun id => PartialLink.mk (some id) name path) (h id rfl)

namespace Detail

variable {f : String → String} {k : Kind} {d d' : Detail k}

/-- The references in an object are renamed where they stand. -/
theorem links_rename : links k (rename f k d) = (links k d).map fun l => (l.1, l.2.rename f) := by
  have option : ∀ (kind : Kind) (fk : Option ForeignKey),
      (fk.map (.rename f)).toList.map (kind, ·) =
        (fk.toList.map (kind, ·)).map fun l => (l.1, l.2.rename f) := by
    intro kind fk
    cases fk <;> rfl
  cases k <;> simp only [links, rename, option, List.map_append, List.map_map, List.map_cons,
    List.map_nil] <;> rfl

/-- An id that is missing counts as the empty text, which keeps its name. -/
theorem linkedId_rename (hf : f "" = "") (fk : Option ForeignKey) :
    linkedId (fk.map (.rename f)) = f (linkedId fk) := by
  unfold linkedId
  cases fk with
  | none => exact hf.symm
  | some fk =>
    obtain ⟨id, name, extra⟩ := fk
    cases id with
    | none => exact hf.symm
    | some id => rfl

/-- The natural key of an object is renamed in the parts that are ids. -/
theorem naturalKey?_rename (hf : f "" = "") :
    naturalKey? k (rename f k d) = (naturalKey? k d).map (NaturalKey.rename f k) := by
  have getD_map : ∀ id : Option String, (id.map f).getD "" = f (id.getD "") := by
    intro id
    cases id with
    | none => exact hf.symm
    | some id => rfl
  have unchanged : ∀ {k : Kind} {key : Option NaturalKey}, k.keyIds = [] →
      key = key.map (NaturalKey.rename f k) := by
    intro k key hk
    cases key with
    | none => rfl
    | some key => rw [Option.map_some, NaturalKey.rename, hk, NaturalKey.renameParts_nil]
  cases k
  case plugin =>
    simp [naturalKey?, rename, NaturalKey.rename, Kind.keyIds, NaturalKey.renameParts,
      linkedId_rename hf, Plugin.configNamespace]
  case membership =>
    simp [naturalKey?, rename, NaturalKey.rename, Kind.keyIds, NaturalKey.renameParts,
      ForeignKey.rename, getD_map]
  case target | key | permission | custom =>
    simp [naturalKey?, rename, NaturalKey.rename, Kind.keyIds, NaturalKey.renameParts,
      linkedId_rename hf, Function.comp_def]
  all_goals exact unchanged rfl

/-- Only consumers have fallback keys, and there is no id in these. -/
theorem fallbackKey?_rename :
    fallbackKey? k (rename f k d) = (fallbackKey? k d).map (NaturalKey.rename f k) := by
  cases k
  case consumer =>
    obtain ⟨username, customId⟩ := d
    cases username <;> cases customId <;> rfl
  all_goals rfl

/-- Texts other than references that the id of an object is made of. -/
def ownIdParts : (k : Kind) → Detail k → List String
  | .permission, p => [p.workspace, p.endpoint]
  | _, _ => []

/-- Where no id has another name, nothing changes. -/
theorem rename_eq_self (hlinks : ∀ l ∈ links k d, ∀ id ∈ l.2.id, f id = id)
    (hparts : ∀ t ∈ ownIdParts k d, f t = t) : rename f k d = d := by
  have hfixed : ∀ l ∈ links k d, l.2.rename f = l.2 :=
    fun l hl => ForeignKey.rename_eq_self (hlinks l hl)
  have option : ∀ {fk : Option ForeignKey}, (∀ x ∈ fk, x.rename f = x) →
      fk.map (.rename f) = fk := by
    intro fk h
    cases fk with
    | none => rfl
    | some fk => exact congrArg some (h fk rfl)
  have hfields := links_toRecord (P := fun fk => fk.rename f = fk) hfixed
  cases k <;> simp only [toRecord, Record.Links, FieldType.Links] at hfields
  case service =>
    have hcas : d.caCertificates.map f = d.caCertificates := by
      refine List.map_eq_self fun id hid => ?_
      refine hlinks (.caCertificate, .byId id) (List.mem_append_right _ ?_) id rfl
      exact List.mem_map_of_mem hid
    obtain ⟨-, -, -, -, -, -, -, -, -, -, -, hcertificate, -⟩ := hfields
    simp only [rename, option hcertificate, hcas]
  case plugin =>
    have hpartials : d.partials.map (.rename f) = d.partials := by
      refine List.map_eq_self fun l hl => ?_
      refine PartialLink.rename_eq_self (hlinks (.partialConfig, l.toForeignKey) ?_)
      exact List.mem_append_right _ (List.mem_map_of_mem hl)
    obtain ⟨-, -, hservice, hroute, hconsumer, hgroup, -⟩ := hfields
    simp only [rename, option hservice, option hroute, option hconsumer, option hgroup, hpartials]
  case membership => simp only [rename, hfields.1, hfields.2.1]
  case permission =>
    have hworkspace := hparts d.workspace List.mem_cons_self
    have hendpoint := hparts d.endpoint (List.mem_cons_of_mem _ List.mem_cons_self)
    simp only [rename, option hfields.1, hworkspace, hendpoint]
  case key => simp only [rename, option hfields.2.2.1]
  case route | target | sni | custom => simp only [rename, option hfields.2.1]
  all_goals rfl

/-! ### References that are found under other names -/

section relink

variable {find find' : Kind → ForeignKey → Except PlanError String}

/-- Where references are found under other names, so is one that may be missing. -/
theorem relinkOption_rename {kind : Kind} {fk x : Option ForeignKey}
    (hfind : ∀ l ∈ fk.toList.map (kind, ·), ∀ id, find l.1 l.2 = .ok id →
      find' l.1 (l.2.rename f) = .ok (f id))
    (hx : relinkOption find kind fk = .ok x) :
    relinkOption find' kind (fk.map (.rename f)) = .ok (x.map (.rename f)) := by
  cases fk with
  | none =>
    cases hx
    rfl
  | some fk =>
    obtain ⟨id, hid, hx⟩ := Except.bind_eq_ok_iff.1 hx
    cases hx
    exact Except.bind_eq_ok_iff.2 ⟨f id, hfind _ List.mem_cons_self id hid, rfl⟩

/-- Where each member of a list has a counterpart in the other run, so has the list. -/
theorem mapM_rename {α β : Type} {g g' : α → Except PlanError β} {h : α → α} {h' : β → β}
    {as : List α} (hg : ∀ a ∈ as, ∀ b, g a = .ok b → g' (h a) = .ok (h' b)) {bs : List β}
    (hbs : as.mapM g = .ok bs) : (as.map h).mapM g' = .ok (bs.map h') := by
  rw [Except.mapM_eq_ok_iff] at hbs ⊢
  rw [List.forall₂_map_left_iff, List.forall₂_map_right_iff]
  exact hbs.imp_of_mem fun a ha b _ hab => hg a ha b hab

/-- References lead to kinds that others refer to. -/
theorem isReferable_of_mem_links {d : Detail k} {l : Kind × ForeignKey} (h : l ∈ links k d) :
    Entity.isReferable l.1 = true := by
  obtain ⟨kind, fk⟩ := l
  cases k <;>
    simp only [links, List.mem_append, List.mem_map, List.mem_cons, List.not_mem_nil, or_false,
      Prod.mk.injEq] at h
  case service =>
    rcases h with ⟨_, -, rfl, -⟩ | ⟨_, -, rfl, -⟩ <;> rfl
  case plugin =>
    rcases h with (((⟨_, -, rfl, -⟩ | ⟨_, -, rfl, -⟩) | ⟨_, -, rfl, -⟩) | ⟨_, -, rfl, -⟩) |
      ⟨_, -, rfl, -⟩ <;> rfl
  case membership =>
    rcases h with ⟨rfl, -⟩ | ⟨rfl, -⟩ <;> rfl
  all_goals
    obtain ⟨_, -, rfl, -⟩ := h
    rfl

/-- Where every reference is found under the other name, so are all of an object. -/
theorem relink_rename {x : Detail k} (hfind : ∀ l ∈ links k d, ∀ id, find l.1 l.2 = .ok id →
      find' l.1 (l.2.rename f) = .ok (f id)) (hx : relink find k d = .ok x) :
    relink find' k (rename f k d) = .ok (rename f k x) := by
  cases k <;> simp only [relink, rename, Except.bind_eq_ok_iff, Except.pure_eq_ok_iff] at hx ⊢
  case service =>
    obtain ⟨certificate, hcertificate, cas, hcas, rfl⟩ := hx
    obtain ⟨hfindCertificate, hfindCas⟩ := List.forall_mem_append.1 hfind
    refine ⟨_, relinkOption_rename hfindCertificate hcertificate, _, mapM_rename ?_ hcas, rfl⟩
    exact fun id hmem id' hid => hfindCas _ (List.mem_map_of_mem hmem) id' hid
  case plugin =>
    obtain ⟨service, hservice, route, hroute, consumer, hconsumer, group, hgroup, partials,
      hpartials, rfl⟩ := hx
    simp only [links, List.forall_mem_append] at hfind
    obtain ⟨⟨⟨⟨hfindService, hfindRoute⟩, hfindConsumer⟩, hfindGroup⟩, hfindPartials⟩ := hfind
    refine ⟨_, relinkOption_rename hfindService hservice, _, relinkOption_rename hfindRoute hroute,
      _, relinkOption_rename hfindConsumer hconsumer, _, relinkOption_rename hfindGroup hgroup,
      _, mapM_rename ?_ hpartials, rfl⟩
    intro l hmem l' hl
    obtain ⟨id, hid, hl⟩ := Except.bind_eq_ok_iff.1 hl
    cases hl
    exact Except.bind_eq_ok_iff.2 ⟨_, hfindPartials _ (List.mem_map_of_mem hmem) id hid, rfl⟩
  case membership =>
    obtain ⟨group, hgroup, consumer, hconsumer, rfl⟩ := hx
    exact ⟨_, hfind _ List.mem_cons_self _ hgroup,
      _, hfind _ (List.mem_cons_of_mem _ List.mem_cons_self) _ hconsumer, rfl⟩
  case route | target | sni | key | permission | custom =>
    obtain ⟨fk, hfk, rfl⟩ := hx
    exact ⟨_, relinkOption_rename hfind hfk, rfl⟩
  all_goals
    cases hx
    rfl

end relink

/-- Plugins with the same fields have the same fields when ids are renamed. -/
theorem same_rename {p q : Plugin}
    (h : Record.Same Kind.plugin.ownFields (toRecord .plugin p) (toRecord .plugin q)) :
    Record.Same Kind.plugin.ownFields (toRecord .plugin (rename f .plugin p))
      (toRecord .plugin (rename f .plugin q)) := by
  have option : ∀ {fk fk' : Option ForeignKey}, Option.Rel ForeignKey.Same fk fk' →
      Option.Rel ForeignKey.Same (fk.map (.rename f)) (fk'.map (.rename f)) := by
    rintro _ _ (⟨h⟩ | _)
    · exact .some { h with id := congrArg (Option.map f) h.id }
    · exact .none
  simp only [toRecord, Record.Same, FieldType.Same] at h ⊢
  obtain ⟨hname, hinstance, hservice, hroute, hconsumer, hgroup, hconfig, henabled, hprotocols,
    hordering, hpartials, -⟩ := h
  exact ⟨hname, hinstance, option hservice, option hroute, option hconsumer, option hgroup,
    hconfig, henabled, hprotocols, hordering, congrArg (List.map _) hpartials, trivial⟩

end Detail

/-! ### Relabellings -/

/-- A way to see the objects of one run in another: ids have other names, and tags may stand in
another order. Ids that are put together with colons are renamed part by part. -/
structure Relabelling where
  rename : String → String
  retag : List String → List String → Prop
  injective : Function.Injective rename
  rename_empty : rename "" = ""
  rename_colon (a b : String) : rename (a ++ ":" ++ b) = rename a ++ ":" ++ rename b
  retag_nil : retag [] []
  perm {ts us : List String} (h : retag ts us) : ts.Perm us
  append {ts us : List String} (h : retag ts us) (vs : List String) : retag (ts ++ vs) (us ++ vs)

namespace Relabelling

/-- Nothing is renamed, and tags stay in their order. -/
def unchanged : Relabelling where
  rename := id
  retag := Eq
  injective := Function.injective_id
  rename_empty := rfl
  rename_colon _ _ := rfl
  retag_nil := rfl
  perm h := .of_eq h
  append h vs := by rw [h]

/-- Nothing is renamed, and tags may stand in any order. -/
def tagOrder : Relabelling where
  rename := id
  retag := List.Perm
  injective := Function.injective_id
  rename_empty := rfl
  rename_colon _ _ := rfl
  retag_nil := .nil
  perm h := h
  append h vs := h.append_right vs

end Relabelling

variable (φ : Relabelling)

/-- An object as it is seen in the other run. -/
structure Resource.Image {k : Kind} (r r' : Resource k) : Prop where
  id : r'.id = r.id.map φ.rename
  detail : r'.detail = r.detail.rename φ.rename k
  tags : φ.retag r.tags r'.tags
  createdAt : r'.createdAt = r.createdAt
  updatedAt : r'.updatedAt = r.updatedAt

/-- An entity as it is seen in the other run. -/
inductive Entity.Image : Entity → Entity → Prop
  | mk {k : Kind} {r r' : Resource k} (h : r.Image φ r') : Image r.toEntity r'.toEntity

variable {φ}

namespace Entity

variable {a a' b b' : Entity} {sel : Selection}

namespace Image

/-- The image of an object is given by the images of its parts. -/
theorem resource {k : Kind} {r r' : Resource k} (h : r.toEntity.Image φ r'.toEntity) :
    r.Image φ r' := by
  cases h with
  | mk h => exact h

/-- An entity is seen as one of its kind. -/
theorem kind (h : a.Image φ a') : a'.kind = a.kind := by
  cases h
  rfl

/-- The id is seen under its other name. -/
theorem id? (h : a.Image φ a') : a'.id? = a.id?.map φ.rename := by
  cases h with
  | mk h => exact h.id

/-- The same where a missing id counts as the empty text. -/
theorem idText (h : a.Image φ a') : a'.idText = φ.rename a.idText := by
  unfold Entity.idText
  rw [h.id?]
  cases a.id? with
  | none => exact φ.rename_empty.symm
  | some id => rfl

/-- The tags are seen in an order that the relabelling allows. -/
theorem retag (h : a.Image φ a') : φ.retag a.tags a'.tags := by
  cases h with
  | mk h => exact h.tags

/-- The natural key is seen with its ids under other names. -/
theorem naturalKey? (h : a.Image φ a') :
    a'.naturalKey? = a.naturalKey?.map (NaturalKey.rename φ.rename a.kind) := by
  cases h with
  | @mk k r r' h =>
    have hdetail := h.detail
    show Detail.naturalKey? k r'.detail = _
    rw [hdetail]
    exact Detail.naturalKey?_rename φ.rename_empty

/-- So is the key to fall back on. -/
theorem fallbackKey? (h : a.Image φ a') :
    a'.fallbackKey? = a.fallbackKey?.map (NaturalKey.rename φ.rename a.kind) := by
  cases h with
  | @mk k r r' h =>
    have hdetail := h.detail
    show Detail.fallbackKey? k r'.detail = _
    rw [hdetail]
    exact Detail.fallbackKey?_rename

/-- References are seen where they stand, with their ids under other names. -/
theorem links (h : a.Image φ a') :
    a'.links = a.links.map fun l => (l.1, l.2.rename φ.rename) := by
  cases h with
  | @mk k r r' h =>
    have hdetail := h.detail
    show Detail.links k r'.detail = _
    rw [hdetail]
    exact Detail.links_rename

/-- Two objects share a natural key when their images do. -/
theorem sameKey_iff (ha : a.Image φ a') (hb : b.Image φ b') : a'.SameKey b' ↔ a.SameKey b := by
  unfold SameKey
  rw [ha.kind, hb.kind, ha.naturalKey?, hb.naturalKey?, Option.isSome_map]
  refine and_congr_right fun hk => and_congr_left fun _ => ?_
  rw [← hk]
  exact (Option.map_injective (NaturalKey.rename_injective φ.injective _)).eq_iff

/-- The same tags are seen, whatever their order. -/
theorem mem_tags (h : a.Image φ a') (t : String) : t ∈ a'.tags ↔ t ∈ a.tags :=
  (φ.perm h.retag).mem_iff.symm

/-- So it is seen alike whether an entity has one of some tags. -/
theorem hasAnyTag (h : a.Image φ a') (wanted : List String) :
    a'.hasAnyTag wanted = a.hasAnyTag wanted := by
  unfold Entity.hasAnyTag
  exact ((φ.perm h.retag).any_eq).symm

/-- There is no id in the natural keys of what others refer to. -/
theorem naturalKey?_of_isReferable (h : a.Image φ a') (hk : isReferable a.kind = true) :
    a'.naturalKey? = a.naturalKey? := by
  have hids : a.kind.keyIds = [] := by
    revert hk
    cases a.kind <;> decide
  rw [h.naturalKey?]
  cases a.naturalKey? with
  | none => rfl
  | some key => rw [Option.map_some, NaturalKey.rename, hids, NaturalKey.renameParts_nil]

/-- A name means the same in both runs, for names are not ids. -/
theorem answersToName (h : a.Image φ a') (hk : isReferable a.kind = true) (name : String) :
    a'.answersToName name = a.answersToName name := by
  have hkey := h.naturalKey?_of_isReferable hk
  cases h with
  | @mk k r r' h =>
    have hdetail := h.detail
    cases k
    case consumer =>
      show r'.detail.answersTo name = r.detail.answersTo name
      rw [hdetail]
      rfl
    case certificate | caCertificate => rfl
    case service | route | upstream | consumerGroup | keySet | partialConfig | role =>
      exact congrArg (fun key : Option NaturalKey => (key.map (·.head == name)).getD false) hkey
    all_goals cases hk

/-! ### What planning does to objects -/

/-- An id that is given to an entity is given to its image under the other name. -/
theorem withId (h : a.Image φ a') (id : String) :
    (a.withId id).Image φ (a'.withId (φ.rename id)) := by
  cases h with
  | mk h => exact .mk { h with id := rfl }

/-- The tags of a selection are added to both. -/
theorem apply (h : a.Image φ a') (sel : Selection) : (sel.apply a).Image φ (sel.apply a') := by
  have hmissing : sel.tags.filter (fun t => !a'.tags.contains t) =
      sel.tags.filter fun t => !a.tags.contains t := by
    refine List.filter_congr fun t _ => ?_
    simp [h.mem_tags]
  cases h with
  | @mk k r r' h =>
    refine .mk { h with tags := ?_ }
    show φ.retag (if k.taggable = true then _ else []) (if k.taggable = true then _ else [])
    split
    · rw [hmissing]
      exact φ.append h.tags _
    · exact φ.retag_nil

/-- A derived id is put together with colons, so it is derived of the image under its other name. -/
theorem withDerivedId (h : a.Image φ a') : a.withDerivedId.Image φ a'.withDerivedId := by
  cases h with
  | @mk k r r' h =>
    have hid := h.id
    have hdetail := h.detail
    cases k
    case membership =>
      refine .mk { h with id := ?_ }
      show r'.detail.derivedId? = r.detail.derivedId?.map φ.rename
      rw [hdetail]
      unfold Membership.derivedId?
      simp only [Detail.rename, ForeignKey.rename]
      cases r.detail.consumerGroup.id <;> cases r.detail.consumer.id <;> simp [φ.rename_colon]
    case permission =>
      refine .mk { h with id := ?_ }
      show (r'.id <|> r'.detail.derivedId?) = (r.id <|> r.detail.derivedId?).map φ.rename
      rw [hid, hdetail]
      have hderived : (Detail.rename φ.rename .permission r.detail).derivedId? =
          r.detail.derivedId?.map φ.rename := by
        unfold Permission.derivedId?
        simp only [Detail.rename]
        cases r.detail.role with
        | none => rfl
        | some fk =>
          obtain ⟨id, name, extra⟩ := fk
          cases id <;> simp [ForeignKey.rename, φ.rename_colon]
      rw [hderived]
      cases r.id <;> rfl
    all_goals exact .mk h

/-- What the checks let pass in one run they let pass in the other. -/
theorem permits {o : Options} (h : a.Image φ a') (hp : o.Permits a) : o.Permits a' := by
  obtain ⟨supported, scope, partials, confined, complete⟩ := hp
  cases h with
  | @mk k r r' h =>
    have hdetail := h.detail
    have hid := h.id
    refine ⟨supported, scope.imp_right fun hscope => ?_, partials.imp_right fun hpartials => ?_,
      confined, ?_⟩
    · cases k <;> simp_all [isGroupScoped, Resource.toEntity, Detail.rename]
    · cases k <;> simp_all [linksPartials, Resource.toEntity, Detail.rename]
    · cases k <;> simp_all [missingField?, Resource.toEntity, Detail.rename]

/-- A plugin is that of a group in both runs or in neither. -/
theorem isGroupScoped (h : a.Image φ a') : a'.isGroupScoped = a.isGroupScoped := by
  cases h with
  | @mk k r r' h =>
    have hdetail := h.detail
    cases k <;> simp_all [Entity.isGroupScoped, Resource.toEntity, Detail.rename]

/-- References that are found under their other names lead to the image of what they lead to. -/
theorem relink {find find' : Kind → ForeignKey → Except PlanError String} {l : Entity}
    (h : a.Image φ a') (hfind : ∀ l ∈ a.links, ∀ id, find l.1 l.2 = .ok id →
      find' l.1 (l.2.rename φ.rename) = .ok (φ.rename id))
    (hl : a.relink find = .ok l) : ∃ l', a'.relink find' = .ok l' ∧ l.Image φ l' := by
  cases h with
  | @mk k r r' h =>
    obtain ⟨d, hd, rfl⟩ := relink_eq_ok_iff.1 hl
    have hd' : Detail.relink find' k r'.detail = .ok (d.rename φ.rename k) :=
      h.detail ▸ Detail.relink_rename hfind hd
    exact ⟨_, relink_eq_ok_iff.2 ⟨_, hd', rfl⟩, .mk { h with detail := rfl }⟩

/-- The images of plugins with the same body have the same body when their tags are in one order. -/
theorem sameBody (ha : a.Image φ a') (hb : b.Image φ b') (hak : a.kind = .plugin)
    (hbk : b.kind = .plugin) (hlinks : ∀ l ∈ a.links, l.2.WellFormed)
    (hlinks' : ∀ l ∈ b.links, l.2.WellFormed) (h : a.sameBody b = true) :
    a'.sameBody b' = true ↔ a'.tags = b'.tags := by
  have wellFormed_rename : ∀ {ls : List (Kind × ForeignKey)}, (∀ l ∈ ls, l.2.WellFormed) →
      ∀ l ∈ ls.map (fun l => (l.1, l.2.rename φ.rename)), l.2.WellFormed := by
    intro ls hls l hl
    obtain ⟨l, hmem, rfl⟩ := List.mem_map.1 hl
    exact ⟨(hls l hmem).extra, (hls l hmem).id_absent, (hls l hmem).name_absent⟩
  have hwf := wellFormed_rename hlinks
  have hwf' := wellFormed_rename hlinks'
  rw [← ha.links] at hwf
  rw [← hb.links] at hwf'
  cases ha with
  | @mk k r r' ha =>
    cases hb with
    | @mk k' x x' hb =>
      cases hak
      cases hbk
      have hsame : Record.Same Kind.plugin.ownFields (Detail.toRecord .plugin r'.detail)
          (Detail.toRecord .plugin x'.detail) := by
        rw [ha.detail, hb.detail]
        exact Detail.same_rename ((sameBody_iff hlinks hlinks').1 h).1
      exact (sameBody_iff hwf hwf').trans (and_iff_right hsame)

end Image

end Entity

/-! ### States -/

/-- Every member of a state is seen as one of the other, and every member of the other is seen. -/
structure State.Image (φ : Relabelling) (s s' : State) : Prop where
  forth : ∀ x ∈ s, ∃ y ∈ s', x.Image φ y
  back : ∀ y ∈ s', ∃ x ∈ s, x.Image φ y

namespace State.Image

variable {s s' t : State} {e e' x : Entity} {kind : Kind} {id : String}

/-- Nothing is seen as nothing. -/
theorem empty : State.empty.Image φ State.empty where
  forth _ hx := absurd hx not_mem_empty
  back _ hx := absurd hx not_mem_empty

/-- What is held under an id is seen under its other name. -/
theorem get? (h : s.Image φ s') (kind : Kind) (id : String) :
    Option.Rel (Entity.Image φ) (s.get? kind id) (s'.get? kind (φ.rename id)) := by
  refine Option.rel_of (fun x hx => ?_) fun y hy => ?_
  · obtain ⟨hmem, rfl, rfl⟩ := get?_eq_some_iff.1 hx
    obtain ⟨y, hy, hxy⟩ := h.forth x hmem
    exact ⟨y, get?_eq_some_iff.2 ⟨hy, hxy.kind, hxy.idText⟩, hxy⟩
  · obtain ⟨hmem, hk, hid⟩ := get?_eq_some_iff.1 hy
    obtain ⟨x, hx, hxy⟩ := h.back y hmem
    rw [Option.isSome_iff_exists]
    refine ⟨x, get?_eq_some_iff.2 ⟨hx, hxy.kind.symm.trans hk, φ.injective ?_⟩⟩
    rw [← hxy.idText, hid]

/-- An id is taken in both runs or in neither. -/
theorem contains (h : s.Image φ s') (kind : Kind) (id : String) :
    s'.contains kind (φ.rename id) = s.contains kind id := by
  exact (h.get? kind id).isSome_eq

/-- What is held under a key is seen under the key with its ids renamed. -/
theorem getByKey? (h : s.Image φ s') (kind : Kind) (key : NaturalKey) :
    Option.Rel (Entity.Image φ) (s.getByKey? kind key)
      (s'.getByKey? kind (key.rename φ.rename kind)) := by
  refine Option.rel_of (fun x hx => ?_) fun y hy => ?_
  · obtain ⟨hmem, rfl, hkey⟩ := getByKey?_eq_some_iff.1 hx
    obtain ⟨y, hy, hxy⟩ := h.forth x hmem
    refine ⟨y, getByKey?_eq_some_iff.2 ⟨hy, hxy.kind, ?_⟩, hxy⟩
    rw [hxy.naturalKey?, hkey]
    rfl
  · obtain ⟨hmem, rfl, hkey⟩ := getByKey?_eq_some_iff.1 hy
    obtain ⟨x, hx, hxy⟩ := h.back y hmem
    rw [Option.isSome_iff_exists]
    refine ⟨x, getByKey?_eq_some_iff.2 ⟨hx, hxy.kind.symm, ?_⟩⟩
    refine Option.map_injective (NaturalKey.rename_injective φ.injective x.kind) ?_
    rw [← hxy.naturalKey?, hkey, hxy.kind]
    rfl

/-- The same of a key that may be missing. -/
theorem bind_getByKey? (h : s.Image φ s') (kind : Kind) (key : Option NaturalKey) :
    Option.Rel (Entity.Image φ) (key.bind (s.getByKey? kind))
      ((key.map (NaturalKey.rename φ.rename kind)).bind (s'.getByKey? kind)) := by
  cases key with
  | none => exact .none
  | some key => exact h.getByKey? kind key

/-- What holds the natural key of an entity is seen as what holds that of its image. -/
theorem keyHolder? (h : s.Image φ s') (he : e.Image φ e') :
    Option.Rel (Entity.Image φ) (s.keyHolder? e) (s'.keyHolder? e') := by
  unfold State.keyHolder?
  rw [he.naturalKey?, he.kind]
  exact h.bind_getByKey? e.kind e.naturalKey?

/-- What an entity denotes is seen as what its image denotes. -/
theorem match? (h : s.Image φ s') (he : e.Image φ e') :
    Option.Rel (Entity.Image φ) (s.match? e) (s'.match? e') := by
  have orElse : ∀ {o p : Option Entity} {o' p' : Option Entity},
      Option.Rel (Entity.Image φ) o o' → Option.Rel (Entity.Image φ) p p' →
        Option.Rel (Entity.Image φ) (o <|> p) (o' <|> p') := by
    rintro _ _ _ _ (hx | _) hp
    · exact .some hx
    · exact hp
  have hid : Option.Rel (Entity.Image φ) (e.id?.bind (s.get? e.kind))
      ((e.id?.map φ.rename).bind (s'.get? e.kind)) := by
    cases e.id? with
    | none => exact .none
    | some id => exact h.get? e.kind id
  unfold State.match?
  rw [he.naturalKey?, he.fallbackKey?, he.id?, he.kind]
  exact orElse (h.bind_getByKey? e.kind e.naturalKey?)
    (orElse (h.bind_getByKey? e.kind e.fallbackKey?) hid)

/-- What can be added in one run can be added in the other. -/
theorem insert (h : s.Image φ s') (he : e.Image φ e') (hadd : s.insert e = .ok t) :
    ∃ t', s'.insert e' = .ok t' ∧ t.Image φ t' := by
  obtain ⟨hid, hfree, hkey⟩ := insert_eq_ok_iff.1 ⟨t, hadd⟩
  have hadd' : ∃ t', s'.insert e' = .ok t' := by
    refine insert_eq_ok_iff.2 ⟨?_, ?_, fun y hy => ?_⟩
    · rwa [he.id?, Option.isSome_map]
    · rw [he.kind, he.idText, h.contains, hfree]
    · obtain ⟨x, hx, hxy⟩ := h.back y hy
      rw [he.sameKey_iff hxy]
      exact hkey x hx
  obtain ⟨t', ht'⟩ := hadd'
  refine ⟨t', ht', fun x hx => ?_, fun y hy => ?_⟩
  · rcases (mem_insert hadd).1 hx with rfl | hx
    · exact ⟨e', mem_insert_self ht', he⟩
    · obtain ⟨y, hy, hxy⟩ := h.forth x hx
      exact ⟨y, (mem_insert ht').2 (.inr hy), hxy⟩
  · rcases (mem_insert ht').1 hy with rfl | hy
    · exact ⟨e, mem_insert_self hadd, he⟩
    · obtain ⟨x, hx, hxy⟩ := h.back y hy
      exact ⟨x, (mem_insert hadd).2 (.inr hx), hxy⟩

end State.Image

end Gateway
