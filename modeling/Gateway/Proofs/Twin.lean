import Gateway.Proofs.Body
import Gateway.Proofs.Check
import Gateway.Proofs.Resolution

/-!
# Declarations under two supplies of ids

When the same declarations are planned twice, flat entities differ in the fresh ids that enclosing
objects took, and in nothing else (`Entity.Twin`). Such entities become one and the same once their
references are resolved to the same ids (`Entity.Twin.relink`), but for an id of their own that was
fresh.
-/

namespace Gateway

section

variable (S T : IdSupply) (m : Nat)

/-- What is referred to in one run and in the other: what was declared, or one object under the
fresh id that it took in each. -/
inductive ForeignKey.Twin : ForeignKey → ForeignKey → Prop
  | given {fk : ForeignKey} (h : ∀ id ∈ fk.id, S.Spares id ∧ T.Spares id) : Twin fk fk
  | fresh {i : Nat} (h : i < m) : Twin (.byId (S.nth i)) (.byId (T.nth i))

/-- Equal but for fresh ids that are referred to. -/
def FieldType.Twin : (t : FieldType) → t.Carrier → t.Carrier → Prop
  | optionalLink, fk, fk' => Option.Rel (ForeignKey.Twin S T m) fk fk'
  | link, fk, fk' => fk.Twin S T m fk'
  | _, x, y => x = y

/-- Equal, field by field, but for fresh ids that are referred to. -/
def Record.Twin : (fields : List Field) → Record fields → Record fields → Prop
  | [], _, _ => True
  | f :: fields, (x, rest), (y, rest') => f.type.Twin S T m x y ∧ Twin fields rest rest'

/-- Equal but for fresh ids that are referred to. -/
def Detail.Twin (k : Kind) (d d' : Detail k) : Prop :=
  Record.Twin S T m k.ownFields (toRecord k d) (toRecord k d')

end

variable {S T : IdSupply} {m : Nat}

/-- A value in which no fresh id is found is its own twin. -/
theorem FieldType.twin_self {t : FieldType} {x : t.Carrier}
    (h : t.Links (fun fk => ∀ id ∈ fk.id, S.Spares id ∧ T.Spares id) x) : t.Twin S T m x x := by
  cases t
  case optionalLink =>
    cases x with
    | none => exact .none
    | some fk => exact .some (.given (h fk rfl))
  case link => exact .given h
  all_goals rfl

/-- A record in which no fresh id is found is its own twin. -/
theorem Record.twin_self {fields : List Field} {r : Record fields}
    (h : Record.Links (fun fk => ∀ id ∈ fk.id, S.Spares id ∧ T.Spares id) fields r) :
    Record.Twin S T m fields r r := by
  induction fields with
  | nil => trivial
  | cons f fields ih => exact ⟨FieldType.twin_self h.1, ih h.2⟩

namespace Detail

variable {k : Kind} {d d' : Detail k}

/-- An object in which no fresh id is found is its own twin. -/
theorem twin_self (h : ∀ l ∈ links k d, ∀ id ∈ l.2.id, S.Spares id ∧ T.Spares id) :
    Twin S T m k d d :=
  Record.twin_self (links_toRecord h)

/-- An object under a parent whose id differs is different in that id alone. -/
theorem Twin.withParent (h : Twin S T m k d d) {fk fk' : ForeignKey} (hfk : fk.Twin S T m fk')
    (parent : Kind) :
    Twin S T m k (withParent fk parent k d) (withParent fk' parent k d) := by
  cases parent <;> cases k <;> first
    | exact h
    | simp_all [Twin, toRecord, Record.Twin, FieldType.Twin, Detail.withParent]

/-- Whatever is not a reference is the same, names among them. -/
theorem Twin.names_eq (h : Twin S T m k d d') : names k d' = names k d := by
  cases k <;> simp only [Twin, toRecord, Record.Twin, FieldType.Twin] at h <;> simp [names, h]

/-! ### The same references in the end -/

section relink

variable {find find' : Kind → ForeignKey → Except PlanError String}

/-- Where twin references are found alike, so are those that may be missing. -/
theorem relinkOption_of_rel {kind : Kind} {fk fk' x : Option ForeignKey}
    (h : Option.Rel (ForeignKey.Twin S T m) fk fk')
    (hfind : ∀ fk fk' id, ForeignKey.Twin S T m fk fk' → find kind fk = .ok id →
      find' kind fk' = .ok id)
    (hx : relinkOption find kind fk = .ok x) : relinkOption find' kind fk' = .ok x := by
  cases h with
  | none => exact hx
  | some h =>
    obtain ⟨id, hid, hx⟩ := Except.bind_eq_ok_iff.1 hx
    exact Except.bind_eq_ok_iff.2 ⟨id, hfind _ _ id h hid, hx⟩

/-- Where members are found alike, so are lists. -/
theorem mapM_of_find {α β : Type} {f g : α → Except PlanError β} {as : List α} {bs : List β}
    (h : ∀ a ∈ as, ∀ b, f a = .ok b → g a = .ok b) (hbs : as.mapM f = .ok bs) :
    as.mapM g = .ok bs := by
  rw [Except.mapM_eq_ok_iff] at hbs ⊢
  exact ((List.forall₂_and_left _ _).2 ⟨fun a ha => ha, hbs⟩).imp fun a b hab => h a hab.1 b hab.2

/-- Objects that differ in fresh ids become the same when their references are resolved to the
same ids. -/
theorem Twin.relink (h : Twin S T m k d d')
    (hfind : ∀ kind fk fk' id, Entity.isReferable kind = true → ForeignKey.Twin S T m fk fk' →
      find kind fk = .ok id → find' kind fk' = .ok id)
    (hshared : ∀ l ∈ links k d, l.1 = .caCertificate ∨ l.1 = .partialConfig →
      ∀ id ∈ l.2.id, S.Spares id ∧ T.Spares id)
    {x : Detail k} (hx : relink find k d = .ok x) : relink find' k d' = .ok x := by
  have given : ∀ kind fk, (kind, fk) ∈ links k d → kind = .caCertificate ∨ kind = .partialConfig →
      Entity.isReferable kind = true → ∀ id, find kind fk = .ok id → find' kind fk = .ok id :=
    fun kind fk hmem hkind href id => hfind kind fk fk id href (.given (hshared _ hmem hkind))
  cases k <;> simp only [Twin, toRecord, Record.Twin, FieldType.Twin] at h <;>
    simp only [Detail.relink, Except.bind_eq_ok_iff, Except.pure_eq_ok_iff] at hx ⊢
  case service =>
    obtain ⟨certificate, hcertificate, cas, hcas, rfl⟩ := hx
    have hfields := h
    obtain ⟨-, -, -, -, -, -, -, -, -, -, -, htwin, hsame, -⟩ := hfields
    refine ⟨certificate, relinkOption_of_rel htwin (fun _ _ _ => hfind _ _ _ _ rfl) hcertificate,
      cas, ?_, by simp [h]⟩
    rw [← hsame]
    refine mapM_of_find (fun id hid => given _ _ ?_ (.inl rfl) rfl) hcas
    exact List.mem_append_right _ (List.mem_map_of_mem hid)
  case plugin =>
    obtain ⟨service, hservice, route, hroute, consumer, hconsumer, group, hgroup, partials,
      hpartials, rfl⟩ := hx
    have hfields := h
    obtain ⟨-, -, hservice', hroute', hconsumer', hgroup', -, -, -, -, hsame, -⟩ := hfields
    refine ⟨service, relinkOption_of_rel hservice' (fun _ _ _ => hfind _ _ _ _ rfl) hservice,
      route, relinkOption_of_rel hroute' (fun _ _ _ => hfind _ _ _ _ rfl) hroute,
      consumer, relinkOption_of_rel hconsumer' (fun _ _ _ => hfind _ _ _ _ rfl) hconsumer,
      group, relinkOption_of_rel hgroup' (fun _ _ _ => hfind _ _ _ _ rfl) hgroup,
      partials, ?_, by simp [h]⟩
    rw [← hsame]
    refine mapM_of_find (fun l hl l' hl' => ?_) hpartials
    obtain ⟨id, hid, hl'⟩ := Except.bind_eq_ok_iff.1 hl'
    refine Except.bind_eq_ok_iff.2 ⟨id, given _ _ ?_ (.inr rfl) rfl _ hid, hl'⟩
    exact List.mem_append_right _ (List.mem_map_of_mem hl)
  case membership =>
    obtain ⟨group, hgroup, consumer, hconsumer, rfl⟩ := hx
    exact ⟨group, hfind _ _ _ _ rfl h.1 hgroup, consumer, hfind _ _ _ _ rfl h.2.1 hconsumer, rfl⟩
  case route =>
    obtain ⟨fk, hfk, rfl⟩ := hx
    exact ⟨fk, relinkOption_of_rel h.2.1 (fun _ _ _ => hfind _ _ _ _ rfl) hfk, by simp [h]⟩
  case target =>
    obtain ⟨fk, hfk, rfl⟩ := hx
    exact ⟨fk, relinkOption_of_rel h.2.1 (fun _ _ _ => hfind _ _ _ _ rfl) hfk, by simp [h]⟩
  case sni =>
    obtain ⟨fk, hfk, rfl⟩ := hx
    exact ⟨fk, relinkOption_of_rel h.2.1 (fun _ _ _ => hfind _ _ _ _ rfl) hfk, by simp [h]⟩
  case key =>
    obtain ⟨fk, hfk, rfl⟩ := hx
    exact ⟨fk, relinkOption_of_rel h.2.2.1 (fun _ _ _ => hfind _ _ _ _ rfl) hfk, by simp [h]⟩
  case permission =>
    obtain ⟨fk, hfk, rfl⟩ := hx
    exact ⟨fk, relinkOption_of_rel h.1 (fun _ _ _ => hfind _ _ _ _ rfl) hfk, by simp [h]⟩
  case custom =>
    obtain ⟨fk, hfk, rfl⟩ := hx
    exact ⟨fk, relinkOption_of_rel h.2.1 (fun _ _ _ => hfind _ _ _ _ rfl) hfk, by simp [h]⟩
  all_goals
    cases hx
    cases d
    cases d'
    simp_all

/-- References are well formed once they are resolved. -/
theorem wellFormed_of_relinkOption {kind : Kind} {fk x : Option ForeignKey}
    (hx : relinkOption find kind fk = .ok x) : ∀ y ∈ x, y.WellFormed := by
  intro y hy
  cases fk with
  | none =>
    cases hx
    cases hy
  | some fk =>
    obtain ⟨id, -, hx⟩ := Except.bind_eq_ok_iff.1 hx
    cases hx
    cases hy
    exact ForeignKey.wellFormed_byId id

/-- A well-formed object stays so when its references are resolved; a membership is nothing but
references. -/
theorem wellFormed_relink (h : k = .membership ∨ Record.WellFormed k.ownFields (toRecord k d))
    {x : Detail k} (hx : relink find k d = .ok x) :
    Record.WellFormed k.ownFields (toRecord k x) := by
  cases k <;> simp only [Detail.relink, Except.bind_eq_ok_iff, Except.pure_eq_ok_iff] at hx <;>
    simp only [toRecord, Record.WellFormed, FieldType.WellFormed, reduceCtorEq, false_or] at h ⊢
  case service =>
    obtain ⟨certificate, hcertificate, cas, -, rfl⟩ := hx
    simp_all [wellFormed_of_relinkOption hcertificate]
  case plugin =>
    obtain ⟨service, hservice, route, hroute, consumer, hconsumer, group, hgroup, partials, -,
      rfl⟩ := hx
    obtain ⟨-, -, -, -, -, -, hconfig, -, -, hordering, -⟩ := h
    exact ⟨trivial, trivial, wellFormed_of_relinkOption hservice, wellFormed_of_relinkOption hroute,
      wellFormed_of_relinkOption hconsumer, wellFormed_of_relinkOption hgroup, hconfig,
      trivial, trivial, hordering, trivial, trivial⟩
  case membership =>
    obtain ⟨group, -, consumer, -, rfl⟩ := hx
    exact ⟨ForeignKey.wellFormed_byId group, ForeignKey.wellFormed_byId consumer, trivial⟩
  case route | target | sni | key | permission | custom =>
    obtain ⟨fk, hfk, rfl⟩ := hx
    have hlink := wellFormed_of_relinkOption hfk
    simp_all
  all_goals
    cases hx
    exact h

/-- Whether there is a natural key does not depend on how references are resolved. -/
theorem isSome_naturalKey?_relink {x : Detail k} (hx : relink find k d = .ok x) :
    (naturalKey? k x).isSome = (naturalKey? k d).isSome := by
  cases k <;> simp only [Detail.relink, Except.bind_eq_ok_iff, Except.pure_eq_ok_iff] at hx
  case service =>
    obtain ⟨certificate, hcertificate, cas, -, rfl⟩ := hx
    rfl
  case plugin =>
    obtain ⟨service, hservice, route, hroute, consumer, hconsumer, group, hgroup, partials, -,
      rfl⟩ := hx
    rfl
  case membership =>
    obtain ⟨group, -, consumer, -, rfl⟩ := hx
    rfl
  case route | target | sni | key | permission =>
    obtain ⟨fk, hfk, rfl⟩ := hx
    simp [naturalKey?]
  case custom =>
    obtain ⟨fk, hfk, rfl⟩ := hx
    unfold naturalKey?
    rw [Option.isSome_map, Option.isSome_map]
  all_goals
    cases hx
    rfl

end relink

end Detail

/-! ### Entities -/

section

variable (S T : IdSupply) (m : Nat)

/-- An object's own id in one run and in the other: the same, or fresh in each. -/
inductive OwnTwin (k : Kind) : Option String → Option String → Prop
  | given {id : Option String} (h : ∀ x ∈ id, S.Spares x ∧ T.Spares x) : OwnTwin k id id
  /-- Only what others refer to takes an id before it is resolved. -/
  | fresh {i : Nat} (h : i < m) (hk : Entity.isReferable k = true) :
    OwnTwin k (some (S.nth i)) (some (T.nth i))

/-- A flat object in one run and in the other. -/
structure Resource.Twin {k : Kind} (r r' : Resource k) : Prop where
  detail : Detail.Twin S T m k r.detail r'.detail
  /-- Nothing is nested under certificate authorities and shared configuration. -/
  shared : ∀ l ∈ Detail.links k r.detail, l.1 = .caCertificate ∨ l.1 = .partialConfig →
    ∀ id ∈ l.2.id, S.Spares id ∧ T.Spares id
  own : OwnTwin S T m k r.id r'.id
  tags : r'.tags = r.tags
  createdAt : r'.createdAt = r.createdAt
  updatedAt : r'.updatedAt = r.updatedAt
  /-- References may be anything as long as they are not resolved. -/
  wellFormed : k = .membership ∨ r.WellFormed
  /-- It can be recognised by a natural key, or by a declared id. -/
  known : (Detail.naturalKey? k r.detail).isSome ∨ ∃ id, r.id = some id ∧ S.Spares id

/-- A flat entity in one run and in the other. -/
inductive Entity.Twin : Entity → Entity → Prop
  | mk {k : Kind} {r r' : Resource k} (h : r.Twin S T m r') : Twin ⟨k, r⟩ ⟨k, r'⟩

end

/-- Objects with the same parts are equal. -/
theorem Resource.ext_of {k : Kind} {r r' : Resource k} (hid : r.id = r'.id)
    (hdetail : r.detail = r'.detail) (htags : r.tags = r'.tags)
    (hcreated : r.createdAt = r'.createdAt) (hupdated : r.updatedAt = r'.updatedAt) : r = r' := by
  cases r
  cases r'
  simp_all

/-- An id is missing in both runs or in neither. -/
theorem OwnTwin.isNone_eq {k : Kind} {id id' : Option String} (h : OwnTwin S T m k id id') :
    id'.isNone = id.isNone := by
  cases h <;> rfl

/-- A reference is missing in both runs or in neither. -/
theorem ForeignKey.Twin.isNone_eq {fk fk' : Option ForeignKey}
    (h : Option.Rel (ForeignKey.Twin S T m) fk fk') : fk'.isNone = fk.isNone := by
  cases h <;> rfl

/-- A reference is there in both runs or in neither. -/
theorem ForeignKey.Twin.isSome_eq {fk fk' : Option ForeignKey}
    (h : Option.Rel (ForeignKey.Twin S T m) fk fk') : fk'.isSome = fk.isSome := by
  cases h <;> rfl

namespace Entity

variable {e e' : Entity}

/-- Twins are of one kind. -/
theorem Twin.kind_eq (h : Twin S T m e e') : e'.kind = e.kind := by
  cases h
  rfl

/-- What is nothing wrong with in one run is nothing wrong with in the other. -/
theorem Twin.permits {o : Options} (h : Twin S T m e e') (hp : o.Permits e) : o.Permits e' := by
  obtain ⟨supported, scope, partials, confined, complete⟩ := hp
  cases h with
  | @mk k r r' h =>
    have hdetail := h.detail
    refine ⟨supported, ?_, ?_, confined, ?_⟩
    · refine scope.imp_right fun hscope => ?_
      cases k <;> try rfl
      obtain ⟨-, -, -, -, -, hgroup, -⟩ := hdetail
      exact (ForeignKey.Twin.isSome_eq hgroup).trans hscope
    · refine partials.imp_right fun hpartials => ?_
      cases k <;> try rfl
      obtain ⟨-, -, -, -, -, -, -, -, -, -, hsame, -⟩ := hdetail
      rw [← hpartials]
      simp only [linksPartials]
      rw [show r.detail.partials = r'.detail.partials from hsame]
    · cases k <;>
        simp only [Detail.Twin, Detail.toRecord, Record.Twin, FieldType.Twin] at hdetail <;>
        simp only [missingField?] at complete ⊢
      case target => rwa [ForeignKey.Twin.isNone_eq hdetail.2.1]
      case sni => rwa [ForeignKey.Twin.isNone_eq hdetail.2.1]
      case permission => rwa [ForeignKey.Twin.isNone_eq hdetail.1]
      case consumer => rwa [← hdetail.1, ← hdetail.2.1, h.own.isNone_eq]
      case plugin => rwa [← hdetail.1]
      case partialConfig => rwa [← hdetail.2.1]

/-- Flat entities that are resolved to the same ids become the same, but for a fresh id of their
own. -/
theorem Twin.relink {find find' : Kind → ForeignKey → Except PlanError String}
    (h : Twin S T m e e')
    (hfind : ∀ kind fk fk' id, isReferable kind = true → ForeignKey.Twin S T m fk fk' →
      find kind fk = .ok id → find' kind fk' = .ok id)
    {l : Entity} (hl : e.relink find = .ok l) : ∃ l', e'.relink find' = .ok l' ∧
      ((l' = l ∧ ∀ id ∈ l.id?, S.Spares id ∧ T.Spares id) ∨
        ∃ i < m, isReferable l.kind = true ∧ l.id? = some (S.nth i) ∧ l' = l.withId (T.nth i)) := by
  cases h with
  | @mk k r r' h =>
    obtain ⟨d, hd, rfl⟩ := relink_eq_ok_iff.1 hl
    have hd' := h.detail.relink hfind h.shared hd
    refine ⟨_, relink_eq_ok_iff.2 ⟨d, hd', rfl⟩, ?_⟩
    have hid := h.own
    generalize hr : r.id = id, hr' : r'.id = id' at hid
    cases hid with
    | given hspare =>
      refine .inl ⟨?_, fun id hid => hspare id (hr ▸ hid)⟩
      exact congrArg (Entity.mk k)
        (Resource.ext_of (hr'.trans hr.symm) rfl h.tags h.createdAt h.updatedAt)
    | @fresh i hi hk =>
      refine .inr ⟨i, hi, hk, hr, ?_⟩
      exact congrArg (Entity.mk k) (Resource.ext_of hr' rfl h.tags h.createdAt h.updatedAt)

/-- Only what others refer to has a fresh id before it is resolved. -/
theorem Twin.isReferable_of_id? (h : Twin S T m e e') {i : Nat} (hid : e.id? = some (S.nth i)) :
    isReferable e.kind = true := by
  cases h with
  | @mk k r r' h =>
    have hown := h.own
    rw [show r.id = some (S.nth i) from hid] at hown
    generalize hr' : r'.id = id', hx : some (S.nth i) = x at hown
    cases hown with
    | given hspare => exact absurd rfl ((hspare (S.nth i) hx.symm).1 i)
    | fresh _ hk => exact hk

/-- What is resolved is well formed. -/
theorem Twin.wellFormed_relink {find : Kind → ForeignKey → Except PlanError String}
    (h : Twin S T m e e') {l : Entity} (hl : e.relink find = .ok l) : l.WellFormed := by
  cases h with
  | mk h =>
    obtain ⟨d, hd, rfl⟩ := relink_eq_ok_iff.1 hl
    exact Detail.wellFormed_relink h.wellFormed hd

/-- What is resolved can be recognised by a natural key, or by a declared id. -/
theorem Twin.known_relink {find : Kind → ForeignKey → Except PlanError String}
    (h : Twin S T m e e') {l : Entity} (hl : e.relink find = .ok l) :
    l.naturalKey?.isSome ∨ ∃ id, l.id? = some id ∧ S.Spares id := by
  cases h with
  | mk h =>
    obtain ⟨d, hd, rfl⟩ := relink_eq_ok_iff.1 hl
    refine h.known.imp_left fun hkey => ?_
    exact (Detail.isSome_naturalKey?_relink hd).trans hkey

end Entity

/-! ### More fresh ids -/

section mono

variable {n : Nat} (hmn : m ≤ n)

include hmn

/-- Twin references stay so after more ids have been taken. -/
theorem ForeignKey.Twin.mono {fk fk' : ForeignKey} (h : fk.Twin S T m fk') : fk.Twin S T n fk' := by
  cases h with
  | given h => exact .given h
  | fresh h => exact .fresh (Nat.lt_of_lt_of_le h hmn)

/-- Twin values stay so after more ids have been taken. -/
theorem FieldType.Twin.mono {t : FieldType} {x y : t.Carrier} (h : t.Twin S T m x y) :
    t.Twin S T n x y := by
  cases t
  case optionalLink =>
    cases h with
    | none => exact .none
    | some h => exact .some (h.mono hmn)
  case link => exact ForeignKey.Twin.mono hmn h
  all_goals exact h

/-- Twin records stay so after more ids have been taken. -/
theorem Record.Twin.mono {fields : List Field} {r r' : Record fields}
    (h : Record.Twin S T m fields r r') : Record.Twin S T n fields r r' := by
  induction fields with
  | nil => trivial
  | cons f fields ih => exact ⟨FieldType.Twin.mono hmn h.1, ih h.2⟩

/-- Twin ids stay so after more ids have been taken. -/
theorem OwnTwin.mono {k : Kind} {id id' : Option String} (h : OwnTwin S T m k id id') :
    OwnTwin S T n k id id' := by
  cases h with
  | given h => exact .given h
  | fresh h hk => exact .fresh (Nat.lt_of_lt_of_le h hmn) hk

/-- Twin objects stay so after more ids have been taken. -/
theorem Resource.Twin.mono {k : Kind} {r r' : Resource k} (h : r.Twin S T m r') :
    r.Twin S T n r' :=
  { h with detail := Record.Twin.mono hmn h.detail, own := h.own.mono hmn }

/-- Twins stay so after more ids have been taken. -/
theorem Entity.Twin.mono {e e' : Entity} (h : e.Twin S T m e') : e.Twin S T n e' := by
  cases h with
  | mk h => exact .mk (h.mono hmn)

end mono

end Gateway
