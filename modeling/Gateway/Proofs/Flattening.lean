import Gateway.Proofs.Twin

/-!
# Flattening under two supplies of ids

Flattening the same declarations with another supply of fresh ids yields twins of the same entities,
and takes as many ids (`Content.parallel_flatten`). Computations of planning are followed side by
side (`Planning.Parallel`), with one law for each way of putting them together.
-/

namespace Gateway

open Planning

/-! ### Two computations side by side -/

namespace Planning

variable (S T : IdSupply) {α β γ δ : Type} {n : Nat}

/-- When a computation succeeds after `n` ids have been taken from the first supply, the other
succeeds after as many from the second, takes as many itself, and the results are related. -/
def Parallel (n : Nat) (R : Nat → α → β → Prop) (x : Planning α) (y : Planning β) : Prop :=
  ∀ a S', Yields x (S.after n) a S' →
    ∃ m b, n ≤ m ∧ S' = S.after m ∧ Yields y (T.after n) b (T.after m) ∧ R m a b

variable {S T} {R : Nat → α → β → Prop} {Q : Nat → γ → δ → Prop}

/-- What only returns something goes side by side with what returns something related. -/
theorem Parallel.pure {a : α} {b : β} (h : R n a b) :
    Parallel S T n R (Pure.pure a) (Pure.pure b) := by
  intro a' S' ha
  obtain ⟨rfl, rfl⟩ := yields_pure.1 ha
  exact ⟨n, b, Nat.le_refl n, rfl, yields_pure.2 ⟨rfl, rfl⟩, h⟩

/-- One computation after another goes side by side step by step. -/
theorem Parallel.bind {x : Planning γ} {y : Planning δ} {f : γ → Planning α} {g : δ → Planning β}
    (h : Parallel S T n Q x y) (hf : ∀ m c d, n ≤ m → Q m c d → Parallel S T m R (f c) (g d)) :
    Parallel S T n R (x >>= f) (y >>= g) := by
  intro a S' ha
  obtain ⟨c, S₁, hc, ha⟩ := yields_bind.1 ha
  obtain ⟨m, d, hnm, rfl, hd, hQ⟩ := h c S₁ hc
  obtain ⟨k, b, hmk, rfl, hb, hR⟩ := hf m c d hnm hQ a S' ha
  exact ⟨k, b, Nat.le_trans hnm hmk, rfl, yields_bind.2 ⟨d, _, hd, hb⟩, hR⟩

/-- What takes no ids goes side by side where the results do. -/
theorem Parallel.lift {x : Except PlanError α} {y : Except PlanError β}
    (h : ∀ a, x = .ok a → ∃ b, y = .ok b ∧ R n a b) :
    Parallel S T n R (liftM x) (liftM y) := by
  intro a S' ha
  obtain ⟨hx, rfl⟩ := yields_lift.1 ha
  obtain ⟨b, hy, hR⟩ := h a hx
  exact ⟨n, b, Nat.le_refl n, rfl, yields_lift.2 ⟨hy, rfl⟩, hR⟩

/-- Both supplies hand out their next id. -/
theorem Parallel.freshId {P : Nat → String → String → Prop} (h : P (n + 1) (S.nth n) (T.nth n)) :
    Parallel S T n P freshId freshId := by
  intro a S' ha
  obtain ⟨rfl, rfl⟩ := yields_freshId.1 ha
  exact ⟨n + 1, T.nth n, Nat.le_succ n, rfl, yields_freshId.2 ⟨rfl, rfl⟩, h⟩

end Planning

section

variable {S T : IdSupply} {n m k : Nat}

/-! ### Flat lists -/

/-- Two entities have no fresh id in common. -/
def IdSupply.Apart (S : IdSupply) (a b : Entity) : Prop :=
  ∀ i, a.id? = some (S.nth i) → b.id? ≠ some (S.nth i)

/-- Two lists of twins, of which those that took a fresh id have it to themselves, and took it in
the meantime. -/
structure Flat (S T : IdSupply) (n m : Nat) (es es' : List Entity) : Prop where
  twins : List.Forall₂ (Entity.Twin S T m) es es'
  taken : ∀ e ∈ es, ∀ i, e.id? = some (S.nth i) → n ≤ i ∧ i < m
  distinct : es.Pairwise (IdSupply.Apart S)

namespace Flat

variable {es es' fs fs' : List Entity}

/-- No entities at all are a flat list. -/
theorem nil : Flat S T n m [] [] := ⟨.nil, by simp, .nil⟩

/-- Entities that took their ids later may stand behind. -/
theorem append (h : Flat S T n m es es') (h' : Flat S T m k fs fs') (hnm : n ≤ m) (hmk : m ≤ k) :
    Flat S T n k (es ++ fs) (es' ++ fs') where
  twins := List.rel_append (h.twins.imp fun _ _ h => h.mono hmk) h'.twins
  taken := by
    intro e he i hi
    rcases List.mem_append.1 he with he | he
    · exact (h.taken e he i hi).imp_right fun h => Nat.lt_of_lt_of_le h hmk
    · exact (h'.taken e he i hi).imp_left fun h => Nat.le_trans hnm h
  distinct := by
    refine List.pairwise_append.2 ⟨h.distinct, h'.distinct, fun a ha b hb i hi hi' => ?_⟩
    exact Nat.not_lt.2 (h'.taken b hb i hi').1 (h.taken a ha i hi).2

/-- The same of lists of lists. -/
theorem flatten_append {ess ess' fss fss' : List (List Entity)}
    (h : Flat S T n m ess.flatten ess'.flatten) (h' : Flat S T m k fss.flatten fss'.flatten)
    (hnm : n ≤ m) (hmk : m ≤ k) : Flat S T n k (ess ++ fss).flatten (ess' ++ fss').flatten := by
  rw [List.flatten_append, List.flatten_append]
  exact h.append h' hnm hmk

/-- Entities that took their ids earlier may stand behind. -/
theorem append_earlier (h : Flat S T n m es es') (h' : Flat S T m k fs fs') (hnm : n ≤ m)
    (hmk : m ≤ k) : Flat S T n k (fs ++ es) (fs' ++ es') where
  twins := List.rel_append h'.twins (h.twins.imp fun _ _ h => h.mono hmk)
  taken := by
    intro e he i hi
    rcases List.mem_append.1 he with he | he
    · exact (h'.taken e he i hi).imp_left fun h => Nat.le_trans hnm h
    · exact (h.taken e he i hi).imp_right fun h => Nat.lt_of_lt_of_le h hmk
  distinct := by
    refine List.pairwise_append.2 ⟨h'.distinct, h.distinct, fun a ha b hb i hi hi' => ?_⟩
    exact Nat.not_lt.2 (h'.taken a ha i hi).1 (h.taken b hb i hi').2

/-- Entities that took no fresh id. -/
theorem of_spared (h : List.Forall₂ (Entity.Twin S T m) es es')
    (hspare : ∀ e ∈ es, ∀ id ∈ e.id?, S.Spares id) : Flat S T n m es es' where
  twins := h
  taken e he i hi := absurd rfl (hspare e he _ hi i)
  distinct := List.pairwise_of_forall_mem_list fun a ha _ _ i hi _ => hspare a ha _ hi i rfl

end Flat

/-- Lists that are flattened one after the other are flattened side by side. -/
theorem parallel_mapM {α : Type} {f g : α → Planning (List Entity)} {xs : List α}
    (h : ∀ x ∈ xs, ∀ m, n ≤ m → Parallel S T m (Flat S T m) (f x) (g x)) :
    Parallel S T n (fun m ess ess' => Flat S T n m ess.flatten ess'.flatten) (xs.mapM f)
      (xs.mapM g) := by
  induction xs generalizing n with
  | nil =>
    rw [List.mapM_nil, List.mapM_nil]
    exact .pure Flat.nil
  | cons x rest ih =>
    rw [List.mapM_cons, List.mapM_cons]
    refine (h x List.mem_cons_self n (Nat.le_refl n)).bind fun m es es' hnm hes => ?_
    have hrest : ∀ y ∈ rest, ∀ k, m ≤ k → Parallel S T k (Flat S T k) (f y) (g y) :=
      fun y hy k hmk => h y (List.mem_cons_of_mem _ hy) k (Nat.le_trans hnm hmk)
    exact (ih hrest).bind fun k ess ess' hmk hess => .pure (hes.append hess hnm hmk)

/-! ### Nested objects -/

/-- What is declared names no id that will be handed out, and can be recognised. -/
structure Resource.Given (S T : IdSupply) {k : Kind} (r : Resource k) : Prop where
  own : ∀ id ∈ r.id, S.Spares id ∧ T.Spares id
  links : ∀ l ∈ Detail.links k r.detail, ∀ id ∈ l.2.id, S.Spares id ∧ T.Spares id
  wellFormed : r.WellFormed
  known : (Detail.naturalKey? k r.detail).isSome ∨ r.id.isSome

/-- What is given can be recognised: by a natural key, or by an id that is never handed out. -/
theorem Resource.Given.known_spared {kind : Kind} {r : Resource kind} (h : r.Given S T) :
    (Detail.naturalKey? kind r.detail).isSome ∨ ∃ id, r.id = some id ∧ S.Spares id := by
  refine h.known.imp_right fun hid => ?_
  obtain ⟨id, hid⟩ := Option.isSome_iff_exists.1 hid
  exact ⟨id, hid, (h.own id hid).1⟩

/-- What is given is its own twin, as no fresh id is in it. -/
theorem Resource.Given.twin {kind : Kind} {r : Resource kind} (h : r.Given S T) :
    r.Twin S T m r where
  detail := Detail.twin_self h.links
  shared l hl _ := h.links l hl
  own := .given h.own
  tags := rfl
  createdAt := rfl
  updatedAt := rfl
  wellFormed := .inr h.wellFormed
  known := h.known_spared

/-- An enclosing object in one run and in the other. -/
structure Enclosing.Twin (S T : IdSupply) (m : Nat) (p p' : Enclosing) : Prop where
  kind : p'.kind = p.kind
  names : p'.names = p.names
  reference : ForeignKey.Twin S T m p.reference p'.reference

/-- A parent stays the same after more ids have been taken. -/
theorem Enclosing.Twin.mono {p p' : Enclosing} (h : p.Twin S T m p') (hmk : m ≤ k) :
    p.Twin S T k p' :=
  { h with reference := h.reference.mono hmk }

namespace Detail

variable {kind parent : Kind} {d : Detail kind} {fk : ForeignKey}

/-- The reference to a parent is one of the references. -/
theorem mem_links_of_parent? (h : parent? parent kind d = some fk) :
    (parent, fk) ∈ links kind d := by
  cases parent <;> cases kind <;> first
    | cases h
    | simp_all [links, parent?]

/-- A parent is no certificate authority and no shared configuration, so references to these are as
declared. -/
theorem mem_links_of_withParent {l : Kind × ForeignKey}
    (hl : l ∈ links kind (withParent fk parent kind d))
    (hk : l.1 = .caCertificate ∨ l.1 = .partialConfig) : l ∈ links kind d := by
  cases parent <;> cases kind <;> first
    | exact hl
    | (obtain ⟨k, x⟩ := l
       simp only [links, withParent, List.mem_append, Option.toList_some, List.map_cons,
         List.map_nil, List.mem_singleton, Prod.mk.injEq] at hl ⊢
       grind)

/-- A well-formed object stays so when a well-formed reference is put into its slot. -/
theorem wellFormed_withParent (h : Record.WellFormed kind.ownFields (toRecord kind d))
    (hfk : fk.WellFormed) :
    Record.WellFormed kind.ownFields (toRecord kind (withParent fk parent kind d)) := by
  cases parent <;> cases kind <;> first
    | exact h
    | simp_all [toRecord, Record.WellFormed, FieldType.WellFormed, withParent]

/-- A natural key is there with a parent or without one. -/
theorem isSome_naturalKey?_withParent :
    (naturalKey? kind (withParent fk parent kind d)).isSome = (naturalKey? kind d).isSome := by
  cases parent <;> cases kind <;> first
    | rfl
    | simp [naturalKey?, withParent]

end Detail

namespace Enclosing

variable {p p' : Enclosing} {kind : Kind} {r : Resource kind}

/-- The ids of an enclosing object in the two runs. -/
theorem Twin.id_cases (h : p.Twin S T m p') : p'.id = p.id ∨ ∃ i, p.id = S.nth i := by
  have href := h.reference
  generalize hfk : p.reference = fk, hfk' : p'.reference = fk' at href
  cases href with
  | given _ =>
    have hid := congrArg ForeignKey.id (hfk'.trans hfk.symm)
    exact .inl (Option.some.inj hid)
  | @fresh i _ => exact .inr ⟨i, Option.some.inj (congrArg ForeignKey.id hfk)⟩

/-- A declared reference that can mean an enclosing object in one run can in the other. -/
theorem Twin.accept (h : p.Twin S T m p') {owner : String} {fk : Option ForeignKey}
    (hspare : ∀ x ∈ fk, ∀ id ∈ x.id, S.Spares id) (hok : p.accept owner fk = .ok ()) :
    p'.accept owner fk = .ok () := by
  cases fk with
  | none => rfl
  | some fk =>
    unfold Enclosing.accept at hok ⊢
    simp only at hok ⊢
    split at hok
    · cases hok
    · rename_i hbare
      split at hok
      · cases hok
      · rename_i hmeant
        rw [if_neg hbare, if_neg]
        simp only [Bool.not_eq_true', Bool.not_eq_false] at hmeant ⊢
        unfold isMeantBy at hmeant ⊢
        split at hmeant
        · rename_i id hid
          rcases h.id_cases with heq | ⟨i, hi⟩
          · rwa [heq]
          · have hmeant : id = p.id := by simpa using hmeant
            exact absurd (hmeant.trans hi).symm (hspare fk rfl id hid i)
        · rwa [h.names]
        · rfl

/-- An object under an enclosing object in one run and in the other. -/
theorem Twin.attach (h : p.Twin S T m p') (hr : r.Given S T) {x : Resource kind}
    (hx : p.attach r = .ok x) :
    ∃ x', p'.attach r = .ok x' ∧ x.Twin S T m x' ∧ x.id = r.id ∧ x'.id = r.id := by
  obtain ⟨⟨⟩, haccept, hx⟩ := Except.bind_eq_ok_iff.1 hx
  cases hx
  have haccept' :
      p'.accept r.toEntity.describe (Detail.parent? p'.kind kind r.detail) = .ok () := by
    rw [h.kind]
    refine h.accept (fun fk hfk id hid => ?_) haccept
    exact (hr.links _ (Detail.mem_links_of_parent? hfk) id hid).1
  refine ⟨_, Except.bind_eq_ok_iff.2 ⟨(), haccept', rfl⟩, ?_, rfl, rfl⟩
  have htwin := hr.twin (m := m)
  refine ⟨?_, fun l hl hk => ?_, htwin.own, rfl, rfl, rfl, ?_, ?_⟩
  · rw [h.kind]
    exact htwin.detail.withParent h.reference p.kind
  · exact hr.links l (Detail.mem_links_of_withParent hl hk)
  · exact .inr (Detail.wellFormed_withParent hr.wellFormed (ForeignKey.wellFormed_byId p.id))
  · exact hr.known_spared.imp_left Detail.isSome_naturalKey?_withParent.trans

/-- The objects under an enclosing object in one run and in the other. -/
theorem Twin.attachAll (h : p.Twin S T m p') {rs : List (Resource kind)}
    (hrs : ∀ r ∈ rs, r.Given S T) {es : List Entity} (hes : p.attachAll rs = .ok es) :
    ∃ es', p'.attachAll rs = .ok es' ∧ Flat S T n m es es' := by
  unfold Enclosing.attachAll at hes ⊢
  simp only [Except.mapM_eq_ok_iff] at hes ⊢
  have hall : ∃ es', List.Forall₂ (fun r e => (do return (← p'.attach r).toEntity) = Except.ok e)
      rs es' ∧ List.Forall₂ (Entity.Twin S T m) es es' ∧
      ∀ e ∈ es, ∀ id ∈ e.id?, S.Spares id := by
    induction hes with
    | nil => exact ⟨[], .nil, .nil, by simp⟩
    | @cons r e rs es he _ ih =>
      obtain ⟨es', hes', htwins, hspare⟩ := ih fun r hr => hrs r (List.mem_cons_of_mem _ hr)
      obtain ⟨x, hx, he⟩ := Except.bind_eq_ok_iff.1 he
      cases he
      have hr := hrs r List.mem_cons_self
      obtain ⟨x', hx', htwin, hid, -⟩ := h.attach hr hx
      refine ⟨x'.toEntity :: es', .cons (Except.bind_eq_ok_iff.2 ⟨x', hx', rfl⟩) hes',
        .cons (.mk htwin) htwins, List.forall_mem_cons.2 ⟨fun id hxid => ?_, hspare⟩⟩
      exact (hr.own id (hid ▸ hxid)).1
  obtain ⟨es', hes', htwins, hspare⟩ := hall
  exact ⟨es', hes', .of_spared htwins hspare⟩

end Enclosing

namespace Resource

variable {kind : Kind} {r r' : Resource kind}

/-- An object that is about to enclose others: it has no id yet, or the declared one. -/
structure Opened (S T : IdSupply) (n : Nat) (r r' : Resource kind) : Prop where
  twin : r.Twin S T n r'
  own : ∀ id ∈ r.id, S.Spares id ∧ T.Spares id
  same : r'.id = r.id

/-- What is given is opened as it is. -/
theorem Given.opened (h : r.Given S T) : Opened S T n r r := ⟨h.twin, h.own, rfl⟩

/-- The object that is opened takes the next id in both runs, unless one was declared. -/
theorem Opened.parallel_enclose (hS : Function.Injective S.nth) (h : Opened S T n r r')
    (hk : Entity.isReferable kind = true) :
    Parallel S T n (fun m x y => x.1.Twin S T m y.1 ∧
        Flat S T n m [x.2.toEntity] [y.2.toEntity]) r.enclose r'.enclose := by
  have hnames := h.twin.detail.names_eq
  unfold enclose
  rw [h.same]
  cases hid : r.id with
  | some id =>
    have hspare := h.own id hid
    refine .bind (Q := fun m a b => m = n ∧ a = id ∧ b = id) (.pure ⟨rfl, rfl, rfl⟩) ?_
    rintro _ _ _ - ⟨rfl, rfl, rfl⟩
    refine .pure ⟨⟨rfl, hnames, .given ?_⟩, .of_spared (.cons (.mk ?_) .nil) ?_⟩
    · intro x hx
      cases hx
      exact hspare
    · refine { h.twin with own := .given ?_, known := .inr ⟨_, rfl, hspare.1⟩ }
      intro x hx
      cases hx
      exact hspare
    · intro e he x hx
      cases List.mem_singleton.1 he
      cases hx
      exact hspare.1
  | none =>
    have hkey : (Detail.naturalKey? kind r.detail).isSome := by
      refine h.twin.known.resolve_right ?_
      rintro ⟨id, hsome, -⟩
      cases hid.symm.trans hsome
    refine .bind (Q := fun m a b => m = n + 1 ∧ a = S.nth n ∧ b = T.nth n)
      (.freshId ⟨rfl, rfl, rfl⟩) ?_
    rintro _ _ _ - ⟨rfl, rfl, rfl⟩
    have htwin := h.twin.mono (Nat.le_succ n)
    refine .pure ⟨⟨rfl, hnames, .fresh (Nat.lt_succ_self n)⟩, ⟨.cons (.mk ?_) .nil, ?_,
      List.pairwise_singleton _ _⟩⟩
    · exact { htwin with own := .fresh (Nat.lt_succ_self n) hk, known := .inl hkey }
    · intro e he i hi
      cases List.mem_singleton.1 he
      rw [← hS (Option.some.inj hi)]
      exact ⟨Nat.le_refl n, Nat.lt_succ_self n⟩

/-- An object and what is nested under it are flattened side by side. -/
theorem Opened.parallel_flattenNested (hS : Function.Injective S.nth) (h : Opened S T n r r')
    (hk : Entity.isReferable kind = true) {empty : Bool}
    {nested nested' : Enclosing → Planning (List Entity)}
    (hnested : ∀ m (p p' : Enclosing), p.Twin S T m p' →
      Parallel S T m (Flat S T m) (nested p) (nested' p')) :
    Parallel S T n (Flat S T n) (r.flattenNested empty nested)
      (r'.flattenNested empty nested') := by
  unfold flattenNested
  cases empty with
  | true =>
    refine .pure (.of_spared (.cons (.mk h.twin) .nil) fun e he id hid => ?_)
    cases List.mem_singleton.1 he
    exact (h.own id hid).1
  | false =>
    refine (h.parallel_enclose hS hk).bind ?_
    rintro m ⟨p, x⟩ ⟨p', x'⟩ hnm ⟨hp, hx⟩
    refine (hnested m p p' hp).bind fun j es es' hmj hes => .pure ?_
    exact hx.append_earlier hes hnm hmj

end Resource

/-! ### Declarations -/

/-- Everything that is declared is given. -/
def Given (S T : IdSupply) (es : List Entity) : Prop := ∀ e ∈ es, e.resource.Given S T

/-- Entities are given when the first one is and the others are. -/
theorem given_cons {kind : Kind} {r : Resource kind} {es : List Entity} :
    Given S T (r.toEntity :: es) ↔ r.Given S T ∧ Given S T es := List.forall_mem_cons

/-- Entities of two lists are given when those of each list are. -/
theorem given_append {es fs : List Entity} :
    Given S T (es ++ fs) ↔ Given S T es ∧ Given S T fs := List.forall_mem_append

/-- The same of one list for each declaration. -/
theorem given_flatMap {α : Type} {ds : List α} {declared : α → List Entity} :
    Given S T (ds.flatMap declared) ↔ ∀ d ∈ ds, Given S T (declared d) := by
  unfold Given
  simp only [List.mem_flatMap]
  constructor
  · intro h d hd e he
    exact h e ⟨d, hd, he⟩
  · rintro h e ⟨d, hd, he⟩
    exact h d hd e he

/-- The same of objects of one kind. -/
theorem given_map {kind : Kind} {rs : List (Resource kind)} :
    Given S T (rs.map Resource.toEntity) ↔ ∀ r ∈ rs, r.Given S T := by
  unfold Given
  rw [List.forall_mem_map]
  rfl

/-- What is attached to an enclosing object. -/
theorem Enclosing.Twin.parallel_attachAll {kind : Kind} {p p' : Enclosing} (hp : p.Twin S T n p')
    {rs : List (Resource kind)} (hrs : ∀ r ∈ rs, r.Given S T) :
    Parallel S T n (Flat S T n) (liftM (p.attachAll rs)) (liftM (p'.attachAll rs)) :=
  .lift fun _ hes => hp.attachAll hrs hes

/-- A member is listed under its id whichever of its names it is listed under. -/
theorem ForeignKey.id_ofMember (fk : ForeignKey) : fk.ofMember.id = fk.id := by
  unfold ofMember
  split
  · split <;> rfl
  · rfl

/-- A membership in one run and in the other: it is recognised by the two it joins. -/
theorem Membership.twin_declared {group group' consumer consumer' : ForeignKey}
    (hgroup : group.Twin S T m group') (hconsumer : consumer.Twin S T m consumer') :
    (declared group consumer).Twin S T m (declared group' consumer') := by
  refine .mk ⟨⟨hgroup, hconsumer, trivial⟩, ?_, .given ?_, rfl, rfl, rfl, .inl rfl, .inl rfl⟩
  · intro l hl hk
    rcases List.mem_pair.1 hl with rfl | rfl <;> simp at hk
  · rintro _ ⟨⟩

/-- Memberships take no fresh id when they are declared. -/
theorem flat_memberships {fks : List ForeignKey} {declare declare' : ForeignKey → Entity}
    (h : ∀ fk ∈ fks, (declare fk).Twin S T m (declare' fk))
    (hid : ∀ fk, (declare fk).id? = none) :
    Flat S T n m (fks.map declare) (fks.map declare') := by
  refine .of_spared ?_ (List.forall_mem_map.2 fun fk _ id hsome => ?_)
  · rw [List.forall₂_map_left_iff, List.forall₂_map_right_iff, List.forall₂_same]
    exact h
  · rw [hid] at hsome
    cases hsome

section flatten

variable (hS : Function.Injective S.nth)

include hS

/-- Routes are flattened side by side, under services that are twins and on their own. -/
theorem RouteDecl.parallel_flatten {p p' : Option Enclosing} {d : RouteDecl}
    (hp : Option.Rel (Enclosing.Twin S T n) p p') (hd : Given S T d.declared) :
    Parallel S T n (Flat S T n) (d.flatten p) (d.flatten p') := by
  obtain ⟨hroute, hplugins⟩ := given_cons.1 hd
  have hnested : ∀ m (q q' : Enclosing), q.Twin S T m q' → Parallel S T m (Flat S T m)
      (liftM (q.attachAll d.plugins)) (liftM (q'.attachAll d.plugins)) :=
    fun m q q' hq => hq.parallel_attachAll (given_map.1 hplugins)
  unfold RouteDecl.flatten
  cases hp with
  | none =>
    refine .bind (Q := fun m x y => m = n ∧ x.Opened S T m y) (.pure ⟨rfl, hroute.opened⟩) ?_
    rintro _ x y - ⟨rfl, hx⟩
    exact hx.parallel_flattenNested hS rfl hnested
  | some hp =>
    refine .bind (Q := fun m x y => m = n ∧ x.Opened S T m y) (.lift fun x hx => ?_) ?_
    · obtain ⟨x', hx', htwin, hid, hid'⟩ := hp.attach hroute hx
      exact ⟨x', hx', rfl, htwin, hid ▸ hroute.own, hid'.trans hid.symm⟩
    · rintro _ x y - ⟨rfl, hx⟩
      exact hx.parallel_flattenNested hS rfl hnested

/-- Services are flattened side by side, with the routes and plugins nested in them. -/
theorem ServiceDecl.parallel_flatten {d : ServiceDecl} (hd : Given S T d.declared) :
    Parallel S T n (Flat S T n) d.flatten d.flatten := by
  obtain ⟨hservice, hrest⟩ := given_cons.1 hd
  obtain ⟨hroutes, hplugins⟩ := given_append.1 hrest
  refine hservice.opened.parallel_flattenNested hS rfl fun m p p' hp => ?_
  refine .bind (parallel_mapM fun r hr j hmj => ?_) fun j ess ess' hmj hess => ?_
  · exact RouteDecl.parallel_flatten hS (.some (hp.mono hmj)) (given_flatMap.1 hroutes r hr)
  · refine ((hp.mono hmj).parallel_attachAll (given_map.1 hplugins)).bind fun k es es' hjk hes => ?_
    exact .pure (hess.append hes hmj hjk)

/-- Consumers are flattened side by side, with their plugins and memberships. -/
theorem ConsumerDecl.parallel_flatten {d : ConsumerDecl} (hd : Given S T d.declared)
    (hgroups : ∀ fk ∈ d.groups, ∀ id ∈ fk.id, S.Spares id ∧ T.Spares id) :
    Parallel S T n (Flat S T n) d.flatten d.flatten := by
  obtain ⟨hconsumer, hplugins⟩ := given_cons.1 hd
  refine hconsumer.opened.parallel_flattenNested hS rfl fun m p p' hp => ?_
  refine (hp.parallel_attachAll (given_map.1 hplugins)).bind fun j es es' hmj hes => ?_
  refine .pure (hes.append (flat_memberships (fun fk hfk => ?_) fun _ => rfl) hmj (Nat.le_refl j))
  exact Membership.twin_declared (.given (hgroups fk hfk)) (hp.reference.mono hmj)

/-- Groups are flattened side by side, with their plugins and members. -/
theorem ConsumerGroupDecl.parallel_flatten {d : ConsumerGroupDecl} (hd : Given S T d.declared)
    (hconsumers : ∀ fk ∈ d.consumers, ∀ id ∈ fk.id, S.Spares id ∧ T.Spares id) :
    Parallel S T n (Flat S T n) d.flatten d.flatten := by
  obtain ⟨hgroup, hplugins⟩ := given_cons.1 hd
  refine hgroup.opened.parallel_flattenNested hS rfl fun m p p' hp => ?_
  refine (hp.parallel_attachAll (given_map.1 hplugins)).bind fun j es es' hmj hes => ?_
  refine .pure (hes.append (flat_memberships (fun fk hfk => ?_) fun _ => rfl) hmj (Nat.le_refl j))
  refine Membership.twin_declared (hp.reference.mono hmj) (.given fun id hid => ?_)
  exact hconsumers fk hfk id (ForeignKey.id_ofMember fk ▸ hid)

/-- Upstreams are flattened side by side, with their targets. -/
theorem UpstreamDecl.parallel_flatten {d : UpstreamDecl} (hd : Given S T d.declared) :
    Parallel S T n (Flat S T n) d.flatten d.flatten := by
  obtain ⟨hupstream, htargets⟩ := given_cons.1 hd
  exact hupstream.opened.parallel_flattenNested hS rfl fun _ _ _ hp =>
    hp.parallel_attachAll (given_map.1 htargets)

/-- Certificates are flattened side by side, with their server names. -/
theorem CertificateDecl.parallel_flatten {d : CertificateDecl} (hd : Given S T d.declared) :
    Parallel S T n (Flat S T n) d.flatten d.flatten := by
  obtain ⟨hcertificate, hsnis⟩ := given_cons.1 hd
  exact hcertificate.opened.parallel_flattenNested hS rfl fun _ _ _ hp =>
    hp.parallel_attachAll (given_map.1 hsnis)

/-- Sets are flattened side by side, with their keys. -/
theorem KeySetDecl.parallel_flatten {d : KeySetDecl} (hd : Given S T d.declared) :
    Parallel S T n (Flat S T n) d.flatten d.flatten := by
  obtain ⟨hkeySet, hkeys⟩ := given_cons.1 hd
  exact hkeySet.opened.parallel_flattenNested hS rfl fun _ _ _ hp =>
    hp.parallel_attachAll (given_map.1 hkeys)

/-- Roles are flattened side by side, with their permissions. -/
theorem RoleDecl.parallel_flatten {d : RoleDecl} (hd : Given S T d.declared) :
    Parallel S T n (Flat S T n) d.flatten d.flatten := by
  obtain ⟨hrole, hpermissions⟩ := given_cons.1 hd
  exact hrole.opened.parallel_flattenNested hS rfl fun _ _ _ hp =>
    hp.parallel_attachAll (given_map.1 hpermissions)

end flatten

/-! ### Documents -/

/-- The ids that an object is declared with or refers to. -/
def Entity.mentioned (e : Entity) : List String :=
  e.id?.toList ++ e.links.filterMap fun l => l.2.id

/-- The ids that a document mentions. -/
def Content.mentioned (c : Content) : List String :=
  c.declared.flatMap Entity.mentioned ++
    (c.consumers.flatMap (·.groups)).filterMap (·.id) ++
    (c.consumerGroups.flatMap (·.consumers)).filterMap (·.id)

/-- A document mentions the ids of what it declares. -/
theorem Content.mem_mentioned_of_declared {c : Content} {d : Entity} (hd : d ∈ c.declared)
    {id : String} (hid : d.id? = some id) : id ∈ c.mentioned :=
  List.mem_append_left _ (List.mem_append_left _
    (List.mem_flatMap_of_mem hd (List.mem_append_left _ (Option.mem_toList.2 hid))))

/-- Every declaration has a natural key, or a declared id. -/
def Content.Recognisable (c : Content) : Prop :=
  ∀ e ∈ c.declared, e.naturalKey?.isSome ∨ e.id?.isSome

/-- Whether declarations can be recognised is computed one by one. -/
instance (c : Content) : Decidable c.Recognisable :=
  inferInstanceAs (Decidable (∀ e ∈ c.declared, e.naturalKey?.isSome ∨ e.id?.isSome))

/-- What a document declares is given, when fresh ids occur nowhere in it. -/
theorem Content.given_declared {c : Content}
    (hspare : ∀ id ∈ c.mentioned, S.Spares id ∧ T.Spares id) (hwf : c.WellFormed)
    (hknown : c.Recognisable) : Given S T c.declared := by
  have hmentioned : ∀ e ∈ c.declared, ∀ id ∈ e.mentioned, S.Spares id ∧ T.Spares id := by
    intro e he id hid
    exact hspare id (List.mem_append_left _ (List.mem_append_left _
      (List.mem_flatMap_of_mem he hid)))
  intro e he
  refine ⟨fun id hid => ?_, fun l hl id hid => ?_, hwf e he, hknown e he⟩
  · exact hmentioned e he id (List.mem_append_left _ (Option.mem_toList.2 hid))
  · exact hmentioned e he id (List.mem_append_right _ (List.mem_filterMap.2 ⟨l, hl, hid⟩))

/-- The declarations of a document are flattened side by side. -/
theorem Content.parallel_flatten (hS : Function.Injective S.nth) {c : Content}
    (hspare : ∀ id ∈ c.mentioned, S.Spares id ∧ T.Spares id) (hwf : c.WellFormed)
    (hknown : c.Recognisable) : Parallel S T 0 (Flat S T 0) c.flatten c.flatten := by
  have hgiven := c.given_declared hspare hwf hknown
  unfold Content.declared at hgiven
  simp only [given_append, given_flatMap] at hgiven
  obtain ⟨⟨⟨⟨⟨⟨⟨⟨hservices, hroutes⟩, hconsumers⟩, hgroups⟩, hupstreams⟩, hcertificates⟩,
    hkeySets⟩, hroles⟩, hplain⟩ := hgiven
  have hjoined : ∀ d ∈ c.consumers, ∀ fk ∈ d.groups, ∀ id ∈ fk.id, S.Spares id ∧ T.Spares id := by
    intro d hd fk hfk id hid
    refine hspare id (List.mem_append_left _ (List.mem_append_right _ ?_))
    exact List.mem_filterMap.2 ⟨fk, List.mem_flatMap_of_mem hd hfk, hid⟩
  have hlisted : ∀ d ∈ c.consumerGroups, ∀ fk ∈ d.consumers, ∀ id ∈ fk.id,
      S.Spares id ∧ T.Spares id := by
    intro d hd fk hfk id hid
    refine hspare id (List.mem_append_right _ ?_)
    exact List.mem_filterMap.2 ⟨fk, List.mem_flatMap_of_mem hd hfk, hid⟩
  unfold flatten
  refine (parallel_mapM fun d hd _ _ => d.parallel_flatten hS (hservices d hd)).bind
    fun n₁ _ _ h₁ hf₁ => ?_
  refine (parallel_mapM fun d hd _ _ => d.parallel_flatten hS .none (hroutes d hd)).bind
    fun n₂ _ _ h₂ hf₂ => ?_
  have hf₂ := hf₁.flatten_append hf₂ h₁ h₂
  refine (parallel_mapM fun d hd _ _ =>
    d.parallel_flatten hS (hconsumers d hd) (hjoined d hd)).bind fun n₃ _ _ h₃ hf₃ => ?_
  have hf₃ := hf₂.flatten_append hf₃ (Nat.zero_le n₂) h₃
  refine (parallel_mapM fun d hd _ _ =>
    d.parallel_flatten hS (hgroups d hd) (hlisted d hd)).bind fun n₄ _ _ h₄ hf₄ => ?_
  have hf₄ := hf₃.flatten_append hf₄ (Nat.zero_le n₃) h₄
  refine (parallel_mapM fun d hd _ _ => d.parallel_flatten hS (hupstreams d hd)).bind
    fun n₅ _ _ h₅ hf₅ => ?_
  have hf₅ := hf₄.flatten_append hf₅ (Nat.zero_le n₄) h₅
  refine (parallel_mapM fun d hd _ _ => d.parallel_flatten hS (hcertificates d hd)).bind
    fun n₆ _ _ h₆ hf₆ => ?_
  have hf₆ := hf₅.flatten_append hf₆ (Nat.zero_le n₅) h₆
  refine (parallel_mapM fun d hd _ _ => d.parallel_flatten hS (hkeySets d hd)).bind
    fun n₇ _ _ h₇ hf₇ => ?_
  have hf₇ := hf₆.flatten_append hf₇ (Nat.zero_le n₆) h₇
  refine (parallel_mapM fun d hd _ _ => d.parallel_flatten hS (hroles d hd)).bind
    fun n₈ _ _ h₈ hf₈ => ?_
  have hf₈ := hf₇.flatten_append hf₈ (Nat.zero_le n₇) h₈
  refine .pure (hf₈.append (.of_spared ?_ ?_) (Nat.zero_le n₈) (Nat.le_refl n₈))
  · exact List.forall₂_same.2 fun e he => .mk (hplain e he).twin
  · exact fun e he id hid => ((hplain e he).own id hid).1

end

end Gateway
