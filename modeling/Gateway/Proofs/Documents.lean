import Mathlib.Data.List.Sigma
import Gateway.Proofs.Exchange

/-!
# Documents in another order

Documents are merged by writing their declarations one after the other, so documents in another
order have the same declarations in another order (`Content.SameUpToOrder.merge`). Flattening them
takes the same fresh ids in another order, and leads to the same entities in another order
(`Content.SameUpToOrder.rearranges_flatten`). What they ask for is then the same state, where it
does not show of declarations that overtake each other which one came first
(`Content.ResolvesFreely.exists_reordered`).
-/

namespace Gateway

open Planning

/-- What a list is mapped to can be put into another order by putting the list into one. -/
theorem exists_perm_of_map {α β : Type} {f : α → β} {as : List α} {bs : List β}
    (h : bs.Perm (as.map f)) : ∃ as' : List α, as'.Perm as ∧ as'.map f = bs := by
  have hmap : List.Forall₂ (fun b a => f a = b) (as.map f) as := by
    rw [List.forall₂_map_left_iff]
    exact List.forall₂_same.2 fun _ _ => rfl
  obtain ⟨as', has', hperm⟩ := List.perm_comp_forall₂ h hmap
  refine ⟨as', hperm, ?_⟩
  rw [← List.forall₂_eq_eq_eq, List.forall₂_map_left_iff]
  exact has'.flip

/-! ### Computations that take their ids in another order -/

namespace Planning

variable {α β γ δ : Type} {a : α} {b : β} {taken later : List String}

/-- A computation has a result whenever the next ids are those of a list, and takes these. -/
def Takes (x : Planning α) (taken : List String) (a : α) : Prop :=
  ∀ s : IdSupply, s.Offers taken → Yields x s a (s.after taken.length)

/-- What only returns something takes no ids. -/
theorem Takes.pure (a : α) : Takes (Pure.pure a) [] a := fun _ _ => yields_pure.2 ⟨rfl, rfl⟩

/-- One computation after another takes the ids of the first, and then those of the second. -/
theorem Takes.bind {x : Planning α} {f : α → Planning β} (hx : Takes x taken a)
    (hf : Takes (f a) later b) : Takes (x >>= f) (taken ++ later) b := by
  intro s hs
  obtain ⟨htaken, hlater⟩ := IdSupply.offers_append.1 hs
  refine yields_bind.2 ⟨a, _, hx s htaken, ?_⟩
  have hrest := hf _ hlater
  rwa [IdSupply.after_after, ← List.length_append] at hrest

/-- A computation looks at nothing but the ids that it takes. -/
def Local (x : Planning α) : Prop :=
  ∀ s a s', Yields x s a s' → ∃ taken, s.Offers taken ∧ s' = s.after taken.length ∧ Takes x taken a

/-- What follows itself under the same ids looks at nothing else. -/
theorem Follows.isLocal {x : Planning α} (h : Follows id Eq x x) : Local x := by
  intro s a s' ha
  obtain ⟨n, rfl, hall⟩ := h s a s' ha
  refine ⟨s.next n, s.offers_next n, by rw [IdSupply.length_next], fun t ht => ?_⟩
  rw [IdSupply.Offers, IdSupply.length_next] at ht
  have hechoes : s.Echoes id t n := by
    refine IdSupply.echoes_of_next ?_
    rw [List.map_id, ht]
  obtain ⟨b, hb, rfl⟩ := hall t hechoes
  rwa [IdSupply.length_next]

/-- Whenever the first computation succeeds, the second does as well with the same ids in another
order, and the results are related. -/
def Rearranges (R : α → β → Prop) (x : Planning α) (y : Planning β) : Prop :=
  ∀ s a s', Yields x s a s' → ∃ taken, s.Offers taken ∧ s' = s.after taken.length ∧
    ∃ taken' b, taken'.Perm taken ∧ Takes y taken' b ∧ R a b

namespace Rearranges

variable {R : α → β → Prop} {Q : γ → δ → Prop}

/-- What only returns something is rearranged where it is related. -/
theorem pure (h : R a b) : Rearranges R (Pure.pure a) (Pure.pure b) := by
  intro s a' s' ha
  obtain ⟨rfl, rfl⟩ := yields_pure.1 ha
  exact ⟨[], s.offers_nil, rfl, [], b, .nil, .pure b, h⟩

/-- One computation after another is rearranged step by step: the ids of each step stay together. -/
theorem bind {x : Planning α} {y : Planning β} {f : α → Planning γ} {g : β → Planning δ}
    (hx : Rearranges R x y) (hf : ∀ a b, R a b → Rearranges Q (f a) (g b)) :
    Rearranges Q (x >>= f) (y >>= g) := by
  intro s c s' h
  obtain ⟨a, t, ha, hc⟩ := yields_bind.1 h
  obtain ⟨taken, hoffers, rfl, taken', b, hperm, hb, hab⟩ := hx s a t ha
  obtain ⟨later, hlater, rfl, later', d, hperm', hd, hcd⟩ := hf a b hab _ c s' hc
  refine ⟨taken ++ later, IdSupply.offers_append.2 ⟨hoffers, hlater⟩, ?_, taken' ++ later', d,
    hperm.append hperm', hb.bind hd, hcd⟩
  rw [IdSupply.after_after, List.length_append]

section mapM

variable {f : α → Planning β} {xs xs' : List α} {bs : List β} {s s' : IdSupply}

/-- A list takes the ids of its members, one after the other. -/
theorem takes_mapM {ps : List (List String × β)}
    (h : List.Forall₂ (fun x p => Takes (f x) p.1 p.2) xs ps) :
    Takes (xs.mapM f) (ps.map Prod.fst).flatten (ps.map Prod.snd) := by
  induction h with
  | nil =>
    rw [List.mapM_nil]
    exact .pure []
  | @cons x p xs ps hfirst _ ih =>
    rw [List.mapM_cons]
    have hrest : Takes (xs.mapM f >>= fun bs => Pure.pure (p.2 :: bs))
        ((ps.map Prod.fst).flatten ++ []) (p.2 :: ps.map Prod.snd) := ih.bind (.pure _)
    rw [List.append_nil] at hrest
    exact hfirst.bind hrest

/-- Of a list each member takes ids of its own, whatever comes before it. -/
theorem exists_takes_of_mapM (hf : ∀ x, Local (f x)) (h : Yields (xs.mapM f) s bs s') :
    ∃ ps : List (List String × β), List.Forall₂ (fun x p => Takes (f x) p.1 p.2) xs ps ∧
      bs = ps.map Prod.snd ∧ s.Offers (ps.map Prod.fst).flatten ∧
        s' = s.after (ps.map Prod.fst).flatten.length := by
  induction xs generalizing s bs with
  | nil =>
    rw [List.mapM_nil, yields_pure] at h
    obtain ⟨rfl, rfl⟩ := h
    exact ⟨[], .nil, rfl, s.offers_nil, rfl⟩
  | cons x rest ih =>
    simp only [List.mapM_cons, yields_bind, yields_pure] at h
    obtain ⟨b, t, hb, bs, t', hbs, rfl, rfl⟩ := h
    obtain ⟨taken, hoffers, rfl, htakes⟩ := hf x s b t hb
    obtain ⟨ps, hps, rfl, hlater, rfl⟩ := ih hbs
    refine ⟨(taken, b) :: ps, .cons htakes hps, rfl,
      IdSupply.offers_append.2 ⟨hoffers, hlater⟩, ?_⟩
    rw [IdSupply.after_after, List.map_cons, List.flatten_cons, List.length_append]

/-- Members of a list may be dealt with in any order. -/
theorem mapM (hf : ∀ x, Local (f x)) (hperm : xs.Perm xs') :
    Rearranges List.Perm (xs.mapM f) (xs'.mapM f) := by
  intro s bs s' h
  obtain ⟨ps, hps, rfl, hoffers, rfl⟩ := exists_takes_of_mapM hf h
  obtain ⟨ps', hps', hperm'⟩ := List.perm_comp_forall₂ hperm.symm hps
  exact ⟨_, hoffers, rfl, _, _, (hperm'.map _).flatten, takes_mapM hps', (hperm'.map _).symm⟩

end mapM

end Rearranges

end Planning

/-! ### Merging -/

/-- The same declarations in another order. -/
structure Content.SameUpToOrder (c c' : Content) : Prop where
  services : c.services.Perm c'.services
  routes : c.routes.Perm c'.routes
  plugins : c.plugins.Perm c'.plugins
  consumers : c.consumers.Perm c'.consumers
  consumerGroups : c.consumerGroups.Perm c'.consumerGroups
  upstreams : c.upstreams.Perm c'.upstreams
  targets : c.targets.Perm c'.targets
  certificates : c.certificates.Perm c'.certificates
  snis : c.snis.Perm c'.snis
  caCertificates : c.caCertificates.Perm c'.caCertificates
  vaults : c.vaults.Perm c'.vaults
  keySets : c.keySets.Perm c'.keySets
  keys : c.keys.Perm c'.keys
  partials : c.partials.Perm c'.partials
  licenses : c.licenses.Perm c'.licenses
  roles : c.roles.Perm c'.roles
  permissions : c.permissions.Perm c'.permissions
  customObjects : c.customObjects.Perm c'.customObjects

namespace Content

variable {c c' : Content} {docs docs' : List Content} {α : Type}

/-- A list of a merged document holds the lists of the documents one after the other. -/
theorem list_merge {f : Content → List α} (hempty : f {} = [])
    (hf : ∀ a b, f (a.append b) = f a ++ f b) (docs : List Content) :
    f (merge docs) = docs.flatMap f := by
  have hfold : ∀ a, f (docs.foldl append a) = f a ++ docs.flatMap f := by
    induction docs with
    | nil => exact fun a => (List.append_nil _).symm
    | cons d rest ih =>
      intro a
      rw [List.foldl_cons, ih, hf, List.flatMap_cons, List.append_assoc]
  unfold merge
  rw [hfold, hempty, List.nil_append]

/-- Documents in another order have the same declarations in another order. -/
theorem SameUpToOrder.merge (h : docs.Perm docs') :
    (Content.merge docs).SameUpToOrder (Content.merge docs') := by
  have hlist : ∀ {α : Type} (f : Content → List α), f {} = [] →
      (∀ a b, f (a.append b) = f a ++ f b) →
        (f (Content.merge docs)).Perm (f (Content.merge docs')) := by
    intro α f hempty hf
    rw [list_merge hempty hf, list_merge hempty hf]
    exact h.flatMap_right f
  exact {
    services := hlist (·.services) rfl fun _ _ => rfl
    routes := hlist (·.routes) rfl fun _ _ => rfl
    plugins := hlist (·.plugins) rfl fun _ _ => rfl
    consumers := hlist (·.consumers) rfl fun _ _ => rfl
    consumerGroups := hlist (·.consumerGroups) rfl fun _ _ => rfl
    upstreams := hlist (·.upstreams) rfl fun _ _ => rfl
    targets := hlist (·.targets) rfl fun _ _ => rfl
    certificates := hlist (·.certificates) rfl fun _ _ => rfl
    snis := hlist (·.snis) rfl fun _ _ => rfl
    caCertificates := hlist (·.caCertificates) rfl fun _ _ => rfl
    vaults := hlist (·.vaults) rfl fun _ _ => rfl
    keySets := hlist (·.keySets) rfl fun _ _ => rfl
    keys := hlist (·.keys) rfl fun _ _ => rfl
    partials := hlist (·.partials) rfl fun _ _ => rfl
    licenses := hlist (·.licenses) rfl fun _ _ => rfl
    roles := hlist (·.roles) rfl fun _ _ => rfl
    permissions := hlist (·.permissions) rfl fun _ _ => rfl
    customObjects := hlist (·.customObjects) rfl fun _ _ => rfl }

/-- What is declared on its own comes in another order as well. -/
theorem SameUpToOrder.plainEntities (h : c.SameUpToOrder c') :
    c.plainEntities.Perm c'.plainEntities := by
  unfold Content.plainEntities
  exact ((((((((((h.plugins.map _).append (h.targets.map _)).append (h.snis.map _)).append
    (h.caCertificates.map _)).append (h.vaults.map _)).append (h.keys.map _)).append
    (h.partials.map _)).append (h.licenses.map _)).append (h.permissions.map _)).append
    (h.customObjects.map _))

end Content

/-! ### Flattening -/

/-- What is flattened into the images of its entities looks at nothing but the ids that it takes: an
image that renames nothing is the entity itself. -/
theorem isLocal_of_image {x : Planning (List Entity)}
    (h : Follows Relabelling.unchanged.rename (List.Forall₂ (Entity.Image .unchanged)) x x) :
    Local x := by
  refine Follows.isLocal fun s es s' hes => ?_
  obtain ⟨n, hn, hall⟩ := h s es s' hes
  refine ⟨n, hn, fun t ht => ?_⟩
  obtain ⟨es', hes', himage⟩ := hall t ht
  refine ⟨es', hes', ?_⟩
  rw [← List.forall₂_eq_eq_eq]
  exact himage.imp fun _ _ h => (Entity.image_unchanged_iff.1 h).symm

/-- Declarations in another order take the same fresh ids in another order, and the entities that
they stand for come in another order. -/
theorem Content.SameUpToOrder.rearranges_flatten {c c' : Content} (h : c.SameUpToOrder c') :
    Rearranges List.Perm c.flatten c'.flatten := by
  have hself : ∀ e : Entity, e.Image .unchanged e := fun e => Entity.image_unchanged_iff.2 rfl
  have hfixed : ∀ fk : ForeignKey, ∀ id ∈ fk.id, Relabelling.unchanged.rename id = id :=
    fun _ _ _ => rfl
  unfold Content.flatten
  refine (Rearranges.mapM (fun d => isLocal_of_image
    (ServiceDecl.image_self fun e _ => hself e).follows_flatten) h.services).bind fun _ _ h₁ => ?_
  refine (Rearranges.mapM (fun d => isLocal_of_image
    ((RouteDecl.image_self fun e _ => hself e).follows_flatten .none)) h.routes).bind
      fun _ _ h₂ => ?_
  refine (Rearranges.mapM (fun d => isLocal_of_image
    (ConsumerDecl.image_self (fun e _ => hself e) fun fk _ => hfixed fk).follows_flatten)
      h.consumers).bind fun _ _ h₃ => ?_
  refine (Rearranges.mapM (fun d => isLocal_of_image
    (ConsumerGroupDecl.image_self (fun e _ => hself e) fun fk _ => hfixed fk).follows_flatten)
      h.consumerGroups).bind fun _ _ h₄ => ?_
  refine (Rearranges.mapM (fun d => isLocal_of_image
    (UpstreamDecl.image_self fun e _ => hself e).follows_flatten) h.upstreams).bind
      fun _ _ h₅ => ?_
  refine (Rearranges.mapM (fun d => isLocal_of_image
    (CertificateDecl.image_self fun e _ => hself e).follows_flatten) h.certificates).bind
      fun _ _ h₆ => ?_
  refine (Rearranges.mapM (fun d => isLocal_of_image
    (KeySetDecl.image_self fun e _ => hself e).follows_flatten) h.keySets).bind fun _ _ h₇ => ?_
  refine (Rearranges.mapM (fun d => isLocal_of_image
    (RoleDecl.image_self fun e _ => hself e).follows_flatten) h.roles).bind fun _ _ h₈ => ?_
  have hnested := ((((((h₁.append h₂).append h₃).append h₄).append h₅).append h₆).append h₇).append
    h₈
  exact .pure (hnested.flatten.append h.plainEntities)

/-- Flattening looks at nothing but the ids that it takes. -/
theorem Content.isLocal_flatten (c : Content) : Local c.flatten :=
  isLocal_of_image (Content.image_self fun _ _ => rfl).follows_flatten

/-! ### Declarations that overtake others -/

namespace Resolution

/-- It does not show which of two declarations came first: where both give up an id to which one of
all declarations refers, they end up as one object, and where they end up as one object, they are
written alike. -/
structure Exchangeable (all : List (Entity × Reference)) (p q : Entity × Reference) : Prop where
  moves : ∀ x ∈ all, ∀ l ∈ x.1.links, ∀ a ∈ l.2.id, GivesUp l.1 a p → GivesUp l.1 a q → p.2 = q.2
  alike : p.2 = q.2 → p.1.WrittenAlike q.1

/-- Declarations and what they end up as, in two orders: wherever one of them overtakes another, it
does not show which of the two came first. A number tells each declaration from others that are the
same. -/
structure OvertakesFreely (ps qs : List ((Entity × Reference) × Nat)) : Prop where
  perm : ps.Perm qs
  numbers : (ps.map Prod.snd).Nodup
  exchangeable : ∀ a b, [a, b].Sublist ps → [b, a].Sublist qs →
    Exchangeable (ps.map Prod.fst) a.1 b.1

section

variable {all all' : List (Entity × Reference)} {p q : Entity × Reference}
  {ps qs : List ((Entity × Reference) × Nat)} {es es' : List Entity}

/-- It makes no difference which of the two is named first. -/
theorem Exchangeable.symm (h : Exchangeable all p q) (hsub : ∀ x ∈ all', x ∈ all) :
    Exchangeable all' q p where
  moves x hx l hl a ha hq hp := (h.moves x (hsub x hx) l hl a ha hp hq).symm
  alike heq :=
    have halike := h.alike heq.symm
    ⟨halike.id?.symm, halike.createdAt.symm, halike.updatedAt.symm, halike.settings.symm⟩

/-- Declarations that end up as different objects are written alike if they end up as one. -/
theorem exchangeable_of_nodup (hnodup : (all.map Prod.snd).Nodup) (hp : p ∈ all) (hq : q ∈ all)
    (hmoves : ∀ x ∈ all, ∀ l ∈ x.1.links, ∀ a ∈ l.2.id, GivesUp l.1 a p → GivesUp l.1 a q →
      p.2 = q.2) : Exchangeable all p q := by
  refine ⟨hmoves, fun heq => ?_⟩
  obtain rfl : p = q := List.inj_on_of_nodup_map hnodup hp hq heq
  exact ⟨rfl, rfl, rfl, rfl⟩

/-- What overtakes freely in one direction does so in the other. -/
theorem OvertakesFreely.symm (h : OvertakesFreely ps qs) : OvertakesFreely qs ps where
  perm := h.perm.symm
  numbers := (h.perm.map Prod.snd).nodup h.numbers
  exchangeable a b hab hba := (h.exchangeable b a hba hab).symm
    fun _ hx => (h.perm.symm.map Prod.fst).subset hx

/-- An id of a kind is one to which one of all declarations refers. -/
def IsReferredTo (all : List (Entity × Reference)) (kind : Kind) (a : String) : Prop :=
  ∃ x ∈ all, ∃ l ∈ x.1.links, l.1 = kind ∧ l.2.id = some a

/-- These ids are all that declarations refer to. -/
theorem covers_isReferredTo (all : List (Entity × Reference)) :
    Covers (IsReferredTo all) all where
  referable := by
    rintro _ a ⟨x, -, l, hl, rfl, -⟩
    exact Detail.isReferable_of_mem_links hl
  links x hx l hl a ha := ⟨x, hx, l, hl, rfl, ha⟩

/-- Kinds are resolved in one order, so no declaration overtakes one of another kind. -/
theorem kind_eq_of_overtaking {a b : (Entity × Reference) × Nat}
    (hps : (ps.map Prod.fst).map Prod.fst = inOrder es)
    (hqs : (qs.map Prod.fst).map Prod.fst = inOrder es')
    (hab : [a, b].Sublist ps) (hba : [b, a].Sublist qs) : a.1.1.kind = b.1.1.kind := by
  have hle := pairwise_rank_inOrder es
  have hge := pairwise_rank_inOrder es'
  rw [← hps, List.pairwise_map, List.pairwise_map] at hle
  rw [← hqs, List.pairwise_map, List.pairwise_map] at hge
  have hle := hle.sublist hab
  have hge := hge.sublist hba
  rw [List.pairwise_pair] at hle hge
  exact Kind.rank_inj (Nat.le_antisymm hle hge)

/-- So one of the orders can be reached from the other by declarations that can change places. -/
theorem OvertakesFreely.reordered (h : OvertakesFreely ps qs)
    (hps : (ps.map Prod.fst).map Prod.fst = inOrder es)
    (hqs : (qs.map Prod.fst).map Prod.fst = inOrder es') :
    Reordered (CanSwap (IsReferredTo (ps.map Prod.fst))) (ps.map Prod.fst) (qs.map Prod.fst) := by
  refine (Reordered.of_overtaking h.perm fun a b hab hba => ?_).map fun _ _ hswap => hswap
  have hfree := h.exchangeable a b hab hba
  refine ⟨kind_eq_of_overtaking hps hqs hab hba, ?_, hfree.alike⟩
  rintro _ id ⟨x, hx, l, hl, rfl, hid⟩
  exact hfree.moves x hx l hl id hid

end

end Resolution

/-! ### Resolving -/

namespace Content

open Resolution

variable {c c' : Content} {o : Options} {current desired : State} {s : IdSupply} {n : Nat}

/-- A document asks for a state and takes as many fresh ids, and the order in which another document
has its declarations makes no difference: flattening the other one leads to the same entities in
another order, with the same fresh ids in another order, and where a declaration overtakes another
one, it does not show which of the two came first. -/
def ResolvesFreely (c c' : Content) (current : State) (o : Options) (s : IdSupply) (n : Nat)
    (desired : State) : Prop :=
  Yields (c.resolve current o) s desired (s.after n) ∧ ∃ taken taken' es es' refs ps qs,
    s.Offers taken ∧ Takes c.flatten taken es ∧ taken'.Perm taken ∧ Takes c'.flatten taken' es' ∧
      Yields (c.finalIds current o) s refs (s.after n) ∧
        ps.map Prod.fst = (inOrder es).zip refs ∧
          (qs.map Prod.fst).map Prod.fst = inOrder es' ∧ OvertakesFreely ps qs

/-- Where it never shows which of two declarations came first, a document can be put into any
order. -/
theorem SameUpToOrder.resolvesFreely {es : List Entity} {refs : List Reference} {t : IdSupply}
    (h : c.SameUpToOrder c') (hres : Yields (c.resolve current o) s desired (s.after n))
    (hes : Yields c.flatten s es t) (hrefs : Yields (c.finalIds current o) s refs (s.after n))
    (hfree : ∀ p ∈ (inOrder es).zip refs, ∀ q ∈ (inOrder es).zip refs,
      Exchangeable ((inOrder es).zip refs) p q) : c.ResolvesFreely c' current o s n desired := by
  obtain ⟨taken, hoffers, rfl, hflat⟩ := c.isLocal_flatten s es t hes
  obtain ⟨taken₁, hoffers₁, hafter, taken', es', hperm, hflat', hesPerm⟩ :=
    h.rearranges_flatten s es _ hes
  have hlength : taken.length = taken₁.length := IdSupply.after_inj hafter
  obtain rfl : taken = taken₁ := by rw [← hoffers, ← hoffers₁, hlength]
  obtain ⟨es₂, t₂, r₂, hes₂, -, hplace⟩ := yields_finalIds_iff.1 hrefs
  obtain ⟨rfl, rfl⟩ := hes.unique hes₂
  have hps : ((inOrder es).zip refs).zipIdx.map Prod.fst = (inOrder es).zip refs :=
    List.zipIdx_map_fst 0 _
  have hordered :
      (inOrder es').Perm (((inOrder es).zip refs).zipIdx.map (Prod.fst ∘ Prod.fst)) := by
    rw [← List.map_map, hps, List.map_fst_zip (forall₂_of_placeAll hplace).length_eq.le]
    exact List.Perm.flatMap_left _ fun kind _ => (hesPerm.filter _).symm
  obtain ⟨qs, hqsPerm, hqs⟩ := exists_perm_of_map hordered
  rw [← List.map_map] at hqs
  refine ⟨hres, taken, taken', es, es', refs, _, qs, hoffers, hflat, hperm, hflat', hrefs, hps, hqs,
    hqsPerm.symm, List.nodup_zipIdx_map_snd _, fun a b hab _ => ?_⟩
  rw [hps]
  have hmem : ∀ x ∈ [a, b], x.1 ∈ (inOrder es).zip refs := fun x hx => by
    rw [← hps]
    exact List.mem_map_of_mem (hab.subset hx)
  exact hfree a.1 (hmem a (by simp)) b.1 (hmem b (by simp))

/-- A document asks for the same state in the order of another one, where the same fresh ids are
handed out in the order that goes with it. -/
theorem ResolvesFreely.exists_reordered (h : c.ResolvesFreely c' current o s n desired) :
    ∃ u : IdSupply, (u.next n).Perm (s.next n) ∧ c'.ResolvesFreely c current o u n desired := by
  obtain ⟨hres, first, first', es, es', refs, ps, qs, hfirst, hflat, hfirstPerm, hflat', hrefs, hps,
    hqs, hfree⟩ := h
  obtain ⟨hcheck, r, rfl, hplace⟩ :=
    (yields_resolve_finalIds_iff (hflat s hfirst)).1 ⟨hres, hrefs⟩
  have hfst : (ps.map Prod.fst).map Prod.fst = inOrder es := by
    rw [hps]
    exact List.map_fst_zip (forall₂_of_placeAll hplace).length_eq.le
  obtain ⟨later, hall, hlater, hafter⟩ := placedAll_iff.1 (placedAll_of_placeAll hplace)
  rw [IdSupply.after_after, ← List.length_append] at hafter
  obtain rfl : n = (first ++ later).length := IdSupply.after_inj hafter
  -- in the other order the declarations take the same ids, but not one after the other
  rw [← hps] at hall
  obtain ⟨later', r', hall', hlaterPerm, hsame⟩ :=
    hall.reorder (hfree.reordered hfst hqs) (covers_isReferredTo _) (.refl _)
  have htaken : (first' ++ later').Perm (first ++ later) := hfirstPerm.append hlaterPerm
  have hlength : (first' ++ later').length = (first ++ later).length := htaken.length_eq
  -- so the other document is resolved by a supply that hands them out as they are taken there
  obtain ⟨u, hu⟩ := IdSupply.exists_offers (first' ++ later')
  obtain ⟨hu₁, hu₂⟩ := IdSupply.offers_append.1 hu
  have hcheck' : o.check es' = .ok () := by
    rw [Options.check_eq_ok_iff] at hcheck ⊢
    intro e he
    have hmem : e ∈ inOrder es := by
      rw [← hfst]
      exact ((hfree.perm.symm.map _).map _).subset (hqs ▸ mem_inOrder.2 he)
    exact hcheck e (mem_inOrder.1 hmem)
  have hplace' := (placedAll_iff.2 ⟨later', hall', hu₂, rfl⟩).yields_placeAll
  rw [hqs, IdSupply.after_after, ← List.length_append, hlength] at hplace'
  have hzip : qs.map Prod.fst = (inOrder es').zip ((qs.map Prod.fst).map Prod.snd) := by
    rw [← hqs, ← List.unzip_fst (l := qs.map Prod.fst), ← List.unzip_snd]
    exact (List.zip_unzip _).symm
  obtain ⟨hres', hrefs'⟩ :=
    (yields_resolve_finalIds_iff (hflat' u hu₁)).2 ⟨hcheck', r', hsame.desired, hplace'⟩
  refine ⟨u, ?_, hres', first', first, es', es, _, qs, ps, hu₁, hflat', hfirstPerm.symm, hflat,
    hrefs', hzip, hfst, hfree.symm⟩
  rw [← hlength, hu, hlength, IdSupply.offers_append.2 ⟨hfirst, hlater⟩]
  exact htaken

end Content

end Gateway
