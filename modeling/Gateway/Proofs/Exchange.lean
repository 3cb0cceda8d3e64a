import Gateway.Proofs.Admission

/-!
# Declarations that change places

Two declarations of one kind that follow each other can change places (`Resolution.Admitted.swap`),
provided that they are written alike if they end up as one object: either they do not see each
other, or they are the same once their references are resolved
(`Resolution.candidate_eq_of_repeatedBy`). What is noted of ids is the same in both orders, but for
ids that both give up to different objects (`Resolution.SameOn.of_swap`).

Every other order of a list can be reached by having neighbours change places, and only those of
which one overtakes the other need to do so (`Reordered.of_overtaking`). So declarations can be put
into another order where those that overtake each other can change places
(`Resolution.AdmittedAll.reorder`).
-/

namespace Gateway

open Planning

/-! ### Lists in another order -/

section reordered

variable {α β : Type} {R : α → α → Prop} {Q : β → β → Prop} {as bs before : List α}

/-- A list in another order, which is reached by neighbours that change places. -/
inductive Reordered (R : α → α → Prop) : List α → List α → Prop
  | nil : Reordered R [] []
  | cons (a : α) {as bs : List α} (h : Reordered R as bs) : Reordered R (a :: as) (a :: bs)
  | swap (a b : α) (rest : List α) (h : R a b) : Reordered R (a :: b :: rest) (b :: a :: rest)
  | trans {as bs cs : List α} (h : Reordered R as bs) (h' : Reordered R bs cs) : Reordered R as cs

namespace Reordered

theorem refl : ∀ as : List α, Reordered R as as
  | [] => .nil
  | a :: as => .cons a (refl as)

/-- A reordering repeats and drops nothing. -/
theorem perm (h : Reordered R as bs) : as.Perm bs := by
  induction h with
  | nil => exact .nil
  | cons a _ ih => exact ih.cons a
  | swap a b rest _ => exact .swap b a rest
  | trans _ _ ih ih' => exact ih.trans ih'

theorem map {f : α → β} (h : Reordered R as bs) (hR : ∀ a b, R a b → Q (f a) (f b)) :
    Reordered Q (as.map f) (bs.map f) := by
  induction h with
  | nil => exact .nil
  | cons a _ ih => exact .cons (f a) ih
  | swap a b rest h => exact .swap (f a) (f b) (rest.map f) (hR a b h)
  | trans _ _ ih ih' => exact ih.trans ih'

/-- A member comes to the front when it overtakes all that stand before it. -/
theorem to_front {b : α} (after : List α) (h : ∀ a ∈ before, R a b) :
    Reordered R (before ++ b :: after) (b :: (before ++ after)) := by
  induction before with
  | nil => exact .refl _
  | cons a rest ih =>
    have hrest := ih fun x hx => h x (List.mem_cons_of_mem _ hx)
    exact (Reordered.cons a hrest).trans (.swap a b _ (h a List.mem_cons_self))

/-- Only members one of which overtakes the other need to change places. -/
theorem of_overtaking (hperm : as.Perm bs)
    (h : ∀ a b, [a, b].Sublist as → [b, a].Sublist bs → R a b) : Reordered R as bs := by
  induction bs generalizing as with
  | nil =>
    obtain rfl := hperm.eq_nil
    exact .nil
  | cons b bs ih =>
    obtain ⟨before, after, rfl⟩ := List.append_of_mem (hperm.symm.subset List.mem_cons_self)
    have hrest : (before ++ after).Perm bs := (List.perm_middle.symm.trans hperm).cons_inv
    have hfront : Reordered R (before ++ b :: after) (b :: (before ++ after)) := by
      refine to_front after fun a ha => h a b ?_ ?_
      · exact (List.singleton_sublist.2 ha).append (List.singleton_sublist.2 List.mem_cons_self)
      · refine (List.singleton_sublist.2 ?_).cons_cons b
        exact hrest.subset (List.mem_append_left _ ha)
    refine hfront.trans (.cons b (ih hrest fun a c hac hca => h a c ?_ (hca.cons b)))
    exact hac.trans ((List.sublist_cons_self b after).append_left before)

end Reordered

end reordered

/-! ### Declarations that are written alike -/

namespace Detail

/-- Memberships that join the same by id are the same. -/
theorem eq_of_membership_key {d d' : Detail .membership}
    (hd : ∀ l ∈ links .membership d, ∃ id, l.2 = .byId id)
    (hd' : ∀ l ∈ links .membership d', ∃ id, l.2 = .byId id)
    (h : naturalKey? .membership d = naturalKey? .membership d') : d = d' := by
  obtain ⟨group, consumer⟩ := d
  obtain ⟨group', consumer'⟩ := d'
  obtain ⟨g, rfl⟩ : ∃ id, group = .byId id := hd _ List.mem_cons_self
  obtain ⟨c, rfl⟩ : ∃ id, consumer = .byId id := hd _ (List.mem_cons_of_mem _ List.mem_cons_self)
  obtain ⟨g', rfl⟩ : ∃ id, group' = .byId id := hd' _ List.mem_cons_self
  obtain ⟨c', rfl⟩ : ∃ id, consumer' = .byId id :=
    hd' _ (List.mem_cons_of_mem _ List.mem_cons_self)
  simp_all [naturalKey?, ForeignKey.byId]

/-- Plugins that refer by id are equal when they are the same and their configuration is equal. -/
theorem eq_of_same_plugin {p q : Plugin} (hp : ∀ l ∈ links .plugin p, ∃ id, l.2 = .byId id)
    (hq : ∀ l ∈ links .plugin q, ∃ id, l.2 = .byId id)
    (h : Record.Same Kind.plugin.ownFields (toRecord .plugin p) (toRecord .plugin q))
    (hconfig : p.config = q.config) (hordering : p.ordering = q.ordering) : p = q := by
  have option : ∀ {fk fk' : Option ForeignKey}, Option.Rel ForeignKey.Same fk fk' →
      (∀ x ∈ fk, ∃ id, x = .byId id) → (∀ x ∈ fk', ∃ id, x = .byId id) → fk = fk' := by
    rintro _ _ (⟨hsame⟩ | _) hfk hfk'
    · obtain ⟨id, rfl⟩ := hfk _ rfl
      obtain ⟨id', rfl⟩ := hfk' _ rfl
      have hid : id = id' := Option.some.inj hsame.id
      rw [hid]
    · rfl
  simp only [toRecord, Record.Same, FieldType.Same] at h
  obtain ⟨hname, hinstance, hservice, hroute, hconsumer, hgroup, -, henabled, hprotocols, -,
    hpartials, -⟩ := h
  simp only [links, List.forall_mem_append, List.forall_mem_map, Option.mem_toList] at hp hq
  obtain ⟨⟨⟨⟨hpService, hpRoute⟩, hpConsumer⟩, hpGroup⟩, -⟩ := hp
  obtain ⟨⟨⟨⟨hqService, hqRoute⟩, hqConsumer⟩, hqGroup⟩, -⟩ := hq
  have hservice : p.service = q.service := option hservice hpService hqService
  have hroute : p.route = q.route := option hroute hpRoute hqRoute
  have hconsumer : p.consumer = q.consumer := option hconsumer hpConsumer hqConsumer
  have hgroup : p.consumerGroup = q.consumerGroup := option hgroup hpGroup hqGroup
  cases p
  cases q
  simp_all

/-- References of a plugin are replaced, and its configuration is not. -/
theorem config_relink {find : Kind → ForeignKey → Except PlanError String} {p q : Plugin}
    (h : relink find .plugin p = .ok q) : q.config = p.config ∧ q.ordering = p.ordering := by
  simp only [relink, Except.bind_eq_ok_iff, Except.pure_eq_ok_iff] at h
  obtain ⟨_, -, _, -, _, -, _, -, _, -, rfl⟩ := h
  exact ⟨rfl, rfl⟩

end Detail

namespace Entity

/-- What a plugin is configured with, to the letter. -/
def settings : Entity → List (Option Value)
  | ⟨.plugin, r⟩ => [some (.map r.detail.config), r.detail.ordering]
  | _ => []

/-- The same id, the same time stamps and, to the letter, the same configuration. -/
structure WrittenAlike (a b : Entity) : Prop where
  id? : a.id? = b.id?
  createdAt : a.resource.createdAt = b.resource.createdAt
  updatedAt : a.resource.updatedAt = b.resource.updatedAt
  settings : a.settings = b.settings

end Entity

namespace Resolution

variable {r r₁ r₂ r' : Resolution} {e e₁ e₂ x linked linked₁ linked₂ : Entity} {s s' : IdSupply}
  {taken taken₁ taken₂ : List String} {id id₁ id₂ : String} {ref ref₁ ref₂ : Reference}
  {desired₁ desired₂ : State} {used : Kind → String → Prop}

/-! ### Two declarations -/

/-- A declaration that repeats another one which is written alike is the same as that one, once
their references are resolved. -/
theorem candidate_eq_of_repeatedBy (hlink₁ : r.link e₁ = .ok linked₁)
    (hlink₂ : r.link e₂ = .ok linked₂) (halike : e₁.WrittenAlike e₂)
    (h : RepeatedBy (r.candidate linked₁) (r.candidate linked₂)) :
    r.candidate linked₂ = r.candidate linked₁ := by
  have hbyId₁ : ∀ l ∈ linked₁.links, ∃ id, l.2 = .byId id :=
    fun l hl => Entity.exists_byId_of_mem_links hlink₁ hl
  have hbyId₂ : ∀ l ∈ linked₂.links, ∃ id, l.2 = .byId id :=
    fun l hl => Entity.exists_byId_of_mem_links hlink₂ hl
  have hwf₁ : ∀ l ∈ (r.candidate linked₁).links, l.2.WellFormed := by
    rw [links_candidate]
    exact wellFormed_of_byId hbyId₁
  have hwf₂ : ∀ l ∈ (r.candidate linked₂).links, l.2.WellFormed := by
    rw [links_candidate]
    exact wellFormed_of_byId hbyId₂
  obtain ⟨hkinds, hkeys, -⟩ := h.sameKey
  rw [kind_candidate, kind_candidate] at hkinds
  obtain ⟨d₁, hd₁, rfl⟩ := Entity.relink_eq_ok_iff.1 hlink₁
  obtain ⟨d₂, hd₂, rfl⟩ := Entity.relink_eq_ok_iff.1 hlink₂
  obtain ⟨k, x₁⟩ := e₁
  obtain ⟨k', x₂⟩ := e₂
  obtain rfl : k' = k := hkinds
  obtain ⟨hid, hcreated, hupdated, hsettings⟩ := halike
  rcases h.again with hk | ⟨hk, -, hbody⟩
  · rw [kind_candidate] at hk
    obtain rfl : k' = .membership := hk
    obtain rfl : d₁ = d₂ := Detail.eq_of_membership_key hbyId₁ hbyId₂ hkeys.symm
    exact congrArg (Entity.mk .membership) (Resource.ext_of rfl rfl rfl hcreated.symm hupdated.symm)
  · rw [kind_candidate] at hk
    obtain rfl : k' = .plugin := hk
    obtain ⟨hsame, htags⟩ := (Entity.sameBody_iff (k := .plugin) hwf₁ hwf₂).1 hbody
    simp only [Entity.settings, List.cons.injEq, Option.some.injEq, Value.map.injEq] at hsettings
    obtain ⟨hconfig₁, hordering₁⟩ := Detail.config_relink hd₁
    obtain ⟨hconfig₂, hordering₂⟩ := Detail.config_relink hd₂
    obtain rfl : d₁ = d₂ := Detail.eq_of_same_plugin hbyId₁ hbyId₂ hsame
      (hconfig₁.trans (hsettings.1.trans hconfig₂.symm))
      (hordering₁.trans (hsettings.2.1.trans hordering₂.symm))
    exact congrArg (Entity.mk .plugin)
      (Resource.ext_of hid.symm rfl htags.symm hcreated.symm hupdated.symm)

/-- What is added goes by the id it was given. -/
theorem ref_withId_candidate : ((r.candidate linked).withId id).ref = ⟨linked.kind, id⟩ := by
  rw [Entity.ref, Entity.kind_withId, kind_candidate, Entity.idText_withId]

/-- Two declarations are resolved in the other order and end up as the same objects, with the same
fresh ids. -/
def Exchanged (r : Resolution) (e₁ e₂ : Entity) (ref₁ ref₂ : Reference) (taken : List String)
    (desired : State) : Prop :=
  ∃ r₁ r₂ l₁ l₂, Admitted r e₂ l₂ ref₂ r₁ ∧ Admitted r₁ e₁ l₁ ref₁ r₂ ∧ (l₂ ++ l₁).Perm taken ∧
    r₂.desired = desired

section exchange

variable (hk : e₁.kind = e₂.kind) (hlink₁ : r.link e₁ = .ok linked₁)

include hk hlink₁

/-- A declaration that repeats what is there already can wait. -/
theorem exchanged_of_repeated (hx : x ∈ r.desired) (hagain : RepeatedBy x (r.candidate linked₁))
    (h₂ : Admitted r e₂ taken₂ ref₂ r₂) : Exchanged r e₁ e₂ x.ref ref₂ taken₂ r₂.desired := by
  have hkept : x ∈ r₂.desired := by
    cases h₂ with
    | repeated _ _ _ => exact hx
    | added _ _ hadd => exact (State.mem_insert hadd).2 (.inr hx)
  have hcandidate : r₂.candidate linked₁ = r.candidate linked₁ := by cases h₂ <;> rfl
  have hfirst := Admitted.repeated ((h₂.link_iff hk.symm).2 hlink₁) hkept (hcandidate ▸ hagain)
  exact ⟨r₂, r₂, [], taken₂, h₂, hfirst, by rw [List.append_nil], rfl⟩

variable (henters₁ : r.Enters (r.candidate linked₁) taken₁ id₁)
  (hadd₁ : r.desired.insert ((r.candidate linked₁).withId id₁) = .ok desired₁)
  (hlink₂ : r.link e₂ = .ok linked₂)

include henters₁ hadd₁ hlink₂

/-- Of two declarations, the second of which repeats the first, either can be the one that is
added. -/
theorem exchanged_of_repeated_new (halike : e₁.WrittenAlike e₂)
    (hagain : RepeatedBy ((r.candidate linked₁).withId id₁) (r.candidate linked₂)) :
    Exchanged r e₁ e₂ ⟨linked₁.kind, id₁⟩ ⟨linked₁.kind, id₁⟩ taken₁ desired₁ := by
  have hsame : r.candidate linked₂ = r.candidate linked₁ :=
    candidate_eq_of_repeatedBy hlink₁ hlink₂ halike ⟨hagain.sameKey, hagain.again⟩
  have hkinds : linked₂.kind = linked₁.kind := by
    rw [← kind_candidate (r := r), hsame, kind_candidate]
  have hagain₁ : RepeatedBy ((r.candidate linked₂).withId id₁) (r.candidate linked₁) := by
    rw [hsame] at hagain ⊢
    exact hagain
  rw [← hsame] at henters₁ hadd₁
  have hsecond := Admitted.added hlink₂ henters₁ hadd₁
  have hfirst := Admitted.repeated ((hsecond.link_iff hk.symm).2 hlink₁)
    (State.mem_insert_self hadd₁) hagain₁
  rw [ref_withId_candidate, hkinds] at hfirst
  rw [hkinds] at hsecond
  exact ⟨_, _, [], taken₁, hsecond, hfirst, by rw [List.append_nil], rfl⟩

/-- Two declarations that are both added can be added in the other order. -/
theorem exchanged_of_added (henters₂ : r₁.Enters (r.candidate linked₂) taken₂ id₂)
    (hadd₂ : desired₁.insert ((r.candidate linked₂).withId id₂) = .ok desired₂)
    (hdesired : r₁.desired = desired₁) (hcurrent : r.current = r₁.current)
    (hvisible : r.visible = r₁.visible) :
    Exchanged r e₁ e₂ ⟨linked₁.kind, id₁⟩ ⟨linked₂.kind, id₂⟩ (taken₁ ++ taken₂) desired₂ := by
  have hmem : (r.candidate linked₁).withId id₁ ∈ r₁.desired := by
    rw [hdesired]
    exact State.mem_insert_self hadd₁
  have hsub : ∀ x ∈ r.desired, x ∈ r₁.desired := by
    intro x hx
    rw [hdesired]
    exact (State.mem_insert hadd₁).2 (.inr hx)
  have henters₂' := henters₂.mono hcurrent hvisible hsub
  obtain ⟨desired₂', hadd₂'⟩ := henters₂'.exists_insert
  have hsecond := Admitted.added hlink₂ henters₂' hadd₂'
  have henters₁' : Enters
      { r with desired := desired₂', moves := r.moves.settle (r.candidate linked₂) id₂ }
      (r.candidate linked₁) taken₁ id₁ := by
    refine henters₁.after_insert hadd₂' (fun hkey => ?_) (fun hkind hid => ?_) rfl rfl rfl
    · exact henters₂.unkeyed _ hmem hkey.symm
    · exact State.contains_eq_false_iff.1 henters₂.unused _ hmem hkind.symm hid.symm
  obtain ⟨desired₁', hadd₁'⟩ := henters₁'.exists_insert
  have hfirst := Admitted.added ((hsecond.link_iff hk.symm).2 hlink₁) henters₁' hadd₁'
  refine ⟨_, _, taken₁, taken₂, hsecond, hfirst, List.perm_append_comm, ?_⟩
  refine State.ext_mem fun x => ?_
  rw [State.mem_insert hadd₁', State.mem_insert hadd₂', State.mem_insert hadd₂,
    State.mem_insert hadd₁]
  exact or_left_comm

end exchange

/-- Two declarations of one kind can change places, where they are written alike if they end up as
one object. -/
theorem Admitted.swap (h₁ : Admitted r e₁ taken₁ ref₁ r₁) (h₂ : Admitted r₁ e₂ taken₂ ref₂ r₂)
    (hk : e₁.kind = e₂.kind) (halike : ref₁ = ref₂ → e₁.WrittenAlike e₂) :
    Exchanged r e₁ e₂ ref₁ ref₂ (taken₁ ++ taken₂) r₂.desired := by
  have hlink : ∀ linked, r₁.link e₂ = .ok linked → r.link e₂ = .ok linked :=
    fun linked => (h₁.link_iff hk).1
  cases h₁ with
  | repeated hlink₁ hx hagain₁ => exact exchanged_of_repeated hk hlink₁ hx hagain₁ h₂
  | @added linked₁ _ id₁ desired₁ hlink₁ henters₁ hadd₁ =>
    cases h₂ with
    | @repeated linked₂ y hlink₂ hy hagain₂ =>
      have hlink₂ := hlink _ hlink₂
      rw [List.append_nil]
      rcases (State.mem_insert hadd₁).1 hy with rfl | hy
      · rw [ref_withId_candidate] at halike ⊢
        exact exchanged_of_repeated_new hk hlink₁ henters₁ hadd₁ hlink₂ (halike rfl)
          ⟨hagain₂.sameKey, hagain₂.again⟩
      · exact ⟨_, _, _, [], .repeated hlink₂ hy hagain₂, .added hlink₁ henters₁ hadd₁, .refl _, rfl⟩
    | added hlink₂ henters₂ hadd₂ =>
      exact exchanged_of_added hk hlink₁ henters₁ hadd₁ (hlink _ hlink₂) henters₂ hadd₂ rfl rfl
        rfl

/-- After two declarations it does not matter which came first, but for ids that they both give up
to different objects. -/
theorem SameOn.of_swap {r₁' r₂' : Resolution} {l₁ l₂ : List String}
    (h₁ : Admitted r e₁ taken₁ ref₁ r₁) (h₂ : Admitted r₁ e₂ taken₂ ref₂ r₂)
    (h₂' : Admitted r e₂ l₂ ref₂ r₁') (h₁' : Admitted r₁' e₁ l₁ ref₁ r₂')
    (hdesired : r₂'.desired = r₂.desired)
    (hused : ∀ kind a, used kind a → Entity.isReferable kind = true)
    (hmoves : ∀ kind a, used kind a → GivesUp kind a (e₁, ref₁) → GivesUp kind a (e₂, ref₂) →
      ref₁ = ref₂) : SameOn used r₂ r₂' := by
  obtain ⟨ho₁, hc₁, hv₁⟩ := h₁.frame
  obtain ⟨ho₂, hc₂, hv₂⟩ := h₂.frame
  obtain ⟨ho₁', hc₁', hv₁'⟩ := h₂'.frame
  obtain ⟨ho₂', hc₂', hv₂'⟩ := h₁'.frame
  refine ⟨?_, ?_, ?_, hdesired, fun kind a ha => ?_⟩
  · rw [ho₂', ho₁', ho₂, ho₁]
  · rw [hc₂', hc₁', hc₂, hc₁]
  · rw [hv₂', hv₁', hv₂, hv₁]
  · have hkind := hused kind a ha
    rw [h₂.resolve_eq_ite hkind, h₁.resolve_eq_ite hkind, h₁'.resolve_eq_ite hkind,
      h₂'.resolve_eq_ite hkind]
    by_cases hfirst : GivesUp kind a (e₁, ref₁)
    · by_cases hsecond : GivesUp kind a (e₂, ref₂)
      · rw [if_pos hfirst, if_pos hsecond, hmoves kind a ha hfirst hsecond]
      · rw [if_pos hfirst, if_neg hsecond, if_pos hfirst]
    · rw [if_neg hfirst, if_neg hfirst]

/-! ### Many declarations -/

/-- What becomes of declarations one after the other, and the fresh ids that they take. -/
inductive AdmittedAll : Resolution → List String → List (Entity × Reference) → Resolution → Prop
  | nil (r : Resolution) : AdmittedAll r [] [] r
  | cons {r r₁ r' : Resolution} {e : Entity} {ref : Reference} {taken later : List String}
      {rest : List (Entity × Reference)} (h : Admitted r e taken ref r₁)
      (hrest : AdmittedAll r₁ later rest r') : AdmittedAll r (taken ++ later) ((e, ref) :: rest) r'

/-- Placing declarations is admitting them, where the supply offers the fresh ids that they take. -/
theorem placedAll_iff {ps : List (Entity × Reference)} : PlacedAll r s ps r' s' ↔ ∃ taken,
    AdmittedAll r taken ps r' ∧ s.Offers taken ∧ s' = s.after taken.length := by
  constructor
  · intro h
    induction h with
    | nil r s => exact ⟨[], .nil r, s.offers_nil, rfl⟩
    | cons hfirst _ ih =>
      obtain ⟨taken, hadmitted, hoffers, rfl⟩ := placed_iff.1 hfirst
      obtain ⟨later, hrest, hlater, rfl⟩ := ih
      refine ⟨taken ++ later, .cons hadmitted hrest, IdSupply.offers_append.2 ⟨hoffers, hlater⟩, ?_⟩
      rw [IdSupply.after_after, List.length_append]
  · rintro ⟨taken, h, hoffers, rfl⟩
    induction h generalizing s with
    | nil r => exact .nil r s
    | cons hfirst _ ih =>
      obtain ⟨htaken, hlater⟩ := IdSupply.offers_append.1 hoffers
      have hrest := ih hlater
      rw [IdSupply.after_after, ← List.length_append] at hrest
      exact .cons (placed_iff.2 ⟨_, hfirst, htaken, rfl⟩) hrest

/-- What is used covers everything that declarations refer to. -/
structure Covers (used : Kind → String → Prop) (ps : List (Entity × Reference)) : Prop where
  referable : ∀ kind a, used kind a → Entity.isReferable kind = true
  links : ∀ p ∈ ps, ∀ l ∈ p.1.links, ∀ a, l.2.id = some a → used l.1 a

variable {ps qs : List (Entity × Reference)}

theorem Covers.mono (h : Covers used ps) (hsub : ∀ p ∈ qs, p ∈ ps) : Covers used qs :=
  ⟨h.referable, fun p hp => h.links p (hsub p hp)⟩

/-- What is noted of ids that no declaration refers to does not matter to any of them. -/
theorem AdmittedAll.congr (h : AdmittedAll r taken ps r₁) (hsame : SameOn used r r')
    (hused : Covers used ps) : ∃ r₁', AdmittedAll r' taken ps r₁' ∧ SameOn used r₁ r₁' := by
  induction h generalizing r' with
  | nil r => exact ⟨r', .nil r', hsame⟩
  | cons hfirst _ ih =>
    obtain ⟨r₂', hfirst', hsame₂⟩ :=
      hfirst.congr hsame (hused.links _ List.mem_cons_self) hused.referable
    obtain ⟨r₁', hrest', hsame₁⟩ := ih hsame₂ (hused.mono fun p hp => List.mem_cons_of_mem _ hp)
    exact ⟨r₁', .cons hfirst' hrest', hsame₁⟩

/-- Two declarations of one kind, of which it does not show which one came first: an id that is used
and that both give up is given up to one object, and they are written alike if they end up as one
object. -/
structure CanSwap (used : Kind → String → Prop) (p q : Entity × Reference) : Prop where
  kind : p.1.kind = q.1.kind
  moves : ∀ kind a, used kind a → GivesUp kind a p → GivesUp kind a q → p.2 = q.2
  alike : p.2 = q.2 → p.1.WrittenAlike q.1

/-- Two declarations that follow each other and can change places. -/
theorem AdmittedAll.swap {p q : Entity × Reference} {rest : List (Entity × Reference)}
    (h : AdmittedAll r taken (p :: q :: rest) r₁) (hswap : CanSwap used p q)
    (hused : Covers used (p :: q :: rest)) (hsame : SameOn used r r') :
    ∃ taken' r₁', AdmittedAll r' taken' (q :: p :: rest) r₁' ∧ taken'.Perm taken ∧
      SameOn used r₁ r₁' := by
  obtain ⟨e, ref⟩ := p
  obtain ⟨e', ref'⟩ := q
  have hlinks := hused.links (e, ref) List.mem_cons_self
  have hlinks' := hused.links (e', ref') (List.mem_cons_of_mem _ List.mem_cons_self)
  have hlater : Covers used rest :=
    hused.mono fun p hp => List.mem_cons_of_mem _ (List.mem_cons_of_mem _ hp)
  cases h with
  | cons h₁ hrest =>
    cases hrest with
    | cons h₂ hrest =>
      obtain ⟨r₁', r₂', l₁, l₂, h₂', h₁', hperm, hdesired⟩ := h₁.swap h₂ hswap.kind hswap.alike
      have hmet := SameOn.of_swap h₁ h₂ h₂' h₁' hdesired hused.referable hswap.moves
      obtain ⟨r₃, hsecond, hsame₃⟩ := h₂'.congr hsame hlinks' hused.referable
      obtain ⟨r₄, hfirst, hsame₄⟩ := h₁'.congr hsame₃ hlinks hused.referable
      obtain ⟨r₅, hall, hsame₅⟩ := hrest.congr (hmet.trans hsame₄) hlater
      refine ⟨_, r₅, .cons hsecond (.cons hfirst hall), ?_, hsame₅⟩
      rw [← List.append_assoc, ← List.append_assoc]
      exact hperm.append_right _

/-- Declarations in another order end up as the same objects, and take the same fresh ids in another
order. -/
theorem AdmittedAll.reorder (hps : Reordered (CanSwap used) ps qs) (h : AdmittedAll r taken ps r₁)
    (hused : Covers used ps) (hsame : SameOn used r r') :
    ∃ taken' r₁', AdmittedAll r' taken' qs r₁' ∧ taken'.Perm taken ∧ SameOn used r₁ r₁' := by
  induction hps generalizing r r' r₁ taken with
  | nil =>
    cases h
    exact ⟨[], r', .nil r', .nil, hsame⟩
  | cons p _ ih =>
    cases h with
    | cons hfirst hrest =>
      obtain ⟨r₂', hfirst', hsame₂⟩ :=
        hfirst.congr hsame (hused.links _ List.mem_cons_self) hused.referable
      obtain ⟨later', r₁', hrest', htaken, hsame₁⟩ :=
        ih hrest (hused.mono fun p hp => List.mem_cons_of_mem _ hp) hsame₂
      exact ⟨_, r₁', .cons hfirst' hrest', htaken.append_left _, hsame₁⟩
  | swap _ _ _ hswap => exact h.swap hswap hused hsame
  | trans hfirst _ ih ih' =>
    obtain ⟨taken₁, r₂, h₁, htaken₁, hsame₁⟩ := ih h hused (.refl r)
    obtain ⟨taken₂, r₃, h₂, htaken₂, hsame₂⟩ :=
      ih' h₁ (hused.mono fun p hp => hfirst.perm.symm.subset hp) hsame
    exact ⟨taken₂, r₃, h₂, htaken₂.trans htaken₁, hsame₁.trans hsame₂⟩

end Resolution

end Gateway
