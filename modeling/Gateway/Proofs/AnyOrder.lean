import Gateway.Proofs.Renewal
import Gateway.Sample

/-!
# Documents in any order

What documents ask for does not depend on the order in which they are given, but for fresh ids
(`Content.resolves_in_any_order`): the order of declarations is first made good for by the order in
which ids are handed out (`Content.ResolvesFreely.exists_reordered`), and then other ids are put in
their place (`Content.exists_renewed`).

This takes that it does not show of declarations of different documents which one came first. It
does where something refers to an id that declarations of one kind give up to different objects, and
where declarations that end up as one object are not written alike: of a group's plugins that say
the same the first one is kept, with its id and time stamps (`not_always_in_any_order`).
-/

namespace Gateway

open Planning Resolution

namespace Content

theorem SameUpToOrder.idTexts {c c' : Content} (h : c.SameUpToOrder c') :
    c.idTexts.Perm c'.idTexts := by
  have hdeclared : c.declared.Perm c'.declared := by
    unfold declared
    exact ((((((((h.services.flatMap_right _).append (h.routes.flatMap_right _)).append
      (h.consumers.flatMap_right _)).append (h.consumerGroups.flatMap_right _)).append
      (h.upstreams.flatMap_right _)).append (h.certificates.flatMap_right _)).append
      (h.keySets.flatMap_right _)).append (h.roles.flatMap_right _)).append h.plainEntities
  unfold Content.idTexts
  exact ((hdeclared.flatMap_right _).append ((h.consumers.flatMap_right _).filterMap _)).append
    ((h.consumerGroups.flatMap_right _).filterMap _)

section

variable {docs docs' : List Content} {o : Options} {current desired : State}
  {ids ids' : IdSupply} {n : Nat}

/-- Fresh ids that are unseen in documents are so in every order of the documents. -/
theorem unseen_merge (hperm : docs.Perm docs')
    (hfresh : Unseen ((merge docs).allIdTexts current) (ids.next n)) :
    Unseen ((merge docs').allIdTexts current) (ids.next n) :=
  hfresh.perm (.refl _) ((SameUpToOrder.merge hperm).idTexts.symm.append_right _)

/-- One order of the documents at a time: what can be resolved in one of them can be in the
other. -/
theorem exists_resolvesFreely_of_perm (hperm : docs.Perm docs')
    (hfresh : Unseen ((merge docs).allIdTexts current) (ids.next n))
    (hfresh' : Unseen ((merge docs).allIdTexts current) (ids'.next n))
    (hres : (merge docs).ResolvesFreely (merge docs') current o ids n desired) :
    ∃ φ desired', φ.Replaces (ids.next n) (ids'.next n) ∧
      (merge docs').ResolvesFreely (merge docs) current o ids' n desired' ∧
      State.Image φ desired desired' := by
  obtain ⟨u, hu, hsame⟩ := hres.exists_reordered
  have htexts := (unseen_merge hperm hfresh).perm hu (.refl _)
  obtain ⟨φ, desired', hreplaces, hres', himage⟩ := exists_renewed hsame
    (SameUpToOrder.merge hperm).idTexts.subset htexts (unseen_merge hperm hfresh')
  refine ⟨φ, desired', ⟨?_, fun text h => hreplaces.others text fun part hpart => ?_,
    hreplaces.tags⟩, hres', himage⟩
  · exact (hu.symm.map _).trans hreplaces.ids
  · exact (h part hpart).imp_left (mt fun hmem => hu.subset hmem)

end

/-- For all documents and every other order of them, whatever the gateway holds: where it does not
show of declarations that overtake each other which one came first, either both orders can be
resolved or neither can, with as many fresh ids that are distinct and occur nowhere. They then ask
for the same state, but that the fresh ids of one run stand in the place of those of the other. -/
theorem resolves_in_any_order (docs docs' : List Content) (o : Options) (current : State)
    (ids ids' : IdSupply) (n : Nat) (hperm : docs.Perm docs')
    (hfresh : Unseen ((merge docs).allIdTexts current) (ids.next n))
    (hfresh' : Unseen ((merge docs).allIdTexts current) (ids'.next n)) :
    ((∃ desired, (merge docs).ResolvesFreely (merge docs') current o ids n desired) ↔
      ∃ desired', (merge docs').ResolvesFreely (merge docs) current o ids' n desired') ∧
      ∀ desired, (merge docs).ResolvesFreely (merge docs') current o ids n desired →
        ∀ desired' u, Yields ((merge docs').resolve current o) ids' desired' u →
          u = ids'.after n ∧ ∃ φ, φ.Replaces (ids.next n) (ids'.next n) ∧
            State.Image φ desired desired' := by
  refine ⟨⟨?_, ?_⟩, ?_⟩
  · rintro ⟨desired, hres⟩
    obtain ⟨-, desired', -, hres', -⟩ := exists_resolvesFreely_of_perm hperm hfresh hfresh' hres
    exact ⟨desired', hres'⟩
  · rintro ⟨desired', hres'⟩
    obtain ⟨-, desired, -, hres, -⟩ := exists_resolvesFreely_of_perm hperm.symm
      (unseen_merge hperm hfresh') (unseen_merge hperm hfresh) hres'
    exact ⟨desired, hres⟩
  · intro desired hres desired' u hres'
    obtain ⟨φ, desired₁, hreplaces, ⟨hres₁, -⟩, himage⟩ :=
      exists_resolvesFreely_of_perm hperm hfresh hfresh' hres
    obtain ⟨rfl, rfl⟩ := hres₁.unique hres'
    exact ⟨rfl, φ, hreplaces, himage⟩

/-- What a document asks for, with the count of the fresh ids that it takes. -/
theorem yields_after_of_outcome? {c : Content} {current : State} {o : Options} {ids : IdSupply}
    {n : Nat} {x : State × List Reference} (h : c.outcome? current o ids = some x)
    (htaken : ((c.resolve current o).run ids).2.taken = ids.taken + n) :
    Yields (c.resolve current o) ids x.1 (ids.after n) ∧
      Yields (c.finalIds current o) ids x.2 (ids.after n) := by
  obtain ⟨s', hres, hrefs⟩ := yields_of_outcome? h
  have hself : c.Image .unchanged c := Content.image_self fun _ _ => rfl
  obtain ⟨m, rfl⟩ := hself.exists_eq_after hrefs
  rw [hres] at htaken
  obtain rfl : m = n := Nat.add_left_cancel htaken
  exact ⟨hres, hrefs⟩

end Content

/-! ### Services in two documents -/

/-- Two documents, each with a service that the gateway holds and a new route under it. -/
def routedServices : Content × Content :=
  (Sample.nestedRoute "new" "left", Sample.nestedRoute "old" "right")

/-- Both services give up the ids that stood for them, and four ids are taken. -/
theorem resolvesFreely_routedServices : ∃ desired,
    (Content.merge [routedServices.1, routedServices.2]).ResolvesFreely
      (Content.merge [routedServices.2, routedServices.1]) Sample.twoServices {} .numbered 4
      desired := by
  let c := Content.merge [routedServices.1, routedServices.2]
  have heval : (c.outcome? Sample.twoServices {} .numbered).any (fun x =>
      (result? c.flatten .numbered).any fun es =>
        let all := (inOrder es).zip x.2
        (∀ p ∈ all, ∀ q ∈ all, ∀ x ∈ all, ∀ l ∈ x.1.links, ∀ a ∈ l.2.id,
          GivesUp l.1 a p → GivesUp l.1 a q → p.2 = q.2) ∧ (all.map Prod.snd).Nodup) = true := by
    decide +kernel
  have htaken : ((c.resolve Sample.twoServices {}).run .numbered).2.taken =
      IdSupply.numbered.taken + 4 := by
    decide +kernel
  obtain ⟨⟨desired, refs⟩, hx, heval⟩ := (Option.any_eq_true _ _).1 heval
  obtain ⟨es, hes, heval⟩ := (Option.any_eq_true _ _).1 heval
  obtain ⟨hmoves, hnodup⟩ := of_decide_eq_true heval
  obtain ⟨hres, hrefs⟩ := Content.yields_after_of_outcome? hx htaken
  obtain ⟨t, hes⟩ := yields_of_result? hes
  refine ⟨desired, (Content.SameUpToOrder.merge (.swap _ _ _)).resolvesFreely hres hes hrefs ?_⟩
  exact fun p hp q hq => exchangeable_of_nodup hnodup hp hq (hmoves p hp q hq)

/-- In the other order of the documents, and with other ids, the same is asked for. -/
theorem resolves_in_any_order_of_routedServices : ∃ desired desired' φ,
    Yields ((Content.merge [routedServices.1, routedServices.2]).resolve Sample.twoServices {})
      .numbered desired (IdSupply.numbered.after 4) ∧
    Yields ((Content.merge [routedServices.2, routedServices.1]).resolve Sample.twoServices {})
      (IdSupply.numbered.after 4) desired' ((IdSupply.numbered.after 4).after 4) ∧
    φ.Replaces (IdSupply.numbered.next 4) ((IdSupply.numbered.after 4).next 4) ∧
    State.Image φ desired desired' := by
  obtain ⟨desired, hres⟩ := resolvesFreely_routedServices
  obtain ⟨hiff, hsame⟩ := Content.resolves_in_any_order [routedServices.1, routedServices.2]
    [routedServices.2, routedServices.1] {} Sample.twoServices .numbered
    (IdSupply.numbered.after 4) 4 (.swap _ _ _) (by decide +kernel) (by decide +kernel)
  obtain ⟨desired', hres'⟩ := hiff.1 ⟨desired, hres⟩
  obtain ⟨-, φ, hreplaces, himage⟩ := hsame desired hres desired' _ hres'.1
  exact ⟨desired, desired', φ, hres.1, hres'.1, hreplaces, himage⟩

/-! ### A plugin in two documents -/

/-- A group, and two of its plugins that say the same under different ids. -/
def goldPlugins (first second : String) : List Content :=
  [Sample.goldGroup, Sample.goldPlugin first, Sample.goldPlugin second]

/-- The first plugin is kept, and no fresh ids are taken. -/
theorem exists_yields_goldPlugins (first second : String)
    (heval : ((Content.merge (goldPlugins first second)).outcome? .empty {} .numbered).any (fun x =>
      x.1.contains .plugin first && !x.1.contains .plugin second) = true)
    (htaken : (((Content.merge (goldPlugins first second)).resolve .empty {}).run .numbered).2.taken
      = 0) :
    ∃ desired, Yields ((Content.merge (goldPlugins first second)).resolve .empty {}) .numbered
      desired (IdSupply.numbered.after 0) ∧ desired.contains .plugin first = true ∧
        desired.contains .plugin second = false := by
  obtain ⟨⟨desired, refs⟩, hx, hkept⟩ := (Option.any_eq_true _ _).1 heval
  obtain ⟨hfirst, hsecond⟩ := Bool.and_eq_true_iff.1 hkept
  exact ⟨desired, (Content.yields_after_of_outcome? hx htaken).1, hfirst, by simpa using hsecond⟩

/-- Of two plugins of a group that say the same, under different ids, the first one is kept: it is
not so that the order of documents never counts. -/
theorem not_always_in_any_order : ¬∀ (docs docs' : List Content) (o : Options)
    (current desired : State) (ids ids' : IdSupply) (n : Nat), docs.Perm docs' →
      Unseen ((Content.merge docs).allIdTexts current) (ids.next n) →
      Unseen ((Content.merge docs).allIdTexts current) (ids'.next n) →
      Yields ((Content.merge docs).resolve current o) ids desired (ids.after n) →
      ∃ φ desired', φ.Replaces (ids.next n) (ids'.next n) ∧
        Yields ((Content.merge docs').resolve current o) ids' desired' (ids'.after n) ∧
        State.Image φ desired desired' := by
  intro h
  obtain ⟨desired, hres, hkept, -⟩ :=
    exists_yields_goldPlugins "p1" "p2" (by decide +kernel) (by decide +kernel)
  obtain ⟨desired₁, hres₁, -, hdropped⟩ :=
    exists_yields_goldPlugins "p2" "p1" (by decide +kernel) (by decide +kernel)
  have hnone : ∀ texts, Unseen texts (IdSupply.numbered.next 0) :=
    fun _ => ⟨.nil, fun _ hid => absurd hid List.not_mem_nil,
      fun _ hid => absurd hid List.not_mem_nil⟩
  obtain ⟨φ, desired', hreplaces, hres', himage⟩ := h (goldPlugins "p1" "p2")
    (goldPlugins "p2" "p1") {} .empty desired .numbered .numbered 0 (.cons _ (.swap _ _ _))
    (hnone _) (hnone _) hres
  obtain ⟨rfl, -⟩ := hres₁.unique hres'
  -- No fresh ids are taken, so no id has another name.
  have hname : φ.rename "p1" = "p1" :=
    hreplaces.others "p1" fun part _ => ⟨List.not_mem_nil, List.not_mem_nil⟩
  have hcontains := himage.contains .plugin "p1"
  rw [hname, hkept, hdropped] at hcontains
  cases hcontains

end Gateway
