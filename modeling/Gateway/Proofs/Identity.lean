import Gateway.Proofs.Following
import Gateway.Proofs.Idempotence
import Gateway.Sample

/-!
# Stability of ids

A resolved entity has the id of the visible object with its natural key, or else of the one with its
fallback key, and no resolved entity has the id of a hidden object; so what has been resolved can be
compared with what the gateway holds (`Content.ids_stable`). Resolution refuses hidden ids before it
gives an entity its final one, and that is enough: the final id is that of a visible object, or the
one that was checked, or a fresh one. Fresh ids are taken by flattening too, and are distinct from
all that the gateway holds because flattening only takes them one after the other
(`Content.exists_after_of_flatten`).
-/

namespace Gateway

open Planning

/-! ### One declaration -/

/-- Where nothing has the natural key of an entity, the object with its fallback key is the one that
the entity denotes. -/
theorem State.match?_of_fallbackKey? {v : State} {e x : Entity} {key : NaturalKey}
    (hno : ∀ y ∈ v, ¬e.SameKey y) (hx : x ∈ v) (hk : x.kind = e.kind)
    (he : e.fallbackKey? = some key) (hkey : x.naturalKey? = some key) : v.match? e = some x := by
  have hholder : v.keyHolder? e = none := State.keyHolder?_eq_none_iff.2 hno
  unfold State.keyHolder? at hholder
  unfold State.match?
  rw [hholder, he, Option.bind_some, State.getByKey?_eq_some_iff.2 ⟨hx, hk, hkey⟩]
  rfl

namespace Resolution

variable {r r' : Resolution} {e : Entity} {s s' : IdSupply} {id : String} {moves : Moves}
  {o : Options} {current : State}

/-- An id that is not handed out is not handed out later. -/
theorem Identified.spares (h : Identified r e s id moves s') {a : String} (hspares : s.Spares a) :
    s'.Spares a := by
  cases h with
  | same _ _ | moved _ _ _ | adopted _ _ | declared _ _ => exact hspares
  | fresh _ _ => exact hspares.after 1

/-- The id of an entity that is not refused is that of a visible object, or that of no object. -/
theorem shown_of_refuse (h : r.refuse e = .ok ()) (hid : e.id? = some id) :
    r.visible.contains e.kind id = true ∨ r.current.contains e.kind id = false := by
  unfold refuse at h
  split at h
  · cases h
  · rw [hid] at h
    simp only at h
    split at h
    · cases h
    · rename_i hfree
      cases hcurrent : r.current.contains e.kind id with
      | false => exact .inr rfl
      | true => exact .inl (by simpa [hcurrent] using hfree)

/-- Unless an entity is refused, its final id is that of a visible object, or that of no object. -/
theorem Identified.shown (h : Identified r e s id moves s') (hrefuse : r.refuse e = .ok ())
    (hspares : ∀ x ∈ r.current, s.Spares x.idText) :
    r.visible.contains e.kind id = true ∨ r.current.contains e.kind id = false := by
  have shown_of_match? : ∀ {x}, r.visible.match? e = some x →
      r.visible.contains e.kind x.idText = true := by
    intro x hx
    obtain ⟨hmem, hk⟩ := State.mem_of_match? hx
    exact hk ▸ State.contains_of_mem hmem
  cases h with
  | same hmatch _ => exact .inl (shown_of_match? hmatch)
  | moved hmatch _ _ => exact .inl (shown_of_match? hmatch)
  | adopted hmatch _ => exact .inl (shown_of_match? hmatch)
  | declared _ hid => exact shown_of_refuse hrefuse hid
  | fresh _ _ =>
    refine .inr (State.contains_eq_false_iff.2 fun x hx _ heq => ?_)
    exact hspares x hx 0 heq.symm

/-- What is known of resolved entities apart from what `Sound` says: their ids are not those of
hidden objects, and where nothing visible has their natural key, they have the id of what has their
fallback key. -/
structure Stable (r : Resolution) (s : IdSupply) : Prop where
  spared : ∀ x ∈ r.current, s.Spares x.idText
  shown : ∀ d ∈ r.desired,
    r.visible.contains d.kind d.idText = true ∨ r.current.contains d.kind d.idText = false
  fallback : ∀ d ∈ r.desired, (∀ x ∈ r.visible, ¬d.SameKey x) → ∀ x ∈ r.visible,
    x.kind = d.kind → ∀ key, d.fallbackKey? = some key → x.naturalKey? = some key →
      d.idText = x.idText

/-- At the start nothing is resolved, and the supply spares what the gateway holds. -/
theorem stable_start (hspares : ∀ x ∈ current, s.Spares x.idText) :
    Stable (start o current) s where
  spared := hspares
  shown _ hd := absurd hd State.not_mem_empty
  fallback _ hd := absurd hd State.not_mem_empty

/-- A resolved declaration has the id of a visible object or that of none, as those before it have.
-/
theorem Stable.step (h : Stable r s) (hstep : Step r e s r' s') : Stable r' s' := by
  cases hstep with
  | repeated _ _ => exact h
  | @added linked id moves desired _ _ _ hrefuse hident hadd =>
    refine ⟨fun x hx => hident.spares (h.spared x hx), fun d hd => ?_, fun d hd hno x hx => ?_⟩
    · rcases (State.mem_insert hadd).1 hd with rfl | hd
      · rw [Entity.kind_withId, Entity.idText_withId]
        exact hident.shown hrefuse h.spared
      · exact h.shown d hd
    · rcases (State.mem_insert hadd).1 hd with rfl | hd
      · intro hk key hfallback hkey
        rw [Entity.idText_withId]
        rw [Entity.fallbackKey?_withId] at hfallback
        refine hident.eq_of_match? (State.match?_of_fallbackKey? (fun y hy hsame => ?_) hx hk
          hfallback hkey)
        exact hno y hy ⟨hsame.1, by simpa using hsame.2.1, by simpa using hsame.2.2⟩
      · exact h.fallback d hd hno x hx

/-- What a resolution is like at its end, when at its beginning the gateway holds no id that is
still to be handed out. -/
theorem stable_of_resolve {c : Content} {desired : State}
    (hspares : ∀ x ∈ current, s.Spares x.idText) (h : Yields (c.resolve current o) s desired s') :
    ∃ r, Sound o current r ∧ Stable r s' ∧ r.desired = desired := by
  obtain ⟨es, t, hes, -, hrun⟩ := Content.yields_resolve_iff.1 h
  obtain ⟨r, hr, rfl⟩ := yields_run_iff.1 hrun
  obtain ⟨n, rfl⟩ := Content.exists_after_of_flatten hes
  refine ⟨r, (sound_start o current).foldlM hr, ?_, rfl⟩
  exact foldlM_invariant (fun _ _ _ _ _ _ hr hx => hr.step (yields_step_iff.1 hx))
    (stable_start fun x hx => (hspares x hx).after n) hr

end Resolution

/-! ### Resolved states -/

namespace Content

/-- When no id of the gateway is ever handed out as a fresh one: a resolved entity has the id of the
visible object with its natural key; where there is none, it has that of the visible object with its
fallback key; its id is that of a visible object, or of none that the gateway holds; and so the
resolved state can be compared with what the gateway holds. -/
theorem ids_stable (c : Content) (o : Options) (current : State) (ids ids' : IdSupply)
    (desired : State) (hfresh : ∀ x ∈ current, ids.Spares x.idText)
    (hres : Yields (c.resolve current o) ids desired ids') :
    (∀ d ∈ desired,
      (∀ x ∈ current.select o.selection, d.SameKey x → d.idText = x.idText) ∧
      ((∀ x ∈ current.select o.selection, ¬d.SameKey x) →
        ∀ x ∈ current.select o.selection, x.kind = d.kind →
          ∀ key, d.fallbackKey? = some key → x.naturalKey? = some key → d.idText = x.idText) ∧
      ((current.select o.selection).contains d.kind d.idText = true ∨
        current.contains d.kind d.idText = false)) ∧
    ∃ p, desired.planTo current o.selection = .ok p := by
  obtain ⟨r, hsound, hstable, rfl⟩ := Resolution.stable_of_resolve hfresh hres
  have hvisible := hsound.visible
  have hcurrent := hsound.current
  have hshown : ∀ d ∈ r.desired, (current.select o.selection).contains d.kind d.idText = true ∨
      current.contains d.kind d.idText = false := by
    rw [← hvisible, ← hcurrent]
    exact hstable.shown
  refine ⟨fun d hd => ⟨fun x hx hsame => ?_, ?_, hshown d hd⟩, State.exists_planTo_iff.2 hshown⟩
  · exact (idText_of_sameKey hres hd hx hsame).symm
  · rw [← hvisible]
    exact hstable.fallback d hd

end Content

/-! ### A consumer who gets a username -/

/-- A gateway that knows a consumer by the id that another system gave her. -/
def customIdOnly : State :=
  .collect [(Resource.ofDetail .consumer (some "c1")
    { (default : Consumer) with customId := some "42" }).toEntity]

/-- A document in which she has a username as well. -/
def withUsername : Content where
  consumers := [⟨Resource.ofDetail .consumer none
    { (default : Consumer) with username := some "alice", customId := some "42" }, [], []⟩]

/-- No consumer has the username yet, so she is the one with the custom id. -/
theorem ids_stable_of_withUsername : ∃ desired d ids p,
    Yields (withUsername.resolve customIdOnly {}) (.repeating 'f') desired ids ∧ d ∈ desired ∧
      d.naturalKey? = some ⟨["username", "alice"]⟩ ∧ d.idText = "c1" ∧
        desired.planTo customIdOnly .everything = .ok p := by
  have heval : (result? (withUsername.resolve customIdOnly {}) (.repeating 'f')).any (fun desired =>
      desired.entities.any fun d => d.kind == .consumer &&
        d.naturalKey? == some ⟨["username", "alice"]⟩ &&
          d.fallbackKey? == some ⟨["custom_id", "42"]⟩) = true := by
    decide +kernel
  have hheld : (customIdOnly.select .everything).entities.any (fun x => x.kind == .consumer &&
      x.naturalKey? == some ⟨["custom_id", "42"]⟩ && x.idText == "c1") = true := by
    decide +kernel
  have hnone : ∀ x ∈ (customIdOnly.select .everything).entities,
      x.naturalKey? ≠ some ⟨["username", "alice"]⟩ := by
    decide +kernel
  obtain ⟨desired, hdesired, hfacts⟩ := (Option.any_eq_true _ _).1 heval
  obtain ⟨d, hd, hfacts⟩ := List.any_eq_true.1 hfacts
  obtain ⟨x, hx, hxfacts⟩ := List.any_eq_true.1 hheld
  simp only [Bool.and_eq_true, beq_iff_eq] at hfacts hxfacts
  obtain ⟨⟨hk, hkey⟩, hfallback⟩ := hfacts
  obtain ⟨⟨hxk, hxkey⟩, hxid⟩ := hxfacts
  obtain ⟨ids, hres⟩ := yields_of_result? hdesired
  have hfresh : ∀ x ∈ customIdOnly, (IdSupply.repeating 'f').Spares x.idText := by
    intro y hy
    have hheads : ∀ y ∈ customIdOnly.entities, y.idText.toList.head? ≠ some 'f' := by
      decide +kernel
    exact IdSupply.spares_repeating (hheads y hy)
  obtain ⟨hstable, p, hp⟩ :=
    Content.ids_stable withUsername {} customIdOnly _ ids desired hfresh hres
  refine ⟨desired, d, ids, p, hres, hd, hkey, ?_, hp⟩
  refine ((hstable d hd).2.1 (fun y hy hsame => ?_) x hx (hxk.trans hk.symm) _ hfallback
    hxkey).trans hxid
  exact hnone y hy (hsame.2.1.symm.trans hkey)

end Gateway
