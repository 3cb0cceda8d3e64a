import Gateway.Proofs.Comparison

/-!
# The ids that declarations end up with

Resolution adds an entity for a declaration, or takes the declaration for a repetition. Either way
the declaration ends up with the id of a resolved entity. `Content.finalIds` is resolution that
tells these ids; it succeeds where resolution does (`Content.exists_finalIds`), takes the same fresh
ids, and names a resolved entity of its kind for every declaration
(`Content.exists_forall₂_of_finalIds`).
-/

namespace Gateway

open Planning

namespace Resolution

variable {r r' : Resolution} {e : Entity} {es : List Entity} {ref : Reference}
  {refs : List Reference} {s s' : IdSupply}

/-! ### One declaration -/

/-- The id of what has been resolved with the natural key of an entity. -/
def heldId (r : Resolution) (e : Entity) : String :=
  ((r.desired.keyHolder? e).map Entity.idText).getD ""

/-- Resolve one declared entity, and tell as what it ends up. -/
def place (r : Resolution) (e : Entity) : Planning (Reference × Resolution) := do
  let linked ← r.link e
  let e := linked.withDerivedId
  if ← r.repeats e then return (⟨e.kind, r.heldId e⟩, r)
  else
    let e := r.options.selection.apply e
    r.refuse e
    let (e, moves) ← r.settle e
    return (e.ref, ← r.add e moves)

/-- What becomes of one declaration, and as what it ends up. -/
inductive Placed (r : Resolution) (e : Entity) (s : IdSupply) :
    Reference → Resolution → IdSupply → Prop
  /-- It repeats an earlier one. -/
  | repeated {linked : Entity} (hlink : r.link e = .ok linked)
      (hrepeats : r.repeats linked.withDerivedId = .ok true) :
    Placed r e s ⟨linked.kind, r.heldId linked⟩ r s
  /-- It is added under its final id. -/
  | added {linked : Entity} {id : String} {moves : Moves} {desired : State} {s' : IdSupply}
      (hlink : r.link e = .ok linked) (hrepeats : r.repeats linked.withDerivedId = .ok false)
      (hrefuse : r.refuse (r.candidate linked) = .ok ())
      (hident : Identified r (r.candidate linked) s id moves s')
      (hadd : r.desired.insert ((r.candidate linked).withId id) = .ok desired) :
    Placed r e s ⟨linked.kind, id⟩ { r with desired := desired, moves := moves } s'

/-- Only kind and natural key decide as what a repetition counts. -/
theorem heldId_congr {a b : Entity} (hk : a.kind = b.kind) (hkey : a.naturalKey? = b.naturalKey?) :
    r.heldId a = r.heldId b := by
  unfold heldId State.keyHolder?
  rw [hk, hkey]

/-- Resolving one declaration while telling what it ends up as is resolving it as listed. -/
theorem yields_place_iff : Yields (r.place e) s (ref, r') s' ↔ Placed r e s ref r' s' := by
  have hheld : ∀ linked : Entity,
      (⟨linked.withDerivedId.kind, r.heldId linked.withDerivedId⟩ : Reference) =
        ⟨linked.kind, r.heldId linked⟩ := by
    intro linked
    rw [heldId_congr linked.kind_withDerivedId linked.naturalKey?_withDerivedId,
      linked.kind_withDerivedId]
  have hplaced : ∀ (linked : Entity) (id : String),
      ((r.candidate linked).withId id).ref = ⟨linked.kind, id⟩ := by
    intro linked id
    rw [Entity.ref, Entity.kind_withId, kind_candidate, Entity.idText_withId]
  unfold place
  simp only [yields_bind, yields_lift]
  constructor
  · rintro ⟨linked, t, ⟨hlink, rfl⟩, rep, t', ⟨hrep, rfl⟩, h⟩
    cases rep with
    | true =>
      rw [if_pos rfl, yields_pure, hheld] at h
      obtain ⟨h, rfl⟩ := h
      cases h
      exact .repeated hlink hrep
    | false =>
      rw [if_neg (by simp)] at h
      simp only [yields_bind, yields_lift, yields_pure] at h
      obtain ⟨⟨⟩, t, ⟨hrefuse, rfl⟩, ⟨b, moves⟩, t', hsettle, r₁, t'', ⟨hadd, rfl⟩, h, rfl⟩ := h
      obtain ⟨id, rfl, hident⟩ := yields_settle_iff.1 hsettle
      obtain ⟨desired, hinsert, rfl⟩ := add_eq_ok_iff.1 hadd
      cases h
      have hadded := Placed.added hlink hrep hrefuse hident hinsert
      rwa [← hplaced] at hadded
  · intro h
    cases h with
    | @repeated linked hlink hrep =>
      refine ⟨linked, s, ⟨hlink, rfl⟩, true, s, ⟨hrep, rfl⟩, ?_⟩
      rw [if_pos rfl, yields_pure, hheld]
      exact ⟨rfl, rfl⟩
    | @added linked id moves desired t hlink hrep hrefuse hident hadd =>
      refine ⟨linked, s, ⟨hlink, rfl⟩, false, s, ⟨hrep, rfl⟩, ?_⟩
      rw [if_neg (by simp)]
      simp only [yields_bind, yields_lift, yields_pure]
      refine ⟨(), s, ⟨hrefuse, rfl⟩, (_, moves), s', yields_settle_iff.2 ⟨id, rfl, hident⟩, _, s',
        ⟨add_eq_ok_iff.2 ⟨desired, hadd, rfl⟩, rfl⟩, ?_, rfl⟩
      rw [← hplaced]
      rfl

/-- To be placed is to be resolved. -/
theorem Placed.step (h : Placed r e s ref r' s') : Step r e s r' s' := by
  cases h with
  | repeated hlink hrepeats => exact .repeated hlink hrepeats
  | added hlink hrepeats hrefuse hident hadd => exact .added hlink hrepeats hrefuse hident hadd

/-- What is resolved is placed. -/
theorem Step.exists_placed (h : Step r e s r' s') : ∃ ref, Placed r e s ref r' s' := by
  cases h with
  | repeated hlink hrepeats => exact ⟨_, .repeated hlink hrepeats⟩
  | added hlink hrepeats hrefuse hident hadd =>
    exact ⟨_, .added hlink hrepeats hrefuse hident hadd⟩

/-- An object is repeated by an entity that may be declared several times: a membership, or a plugin
of a group that says the same. -/
structure RepeatedBy (x c : Entity) : Prop where
  sameKey : c.SameKey x
  again : c.kind = .membership ∨ c.kind = .plugin ∧ c.isGroupScoped = true ∧ x.sameBody c = true

/-- A declaration is taken for a repetition when something that has been resolved is repeated. -/
theorem repeats_iff : r.repeats e = .ok true ↔
    ∃ x ∈ r.desired, RepeatedBy x (r.options.selection.apply e) := by
  have hgroup : (r.options.selection.apply e).isGroupScoped = e.isGroupScoped := by
    obtain ⟨k, x⟩ := e
    cases k <;> rfl
  have hholder : r.desired.keyHolder? (r.options.selection.apply e) = r.desired.keyHolder? e := rfl
  have hrepeats : r.repeats e = .ok true ↔ ∃ x, r.desired.keyHolder? e = some x ∧
      (e.kind = .membership ∨ e.kind = .plugin ∧ e.isGroupScoped = true ∧
        x.sameBody (r.options.selection.apply e) = true) := by
    unfold repeats
    simp only [hholder]
    split
    · rename_i hk
      simp [hk, Option.isSome_iff_exists]
    · rename_i hk
      cases hheld : r.desired.keyHolder? e with
      | none => split <;> simp
      | some x => by_cases hscope : e.isGroupScoped = true <;> simp [hk, hscope]
    · rename_i hmembership hplugin
      constructor
      · rintro ⟨⟩
      · rintro ⟨x, -, hk | ⟨hk, -⟩⟩
        · exact absurd hk hmembership
        · exact absurd hk hplugin
  rw [hrepeats]
  constructor
  · rintro ⟨x, hx, hagain⟩
    obtain ⟨hmem, hkey⟩ := State.keyHolder?_eq_some_iff.1 hx
    rw [← hgroup] at hagain
    exact ⟨x, hmem, hkey, hagain⟩
  · rintro ⟨x, hmem, hkey, hagain⟩
    rw [hgroup] at hagain
    exact ⟨x, State.keyHolder?_eq_some_iff.2 ⟨hmem, hkey⟩, hagain⟩

/-- What has been resolved with the natural key of a declaration. -/
theorem ref_eq_heldId {linked x : Entity} (hx : x ∈ r.desired) (h : linked.SameKey x) :
    x.ref = ⟨linked.kind, r.heldId linked⟩ := by
  rw [heldId, State.keyHolder?_eq_some_iff.2 ⟨hx, h⟩, Entity.ref, h.1]
  rfl

/-- What a declaration repeats shares its key before tags are added as well. -/
theorem RepeatedBy.linked {linked x : Entity} (h : RepeatedBy x (r.candidate linked)) :
    linked.SameKey x := by
  simpa [Entity.SameKey] using h.sameKey

/-- What is not refused shares its natural key with nothing that has been resolved. -/
theorem unkeyed_of_refuse (h : r.refuse c = .ok ()) : ∀ x ∈ r.desired, ¬c.SameKey x := by
  rw [← State.keyHolder?_eq_none_iff]
  unfold refuse at h
  split at h
  · cases h
  · rename_i hno
    exact Option.not_isSome_iff_eq_none.1 hno

/-- A declaration ends up as a resolved entity of its kind. -/
theorem Placed.exists_mem (h : Placed r e s ref r' s') :
    ref.kind = e.kind ∧ ∃ x ∈ r'.desired, x.ref = ref := by
  cases h with
  | @repeated linked hlink hrepeats =>
    obtain ⟨x, hmem, hagain⟩ := repeats_iff.1 hrepeats
    exact ⟨Entity.kind_relink hlink, x, hmem, ref_eq_heldId hmem hagain.linked⟩
  | @added linked id moves desired _ hlink _ _ _ hadd =>
    refine ⟨Entity.kind_relink hlink, _, State.mem_insert_self hadd, ?_⟩
    rw [Entity.ref, Entity.kind_withId, kind_candidate, Entity.idText_withId]

/-! ### Many declarations -/

/-- Resolve declared entities one after the other, and tell as what they end up. -/
def placeAll (r : Resolution) : List Entity → Planning (List Reference × Resolution)
  | [] => return ([], r)
  | e :: es => do
    let (ref, r) ← r.place e
    let (refs, r) ← r.placeAll es
    return (ref :: refs, r)

/-- No declarations change nothing. -/
theorem yields_placeAll_nil :
    Yields (r.placeAll []) s (refs, r') s' ↔ refs = [] ∧ r' = r ∧ s' = s := by
  unfold placeAll
  rw [yields_pure, Prod.mk.injEq]
  grind

/-- Declarations are resolved one after the other, each telling what it ends up as. -/
theorem yields_placeAll_cons :
    Yields (r.placeAll (e :: es)) s (refs, r') s' ↔ ∃ ref r₁ t rest, Placed r e s ref r₁ t ∧
      Yields (r₁.placeAll es) t (rest, r') s' ∧ refs = ref :: rest := by
  rw [placeAll]
  simp only [yields_bind, yields_pure]
  constructor
  · rintro ⟨⟨ref, r₁⟩, t, hplace, ⟨rest, r₂⟩, t', hrest, h, rfl⟩
    cases h
    exact ⟨ref, r₁, t, rest, yields_place_iff.1 hplace, hrest, rfl⟩
  · rintro ⟨ref, r₁, t, rest, hplace, hrest, rfl⟩
    exact ⟨(ref, r₁), t, yields_place_iff.2 hplace, (rest, r'), s', hrest, rfl, rfl⟩

/-- To tell the final ids changes nothing about resolution. -/
theorem yields_foldlM_step_iff :
    Yields (es.foldlM step r) s r' s' ↔ ∃ refs, Yields (r.placeAll es) s (refs, r') s' := by
  induction es generalizing r s with
  | nil =>
    rw [yields_foldlM_nil]
    simp only [yields_placeAll_nil]
    constructor
    · rintro ⟨rfl, rfl⟩
      exact ⟨[], rfl, rfl, rfl⟩
    · rintro ⟨-, -, rfl, rfl⟩
      exact ⟨rfl, rfl⟩
  | cons e rest ih =>
    rw [yields_foldlM_cons]
    simp only [yields_placeAll_cons, yields_step_iff]
    constructor
    · rintro ⟨r₁, t, hstep, hrest⟩
      obtain ⟨ref, hplaced⟩ := hstep.exists_placed
      obtain ⟨refs, hrefs⟩ := ih.1 hrest
      exact ⟨_, ref, r₁, t, refs, hplaced, hrefs, rfl⟩
    · rintro ⟨-, ref, r₁, t, refs, hplaced, hrefs, rfl⟩
      exact ⟨r₁, t, hplaced.step, ih.2 ⟨refs, hrefs⟩⟩

/-- Every declaration ends up as a resolved entity of its kind. -/
theorem forall₂_of_placeAll (h : Yields (r.placeAll es) s (refs, r') s') :
    List.Forall₂ (fun e ref => ref.kind = e.kind ∧ ∃ x ∈ r'.desired, x.ref = ref) es refs := by
  induction es generalizing r s refs with
  | nil =>
    obtain ⟨rfl, -⟩ := yields_placeAll_nil.1 h
    exact .nil
  | cons e rest ih =>
    obtain ⟨first, r₁, t, refs, hplaced, hrest, rfl⟩ := yields_placeAll_cons.1 h
    obtain ⟨hk, x, hx, hxref⟩ := hplaced.exists_mem
    have hkept := desired_subset_foldlM (yields_foldlM_step_iff.2 ⟨refs, hrest⟩) hx
    exact .cons ⟨hk, x, hkept, hxref⟩ (ih hrest)

end Resolution

namespace Content

open Resolution

variable {c : Content} {o : Options} {current desired : State} {refs : List Reference}
  {s s' : IdSupply}

/-- Kinds and final ids of all declared entities, in the order in which they are resolved. -/
def finalIds (c : Content) (current : State) (o : Options) : Planning (List Reference) := do
  let es ← c.flatten
  o.check es
  let (refs, _) ← (start o current).placeAll (inOrder es)
  return refs

/-- The final ids are told after flattening and checking. -/
theorem yields_finalIds_iff : Yields (c.finalIds current o) s refs s' ↔ ∃ es t r,
    Yields c.flatten s es t ∧ o.check es = .ok () ∧
      Yields ((start o current).placeAll (inOrder es)) t (refs, r) s' := by
  unfold finalIds
  simp only [yields_bind, yields_lift, yields_pure]
  constructor
  · rintro ⟨es, t, hes, ⟨⟩, t', ⟨hcheck, rfl⟩, ⟨refs, r⟩, t'', hplace, rfl, rfl⟩
    exact ⟨es, t, r, hes, hcheck, hplace⟩
  · rintro ⟨es, t, r, hes, hcheck, hplace⟩
    exact ⟨es, t, hes, (), t, ⟨hcheck, rfl⟩, (refs, r), s', hplace, rfl, rfl⟩

/-- Declarations that are resolved have final ids. -/
theorem exists_finalIds (h : Yields (c.resolve current o) s desired s') :
    ∃ refs, Yields (c.finalIds current o) s refs s' := by
  obtain ⟨es, t, hes, hcheck, hrun⟩ := yields_resolve_iff.1 h
  obtain ⟨r, hr, rfl⟩ := yields_run_iff.1 hrun
  obtain ⟨refs, hrefs⟩ := yields_foldlM_step_iff.1 hr
  exact ⟨refs, yields_finalIds_iff.2 ⟨es, t, r, hes, hcheck, hrefs⟩⟩

/-- Of a flattened document, the state that it asks for and the final ids come about together: its
entities pass the check and are resolved one after the other. -/
theorem yields_resolve_finalIds_iff {es : List Entity} {t : IdSupply}
    (hes : Yields c.flatten s es t) :
    Yields (c.resolve current o) s desired s' ∧ Yields (c.finalIds current o) s refs s' ↔
      o.check es = .ok () ∧ ∃ r, r.desired = desired ∧
        Yields ((start o current).placeAll (inOrder es)) t (refs, r) s' := by
  constructor
  · rintro ⟨hres, hrefs⟩
    obtain ⟨es₁, t₁, hes₁, -, hrun⟩ := yields_resolve_iff.1 hres
    obtain ⟨rfl, rfl⟩ := hes.unique hes₁
    obtain ⟨r, hr, rfl⟩ := yields_run_iff.1 hrun
    obtain ⟨es₂, t₂, r₂, hes₂, hcheck, hplace⟩ := yields_finalIds_iff.1 hrefs
    obtain ⟨rfl, rfl⟩ := hes.unique hes₂
    obtain ⟨rfl, -⟩ := hr.unique (yields_foldlM_step_iff.2 ⟨refs, hplace⟩)
    exact ⟨hcheck, r, rfl, hplace⟩
  · rintro ⟨hcheck, r, rfl, hplace⟩
    have hrun := yields_run_iff.2 ⟨r, yields_foldlM_step_iff.2 ⟨refs, hplace⟩, rfl⟩
    exact ⟨yields_resolve_iff.2 ⟨es, t, hes, hcheck, hrun⟩,
      yields_finalIds_iff.2 ⟨es, t, r, hes, hcheck, hplace⟩⟩

/-- The final ids are, declaration by declaration, those of resolved entities of the kind that is
declared. -/
theorem exists_forall₂_of_finalIds (h : Yields (c.resolve current o) s desired s')
    (hrefs : Yields (c.finalIds current o) s refs s') : ∃ es t, Yields c.flatten s es t ∧
      List.Forall₂ (fun e ref => ref.kind = e.kind ∧ ∃ x ∈ desired, x.ref = ref) (inOrder es)
        refs := by
  obtain ⟨es, t, hes, -⟩ := yields_resolve_iff.1 h
  obtain ⟨-, r, rfl, hplace⟩ := (yields_resolve_finalIds_iff hes).1 ⟨h, hrefs⟩
  exact ⟨es, t, hes, forall₂_of_placeAll hplace⟩

end Content

end Gateway
