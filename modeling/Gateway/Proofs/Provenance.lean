import Gateway.Proofs.Gating
import Gateway.Proofs.Numbering

/-!
# Where resolved entities come from

Every entity of the state that declarations ask for is what one of them becomes
(`Entity.Becomes`), and has its id from there (`Entity.Sourced`): it is declared with the id,
adopts the one of a visible object with its natural or fallback key, derives it from its references,
or takes the next fresh one (`Resolution.PlacedAll.exists_sourced`).
-/

namespace Gateway

open Planning Resolution

/-! ### Derived ids -/

namespace Entity

variable {e x : Entity} {id : String}

/-- The id that follows from the references, for kinds that have one. -/
def derivedId? (e : Entity) : Option String :=
  match e with
  | ⟨.membership, r⟩ => r.detail.derivedId?
  | ⟨.permission, r⟩ => r.detail.derivedId?
  | _ => none

/-- An id that is given does not change what follows from references. -/
@[simp] theorem derivedId?_withId (e : Entity) (id : String) :
    (e.withId id).derivedId? = e.derivedId? := by
  obtain ⟨k, r⟩ := e
  cases k <;> rfl

/-- Nor do the tags of a selection. -/
@[simp] theorem derivedId?_apply (sel : Selection) (e : Entity) :
    (sel.apply e).derivedId? = e.derivedId? := by
  obtain ⟨k, r⟩ := e
  cases k <;> rfl

/-- Nor does the derived id itself. -/
@[simp] theorem derivedId?_withDerivedId (e : Entity) :
    e.withDerivedId.derivedId? = e.derivedId? := by
  obtain ⟨k, r⟩ := e
  cases k <;> rfl

/-- An entity has its declared id or the one that follows from its references. -/
theorem id?_cases_of_withDerivedId (h : e.withDerivedId.id? = some id) :
    e.id? = some id ∨ e.derivedId? = some id := by
  obtain ⟨k, r⟩ := e
  cases k
  case membership => exact .inr h
  case permission => exact ((Option.orElse_eq_some _ _ _).1 h).imp_right And.right
  all_goals exact .inl h

/-- Where an id could be derived there is one afterwards. -/
theorem derivedId?_of_withDerivedId (h : e.withDerivedId.id? = none) : e.derivedId? = none := by
  obtain ⟨k, r⟩ := e
  cases k
  case membership => exact h
  case permission => exact (Option.orElse_eq_none _ _).1 h |>.2
  all_goals rfl

/-- Ids are derived for memberships and permissions only. -/
theorem kind_of_derivedId? (h : e.derivedId? = some id) :
    e.kind = .membership ∨ e.kind = .permission := by
  obtain ⟨k, r⟩ := e
  cases k <;> first | cases h | simp

/-- Where all references are resolved, the id follows, but for a permission without role. -/
theorem isSome_derivedId? (hlinks : ∀ l ∈ e.links, ∃ id, l.2 = .byId id)
    (hcomplete : e.missingField? = none) (hk : e.kind = .membership ∨ e.kind = .permission) :
    e.derivedId?.isSome := by
  obtain ⟨k, r⟩ := e
  rcases hk with rfl | rfl
  · obtain ⟨g, hg⟩ := hlinks _ List.mem_cons_self
    obtain ⟨c, hc⟩ := hlinks _ (List.mem_cons_of_mem _ List.mem_cons_self)
    simp only at hg hc
    simp [derivedId?, Membership.derivedId?, hg, hc, ForeignKey.byId]
  · cases hrole : r.detail.role with
    | none => simp [missingField?, hrole] at hcomplete
    | some fk =>
      obtain ⟨id, hid⟩ := hlinks (.role, fk) (by simp [links, Detail.links, hrole])
      simp only at hid
      simp [derivedId?, Permission.derivedId?, hrole, hid, ForeignKey.byId]

/-! ### What declarations become -/

/-- An entity is what a declaration becomes at some point of a resolution: its references are
replaced, the tags of the selection are added, and it has an id. -/
def Becomes (o : Options) (e x : Entity) : Prop :=
  ∃ (r : Resolution) (linked : Entity) (id : String), r.options = o ∧ r.link e = .ok linked ∧
    x = (r.candidate linked).withId id

namespace Becomes

variable {o : Options}

/-- A declaration becomes something of its kind. -/
theorem kind_eq (h : e.Becomes o x) : x.kind = e.kind := by
  obtain ⟨r, linked, id, -, hlink, rfl⟩ := h
  simp [kind_relink hlink]

/-- What it becomes refers by id throughout. -/
theorem exists_byId (h : e.Becomes o x) : ∀ l ∈ x.links, ∃ id, l.2 = .byId id := by
  obtain ⟨r, linked, id, -, hlink, rfl⟩ := h
  intro l hl
  exact exists_byId_of_mem_links hlink (by simpa using hl)

/-- What a complete declaration becomes has a derived id, if its kind has one. -/
theorem isSome_derivedId? (h : e.Becomes o x) (hcomplete : e.missingField? = none)
    (hk : x.kind = .membership ∨ x.kind = .permission) : x.derivedId?.isSome := by
  refine Entity.isSome_derivedId? h.exists_byId ?_ hk
  obtain ⟨r, linked, id, -, hlink, rfl⟩ := h
  exact missingField?_added ((missingField?_relink hlink).trans hcomplete) id

end Becomes

/-- An entity of a state has the natural or the fallback key of another entity, which has its id. -/
def Adopts (x : Entity) (v : State) : Prop :=
  ∃ y ∈ v, y.ref = x.ref ∧
    (x.SameKey y ∨ ∃ key, x.fallbackKey? = some key ∧ y.naturalKey? = some key)

/-- How a declaration comes by the id of the entity that it becomes, when only the ids from one
place in a supply up to another are handed out. -/
inductive Sourced (v : State) (S : IdSupply) (n m : Nat) (e x : Entity) : Prop
  /-- It is declared with it. -/
  | declared (h : e.id? = some x.idText)
  /-- It takes that of an object with its natural or fallback key. -/
  | adopted (h : x.Adopts v)
  /-- It follows from the references. -/
  | derived (h : x.derivedId? = some x.idText)
  /-- It is handed out. -/
  | fresh {i : Nat} (hlow : n ≤ i) (hhigh : i < m) (h : x.idText = S.nth i)
      (hnone : x.derivedId? = none)

/-- Where more ids are handed out, an id comes about in the same way. -/
theorem Sourced.mono {v : State} {S : IdSupply} {n n' m m' : Nat} (h : Sourced v S n m e x)
    (hn : n' ≤ n) (hm : m ≤ m') : Sourced v S n' m' e x := by
  cases h with
  | declared h => exact .declared h
  | adopted h => exact .adopted h
  | derived h => exact .derived h
  | fresh hlow hhigh h hnone =>
    exact .fresh (Nat.le_trans hn hlow) (Nat.lt_of_lt_of_le hhigh hm) h hnone

end Entity

/-- What an entity denotes has its natural or its fallback key, or its id. -/
theorem State.cases_of_match? {s : State} {e x : Entity} (h : s.match? e = some x) :
    e.SameKey x ∨ (∃ key, e.fallbackKey? = some key ∧ x.naturalKey? = some key) ∨
      e.id? = some x.idText := by
  unfold match? at h
  rcases (Option.orElse_eq_some _ _ _).1 h with hx | ⟨-, h⟩
  · exact .inl (keyHolder?_eq_some_iff.1 hx).2
  · rcases (Option.orElse_eq_some _ _ _).1 h with hx | ⟨-, hx⟩
    · obtain ⟨key, hkey, hx⟩ := Option.bind_eq_some_iff.1 hx
      exact .inr (.inl ⟨key, hkey, (getByKey?_eq_some_iff.1 hx).2.2⟩)
    · obtain ⟨id, hid, hx⟩ := Option.bind_eq_some_iff.1 hx
      rw [(get?_eq_some_iff.1 hx).2.2]
      exact .inr (.inr hid)

namespace Resolution

variable {r r' r₁ : Resolution} {e linked x : Entity} {id : String} {moves : Moves}
  {S s' : IdSupply} {n m : Nat} {o : Options} {current : State} {ref : Reference}

/-- The final id of a declaration has a source. -/
theorem Identified.sourced (hlink : r.link e = .ok linked)
    (h : Identified r (r.candidate linked) (S.after n) id moves (S.after m)) :
    Entity.Sourced r.visible S n m e ((r.candidate linked).withId id) := by
  have of_own : ∀ {a}, (r.candidate linked).id? = some a →
      Entity.Sourced r.visible S n m e ((r.candidate linked).withId a) := by
    intro a hid
    have hid : linked.withDerivedId.id? = some a := hid
    rcases Entity.id?_cases_of_withDerivedId hid with hid | hid
    · exact .declared ((Entity.id?_relink hlink).symm.trans hid)
    · exact .derived (by simpa [candidate] using hid)
  have of_match : ∀ {y}, r.visible.match? (r.candidate linked) = some y → id = y.idText →
      Entity.Sourced r.visible S n m e ((r.candidate linked).withId id) := by
    rintro y hmatch rfl
    obtain ⟨hy, hk⟩ := State.mem_of_match? hmatch
    have href : y.ref = ((r.candidate linked).withId y.idText).ref := by
      rw [Entity.ref, Entity.ref, hk]
      rfl
    rcases State.cases_of_match? hmatch with hkey | hkey | hid
    · exact .adopted ⟨y, hy, href, .inl hkey⟩
    · exact .adopted ⟨y, hy, href, .inr hkey⟩
    · exact of_own hid
  generalize ht : S.after m = t at h
  cases h with
  | same hmatch _ => exact of_match hmatch rfl
  | moved hmatch _ _ => exact of_match hmatch rfl
  | adopted hmatch _ => exact of_match hmatch rfl
  | declared _ hid => exact of_own hid
  | fresh _ hid =>
    have hm : S.after m = S.after (n + 1) := ht
    have hnone : linked.derivedId? = none := Entity.derivedId?_of_withDerivedId hid
    refine .fresh (i := n) (Nat.le_refl n) ?_ rfl (by simpa [candidate] using hnone)
    rw [IdSupply.after_inj hm]
    exact Nat.lt_succ_self n

/-- What a step adds is what the declaration becomes, and has its id from there. -/
theorem Placed.sourced (h : Placed r e (S.after n) ref r' (S.after m)) (hr : Sound o current r)
    (hx : x ∈ r'.desired) : x ∈ r.desired ∨ x.ref = ref ∧ e.Becomes o x ∧
      Entity.Sourced (current.select o.selection) S n m e x := by
  generalize ht : S.after m = t at h
  cases h with
  | repeated _ _ => exact .inl hx
  | @added linked id moves desired _ hlink _ _ hident hadd =>
    subst ht
    rcases (State.mem_insert hadd).1 hx with rfl | hx
    · refine .inr ⟨?_, ⟨r, linked, id, hr.options, hlink, rfl⟩, hr.visible ▸ hident.sourced hlink⟩
      rw [Entity.ref, Entity.kind_withId, kind_candidate, Entity.idText_withId]
    · exact .inl hx

namespace PlacedAll

variable {xs : List (Entity × Reference)}

/-- Ids are handed out in the order in which declarations are resolved. -/
theorem le_of_after (h : PlacedAll r (S.after n) xs r' (S.after m)) : n ≤ m := by
  obtain ⟨k, hk⟩ := h.exists_eq_after
  rw [IdSupply.after_after] at hk
  exact IdSupply.after_inj hk ▸ Nat.le_add_right n k

/-- Whatever has been resolved in between is what a declaration becomes, and has its id from
there. -/
theorem exists_sourced (h : PlacedAll r (S.after n) xs r' (S.after m)) (hr : Sound o current r)
    (hx : x ∈ r'.desired) : x ∈ r.desired ∨ ∃ p ∈ xs, x.ref = p.2 ∧ p.1.Becomes o x ∧
      Entity.Sourced (current.select o.selection) S n m p.1 x := by
  generalize hs : S.after n = s, ht : S.after m = t at h
  induction h generalizing n with
  | nil => exact .inl hx
  | @cons r r₁ r' e ref s t' t rest hfirst hrest ih =>
    subst hs ht
    obtain ⟨k, hnk, rfl⟩ := hfirst.exists_after
    have hkm := hrest.le_of_after
    rcases ih (hr.step hfirst.step) hx rfl rfl with hx | ⟨p, hp, href, hbecomes, hsourced⟩
    · refine (hfirst.sourced hr hx).imp_right fun ⟨href, hbecomes, hsourced⟩ => ?_
      exact ⟨_, List.mem_cons_self, href, hbecomes, hsourced.mono (Nat.le_refl n) hkm⟩
    · exact .inr ⟨p, List.mem_cons_of_mem _ hp, href, hbecomes,
        hsourced.mono hnk (Nat.le_refl m)⟩

/-- Every declaration has its turn, and what has been resolved then stays. -/
theorem exists_placed {s s' : IdSupply} (h : PlacedAll r s xs r' s') (hr : Sound o current r)
    {p : Entity × Reference} (hp : p ∈ xs) : ∃ r₁ t r₂ t', Sound o current r₁ ∧
      Placed r₁ p.1 t p.2 r₂ t' ∧ ∀ x ∈ r₂.desired, x ∈ r'.desired := by
  obtain ⟨before, after, rfl⟩ := List.append_of_mem hp
  obtain ⟨r₁, t, hbefore, hrest⟩ := h.split
  cases hrest with
  | cons hfirst hafter =>
    exact ⟨r₁, t, _, _, hbefore.sound hr, hfirst, fun x hx => hafter.desired_subset hx⟩

end PlacedAll

/-- What is walked over is placed. -/
theorem exists_placedAll_of_foldlM {es : List Entity} {s s' : IdSupply}
    (h : Yields (es.foldlM step r) s r' s') : ∃ ps : List (Entity × Reference),
      ps.map Prod.fst = es ∧ PlacedAll r s ps r' s' := by
  obtain ⟨refs, hplace⟩ := yields_foldlM_step_iff.1 h
  refine ⟨es.zip refs, List.map_fst_zip ?_, placedAll_of_placeAll hplace⟩
  exact (forall₂_of_placeAll hplace).length_eq.le

end Resolution

namespace Content

variable {c : Content} {o : Options} {current desired : State} {S s' : IdSupply}

/-- The declarations of a document that can be resolved are flattened, and resolved one after the
other. -/
theorem exists_placedAll_of_resolve (h : Yields (c.resolve current o) S desired s') :
    ∃ es k ps r m, Yields c.flatten S es (S.after k) ∧ o.check es = .ok () ∧
      ps.map Prod.fst = inOrder es ∧ PlacedAll (start o current) (S.after k) ps r (S.after m) ∧
      r.desired = desired := by
  obtain ⟨es, t, hes, hcheck, hrun⟩ := yields_resolve_iff.1 h
  obtain ⟨r, hr, rfl⟩ := yields_run_iff.1 hrun
  obtain ⟨ps, hps, hall⟩ := exists_placedAll_of_foldlM hr
  obtain ⟨k, rfl⟩ := exists_after_of_flatten hes
  obtain ⟨n, rfl⟩ := hall.exists_eq_after
  rw [IdSupply.after_after] at hall
  exact ⟨es, _, ps, r, _, hes, hcheck, hps, hall, rfl⟩

/-- Whatever a document asks for is what one of its flat declarations becomes, and has its id from
there. -/
theorem exists_sourced (h : Yields (c.resolve current o) S desired s') :
    ∃ es k m, Yields c.flatten S es (S.after k) ∧ ∀ x ∈ desired, ∃ e ∈ es, e.Becomes o x ∧
      Entity.Sourced (current.select o.selection) S k m e x := by
  obtain ⟨es, k, ps, r, m, hes, -, hps, hall, rfl⟩ := exists_placedAll_of_resolve h
  refine ⟨es, k, m, hes, fun x hx => ?_⟩
  obtain ⟨p, hp, -, hbecomes, hsourced⟩ :=
    (hall.exists_sourced (sound_start o current) hx).resolve_left State.not_mem_empty
  exact ⟨p.1, mem_inOrder.1 (hps ▸ List.mem_map_of_mem hp), hbecomes, hsourced⟩

end Content

end Gateway
