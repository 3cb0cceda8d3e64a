import Gateway.Proofs.Placement

/-!
# How objects are recognised

The id that gives way to another when an entity gets its final one (`Moves.settle`), where final ids
come from (`Resolution.Identified.id_cases`), and what references mean when there are no lookup tags
(`Resolution.lookUp_eq_ok_iff`).
-/

namespace Gateway

open Planning

/-! ### Ids that gave way -/

namespace Moves

variable {m : Moves} {kind k : Kind} {id target a : String} {e : Entity}

/-- The note made last decides on its own id and on no other. -/
theorem resolve_record : (m.record kind id target).resolve k a =
    if kind = k ∧ id = a then target else m.resolve k a := by
  unfold record resolve
  rw [List.find?_cons]
  split
  · rename_i heq
    obtain ⟨rfl, rfl⟩ : kind = k ∧ id = a := by simpa using heq
    simp
  · rename_i hne
    have hne : ¬(kind = k ∧ id = a) := by simpa using hne
    rw [if_neg hne, List.find?_filter]
    congr 3
    funext x
    by_cases hx : x.1 = ⟨k, a⟩
    · have hdiff : (⟨k, a⟩ : Reference) ≠ ⟨kind, id⟩ := by
        rintro ⟨⟩
        exact hne ⟨rfl, rfl⟩
      simp [hx, hdiff]
    · simp [hx]

/-- What is noted when an entity gets its final id. -/
def settle (m : Moves) (e : Entity) (id : String) : Moves :=
  match e.id? with
  | some declared => if declared = id then m else m.record e.kind declared id
  | none => m

/-- An id means something else only when it gave way. -/
theorem resolve_settle : (m.settle e id).resolve k a =
    if e.kind = k ∧ e.id? = some a ∧ a ≠ id then id else m.resolve k a := by
  unfold settle
  split
  · rename_i declared hid
    split
    · rename_i heq
      rw [if_neg]
      rintro ⟨-, hsome, hne⟩
      exact hne ((Option.some.inj (hid.symm.trans hsome)).symm.trans heq)
    · rename_i hne
      rw [resolve_record]
      congr 1
      simp only [hid, Option.some.injEq, eq_iff_iff, and_congr_right_iff]
      rintro -
      constructor
      · rintro rfl
        exact ⟨rfl, hne⟩
      · exact And.left
  · rename_i hid
    rw [if_neg]
    rintro ⟨-, hsome, -⟩
    cases hid.symm.trans hsome

end Moves

/-! ### Recognising objects -/

namespace Entity

variable {e : Entity}

/-- An entity without natural key has no fallback key. -/
theorem fallbackKey?_of_naturalKey? (h : e.naturalKey? = none) : e.fallbackKey? = none := by
  obtain ⟨k, r⟩ := e
  cases k
  case consumer =>
    have hname : r.detail.username = none := by
      cases hname : r.detail.username with
      | none => rfl
      | some name => simp [naturalKey?, Detail.naturalKey?, hname] at h
    simp [fallbackKey?, Detail.fallbackKey?, hname]
  all_goals rfl

/-- Only ids of memberships and permissions are derived. -/
theorem withDerivedId_of_isReferable (h : isReferable e.kind = true) : e.withDerivedId = e := by
  obtain ⟨k, r⟩ := e
  cases k <;> first | rfl | cases h

/-- Without a natural key no id is derived. -/
theorem withDerivedId_of_naturalKey? (h : e.naturalKey? = none) : e.withDerivedId = e := by
  obtain ⟨k, r⟩ := e
  cases k <;> first | rfl | cases h

end Entity

/-- What an entity denotes is in the state, and of its kind. -/
theorem State.mem_of_match? {s : State} {e x : Entity} (h : s.match? e = some x) :
    x ∈ s ∧ x.kind = e.kind := by
  have mem_of_key : ∀ {key : Option NaturalKey}, key.bind (s.getByKey? e.kind) = some x →
      x ∈ s ∧ x.kind = e.kind := by
    intro key hx
    obtain ⟨_, -, hx⟩ := Option.bind_eq_some_iff.1 hx
    exact (State.getByKey?_eq_some_iff.1 hx).imp_right And.left
  unfold State.match? at h
  rcases (Option.orElse_eq_some _ _ _).1 h with hx | ⟨-, h⟩
  · exact mem_of_key hx
  · rcases (Option.orElse_eq_some _ _ _).1 h with hx | ⟨-, hx⟩
    · exact mem_of_key hx
    · obtain ⟨_, -, hx⟩ := Option.bind_eq_some_iff.1 hx
      exact (State.get?_eq_some_iff.1 hx).imp_right And.left

/-- An entity without natural key is recognised by its id. -/
theorem State.match?_of_naturalKey? {s : State} {e : Entity} (h : e.naturalKey? = none) :
    s.match? e = e.id?.bind (s.get? e.kind) := by
  unfold State.match?
  rw [h, Entity.fallbackKey?_of_naturalKey? h]
  rfl

namespace Resolution

variable {r r₁ : Resolution} {e linked x : Entity} {ref : Reference} {id : String} {moves : Moves}
  {s s' : IdSupply} {S : IdSupply} {n : Nat}

/-- Whichever way an entity is identified, what is noted is settled by its declared and its final
id. -/
theorem Identified.moves_eq (h : Identified r e s id moves s') : moves = r.moves.settle e id := by
  unfold Moves.settle
  cases h with
  | same _ hid => rw [hid]; simp
  | moved _ hid hne => rw [hid]; simp [hne]
  | adopted _ hid => rw [hid]
  | declared _ hid => rw [hid]; simp
  | fresh _ hid => rw [hid]

/-- The id of an object that others refer to is not derived. -/
theorem id?_candidate (h : Entity.isReferable linked.kind = true) :
    (r.candidate linked).id? = linked.id? := by
  rw [candidate, Entity.id?_apply, Entity.withDerivedId_of_isReferable h]

/-- What others refer to is declared once. -/
theorem repeats_of_isReferable (h : Entity.isReferable e.kind = true) :
    r.repeats e = .ok false := by
  unfold repeats
  split
  · rename_i hk
    rw [hk] at h
    cases h
  · rename_i hk
    rw [hk] at h
    cases h
  · rfl

/-- Where a final id comes from. -/
theorem Identified.id_cases (h : Identified r e (S.after n) id moves s') :
    (∃ x ∈ r.visible, x.idText = id) ∨ e.id? = some id ∨ id = S.nth n := by
  cases h with
  | same hmatch _ => exact .inl ⟨_, (State.mem_of_match? hmatch).1, rfl⟩
  | moved hmatch _ _ => exact .inl ⟨_, (State.mem_of_match? hmatch).1, rfl⟩
  | adopted hmatch _ => exact .inl ⟨_, (State.mem_of_match? hmatch).1, rfl⟩
  | declared _ hid => exact .inr (.inl hid)
  | fresh _ _ => exact .inr (.inr rfl)

/-- An entity without natural key keeps its id. -/
theorem Identified.eq_of_naturalKey? (h : Identified r e s id moves s')
    (hkey : e.naturalKey? = none) {a : String} (hid : e.id? = some a) : id = a := by
  have idText_of_match? : ∀ {x}, r.visible.match? e = some x → x.idText = a := by
    intro x hx
    rw [State.match?_of_naturalKey? hkey, hid] at hx
    exact congrArg Reference.id (State.ref_of_get? hx)
  cases h with
  | same hmatch _ => exact idText_of_match? hmatch
  | moved hmatch _ _ => exact idText_of_match? hmatch
  | adopted hmatch _ => exact idText_of_match? hmatch
  | declared _ hid' => exact Option.some.inj (hid'.symm.trans hid)
  | fresh _ hid' => cases hid'.symm.trans hid

/-- An entity that is recognised gets the id of the object, and takes no fresh one. -/
theorem identified_of_match? (h : r.visible.match? e = some x) :
    Identified r e s x.idText (r.moves.settle e x.idText) s := by
  unfold Moves.settle
  split
  · rename_i declared hid
    split
    · rename_i heq
      exact .same h (heq ▸ hid)
    · rename_i hne
      exact .moved h hid hne
  · rename_i hid
    exact .adopted h hid

/-- Nothing is refused but what shares its natural key with something resolved, and what has the id
of a hidden object. -/
theorem refuse_eq_ok_iff {o : Options} (hvisible : r.visible = r.current.select o.selection) :
    r.refuse e = .ok () ↔ (∀ y ∈ r.desired, ¬e.SameKey y) ∧
      ∀ a, e.id? = some a → ∀ y ∈ r.current, y.ref = ⟨e.kind, a⟩ →
        r.current.visible o.selection y = true := by
  have hfree : ∀ a, (r.current.contains e.kind a && !r.visible.contains e.kind a) = false ↔
      ∀ y ∈ r.current, y.ref = ⟨e.kind, a⟩ → r.current.visible o.selection y = true := by
    intro a
    rw [hvisible, Bool.and_eq_false_imp]
    simp only [State.contains_iff, Bool.not_eq_false']
    constructor
    · intro hall y hy href
      have hk : y.kind = e.kind := congrArg Reference.kind href
      have hid : y.idText = a := congrArg Reference.id href
      obtain ⟨z, hz, hzk, hzid⟩ := hall ⟨y, hy, hk, hid⟩
      obtain ⟨hz, hvisible⟩ := State.mem_filter.1 hz
      rwa [State.eq_of_mem hy hz (hk.trans hzk.symm) (hid.trans hzid.symm)]
    · rintro hall ⟨y, hy, hk, hid⟩
      have href : y.ref = ⟨e.kind, a⟩ := by rw [Entity.ref, hk, hid]
      exact ⟨y, State.mem_filter.2 ⟨hy, hall y hy href⟩, hk, hid⟩
  unfold refuse
  rw [← State.keyHolder?_eq_none_iff]
  cases hkey : r.desired.keyHolder? e with
  | some x => simp
  | none =>
    rw [if_neg (by simp)]
    cases hid : e.id? with
    | none => simp
    | some a =>
      simp only [Option.some.injEq, forall_eq', true_and, ← hfree]
      split <;> simp_all

/-- Fresh ids are taken one after the other. -/
theorem Identified.exists_after (h : Identified r e (S.after n) id moves s') :
    ∃ k, n ≤ k ∧ s' = S.after k := by
  cases h with
  | fresh _ _ => exact ⟨n + 1, Nat.le_succ n, rfl⟩
  | same _ _ | moved _ _ _ | adopted _ _ | declared _ _ => exact ⟨n, Nat.le_refl n, rfl⟩

/-- Resolving a declaration only takes ids off the supply. -/
theorem Placed.exists_after (h : Placed r e (S.after n) ref r₁ s') :
    ∃ k, n ≤ k ∧ s' = S.after k := by
  cases h with
  | repeated _ _ => exact ⟨n, Nat.le_refl n, rfl⟩
  | added _ _ _ hident _ => exact hident.exists_after

/-- A declaration leaves alone what ids mean other than its own. -/
theorem Placed.resolve_eq (h : Placed r e s ref r₁ s') {kind : Kind} {a : String}
    (hkind : Entity.isReferable kind = true) (hne : e.kind = kind → e.id? ≠ some a) :
    r₁.moves.resolve kind a = r.moves.resolve kind a := by
  cases h with
  | repeated _ _ => rfl
  | @added linked id moves desired _ hlink _ _ hident _ =>
    rw [hident.moves_eq, Moves.resolve_settle, if_neg]
    rintro ⟨rfl, hid, -⟩
    rw [kind_candidate] at hkind hne
    rw [id?_candidate hkind, Entity.id?_relink hlink] at hid
    exact hne (Entity.kind_relink hlink).symm hid

/-! ### References without lookup tags -/

/-- Without lookup tags a reference means what has been resolved, and nothing else. -/
theorem lookUp_eq_ok_iff (hlookup : r.options.lookupTags.isEmpty = true) {owner : String}
    {kind : Kind} {fk : ForeignKey} : r.lookUp owner kind fk = .ok id ↔ fk.isBare = true ∧
      ((∃ a, fk.id = some a ∧ r.moves.resolve kind a = id ∧ r.desired.contains kind id = true) ∨
        fk.id = none ∧ ∃ name, fk.name = some name ∧
          ∃ x, (r.desired.ofKind kind).filter (·.answersToName name) = [x] ∧ x.idText = id) := by
  have hshared : ∀ x, r.isShared x = false := isShared_eq_false hlookup
  unfold lookUp
  cases hbare : fk.isBare with
  | false => simp
  | true =>
    rw [if_neg (by simp)]
    cases hid : fk.id with
    | some a =>
      have hnone : (r.current.get? kind (r.moves.resolve kind a)).any r.isShared = false := by
        cases r.current.get? kind (r.moves.resolve kind a) with
        | none => rfl
        | some x => exact hshared x
      simp only [hnone, Bool.or_false]
      split
      · rename_i hcontains
        constructor
        · intro h
          cases h
          exact ⟨trivial, .inl ⟨a, rfl, rfl, hcontains⟩⟩
        · rintro ⟨-, ⟨_, ⟨⟩, rfl, -⟩ | ⟨⟨⟩, -⟩⟩
          rfl
      · rename_i hno
        constructor
        · intro h
          cases h
        · rintro ⟨-, ⟨_, ⟨⟩, rfl, hcontains⟩ | ⟨⟨⟩, -⟩⟩
          exact absurd hcontains hno
    | none =>
      cases hname : fk.name with
      | some name =>
        have hnamed :
            r.named kind name = (r.desired.ofKind kind).filter (·.answersToName name) := by
          unfold named
          simp only [hshared, Bool.false_and, List.filter_false]
          split
          · rename_i hempty
            exact (List.isEmpty_iff.1 hempty).symm
          · rfl
        simp [only_eq_ok_iff, hnamed]
      | none =>
        have htags : r.options.lookupTags.forKind kind = [] := by
          unfold LookupTags.isEmpty at hlookup
          simpa using List.all_eq_true.1 hlookup kind kind.mem_creationOrder
        simp [htags]

end Resolution

end Gateway
