import Gateway.Proofs.Catalog
import Gateway.Sample

/-!
# What a refusal leaves behind

An entity that cannot be added leaves the indexes as they were, because everything is looked up
before the first write. Replacing is different: the old object is taken away before the new one is
looked at, and when the new one has no place, because its natural key belongs to another object, the
old one is gone. So a refused replacement changes the indexes exactly when there was something to
replace, and of the calls of a gateway only updates ever do (`Catalog.unchanged_iff_not_holds`).
-/

namespace Gateway

/-- There is an object of the kind and with the id of the entity. -/
def Catalog.Holds (c : Catalog) (e : Entity) : Prop :=
  ∃ id old, e.id? = some id ∧ (c e.kind).byId id = some old

namespace State

variable {s : State} {e : Entity} {a : Action}

/-- Something is taken away if there is an object with the id of the entity. -/
theorem without_eq_self_iff : s.without e = s ↔ ¬s.catalog.Holds e := by
  unfold without Catalog.Holds
  cases hid : e.id? with
  | none => simp
  | some id =>
    constructor
    · rintro hsame ⟨_, old, heq, hold⟩
      cases heq
      have hgone : (s.erase e.kind id).get? e.kind id = none := by simp [get?_erase]
      rw [byId_catalog, ← hsame, hgone] at hold
      cases hold
    · intro hno
      refine erase_eq_self (Option.eq_none_iff_forall_ne_some.2 fun old hold => ?_)
      exact hno ⟨id, old, rfl, hold⟩

/-- A refused call changes the state if it is an update of an object that is there. -/
theorem afterRefusal_eq_self_iff :
    s.afterRefusal a e = s ↔ ¬(a = .update ∧ s.catalog.Holds e) := by
  unfold afterRefusal
  cases a with
  | update =>
    by_cases hthere : s.contains e.kind e.idText = true
    · simp [hthere, without_eq_self_iff]
    · have hno : ¬s.catalog.Holds e := by
        rintro ⟨id, old, hid, hold⟩
        rw [byId_catalog] at hold
        rw [Entity.idText_of_id? hid, contains, hold] at hthere
        exact hthere rfl
      simp [hthere, hno]
  | create => simp
  | delete => simp
  | keep => simp

end State

/-- When an error comes of an operation on a state, what is left is what the operation leaves. -/
theorem Catalog.eq_of_outcome {ε : Type} {x : EStateM ε Catalog Unit} {r : Except ε State}
    {c left c' : Catalog} {err : ε} (hrun : x.run c = outcome r left)
    (h : x.run c = .error err c') : c' = left := by
  rw [hrun] at h
  cases r with
  | ok t => cases h
  | error err' =>
    cases h
    rfl

/-- What a call that is refused leaves of the state of a gateway. -/
theorem ControlPlane.state_of_refused {cp cp' : ControlPlane} {a : Action} {e : Entity}
    {err : ClientError} (h : cp.call a e = (.refused err, cp')) :
    cp'.state = if cp.refusal? e = none then cp.state.afterRefusal a e else cp.state := by
  unfold call at h
  split at h
  · cases h
  · split at h
    · cases h
    · split at h
      · rename_i err' hrefused
        cases h
        simp [hrefused, log]
      · rename_i hnone
        split at h
        · cases h
        · cases h
          simp [hnone, log]

namespace Catalog

/-- For every catalog, whatever was done to it, and every entity: when the entity cannot be added,
the indexes stay as they are; when it cannot be put in place, they are as if the object with its id
had been taken away, so they stay as they are if and only if there was none; and when a gateway
cannot do what a call says, they stay as they are unless it is an update of an object that is there.
So a gateway that refuses a call has its indexes changed if and only if it is such an update and the
gateway came to look at it. -/
theorem unchanged_iff_not_holds (s : State) (writes : List Write) (e : Entity) :
    let c := writes.foldl write s.catalog
    (∀ err c', (insert e).run c = .error err c' → c' = c) ∧
      (∀ err c', (upsert e).run c = .error err c' → (c' = c ↔ ¬c.Holds e) ∧
        ∀ id, e.id? = some id →
          ∃ old, (remove e.kind id : EStateM StateError Catalog _).run c = .ok old c') ∧
      (∀ a err c', (apply a e).run c = .error err c' → (c' = c ↔ ¬(a = .update ∧ c.Holds e))) ∧
      ∀ (cp cp' : ControlPlane) (a : Action) (err : ClientError),
        cp.call a e = (.refused err, cp') → (cp'.state.catalog = cp.state.catalog ↔
          ¬(a = .update ∧ cp.refusal? e = none ∧ cp.state.catalog.Holds e)) := by
  intro c
  obtain ⟨t, ht⟩ : ∃ t : State, c = t.catalog := exists_state_of_writes s writes
  rw [ht]
  refine ⟨?_, ?_, ?_, ?_⟩
  · intro err c' h
    exact eq_of_outcome (run_insert t e) h
  · intro err c' h
    rw [eq_of_outcome (run_upsert t e) h]
    constructor
    · rw [State.catalog_inj, State.without_eq_self_iff]
    · intro id hid
      refine ⟨t.get? e.kind id, ?_⟩
      rw [run_remove, State.without, hid]
  · intro a err c' h
    rw [eq_of_outcome (run_apply t a e) h, State.catalog_inj, State.afterRefusal_eq_self_iff]
  · intro cp cp' a err h
    rw [State.catalog_inj, ControlPlane.state_of_refused h]
    by_cases hnone : cp.refusal? e = none
    · simp [hnone, State.afterRefusal_eq_self_iff]
    · simp [hnone]

/-! ### One name for two services -/

/-- Two services are added. -/
def twoServices : List Write :=
  [.insert (Sample.service "s0" "old"), .insert (Sample.service "s1" "new")]

/-- The older of the two services, under the name of the newer. -/
def renamed : Entity := Sample.service "s0" "new"

/-- A third service cannot be added under a name that is taken, and nothing changes. Neither can one
of the two get the name of the other, and then it is gone, also from a gateway that is told to
update it. -/
theorem changed_of_renamed :
    let c := twoServices.foldl write State.empty.catalog
    (∃ err, (insert (Sample.service "s2" "new")).run c = .error err c) ∧
      (∃ err c', (upsert renamed).run c = .error err c' ∧ c' ≠ c ∧
        ∃ old, (remove .service "s0" : EStateM StateError Catalog _).run c = .ok old c') ∧
      ∃ (cp cp' : ControlPlane) (err : ClientError), cp.state = Sample.twoServices ∧
        cp.call .update renamed = (.refused err, cp') ∧ cp'.state.catalog ≠ cp.state.catalog := by
  intro c
  have hspec := unchanged_iff_not_holds State.empty twoServices
  refine ⟨?_, ?_, ?_⟩
  · obtain ⟨err, c', h⟩ : ∃ err c', (insert (Sample.service "s2" "new")).run c = .error err c' :=
      ⟨_, _, rfl⟩
    have hsame := (hspec _).1 err c' h
    exact ⟨err, by rw [h, hsame]⟩
  · obtain ⟨err, c', h⟩ : ∃ err c', (upsert renamed).run c = .error err c' := ⟨_, _, rfl⟩
    obtain ⟨hsame, hgone⟩ := (hspec _).2.1 err c' h
    have hholds : c.Holds renamed := ⟨"s0", _, rfl, rfl⟩
    exact ⟨err, c', h, fun heq => hsame.1 heq hholds, hgone "s0" rfl⟩
  · obtain ⟨err, cp', h⟩ : ∃ err cp',
        (ControlPlane.ofState Sample.twoServices).call .update renamed = (.refused err, cp') :=
      ⟨_, _, rfl⟩
    have hsame := (hspec renamed).2.2.2 _ cp' .update err h
    have hholds : Sample.twoServices.catalog.Holds renamed := ⟨"s0", _, rfl, rfl⟩
    exact ⟨_, cp', err, rfl, h, fun heq => hsame.1 heq ⟨rfl, rfl, hholds⟩⟩

/-- It is not so that whatever is refused leaves the indexes as they were. -/
theorem not_always_unchanged : ¬∀ (s : State) (writes : List Write) (e : Entity),
    let c := writes.foldl write s.catalog
    (∀ err c', (insert e).run c = .error err c' → c' = c) ∧
      (∀ err c', (upsert e).run c = .error err c' → c' = c) ∧
      ∀ (cp cp' : ControlPlane) (a : Action) (err : ClientError),
        cp.call a e = (.refused err, cp') → cp'.state.catalog = cp.state.catalog := by
  intro h
  obtain ⟨err, c', hrun⟩ :
      ∃ err c', (upsert renamed).run Sample.twoServices.catalog = .error err c' := ⟨_, _, rfl⟩
  have hsame : c' = Sample.twoServices.catalog := (h Sample.twoServices [] renamed).2.1 err c' hrun
  rw [eq_of_outcome (run_upsert _ _) hrun, State.catalog_inj, State.without_eq_self_iff] at hsame
  exact hsame ⟨"s0", _, rfl, rfl⟩

end Catalog

end Gateway
