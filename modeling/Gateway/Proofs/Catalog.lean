import Mathlib.Logic.Function.Basic
import Gateway.Proofs.State

/-!
# Indexes

A gateway keeps the objects of each kind in an `Index`: by their ids, and their ids by their natural
keys. What is done to an index is a sequence of look-ups and writes, and an error leaves behind
whatever was written before it (`Index.insert`, `Index.remove`, `Index.upsert`). A `Catalog` has one
index for each kind. The catalog of a state is what its look-ups find (`State.catalog`), and it
determines the state (`State.catalog_inj`). Writing to it has the effect that the operations on
states describe, in success and in failure (`Catalog.run_insert`, `Catalog.run_remove`,
`Catalog.run_upsert`, and `Catalog.run_apply` for the calls of a gateway). So the two indexes of a
kind always agree: a catalog that starts as the catalog of a state stays one, whatever is done to it
(`Catalog.exists_state_of_writes`).
-/

namespace Gateway

/-! ### One kind -/

/-- The objects of one kind. -/
@[ext]
structure Index where
  byId : String → Option Entity
  /-- The ids of objects under their natural keys. -/
  byKey : NaturalKey → Option String

namespace Index

/-- Add an object under its id and natural key, which have to be free. -/
def insert (e : Entity) : EStateM StateError Index Unit := do
  let some id := e.id? | throw (.missingId e.kind e.label)
  if ((← get).byId id).isSome then throw (.duplicateId e.kind id)
  if let some key := e.naturalKey? then
    if let some first := (← get).byKey key then
      throw (.duplicateKey e.kind key.text first id)
    modify fun i => { i with byKey := Function.update i.byKey key (some id) }
  modify fun i => { i with byId := Function.update i.byId id (some e) }

/-- Take away the object with an id, and its natural key if it leads there. -/
def remove {ε : Type} (id : String) : EStateM ε Index (Option Entity) := do
  let some removed := (← get).byId id | return none
  modify fun i => { i with byId := Function.update i.byId id none }
  if let some key := removed.naturalKey? then
    if (← get).byKey key = some id then
      modify fun i => { i with byKey := Function.update i.byKey key none }
  return some removed

/-- Take away the object with the same id, then add the new one. -/
def upsert (e : Entity) : EStateM StateError Index Unit := do
  if let some id := e.id? then
    let _ ← remove id
  insert e

end Index

/-! ### All kinds -/

/-- The objects of a gateway. -/
abbrev Catalog := Kind → Index

/-- The objects that a state holds. -/
def State.catalog (s : State) : Catalog := fun kind =>
  { byId := s.get? kind, byKey := fun key => (s.getByKey? kind key).map (·.idText) }

namespace Catalog

/-- Do something to the index of a kind. -/
def onKind {ε α : Type} (kind : Kind) (x : EStateM ε Index α) : EStateM ε Catalog α := fun c =>
  match x.run (c kind) with
  | .ok a i => .ok a (Function.update c kind i)
  | .error err i => .error err (Function.update c kind i)

/-- Add an object. -/
def insert (e : Entity) : EStateM StateError Catalog Unit := onKind e.kind (Index.insert e)

/-- Take away the object of a kind with an id. -/
def remove {ε : Type} (kind : Kind) (id : String) : EStateM ε Catalog (Option Entity) :=
  onKind kind (Index.remove id)

/-- Add an object, in place of the one with the same id. -/
def upsert (e : Entity) : EStateM StateError Catalog Unit := onKind e.kind (Index.upsert e)

/-- Do what a call says. -/
def apply (a : Action) (e : Entity) : EStateM ClientError Catalog Unit := do
  match a with
  | .create =>
    let some id := e.id? | throw (.rejected 400 "id is required")
    if (((← get) e.kind).byId id).isSome then
      throw (.rejected 409 ("UNIQUE violation detected on id " ++ id))
    (insert e).adaptExcept fun err => .rejected 409 err.message
  | .update =>
    if (((← get) e.kind).byId e.idText).isNone then throw (.notFound e.kind e.idText)
    (upsert e).adaptExcept fun err => .rejected 400 err.message
  | .delete =>
    let some _ ← remove e.kind e.idText | throw (.notFound e.kind e.idText)
  | .keep => return

end Catalog

/-! ### Catalogs of states -/

namespace State

variable {s t : State} {e x : Entity} {kind : Kind} {id : String}

/-- The first index is the look-up by id. -/
@[simp] theorem byId_catalog (s : State) (kind : Kind) : (s.catalog kind).byId = s.get? kind := rfl

/-- The second one is the look-up by key, as far as the id. -/
@[simp] theorem byKey_catalog (s : State) (kind : Kind) (key : NaturalKey) :
    (s.catalog kind).byKey key = (s.getByKey? kind key).map (·.idText) := rfl

/-- A state is determined by its catalog. -/
theorem catalog_inj : s.catalog = t.catalog ↔ s = t := by
  constructor
  · intro h
    refine ext_get? fun kind id => ?_
    rw [← byId_catalog, h, byId_catalog]
  · rintro rfl
    rfl

/-- The index of a kind depends on the objects of the kind alone. -/
theorem catalog_congr (h : ∀ x : Entity, x.kind = kind → (x ∈ s ↔ x ∈ t)) :
    s.catalog kind = t.catalog kind := by
  ext1
  · funext id
    ext x
    rw [byId_catalog, byId_catalog, get?_eq_some_iff, get?_eq_some_iff]
    exact and_congr_left fun hx => h x hx.1
  · funext key
    rw [byKey_catalog, byKey_catalog]
    congr 1
    ext x
    rw [getByKey?_eq_some_iff, getByKey?_eq_some_iff]
    exact and_congr_left fun hx => h x hx.1

/-- Where two states differ in the objects of one kind, their catalogs differ in its index. -/
theorem update_catalog (h : ∀ k ≠ kind, t.catalog k = s.catalog k) :
    Function.update s.catalog kind (t.catalog kind) = t.catalog := by
  funext k
  by_cases hk : k = kind
  · subst hk
    rw [Function.update_self]
  · rw [Function.update_of_ne hk, h k hk]

/-- An insertion shows in the indexes of its kind only. -/
theorem catalog_insert_of_ne (h : s.insert e = .ok t) (k : Kind) (hk : k ≠ e.kind) :
    t.catalog k = s.catalog k := by
  ext1
  · funext id
    simp [get?_insert h, hk.symm]
  · funext key
    simp [getByKey?_insert h, hk.symm]

/-- A removal shows in the indexes of its kind only. -/
theorem catalog_erase_of_ne (k : Kind) (hk : k ≠ kind) :
    (s.erase kind id).catalog k = s.catalog k := by
  ext1
  · funext i
    simp [get?_erase, hk.symm]
  · funext key
    rw [byKey_catalog, byKey_catalog, getByKey?_erase]
    cases hget : s.getByKey? k key with
    | none => rfl
    | some x =>
      have hx := (getByKey?_eq_some_iff.1 hget).2.1
      simp [Option.filter, hx, hk]

/-- The same where the id may be missing. -/
theorem catalog_without_of_ne (k : Kind) (hk : k ≠ e.kind) :
    (s.without e).catalog k = s.catalog k := by
  unfold without
  cases e.id? with
  | none => rfl
  | some id => exact catalog_erase_of_ne k hk

/-- The index of a kind with a new object. -/
theorem catalog_insert (h : s.insert e = .ok t) : t.catalog e.kind =
    { byId := Function.update (s.catalog e.kind).byId e.idText (some e)
      byKey := match e.naturalKey? with
        | some key => Function.update (s.catalog e.kind).byKey key (some e.idText)
        | none => (s.catalog e.kind).byKey } := by
  ext1
  · funext id
    by_cases hid : id = e.idText
    · simp [get?_insert h, hid]
    · simp [get?_insert h, hid, Ne.symm hid]
  · funext key
    cases hkey : e.naturalKey? with
    | none => simp [getByKey?_insert h, hkey]
    | some key' =>
      by_cases hsame : key = key'
      · simp [getByKey?_insert h, hkey, hsame]
      · simp [getByKey?_insert h, hkey, hsame, Ne.symm hsame]

/-- The index of a kind without an object. -/
theorem catalog_erase (h : s.get? kind id = some x) : (s.erase kind id).catalog kind =
    { byId := Function.update (s.catalog kind).byId id none
      byKey := match x.naturalKey? with
        | some key => Function.update (s.catalog kind).byKey key none
        | none => (s.catalog kind).byKey } := by
  obtain ⟨hx, rfl, rfl⟩ := get?_eq_some_iff.1 h
  ext1
  · funext i
    by_cases hi : i = x.idText
    · simp [get?_erase, hi]
    · simp [get?_erase, hi, Ne.symm hi]
  · funext key
    -- another natural key belongs to another object, which stays
    have hrest : x.naturalKey? ≠ some key → ((s.erase x.kind x.idText).catalog x.kind).byKey key =
        (s.catalog x.kind).byKey key := by
      intro hne
      rw [byKey_catalog, byKey_catalog, getByKey?_erase]
      cases hget : s.getByKey? x.kind key with
      | none => rfl
      | some y =>
        obtain ⟨hy, hk, hykey⟩ := getByKey?_eq_some_iff.1 hget
        have hid : y.idText ≠ x.idText := by
          intro hid
          rw [eq_of_mem hy hx hk hid] at hykey
          exact hne hykey
        simp [Option.filter, hid]
    cases hkey : x.naturalKey? with
    | none => exact hrest (by simp [hkey])
    | some key' =>
      by_cases hsame : key = key'
      · subst hsame
        have hheld : s.getByKey? x.kind key = some x := getByKey?_eq_some_iff.2 ⟨hx, rfl, hkey⟩
        simp [getByKey?_erase, hheld, Option.filter]
      · have hother := hrest (by simp [hkey, Ne.symm hsame])
        simpa [hsame] using hother

end State

/-! ### What writing does -/

namespace Index

variable {s : State} {e x : Entity} {kind : Kind} {id : String}

/-- Inserting write by write leads where inserting does, and a failure leaves both indexes as they
were. -/
theorem run_insert (s : State) (e : Entity) :
    (insert e).run (s.catalog e.kind) = match s.insert e with
      | .ok t => .ok () (t.catalog e.kind)
      | .error err => .error err (s.catalog e.kind) := by
  cases hid : e.id? with
  | none =>
    rw [State.insert_of_missingId hid]
    simp [insert, hid]
  | some id =>
    cases hget : s.get? e.kind id with
    | some x =>
      rw [State.insert_of_duplicateId hid hget]
      simp [insert, hid, hget]
    | none =>
      have hfree : s.contains e.kind e.idText = false := by
        rw [Entity.idText_of_id? hid, State.contains, hget, Option.isSome_none]
      have hsome : e.id?.isSome := by simp [hid]
      have hadd : (∀ x ∈ s, ¬e.SameKey x) → ∃ t, s.insert e = .ok t :=
        State.exists_insert hsome hfree
      cases hkey : e.naturalKey? with
      | none =>
        obtain ⟨t, ht⟩ := hadd fun x _ hsame => by simp [Entity.SameKey, hkey] at hsame
        rw [ht]
        simp [insert, hid, hget, hkey, State.catalog_insert ht, Entity.idText_of_id? hid]
      | some key =>
        cases hheld : s.getByKey? e.kind key with
        | some x =>
          rw [State.insert_of_duplicateKey hid hget hkey hheld]
          simp [insert, hid, hget, hkey, hheld]
        | none =>
          have hholder : s.keyHolder? e = none := by
            rw [State.keyHolder?, hkey, Option.bind_some, hheld]
          obtain ⟨t, ht⟩ := hadd (State.keyHolder?_eq_none_iff.1 hholder)
          rw [ht]
          simp [insert, hid, hget, hkey, hheld, State.catalog_insert ht, Entity.idText_of_id? hid]

/-- Removing write by write leads where removing does. -/
theorem run_remove {ε : Type} (s : State) (kind : Kind) (id : String) :
    (remove id : EStateM ε Index (Option Entity)).run (s.catalog kind) =
      .ok (s.get? kind id) ((s.erase kind id).catalog kind) := by
  cases hget : s.get? kind id with
  | none => simp [remove, hget, State.erase_eq_self hget]
  | some x =>
    obtain ⟨hx, rfl, rfl⟩ := State.get?_eq_some_iff.1 hget
    cases hkey : x.naturalKey? with
    | none => simp [-bind_pure_comp, remove, hget, hkey, State.catalog_erase hget]
    | some key =>
      have hheld : s.getByKey? x.kind key = some x := State.getByKey?_eq_some_iff.2 ⟨hx, rfl, hkey⟩
      simp [-bind_pure_comp, remove, hget, hkey, hheld, State.catalog_erase hget]

/-- Writing over an object write by write: when the insertion fails, what was to be replaced is gone
already. -/
theorem run_upsert (s : State) (e : Entity) :
    (upsert e).run (s.catalog e.kind) = match s.upsert e with
      | .ok t => .ok () (t.catalog e.kind)
      | .error err => .error err ((s.without e).catalog e.kind) := by
  have hinsert := run_insert (s.without e) e
  unfold State.upsert State.without at *
  cases hid : e.id? with
  | none => simpa [upsert, hid] using hinsert
  | some id =>
    simp only [hid] at hinsert ⊢
    simpa [upsert, hid, run_remove] using hinsert

end Index

namespace Catalog

variable {ε α : Type} {s t : State} {e : Entity} {kind : Kind} {x : EStateM ε Index α}

/-- What is done to the indexes of one kind is done to no other. -/
theorem run_onKind (c : Catalog) (kind : Kind) (x : EStateM ε Index α) :
    (onKind kind x).run c = match x.run (c kind) with
      | .ok a i => .ok a (Function.update c kind i)
      | .error err i => .error err (Function.update c kind i) := rfl

/-- What succeeds in the index of a kind and concerns no other succeeds in the catalog. -/
theorem run_onKind_ok {a : α} (h : x.run (s.catalog kind) = .ok a (t.catalog kind))
    (hrest : ∀ k ≠ kind, t.catalog k = s.catalog k) :
    (onKind kind x).run s.catalog = .ok a t.catalog := by
  rw [run_onKind, h]
  simp only [State.update_catalog hrest]

/-- What fails in the index of a kind fails in the catalog, and leaves there what it leaves in the
index. -/
theorem run_onKind_error {err : ε} (h : x.run (s.catalog kind) = .error err (t.catalog kind))
    (hrest : ∀ k ≠ kind, t.catalog k = s.catalog k) :
    (onKind kind x).run s.catalog = .error err t.catalog := by
  rw [run_onKind, h]
  simp only [State.update_catalog hrest]

/-- What comes of an operation on a state, in terms of catalogs: an error leaves some catalog
behind. -/
def outcome (r : Except ε State) (left : Catalog) : EStateM.Result ε Catalog Unit :=
  match r with
  | .ok t => .ok () t.catalog
  | .error err => .error err left

/-- Adding to a catalog is adding to the state; an error leaves nothing behind. -/
theorem run_insert (s : State) (e : Entity) :
    (insert e).run s.catalog = outcome (s.insert e) s.catalog := by
  have hindex := Index.run_insert s e
  cases h : s.insert e with
  | ok t =>
    rw [h] at hindex
    exact run_onKind_ok hindex (State.catalog_insert_of_ne h)
  | error err =>
    rw [h] at hindex
    exact run_onKind_error hindex fun _ _ => rfl

/-- Taking away from a catalog is taking away from the state. -/
theorem run_remove (s : State) (kind : Kind) (id : String) :
    (remove kind id : EStateM ε Catalog (Option Entity)).run s.catalog =
      .ok (s.get? kind id) (s.erase kind id).catalog :=
  run_onKind_ok (Index.run_remove s kind id) State.catalog_erase_of_ne

/-- Replacing in a catalog is replacing in the state; an error leaves the state without the object
that was to be replaced. -/
theorem run_upsert (s : State) (e : Entity) :
    (upsert e).run s.catalog = outcome (s.upsert e) (s.without e).catalog := by
  have hindex := Index.run_upsert s e
  cases h : s.upsert e with
  | ok t =>
    rw [h] at hindex
    refine run_onKind_ok hindex fun k hk => ?_
    exact (State.catalog_insert_of_ne h k hk).trans (State.catalog_without_of_ne k hk)
  | error err =>
    rw [h] at hindex
    exact run_onKind_error hindex State.catalog_without_of_ne

/-- What a call does to a catalog it does to the state, and what a refused call leaves of the
catalog it leaves of the state. -/
theorem run_apply (s : State) (a : Action) (e : Entity) :
    (apply a e).run s.catalog = outcome (s.apply a e) (s.afterRefusal a e).catalog := by
  cases a with
  | create =>
    simp only [apply, State.apply, State.applyCreate, State.afterRefusal]
    cases hid : e.id? with
    | none => simp [outcome]
    | some id =>
      cases hget : s.get? e.kind id with
      | some x => simp [hget, State.contains, outcome]
      | none =>
        cases h : s.insert e <;>
          simp [hget, h, run_insert, State.contains, outcome]
  | update =>
    simp only [apply, State.apply, State.applyUpdate, State.afterRefusal]
    cases hget : s.get? e.kind e.idText with
    | none => simp [hget, State.contains, outcome]
    | some x =>
      cases h : s.upsert e <;>
        simp [hget, h, run_upsert, State.contains, outcome]
  | delete =>
    simp only [apply, State.apply, State.applyDelete, State.afterRefusal]
    cases hget : s.get? e.kind e.idText with
    | none => simp [hget, run_remove, State.contains, State.erase_eq_self hget, outcome]
    | some x => simp [hget, run_remove, State.contains, outcome]
  | keep => simp [apply, State.apply, outcome]

/-! ### Histories -/

/-- Something that is done to a catalog. -/
inductive Write
  | insert (e : Entity)
  | upsert (e : Entity)
  | remove (kind : Kind) (id : String)
  | call (a : Action) (e : Entity)

/-- What is there afterwards, in success and in failure. -/
def after (x : EStateM ε Catalog α) (c : Catalog) : Catalog :=
  match x.run c with
  | .ok _ c' => c'
  | .error _ c' => c'

/-- The catalog after something was done to it. -/
def write (c : Catalog) : Write → Catalog
  | .insert e => after (insert e) c
  | .upsert e => after (upsert e) c
  | .remove kind id => after (remove kind id : EStateM StateError Catalog _) c
  | .call a e => after (apply a e) c

/-- What has an effect on states leaves a state. -/
theorem exists_state_of_outcome {y : EStateM ε Catalog Unit} {c : Catalog} {r : Except ε State}
    (h : y.run c = outcome r s.catalog) : ∃ t : State, after y c = t.catalog := by
  unfold after
  rw [h]
  cases r with
  | ok t => exact ⟨t, rfl⟩
  | error err => exact ⟨s, rfl⟩

/-- Every write leads from the indexes of one state to those of another. -/
theorem exists_state_of_write (s : State) (w : Write) :
    ∃ t : State, s.catalog.write w = t.catalog := by
  cases w with
  | insert e => exact exists_state_of_outcome (run_insert s e)
  | upsert e => exact exists_state_of_outcome (run_upsert s e)
  | remove kind id => exact ⟨s.erase kind id, by rw [write, after, run_remove]⟩
  | call a e => exact exists_state_of_outcome (run_apply s a e)

/-- Whatever is done to the catalog of a state makes it the catalog of a state. -/
theorem exists_state_of_writes (s : State) (writes : List Write) :
    ∃ t : State, writes.foldl write s.catalog = t.catalog := by
  induction writes generalizing s with
  | nil => exact ⟨s, rfl⟩
  | cons w rest ih =>
    obtain ⟨t, ht⟩ := exists_state_of_write s w
    rw [List.foldl_cons, ht]
    exact ih t

end Catalog

end Gateway
