import Mathlib.Data.String.Basic
import Gateway.Proofs.Catalog
import Gateway.Proofs.Comparison
import Gateway.Proofs.Successor

/-!
# Registries

An index tells what is found under an id or a natural key. A `Register` also lists what it holds: it
keeps the objects of one kind in the order of their ids, and a `Registry` has one register for each
kind. Both are written step by step, and a registry that is narrowed to what a selection shows is
filled anew (`Register.filtered`), its natural keys included.

Seen through its index, a register is written as an index is (`Register.run_insert`,
`Register.run_remove`, `Register.run_upsert`). So a registry that looks like the catalog of a state
keeps to what the operations on states describe (`Registry.catalog_after`), it lists the members of
the state (`Registry.entities_eq`), and as these make up the state again, so does the list make up
the registry (`Registry.reload_of_history`).
-/

namespace Gateway

open Std (ExtTreeMap)

/-- What comes of a computation, its state seen through a view. -/
def see {ε σ τ α : Type} (view : σ → τ) : EStateM.Result ε σ α → EStateM.Result ε τ α
  | .ok a s => .ok a (view s)
  | .error err s => .error err (view s)

/-- The state that a computation leaves, in success and in failure. -/
def stateLeft {ε σ α : Type} : EStateM.Result ε σ α → σ
  | .ok _ s => s
  | .error _ s => s

/-- What a computation leaves is seen as what is left in its view. -/
@[simp] theorem stateLeft_see {ε σ τ α : Type} (view : σ → τ) (res : EStateM.Result ε σ α) :
    stateLeft (see view res) = view (stateLeft res) := by
  cases res <;> rfl

/-! ### One kind -/

/-- The objects of one kind, in order. -/
@[ext]
structure Register where
  byId : ExtTreeMap String Entity := {}
  /-- The ids of objects under the parts of their natural keys. -/
  byKey : ExtTreeMap (List String) String := {}

namespace Register

/-- What is found in a register. -/
def index (g : Register) : Index :=
  { byId := fun id => g.byId[id]?, byKey := fun key => g.byKey[key.parts]? }

/-- Add an object under its id and natural key, which have to be free. -/
def insert (e : Entity) : EStateM StateError Register Unit := do
  let some id := e.id? | throw (.missingId e.kind e.label)
  if (← get).byId.contains id then throw (.duplicateId e.kind id)
  if let some key := e.naturalKey? then
    if let some first := (← get).byKey[key.parts]? then
      throw (.duplicateKey e.kind key.text first id)
    modify fun g => { g with byKey := g.byKey.insert key.parts id }
  modify fun g => { g with byId := g.byId.insert id e }

/-- Take away the object with an id, and its natural key if it leads there. -/
def remove {ε : Type} (id : String) : EStateM ε Register (Option Entity) := do
  let some removed := (← get).byId[id]? | return none
  modify fun g => { g with byId := g.byId.erase id }
  if let some key := removed.naturalKey? then
    if (← get).byKey[key.parts]? = some id then
      modify fun g => { g with byKey := g.byKey.erase key.parts }
  return some removed

/-- Take away the object with the same id, then add the new one. -/
def upsert (e : Entity) : EStateM StateError Register Unit := do
  if let some id := e.id? then
    let _ ← remove id
  insert e

/-- The objects, ids ascending. -/
def values (g : Register) : List Entity := g.byId.toList.map Prod.snd

/-- Put an object under its id and natural key, whatever was there. -/
def put (g : Register) (e : Entity) : Register :=
  match e.id? with
  | none => g
  | some id =>
    { byId := g.byId.insert id e
      byKey := match e.naturalKey? with
        | some key => g.byKey.insert key.parts id
        | none => g.byKey }

/-- A new register of the objects that satisfy a condition. -/
def filtered (g : Register) (p : Entity → Bool) : Register := (g.values.filter p).foldl put {}

/-! ### Looking into a register -/

/-- The first index has under an id what is stored under it. -/
theorem byId_index (g : Register) (id : String) : g.index.byId id = g.byId[id]? := rfl

/-- The second one has under a key the id that is stored under its parts. -/
theorem byKey_index (g : Register) (key : NaturalKey) :
    g.index.byKey key = g.byKey[key.parts]? := rfl

/-- A register is determined by what is found in it. -/
theorem index_inj {g g' : Register} : g.index = g'.index ↔ g = g' := by
  constructor
  · intro h
    ext1
    · exact ExtTreeMap.ext_getElem? fun id => congrFun (congrArg Index.byId h) id
    · exact ExtTreeMap.ext_getElem? fun parts => congrFun (congrArg Index.byKey h) ⟨parts⟩
  · rintro rfl
    rfl

section updates

variable (m : ExtTreeMap String Entity) (k : ExtTreeMap (List String) String) (id : String)
  (e : Entity) (key : NaturalKey)

/-- Storing an object shows in the first index only. -/
@[simp] theorem index_insert_byId : index ⟨m.insert id e, k⟩ =
    { index ⟨m, k⟩ with byId := Function.update (index ⟨m, k⟩).byId id (some e) } := by
  ext1
  · funext i
    simp [index, Function.update_apply, ExtTreeMap.getElem?_insert, eq_comm (a := i)]
  · rfl

/-- Taking an object away shows in the first index only. -/
@[simp] theorem index_erase_byId : index ⟨m.erase id, k⟩ =
    { index ⟨m, k⟩ with byId := Function.update (index ⟨m, k⟩).byId id none } := by
  ext1
  · funext i
    simp [index, Function.update_apply, ExtTreeMap.getElem?_erase, eq_comm (a := i)]
  · rfl

/-- Storing a key shows in the second index only. -/
@[simp] theorem index_insert_byKey : index ⟨m, k.insert key.parts id⟩ =
    { index ⟨m, k⟩ with byKey := Function.update (index ⟨m, k⟩).byKey key (some id) } := by
  ext1
  · rfl
  · funext key'
    obtain ⟨parts⟩ := key
    obtain ⟨parts'⟩ := key'
    simp [index, Function.update_apply, ExtTreeMap.getElem?_insert, eq_comm (a := parts')]

/-- Taking a key away shows in the second index only. -/
@[simp] theorem index_erase_byKey : index ⟨m, k.erase key.parts⟩ =
    { index ⟨m, k⟩ with byKey := Function.update (index ⟨m, k⟩).byKey key none } := by
  ext1
  · rfl
  · funext key'
    obtain ⟨parts⟩ := key
    obtain ⟨parts'⟩ := key'
    simp [index, Function.update_apply, ExtTreeMap.getElem?_erase, eq_comm (a := parts')]

end updates

variable {ε : Type}

/-- Inserting goes index by index as it does in a catalog. -/
theorem run_insert (g : Register) (e : Entity) :
    see index ((insert e).run g) = (Index.insert e).run g.index := by
  cases hid : e.id? with
  | none => simp [insert, Index.insert, hid, see]
  | some id =>
    cases hget : g.byId[id]? with
    | some x =>
      have hmem : id ∈ g.byId := ExtTreeMap.mem_iff_isSome_getElem?.2 (by rw [hget]; rfl)
      simp [insert, Index.insert, hid, hmem, index, see]
    | none =>
      have hmem : id ∉ g.byId := by
        rw [ExtTreeMap.mem_iff_isSome_getElem?, hget]
        simp
      cases hkey : e.naturalKey? with
      | none => simp [insert, Index.insert, hid, hmem, hkey, byId_index, see]
      | some key =>
        cases hheld : g.byKey[key.parts]? <;>
          simp [insert, Index.insert, hid, hmem, hkey, hheld, byId_index, byKey_index, see]

/-- Removing goes index by index as it does in a catalog. -/
theorem run_remove (g : Register) (id : String) :
    see index ((remove id : EStateM ε Register (Option Entity)).run g) =
      (Index.remove id).run g.index := by
  cases hget : g.byId[id]? with
  | none => simp [remove, Index.remove, hget, byId_index, see]
  | some x =>
    cases hkey : x.naturalKey? with
    | none => simp [-bind_pure_comp, remove, Index.remove, hget, hkey, byId_index, see]
    | some key =>
      by_cases hheld : g.byKey[key.parts]? = some id <;>
        simp [-bind_pure_comp, remove, Index.remove, hget, hkey, hheld, byId_index, byKey_index,
          see]

/-- So does writing over an object. -/
theorem run_upsert (g : Register) (e : Entity) :
    see index ((upsert e).run g) = (Index.upsert e).run g.index := by
  cases hid : e.id? with
  | none => simpa [upsert, Index.upsert, hid] using run_insert g e
  | some id =>
    have hremove := run_remove (ε := StateError) g id
    cases hrun : (remove id : EStateM StateError Register (Option Entity)).run g with
    | ok x g' =>
      rw [hrun] at hremove
      simpa [upsert, Index.upsert, hid, hrun, ← hremove, see] using run_insert g' e
    | error err g' =>
      rw [hrun] at hremove
      simp [upsert, Index.upsert, hid, hrun, ← hremove, see]

/-! ### Registers of states -/

variable {g : Register} {s t u : State} {e : Entity} {es : List Entity} {kind : Kind}
  {p q : Entity → Bool}

/-- A register lists what its index finds. -/
theorem values_eq_ofKind (h : g.index = s.catalog kind) : g.values = s.ofKind kind := by
  have hlook : ∀ id, g.byId[id]? = s.get? kind id := fun id => congrFun (congrArg Index.byId h) id
  have hlist : g.byId.toList = (s.ofKind kind).map fun e => (e.idText, e) := by
    have : Std.Irrefl fun a b : String × Entity => a.1 < b.1 := ⟨fun a => String.lt_irrefl a.1⟩
    have : Std.Antisymm fun a b : String × Entity => a.1 < b.1 :=
      ⟨fun a _ hab hba => absurd (String.lt_trans hab hba) (String.lt_irrefl a.1)⟩
    have hkeys : g.byId.toList.Pairwise fun a b => a.1 < b.1 :=
      ExtTreeMap.ordered_keys_toList.imp fun hlt => compare_lt_iff_lt.1 hlt
    refine hkeys.eq_of_mem_iff (List.pairwise_map.2 (s.pairwise_ofKind kind)) fun {x} => ?_
    obtain ⟨id, e⟩ := x
    rw [ExtTreeMap.mem_toList_iff_getElem?_eq_some, hlook, State.get?_eq_some_iff]
    simp only [List.mem_map, State.mem_ofKind, Prod.mk.injEq]
    constructor
    · rintro ⟨he, hk, hid⟩
      exact ⟨e, ⟨he, hk⟩, hid, rfl⟩
    · rintro ⟨_, ⟨he, hk⟩, hid, rfl⟩
      exact ⟨he, hk, hid⟩
  rw [values, hlist, List.map_map]
  exact List.map_id _

/-- An empty register has the indexes of an empty state. -/
theorem index_empty : index {} = State.empty.catalog kind := by
  ext1
  · funext id
    simp [index, State.get?, State.empty]
  · funext key
    simp [index, State.getByKey?, State.empty]

/-- Putting what can be added is adding it. -/
theorem index_put (h : t.insert e = .ok u) (hg : g.index = t.catalog e.kind) :
    (g.put e).index = u.catalog e.kind := by
  rw [State.catalog_insert h, ← hg]
  unfold put
  rw [State.id?_of_insert h]
  cases e.naturalKey? <;> simp

/-- Objects that a state takes one after the other are filled into a register of their kind. -/
theorem index_foldl_put (hkind : ∀ e ∈ es, e.kind = kind) (h : es.foldlM State.insert t = .ok u)
    (hg : g.index = t.catalog kind) : (es.foldl put g).index = u.catalog kind := by
  induction es generalizing g t with
  | nil =>
    cases h
    exact hg
  | cons e rest ih =>
    rw [List.foldlM_cons] at h
    obtain ⟨t', ht', hrest⟩ := Except.bind_eq_ok_iff.1 h
    obtain ⟨rfl, hkind⟩ := List.forall_mem_cons.1 hkind
    exact ih hkind hrest (index_put ht' hg)

/-- A register that is filled anew holds what the condition leaves of the state. -/
theorem index_filtered (hg : g.index = s.catalog kind) (hp : ∀ x ∈ s, x.kind = kind → q x = p x) :
    (g.filtered p).index = (s.filter q).catalog kind := by
  have hmem : ∀ x, x ∈ (s.ofKind kind).filter p ↔
      x ∈ s.filter fun x => x.kind == kind && p x := by
    intro x
    rw [List.mem_filter, State.mem_ofKind, State.mem_filter, Bool.and_eq_true, beq_iff_eq,
      and_assoc]
  have hfill : ((s.ofKind kind).filter p).foldlM State.insert .empty =
      .ok (s.filter fun x => x.kind == kind && p x) := by
    refine State.foldlM_insert_eq_ok_iff.2 ⟨fun e he => ⟨?_, ?_⟩, ?_, fun x => ?_⟩
    · exact s.identified e (State.mem_ofKind.1 (List.mem_filter.1 he).1).1
    · exact fun _ hx => absurd hx State.not_mem_empty
    · exact (s.pairwise_apart.filter _).filter _
    · rw [hmem, or_iff_left State.not_mem_empty]
  unfold filtered
  rw [values_eq_ofKind hg, index_foldl_put (fun e he => ?_) hfill index_empty]
  · refine State.catalog_congr fun x hk => ?_
    rw [State.mem_filter, State.mem_filter]
    refine and_congr_right fun hx => ?_
    simp [hk, hp x hx hk]
  · exact (State.mem_ofKind.1 (List.mem_filter.1 he).1).2

end Register

/-! ### All kinds -/

/-- The objects of a gateway, each kind in a register. -/
abbrev Registry := Kind → Register

/-- The id of the consumer-group that a membership is of. -/
def Entity.groupId? (e : Entity) : Option String :=
  match e with
  | ⟨.membership, r⟩ => r.detail.consumerGroup.id
  | _ => none

namespace Registry

/-- No objects. -/
def empty : Registry := fun _ => {}

/-- Do something to the register of a kind. -/
def onKind {ε α : Type} (kind : Kind) (x : EStateM ε Register α) : EStateM ε Registry α := fun v =>
  match x.run (v kind) with
  | .ok a g => .ok a (Function.update v kind g)
  | .error err g => .error err (Function.update v kind g)

/-- Add an object. -/
def insert (e : Entity) : EStateM StateError Registry Unit := onKind e.kind (Register.insert e)

/-- Add an object, in place of the one with the same id. -/
def upsert (e : Entity) : EStateM StateError Registry Unit := onKind e.kind (Register.upsert e)

/-- Take away the object of a kind with an id. -/
def remove {ε : Type} (kind : Kind) (id : String) : EStateM ε Registry (Option Entity) :=
  onKind kind (Register.remove id)

/-- What a run with a selection sees; memberships are seen where their group is. -/
def select (v : Registry) (sel : Selection) : Registry :=
  if sel.isActive then
    let shown : Registry := fun kind => (v kind).filtered sel.admits
    Function.update shown .membership ((v .membership).filtered fun e =>
      (e.groupId?.map (shown .consumerGroup).byId.contains).getD false)
  else v

/-- All objects, kinds in order of creation, ids ascending. -/
def entities (v : Registry) : List Entity := Kind.creationOrder.flatMap fun kind => (v kind).values

/-- Add the objects of a list. -/
def load (es : List Entity) : EStateM StateError Registry Unit := es.forM insert

/-! ### Looking into a registry -/

/-- What is found in a registry. -/
def catalog (v : Registry) : Catalog := fun kind => (v kind).index

variable {ε α : Type} {v v' : Registry} {s t : State} {e : Entity} {es : List Entity} {kind : Kind}

/-- A registry is determined by what is found in it. -/
theorem catalog_inj : v.catalog = v'.catalog ↔ v = v' := by
  constructor
  · intro h
    funext kind
    exact Register.index_inj.1 (congrFun h kind)
  · rintro rfl
    rfl

/-- An empty registry has the indexes of an empty state. -/
theorem catalog_empty : empty.catalog = State.empty.catalog := funext fun _ => Register.index_empty

/-- A change to one register shows under its kind only. -/
theorem catalog_update (v : Registry) (kind : Kind) (g : Register) :
    catalog (Function.update v kind g) = Function.update v.catalog kind g.index := by
  funext k
  by_cases hk : k = kind
  · subst hk
    simp [catalog]
  · simp [catalog, hk]

/-- What is done to a register as to an index is done to a registry as to a catalog. -/
theorem run_onKind {x : EStateM ε Register α} {y : EStateM ε Index α}
    (h : ∀ g, see Register.index (x.run g) = y.run g.index) (v : Registry) (kind : Kind) :
    see catalog ((onKind kind x).run v) = (Catalog.onKind kind y).run v.catalog := by
  have hrun : (onKind kind x).run v = match x.run (v kind) with
      | .ok a g => .ok a (Function.update v kind g)
      | .error err g => .error err (Function.update v kind g) := rfl
  have hindex := h (v kind)
  rw [Catalog.run_onKind, hrun, catalog, ← hindex]
  cases x.run (v kind) <;> simp only [see, catalog_update]

/-- Inserting into a registry is inserting into the state that it stands for, failures included. -/
theorem run_insert (hv : v.catalog = s.catalog) (e : Entity) :
    see catalog ((insert e).run v) = Catalog.outcome (s.insert e) s.catalog := by
  rw [← Catalog.run_insert, ← hv]
  exact run_onKind (Register.run_insert · e) v e.kind

/-- Writing over an object is done as in the state, and what is replaced is gone even where the
writing fails. -/
theorem run_upsert (hv : v.catalog = s.catalog) (e : Entity) :
    see catalog ((upsert e).run v) = Catalog.outcome (s.upsert e) (s.without e).catalog := by
  rw [← Catalog.run_upsert, ← hv]
  exact run_onKind (Register.run_upsert · e) v e.kind

/-- Removing is done as in the state. -/
theorem run_remove (hv : v.catalog = s.catalog) (kind : Kind) (id : String) :
    see catalog ((remove kind id : EStateM ε Registry (Option Entity)).run v) =
      .ok (s.get? kind id) (s.erase kind id).catalog := by
  rw [← Catalog.run_remove, ← hv]
  exact run_onKind (Register.run_remove · id) v kind

/-- A registry is narrowed as a state is. -/
theorem catalog_select (hv : v.catalog = s.catalog) (sel : Selection) :
    (v.select sel).catalog = (s.select sel).catalog := by
  have hkind : ∀ kind, (v kind).index = s.catalog kind := congrFun hv
  unfold select
  split
  · rename_i hactive
    have hshown : ∀ kind, kind ≠ .membership →
        ((v kind).filtered sel.admits).index = (s.select sel).catalog kind := by
      intro kind hk
      exact Register.index_filtered (hkind kind) fun x _ hx => State.visible_of_ne (hx ▸ hk)
    rw [catalog_update]
    funext kind
    by_cases hk : kind = .membership
    · subst hk
      rw [Function.update_self]
      refine Register.index_filtered (hkind _) fun x hx hxk => ?_
      obtain ⟨k, r⟩ := x
      cases hxk
      simp only [State.visible, hactive, Entity.groupId?, Bool.not_true, Bool.false_or]
      cases r.detail.consumerGroup.id with
      | none => rfl
      | some id =>
        have hfound : ((v .consumerGroup).filtered sel.admits).byId[id]? =
            (s.get? .consumerGroup id).filter (s.visible sel) := by
          rw [← State.get?_filter]
          exact congrFun (congrArg Index.byId (hshown .consumerGroup (by simp))) id
        rw [Option.map_some, Option.getD_some, ExtTreeMap.contains_eq_isSome_getElem?, hfound,
          Option.isSome_filter, Option.bind_some]
        cases hget : s.get? .consumerGroup id with
        | none => rfl
        | some y =>
          have hy : y.kind ≠ .membership := by
            rw [(State.get?_eq_some_iff.1 hget).2.1]
            simp
          exact (State.visible_of_ne hy).symm
    · rw [Function.update_of_ne hk]
      exact hshown kind hk
  · rename_i hactive
    have hall : sel.isActive = false := by simpa using hactive
    rw [hv]
    exact State.catalog_inj.2 (State.ext_mem fun x =>
      ⟨State.mem_select_of_not_isActive hall, State.mem_of_mem_select⟩)

/-- A registry lists the members of the state that it looks like. -/
theorem entities_eq (hv : v.catalog = s.catalog) : v.entities = s.entities := by
  rw [s.entities_eq_flatMap]
  refine congrArg (List.flatMap · Kind.creationOrder) (funext fun kind => ?_)
  exact Register.values_eq_ofKind (congrFun hv kind)

/-- Loading what can be added to a state adds it. -/
theorem exists_run_load (hv : v.catalog = s.catalog) (h : es.foldlM State.insert s = .ok t) :
    ∃ v', (load es).run v = .ok () v' ∧ v'.catalog = t.catalog := by
  induction es generalizing v s with
  | nil =>
    cases h
    exact ⟨v, rfl, hv⟩
  | cons e rest ih =>
    rw [List.foldlM_cons] at h
    obtain ⟨s₁, hs₁, hrest⟩ := Except.bind_eq_ok_iff.1 h
    have hinsert := run_insert hv e
    rw [hs₁] at hinsert
    cases hrun : (insert e).run v with
    | error err v₁ =>
      rw [hrun] at hinsert
      cases hinsert
    | ok _ v₁ =>
      rw [hrun] at hinsert
      obtain ⟨v', hload, hv'⟩ := ih (EStateM.Result.ok.inj hinsert).2 hrest
      refine ⟨v', ?_, hv'⟩
      show (insert e >>= fun _ => load rest).run v = _
      rw [EStateM.run_bind, hrun]
      exact hload

/-! ### Histories -/

/-- Something that is done to a registry. -/
inductive Change
  | insert (e : Entity)
  | upsert (e : Entity)
  | remove (kind : Kind) (id : String)
  | narrow (sel : Selection)

/-- What is there afterwards, in success and in failure. -/
def left (x : EStateM ε Registry α) (v : Registry) : Registry := stateLeft (x.run v)

/-- The registry after something was done to it. -/
def after (v : Registry) : Change → Registry
  | .insert e => left (insert e) v
  | .upsert e => left (upsert e) v
  | .remove kind id => left (remove kind id : EStateM StateError Registry _) v
  | .narrow sel => v.select sel

end Registry

/-- The state after something was done to it. -/
def State.afterChange (s : State) : Registry.Change → State
  | .insert e => (s.insert e).toOption.getD s
  | .upsert e => s.afterUpsert e
  | .remove kind id => s.erase kind id
  | .narrow sel => s.select sel

namespace Registry

variable {ε α : Type} {v v' : Registry} {s t : State} {e : Entity} {es : List Entity} {kind : Kind}

/-- What a change leaves is seen in the indexes. -/
theorem catalog_left (x : EStateM ε Registry α) (v : Registry) :
    (left x v).catalog = stateLeft (see catalog (x.run v)) := by
  rw [stateLeft_see, left]

/-- What is done to a registry is done to the state that it looks like. -/
theorem catalog_after (hv : v.catalog = s.catalog) (change : Change) :
    (v.after change).catalog = (s.afterChange change).catalog := by
  cases change with
  | insert e =>
    rw [after, State.afterChange, catalog_left, run_insert hv]
    cases s.insert e <;> rfl
  | upsert e =>
    rw [after, State.afterChange, State.afterUpsert, catalog_left, run_upsert hv]
    cases s.upsert e <;> rfl
  | remove kind id =>
    rw [after, State.afterChange, catalog_left, run_remove hv]
    rfl
  | narrow sel => exact catalog_select hv sel

/-- A history of changes goes index by index as it does in the state. -/
theorem catalog_foldl_after (hv : v.catalog = s.catalog) (changes : List Change) :
    (changes.foldl after v).catalog = (changes.foldl State.afterChange s).catalog := by
  induction changes generalizing v s with
  | nil => exact hv
  | cons change rest ih => exact ih (catalog_after hv change)

/-- Whatever was done to a registry that was empty at first, and whether or not it succeeded: all
that it lists, added to an empty one, makes up the same registry, for every kind with the same
objects under their ids and the same ids under the natural keys. It lists the members of the state
to which the same was done, and they make up that state. -/
theorem reload_of_history (changes : List Change) :
    let v := changes.foldl after empty
    let s := changes.foldl State.afterChange .empty
    (load v.entities).run empty = .ok () v ∧ v.entities = s.entities ∧
      State.ofEntities s.entities = .ok s := by
  intro v s
  have hv : v.catalog = s.catalog := catalog_foldl_after catalog_empty changes
  have hlist : v.entities = s.entities := entities_eq hv
  have hstate : State.ofEntities s.entities = .ok s := s.ofEntities_entities
  obtain ⟨v', hload, hv'⟩ := exists_run_load catalog_empty hstate
  have hsame : v' = v := catalog_inj.1 (hv'.trans hv.symm)
  refine ⟨?_, hlist, hstate⟩
  rw [hlist, hload, hsame]

end Registry

end Gateway
