import Mathlib.Data.List.Nodup
import Gateway.Proofs.Effect
import Gateway.Proofs.Planning
import Gateway.Proofs.Resolution
import Gateway.Plan

/-!
# What a plan holds

The operations of a plan made from two states (`State.mem_ops_of_planTo`): one for every wanted
entity, and a deletion for every visible object that is not wanted. No two are about one object
(`State.nodup_ops_of_planTo`). A plan made from declarations fits the state it was made for when no
hidden object has the natural key of something wanted (`Content.fits_of_plan`).
-/

namespace Gateway

open Planning

namespace State

variable {desired current visible : State} {sel : Selection} {p : Plan} {op : PlannedOp}
  {d x : Entity} {kind : Kind}

/-- What is selected is held. -/
theorem mem_of_mem_select (h : x ∈ current.select sel) : x ∈ current := (mem_filter.1 h).1

/-- A selection that is not active hides nothing. -/
theorem mem_select_of_not_isActive (hall : sel.isActive = false) (h : x ∈ current) :
    x ∈ current.select sel := by
  refine mem_filter.2 ⟨h, ?_⟩
  obtain ⟨k, r⟩ := x
  cases k <;> simp [visible, Selection.admits, hall]

/-- An object that is visible is held. -/
theorem get?_of_get?_select {id : String} (h : (current.select sel).get? kind id = some x) :
    current.get? kind id = some x := by
  obtain ⟨hx, hk, hid⟩ := get?_eq_some_iff.1 h
  exact get?_eq_some_iff.2 ⟨mem_of_mem_select hx, hk, hid⟩

/-- Kind and id of the members of a state are distinct. -/
theorem nodup_refs (s : State) : (s.entities.map Entity.ref).Nodup := by
  have hne : s.entities.Pairwise fun a b => a.ref ≠ b.ref := by
    refine s.ordered.imp fun {a b} hlt heq => ?_
    have hk : a.kind = b.kind := congrArg Reference.kind heq
    have hid : a.idText = b.idText := congrArg Reference.id heq
    rcases hlt with hlt | ⟨-, hlt⟩
    · exact Nat.lt_irrefl _ (hk ▸ hlt)
    · exact String.lt_irrefl _ (hid ▸ hlt)
  exact List.pairwise_map.2 hne

/-! ### Operations on wanted entities -/

/-- The operation on a wanted entity is about that entity. -/
theorem key_ofMatch (wanted held : Entity) : (PlannedOp.ofMatch wanted held).key = wanted.ref := by
  unfold PlannedOp.ofMatch
  simp only
  split <;> rfl

/-- What is there in another form is replaced. -/
theorem ofMatch_of_ne_keep {wanted held : Entity}
    (h : (PlannedOp.ofMatch wanted held).action ≠ .keep) :
    (PlannedOp.ofMatch wanted held).action = .update ∧
      (PlannedOp.ofMatch wanted held).entity = wanted.withoutTimestamps ∧
      (PlannedOp.ofMatch wanted held).previous = some held := by
  unfold PlannedOp.ofMatch at h ⊢
  simp only at h ⊢
  split
  · rename_i hempty
    rw [if_pos hempty] at h
    exact absurd rfl h
  · exact ⟨rfl, rfl, rfl⟩

/-- What is wanted is compared with what is visible under its id, or created where nothing at all
has the id. -/
theorem planFor_eq_ok_iff : planFor current visible d = .ok op ↔
    (∃ held, visible.get? d.kind d.idText = some held ∧ op = .ofMatch d held) ∨
      (visible.get? d.kind d.idText = none ∧ current.contains d.kind d.idText = false ∧
        op = ⟨.create, d, none, []⟩) := by
  unfold planFor
  split
  · rename_i held hget
    constructor
    · intro h
      cases h
      exact .inl ⟨held, hget, rfl⟩
    · rintro (⟨held', hget', rfl⟩ | ⟨hno, -, -⟩)
      · cases hget.symm.trans hget'
        rfl
      · cases hget.symm.trans hno
  · rename_i hget
    split
    · rename_i hheld
      simp [hget, hheld]
    · rename_i hheld
      constructor
      · intro h
        cases h
        exact .inr ⟨hget, by simpa using hheld, rfl⟩
      · rintro (⟨held', hget', -⟩ | ⟨-, -, rfl⟩)
        · cases hget.symm.trans hget'
        · rfl

/-- The operation is one on what is wanted. -/
theorem key_of_planFor (h : planFor current visible d = .ok op) : op.key = d.ref := by
  rcases planFor_eq_ok_iff.1 h with ⟨held, -, rfl⟩ | ⟨-, -, rfl⟩
  · exact key_ofMatch d held
  · rfl

/-- The same of many, in the same order. -/
theorem keys_of_planFor {ds : List Entity} {ops : List PlannedOp}
    (h : List.Forall₂ (fun d op => planFor current visible d = .ok op) ds ops) :
    ops.map (·.key) = ds.map Entity.ref := by
  induction h with
  | nil => rfl
  | cons hplan _ ih => rw [List.map_cons, List.map_cons, ih, key_of_planFor hplan]

/-- What is written for a wanted entity is that entity, but for time stamps. -/
theorem entity_of_planFor (h : planFor current visible d = .ok op) :
    op.entity = d ∨ op.entity = d.withoutTimestamps := by
  rcases planFor_eq_ok_iff.1 h with ⟨held, -, rfl⟩ | ⟨-, -, rfl⟩
  · unfold PlannedOp.ofMatch
    simp only
    split
    · exact .inl rfl
    · exact .inr rfl
  · exact .inl rfl

/-- Nothing that is wanted is deleted. -/
theorem action_of_planFor (h : planFor current visible d = .ok op) : op.action ≠ .delete := by
  rcases planFor_eq_ok_iff.1 h with ⟨held, -, rfl⟩ | ⟨-, -, rfl⟩
  · unfold PlannedOp.ofMatch
    simp only
    split <;> simp
  · simp

/-! ### Plans -/

/-- Visible objects of a kind that are not wanted. -/
def gone (desired visible : State) (kind : Kind) : List Entity :=
  (visible.ofKind kind).filter fun e => !desired.contains kind e.idText

/-- What has to go is what is visible and not wanted. -/
theorem mem_gone :
    x ∈ gone desired visible kind ↔
      (x ∈ visible ∧ x.kind = kind) ∧ desired.contains kind x.idText = false := by
  simp [gone, mem_ofKind]

/-- Of each kind what is wanted comes first, and then what has to go. -/
theorem planKind_eq_ok_iff {ops : List PlannedOp} :
    planKind desired current visible kind = .ok ops ↔ ∃ wanted,
      List.Forall₂ (fun d op => planFor current visible d = .ok op) (desired.ofKind kind) wanted ∧
        ops = wanted ++ (gone desired visible kind).map fun e => ⟨.delete, e, none, []⟩ := by
  unfold planKind
  simp only [Except.bind_eq_ok_iff, Except.mapM_eq_ok_iff, Except.pure_eq_ok_iff]
  exact exists_congr fun wanted => and_congr_right fun _ => eq_comm

/-- A plan is made kind by kind. -/
theorem planTo_eq_ok_iff : desired.planTo current sel = .ok p ↔ ∃ groups,
    List.Forall₂ (fun kind ops => planKind desired current (current.select sel) kind = .ok ops)
      Kind.creationOrder groups ∧ p = ⟨groups.flatten⟩ := by
  unfold planTo
  simp only [Except.bind_eq_ok_iff, Except.mapM_eq_ok_iff, Except.pure_eq_ok_iff]
  exact exists_congr fun groups => and_congr_right fun _ => eq_comm

/-- The operations of a plan: one for every wanted entity, and a deletion for every visible object
that is not wanted. -/
theorem mem_ops_of_planTo (h : desired.planTo current sel = .ok p) : op ∈ p.ops ↔
    (∃ d ∈ desired, planFor current (current.select sel) d = .ok op) ∨
      ∃ x ∈ current.select sel, desired.contains x.kind x.idText = false ∧
        op = ⟨.delete, x, none, []⟩ := by
  obtain ⟨groups, hgroups, rfl⟩ := planTo_eq_ok_iff.1 h
  rw [List.mem_flatten]
  constructor
  · rintro ⟨ops, hops, hop⟩
    obtain ⟨kind, -, hkind⟩ := hgroups.exists_of_mem_right hops
    obtain ⟨wanted, hwanted, rfl⟩ := planKind_eq_ok_iff.1 hkind
    rcases List.mem_append.1 hop with hop | hop
    · obtain ⟨d, hd, hplan⟩ := hwanted.exists_of_mem_right hop
      exact .inl ⟨d, (mem_ofKind.1 hd).1, hplan⟩
    · obtain ⟨x, hx, rfl⟩ := List.mem_map.1 hop
      obtain ⟨⟨hvisible, rfl⟩, hno⟩ := mem_gone.1 hx
      exact .inr ⟨x, hvisible, hno, rfl⟩
  · rintro (⟨d, hd, hplan⟩ | ⟨x, hx, hno, rfl⟩)
    · obtain ⟨ops, hops, hkind⟩ := hgroups.exists_of_mem_left d.kind.mem_creationOrder
      obtain ⟨wanted, hwanted, rfl⟩ := planKind_eq_ok_iff.1 hkind
      obtain ⟨o, ho, hplan'⟩ := hwanted.exists_of_mem_left (mem_ofKind.2 ⟨hd, rfl⟩)
      rw [hplan] at hplan'
      cases hplan'
      exact ⟨_, hops, List.mem_append_left _ ho⟩
    · obtain ⟨ops, hops, hkind⟩ := hgroups.exists_of_mem_left x.kind.mem_creationOrder
      obtain ⟨wanted, -, rfl⟩ := planKind_eq_ok_iff.1 hkind
      exact ⟨_, hops, List.mem_append_right _
        (List.mem_map.2 ⟨x, mem_gone.2 ⟨⟨hx, rfl⟩, hno⟩, rfl⟩)⟩

/-- Every wanted entity has its operation. -/
theorem exists_planFor_of_planTo (h : desired.planTo current sel = .ok p) (hd : d ∈ desired) :
    ∃ op ∈ p.ops, planFor current (current.select sel) d = .ok op := by
  obtain ⟨groups, hgroups, rfl⟩ := planTo_eq_ok_iff.1 h
  obtain ⟨ops, hops, hkind⟩ := hgroups.exists_of_mem_left d.kind.mem_creationOrder
  obtain ⟨wanted, hwanted, rfl⟩ := planKind_eq_ok_iff.1 hkind
  obtain ⟨op, hop, hplan⟩ := hwanted.exists_of_mem_left (mem_ofKind.2 ⟨hd, rfl⟩)
  exact ⟨op, List.mem_flatten.2 ⟨_, hops, List.mem_append_left _ hop⟩, hplan⟩

/-- A visible object is compared with the wanted entity in its place, or deleted when there is
none. -/
theorem planned_of_mem (h : desired.planTo current sel = .ok p) (hx : x ∈ current.select sel) :
    (∃ d ∈ desired, d.ref = x.ref ∧ .ofMatch d x ∈ p.ops) ∨
      desired.contains x.kind x.idText = false ∧ ⟨.delete, x, none, []⟩ ∈ p.ops := by
  cases hcontains : desired.contains x.kind x.idText with
  | false => exact .inr ⟨rfl, (mem_ops_of_planTo h).2 (.inr ⟨x, hx, hcontains, rfl⟩)⟩
  | true =>
    obtain ⟨d, hd, hk, hid⟩ := contains_iff.1 hcontains
    obtain ⟨op, hop, hplan⟩ := exists_planFor_of_planTo h hd
    have hget := get?_of_mem hx
    rw [← hk, ← hid] at hget
    refine .inl ⟨d, hd, by rw [Entity.ref, hk, hid, Entity.ref], ?_⟩
    rcases planFor_eq_ok_iff.1 hplan with ⟨held, hheld, rfl⟩ | ⟨hno, -, -⟩
    · cases hget.symm.trans hheld
      exact hop
    · cases hget.symm.trans hno

/-- A wanted entity that the gateway does not know is created. -/
theorem create_mem_ops_of_planTo (h : desired.planTo current sel = .ok p) (hd : d ∈ desired)
    (hnew : current.contains d.kind d.idText = false) : ⟨.create, d, none, []⟩ ∈ p.ops := by
  obtain ⟨op, hop, hplan⟩ := exists_planFor_of_planTo h hd
  rcases planFor_eq_ok_iff.1 hplan with ⟨held, hget, -⟩ | ⟨-, -, rfl⟩
  · rw [contains, get?_of_get?_select hget] at hnew
    cases hnew
  · exact hop

/-- What is not deleted is done to a wanted entity. -/
theorem exists_planFor_of_mem_ops (h : desired.planTo current sel = .ok p) (hop : op ∈ p.ops)
    (hact : op.action ≠ .delete) :
    ∃ d ∈ desired, planFor current (current.select sel) d = .ok op := by
  rcases (mem_ops_of_planTo h).1 hop with hwanted | ⟨x, -, -, rfl⟩
  · exact hwanted
  · exact absurd rfl hact

/-- An update replaces a visible object by the wanted entity in its place. -/
theorem exists_held_of_update (h : desired.planTo current sel = .ok p) (hop : op ∈ p.ops)
    (hact : op.action = .update) : ∃ d ∈ desired, ∃ x ∈ current.select sel,
      x.ref = d.ref ∧ op = .ofMatch d x ∧ op.previous = some x := by
  obtain ⟨d, hd, hplan⟩ := exists_planFor_of_mem_ops h hop (by simp [hact])
  rcases planFor_eq_ok_iff.1 hplan with ⟨x, hget, rfl⟩ | ⟨-, -, rfl⟩
  · exact ⟨d, hd, x, mem_of_get? hget, ref_of_get? hget, rfl,
      (ofMatch_of_ne_keep (by simp [hact])).2.2⟩
  · cases hact

/-- What is wanted is not deleted. -/
theorem not_contains_of_delete (h : desired.planTo current sel = .ok p) (hop : op ∈ p.ops)
    (hact : op.action = .delete) : desired.contains op.kind op.id = false := by
  rcases (mem_ops_of_planTo h).1 hop with ⟨d, -, hplan⟩ | ⟨x, -, hno, rfl⟩
  · exact absurd hact (action_of_planFor hplan)
  · exact hno

/-- The objects that the operations of a plan are about, kind by kind. -/
theorem keys_of_planTo (h : desired.planTo current sel = .ok p) :
    p.ops.map (·.key) = Kind.creationOrder.flatMap fun kind =>
      ((desired.ofKind kind).map Entity.ref ++
        (gone desired (current.select sel) kind).map Entity.ref) := by
  obtain ⟨groups, hgroups, rfl⟩ := planTo_eq_ok_iff.1 h
  clear h
  simp only [List.map_flatten]
  rw [List.flatMap_def]
  congr 1
  generalize Kind.creationOrder = kinds at hgroups
  induction hgroups with
  | nil => rfl
  | @cons kind ops _ _ hkind _ ih =>
    obtain ⟨wanted, hwanted, rfl⟩ := planKind_eq_ok_iff.1 hkind
    rw [List.map_cons, List.map_cons, ih, List.map_append, keys_of_planFor hwanted, List.map_map]
    rfl

/-- No two operations of a plan are about one object. -/
theorem nodup_ops_of_planTo (h : desired.planTo current sel = .ok p) :
    (p.ops.map (·.key)).Nodup := by
  rw [keys_of_planTo h]
  have nodup_ofKind : ∀ (s : State) (kind : Kind), ((s.ofKind kind).map Entity.ref).Nodup := by
    intro s kind
    exact (List.filter_sublist.map _).nodup s.nodup_refs
  refine List.nodup_flatMap.2 ⟨fun kind _ => ?_, ?_⟩
  · refine (nodup_ofKind desired kind).append ?_ ?_
    · exact (List.filter_sublist.map _).nodup (nodup_ofKind _ kind)
    · intro key hwanted hgone
      obtain ⟨d, hd, rfl⟩ := List.mem_map.1 hwanted
      obtain ⟨x, hx, hkey⟩ := List.mem_map.1 hgone
      obtain ⟨-, hno⟩ := mem_gone.1 hx
      obtain ⟨hd, hk⟩ := mem_ofKind.1 hd
      have hid : x.idText = d.idText := congrArg Reference.id hkey
      rw [hid, ← hk, contains_of_mem hd] at hno
      cases hno
  · refine Kind.creationOrder_nodup.imp fun {k l} hne key hk hl => hne ?_
    have kind_of_mem : ∀ {kind : Kind}, key ∈ (desired.ofKind kind).map Entity.ref ++
        (gone desired (current.select sel) kind).map Entity.ref → key.kind = kind := by
      intro kind hkey
      rcases List.mem_append.1 hkey with hkey | hkey
      · obtain ⟨d, hd, rfl⟩ := List.mem_map.1 hkey
        exact (mem_ofKind.1 hd).2
      · obtain ⟨x, hx, rfl⟩ := List.mem_map.1 hkey
        exact (mem_gone.1 hx).1.2
    rw [← kind_of_mem hk, ← kind_of_mem hl]

/-- No two mutations of a plan are of one object. -/
theorem nodup_mutations_of_planTo (h : desired.planTo current sel = .ok p) :
    (p.mutations.map (·.key)).Nodup :=
  (List.filter_sublist.map _).nodup (nodup_ops_of_planTo h)

/-- Where every wanted entity has its operation, there is a plan. -/
theorem exists_planTo (h : ∀ d ∈ desired, ∃ op, planFor current (current.select sel) d = .ok op) :
    ∃ p, desired.planTo current sel = .ok p := by
  have exists_forall₂ : ∀ {α β : Type} {R : α → β → Prop} {xs : List α},
      (∀ x ∈ xs, ∃ y, R x y) → ∃ ys, List.Forall₂ R xs ys := by
    intro α β R xs hxs
    induction xs with
    | nil => exact ⟨[], .nil⟩
    | cons x rest ih =>
      obtain ⟨y, hy⟩ := hxs x List.mem_cons_self
      obtain ⟨ys, hys⟩ := ih fun z hz => hxs z (List.mem_cons_of_mem _ hz)
      exact ⟨y :: ys, .cons hy hys⟩
  have hkinds : ∀ kind ∈ Kind.creationOrder, ∃ ops,
      planKind desired current (current.select sel) kind = .ok ops := by
    intro kind _
    obtain ⟨wanted, hwanted⟩ := exists_forall₂ fun d hd => h d (mem_ofKind.1 hd).1
    exact ⟨_, planKind_eq_ok_iff.2 ⟨wanted, hwanted, rfl⟩⟩
  obtain ⟨groups, hgroups⟩ := exists_forall₂ hkinds
  exact ⟨_, planTo_eq_ok_iff.2 ⟨groups, hgroups, rfl⟩⟩

/-- A wanted entity has its operation unless its id is that of a hidden object. -/
theorem exists_planFor_iff : (∃ op, planFor current visible d = .ok op) ↔
    visible.contains d.kind d.idText = true ∨ current.contains d.kind d.idText = false := by
  simp only [planFor_eq_ok_iff]
  unfold contains
  cases visible.get? d.kind d.idText with
  | some held => simp
  | none => simp

/-- There is a plan unless the id of a wanted entity is that of a hidden object. -/
theorem exists_planTo_iff : (∃ p, desired.planTo current sel = .ok p) ↔ ∀ d ∈ desired,
    (current.select sel).contains d.kind d.idText = true ∨
      current.contains d.kind d.idText = false := by
  constructor
  · rintro ⟨p, hp⟩ d hd
    obtain ⟨op, -, hop⟩ := exists_planFor_of_planTo hp hd
    exact exists_planFor_iff.1 ⟨op, hop⟩
  · intro h
    exact exists_planTo fun d hd => exists_planFor_iff.2 (h d hd)

/-! ### Plans that fit -/

/-- What is not deleted is written under the id and the natural key of a wanted entity. -/
theorem exists_wanted_of_mem_ops (h : desired.planTo current sel = .ok p) (hop : op ∈ p.ops)
    (hact : op.action ≠ .delete) :
    ∃ d ∈ desired, d.idText = op.id ∧ ∀ x, op.entity.SameKey x ↔ d.SameKey x := by
  obtain ⟨d, hd, hplan⟩ := exists_planFor_of_mem_ops h hop hact
  refine ⟨d, hd, (congrArg Reference.id (key_of_planFor hplan)).symm, fun x => ?_⟩
  rcases entity_of_planFor hplan with heq | heq <;> rw [heq]
  rfl

/-- What is created is not there. -/
theorem get?_of_create (h : desired.planTo current sel = .ok p) (hop : op ∈ p.ops)
    (hact : op.action = .create) : current.get? op.kind op.id = none := by
  obtain ⟨d, -, hplan⟩ := exists_planFor_of_mem_ops h hop (by simp [hact])
  rcases planFor_eq_ok_iff.1 hplan with ⟨held, -, rfl⟩ | ⟨-, hfree, rfl⟩
  · unfold PlannedOp.ofMatch at hact
    simp only at hact
    split at hact <;> cases hact
  · exact get?_eq_none_iff.2 (contains_eq_false_iff.1 hfree)

/-- What is to be updated is held as the operation says. -/
theorem get?_of_update (h : desired.planTo current sel = .ok p) (hop : op ∈ p.ops)
    (hact : op.action = .update) : current.get? op.kind op.id = op.previous := by
  obtain ⟨d, -, x, hx, href, hmatch, hprevious⟩ := exists_held_of_update h hop hact
  have hkey : x.ref = op.key := by rw [hmatch, key_ofMatch, href]
  rw [hprevious]
  exact get?_eq_some_iff.2 ⟨mem_of_mem_select hx, congrArg Reference.kind hkey,
    congrArg Reference.id hkey⟩

/-- What is to be deleted is what is held. -/
theorem get?_of_delete (h : desired.planTo current sel = .ok p) (hop : op ∈ p.ops)
    (hact : op.action = .delete) : current.get? op.kind op.id = some op.entity := by
  rcases (mem_ops_of_planTo h).1 hop with ⟨d, -, hplan⟩ | ⟨x, hx, -, rfl⟩
  · exact absurd hact (action_of_planFor hplan)
  · exact get?_of_mem (mem_of_mem_select hx)

/-- What is not created is there. -/
theorem contains_of_ne_create (h : desired.planTo current sel = .ok p) (hop : op ∈ p.ops)
    (hact : op.action ≠ .create) : current.contains op.kind op.id = true := by
  rcases (mem_ops_of_planTo h).1 hop with ⟨d, -, hplan⟩ | ⟨x, hx, -, rfl⟩
  · rcases planFor_eq_ok_iff.1 hplan with ⟨held, hget, -⟩ | ⟨-, -, rfl⟩
    · have href := (ref_of_get? hget).trans (key_of_planFor hplan).symm
      have hthere := contains_of_ref (mem_of_mem_select (mem_of_get? hget)) href
      exact hthere
    · exact absurd rfl hact
  · exact contains_of_mem (mem_of_mem_select hx)

/-- Whatever a plan is about has an id. -/
theorem isSome_id?_of_planTo (h : desired.planTo current sel = .ok p) (hop : op ∈ p.ops) :
    op.entity.id?.isSome := by
  rcases (mem_ops_of_planTo h).1 hop with ⟨d, hd, hplan⟩ | ⟨x, hx, -, rfl⟩
  · have hid := desired.identified d hd
    rcases entity_of_planFor hplan with heq | heq <;> rw [heq]
    · exact hid
    · simpa using hid
  · exact current.identified x (mem_of_mem_select hx)

/-- A plan fits the state it was made for when whatever shares its natural key with a wanted entity
is that entity. -/
theorem fits_of_planTo (h : desired.planTo current sel = .ok p)
    (hkey : ∀ d ∈ desired, ∀ x ∈ current, d.SameKey x → x.idText = d.idText) :
    p.Fits current where
  nodup := nodup_mutations_of_planTo h
  identified op hop := isSome_id?_of_planTo h (Plan.mem_mutations.1 hop).1
  free op hop hact := get?_of_create h (Plan.mem_mutations.1 hop).1 hact
  held op hop hact := contains_of_ne_create h (Plan.mem_mutations.1 hop).1 hact
  keyed op hop hact x hx hsame := by
    obtain ⟨d, hd, hid, hiff⟩ := exists_wanted_of_mem_ops h (Plan.mem_mutations.1 hop).1 hact
    rw [hkey d hd x hx ((hiff x).1 hsame), hid]
  distinct op hop hact o ho hoact hsame := by
    obtain ⟨d, hd, hid, hiff⟩ := exists_wanted_of_mem_ops h (Plan.mem_mutations.1 hop).1 hact
    obtain ⟨d', hd', hid', hiff'⟩ :=
      exists_wanted_of_mem_ops h (Plan.mem_mutations.1 ho).1 hoact
    have hsame' : d'.SameKey d := (hiff' d).1 ((hiff o.entity).1 hsame).symm
    rw [← hid, ← hid', eq_of_sameKey hd' hd hsame']

end State

namespace Content

variable {c : Content} {o : Options} {current desired : State} {s s' : IdSupply} {p : Plan}

/-- A plan is made for what a document asks for. -/
theorem yields_plan_iff : Yields (c.plan current o) s p s' ↔ ∃ desired,
    Yields (c.resolve current o) s desired s' ∧ desired.planTo current o.selection = .ok p := by
  unfold plan
  simp only [yields_bind, yields_lift]
  constructor
  · rintro ⟨desired, t, hres, hplan, rfl⟩
    exact ⟨desired, hres, hplan⟩
  · rintro ⟨desired, hres, hplan⟩
    exact ⟨desired, s', hres, hplan, rfl⟩

/-- No object that the selection hides has the natural key of a wanted entity. -/
def HidesNoKey (current : State) (sel : Selection) (desired : State) : Prop :=
  ∀ d ∈ desired, ∀ x ∈ current, current.visible sel x = false → ¬d.SameKey x

/-- A selection that is not active hides no natural key. -/
theorem hidesNoKey_of_not_isActive {sel : Selection} (hall : sel.isActive = false) :
    HidesNoKey current sel desired := by
  intro d _ x hx hno
  have hvisible := (State.mem_filter.1 (State.mem_select_of_not_isActive hall hx)).2
  rw [hno] at hvisible
  cases hvisible

/-- A plan of declarations fits the state it was made for. -/
theorem fits_of_plan (hres : Yields (c.resolve current o) s desired s')
    (hplan : desired.planTo current o.selection = .ok p)
    (hhidden : HidesNoKey current o.selection desired) : p.Fits current := by
  refine State.fits_of_planTo hplan fun d hd x hx hsame => ?_
  have hvisible : current.visible o.selection x = true := by
    by_contra hno
    exact hhidden d hd x hx (by simpa using hno) hsame
  exact idText_of_sameKey hres hd (State.mem_filter.2 ⟨hx, hvisible⟩) hsame

end Content

end Gateway
