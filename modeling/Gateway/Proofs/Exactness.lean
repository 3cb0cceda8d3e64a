import Gateway.Proofs.Sameness
import Gateway.Proofs.Successor
import Gateway.Sample

/-!
# What a comparison of states finds

Comparing a desired state with what a selection shows of the current one fails only over ids that
the selection hides (`State.conflict_iff`). Otherwise the plan is exact (`Plan.Exact`): it has one
operation for each object that is wanted or visible and none for any other, what the operation does
tells where the object is and whether its two forms are the same, and the operations come in the
order of creation (`State.exact_planTo`).
-/

namespace Gateway

/-! ### Conflicts -/

namespace State

variable {desired current visible : State} {sel : Selection} {p : Plan} {op : PlannedOp}
  {d x : Entity} {kind : Kind} {err : PlanError}

/-- Nothing can be planned for an entity whose id is that of a hidden object. -/
theorem planFor_eq_error_iff : planFor current visible d = .error err ↔
    (visible.contains d.kind d.idText = false ∧ current.contains d.kind d.idText = true) ∧
      err = .conflict d.kind d.idText := by
  unfold planFor contains
  cases visible.get? d.kind d.idText with
  | some held => simp
  | none =>
    cases current.get? d.kind d.idText with
    | some held => simp [eq_comm]
    | none => simp

/-- A comparison fails over a wanted entity for which nothing can be planned. -/
theorem exists_error_of_planTo (h : desired.planTo current sel = .error err) :
    ∃ d ∈ desired, planFor current (current.select sel) d = .error err := by
  rcases Except.bind_eq_error_iff.1 h with h | ⟨_, -, h⟩
  · obtain ⟨kind, -, h⟩ := Except.exists_error_of_mapM h
    rcases Except.bind_eq_error_iff.1 h with h | ⟨_, -, h⟩
    · obtain ⟨d, hd, h⟩ := Except.exists_error_of_mapM h
      exact ⟨d, (mem_ofKind.1 hd).1, h⟩
    · cases h
  · cases h

/-- A comparison ends in a conflict when a wanted entity has the id of a hidden object. -/
theorem conflict_iff : (∃ kind id, desired.planTo current sel = .error (.conflict kind id)) ↔
    ∃ d ∈ desired, current.contains d.kind d.idText = true ∧
      (current.select sel).contains d.kind d.idText = false := by
  constructor
  · rintro ⟨kind, id, h⟩
    obtain ⟨d, hd, h⟩ := exists_error_of_planTo h
    obtain ⟨⟨hhidden, hheld⟩, -⟩ := planFor_eq_error_iff.1 h
    exact ⟨d, hd, hheld, hhidden⟩
  · rintro ⟨d, hd, hheld, hhidden⟩
    cases hplan : desired.planTo current sel with
    | error err =>
      obtain ⟨d', -, h⟩ := exists_error_of_planTo hplan
      exact ⟨_, _, congrArg _ (planFor_eq_error_iff.1 h).2⟩
    | ok p =>
      have hshown := exists_planTo_iff.1 ⟨p, hplan⟩ d hd
      rw [hheld, hhidden] at hshown
      simp at hshown

end State

/-! ### The order of operations -/

/-- Before another operation: on a kind that is created earlier; or on the same kind, to write where
the other deletes; or on a smaller id, when both write or both delete. -/
def PlannedOp.Precedes (a b : PlannedOp) : Prop :=
  a.kind.rank < b.kind.rank ∨ a.kind = b.kind ∧
    (a.action ≠ .delete ∧ b.action = .delete ∨
      (a.action = .delete ↔ b.action = .delete) ∧ a.id < b.id)

namespace State

variable {desired current visible : State} {sel : Selection} {p : Plan} {kind : Kind}

/-- The operations on one kind: they are on that kind, and in order. -/
theorem pairwise_planKind {ops : List PlannedOp}
    (h : planKind desired current visible kind = .ok ops) :
    (∀ op ∈ ops, op.kind = kind) ∧ ops.Pairwise PlannedOp.Precedes := by
  obtain ⟨wanted, hwanted, rfl⟩ := planKind_eq_ok_iff.1 h
  have hwrites : ∀ op ∈ wanted, op.kind = kind ∧ op.action ≠ .delete := by
    intro op hop
    obtain ⟨d, hd, hplan⟩ := hwanted.exists_of_mem_right hop
    exact ⟨(congrArg Reference.kind (key_of_planFor hplan)).trans (mem_ofKind.1 hd).2,
      action_of_planFor hplan⟩
  have hgone : ∀ op ∈ (gone desired visible kind).map (PlannedOp.mk .delete · none []),
      op.kind = kind ∧ op.action = .delete := by
    intro op hop
    obtain ⟨x, hx, rfl⟩ := List.mem_map.1 hop
    exact ⟨(mem_gone.1 hx).1.2, rfl⟩
  constructor
  · intro op hop
    rcases List.mem_append.1 hop with hop | hop
    · exact (hwrites op hop).1
    · exact (hgone op hop).1
  · refine List.pairwise_append.2 ⟨?_, ?_, fun a ha b hb => ?_⟩
    · have hids : wanted.Pairwise fun a b => a.id < b.id := by
        refine hwanted.pairwise (desired.pairwise_ofKind kind) fun d d' a b hd hd' hlt => ?_
        have ha : a.id = d.idText := congrArg Reference.id (key_of_planFor hd)
        have hb : b.id = d'.idText := congrArg Reference.id (key_of_planFor hd')
        rwa [ha, hb]
      refine hids.imp_of_mem fun {a b} ha hb hlt => ?_
      obtain ⟨hak, ha⟩ := hwrites a ha
      obtain ⟨hbk, hb⟩ := hwrites b hb
      exact .inr ⟨hak.trans hbk.symm, .inr ⟨by simp [ha, hb], hlt⟩⟩
    · refine List.pairwise_map.2 (((visible.pairwise_ofKind kind).filter _).imp_of_mem
        fun {x y} hx hy hlt => ?_)
      exact .inr ⟨(mem_gone.1 hx).1.2.trans (mem_gone.1 hy).1.2.symm, .inr ⟨by simp, hlt⟩⟩
    · obtain ⟨hak, ha⟩ := hwrites a ha
      obtain ⟨hbk, hb⟩ := hgone b hb
      exact .inr ⟨hak.trans hbk.symm, .inl ⟨ha, hb⟩⟩

/-- The operations of a plan are in order. -/
theorem pairwise_planTo (h : desired.planTo current sel = .ok p) :
    p.ops.Pairwise PlannedOp.Precedes := by
  obtain ⟨groups, hgroups, rfl⟩ := planTo_eq_ok_iff.1 h
  have hranks : Kind.creationOrder.Pairwise fun k l => k.rank < l.rank := by decide
  refine List.pairwise_flatten.2 ⟨fun ops hops => ?_, ?_⟩
  · obtain ⟨kind, -, hkind⟩ := hgroups.exists_of_mem_right hops
    exact (pairwise_planKind hkind).2
  · refine hgroups.pairwise hranks fun k l as bs has hbs hlt a ha b hb => .inl ?_
    rwa [(pairwise_planKind has).1 a ha, (pairwise_planKind hbs).1 b hb]

end State

/-! ### Where operations come from -/

/-- What is done about an object that is wanted or visible. -/
inductive State.Calls (desired visible : State) : PlannedOp → Prop
  /-- It is wanted and not visible. -/
  | new {d : Entity} (hd : d ∈ desired) (hno : visible.contains d.kind d.idText = false) :
    Calls desired visible ⟨.create, d, none, []⟩
  /-- It is wanted and visible. -/
  | both {d x : Entity} (hd : d ∈ desired) (hx : x ∈ visible) (href : x.ref = d.ref) :
    Calls desired visible (.ofMatch d x)
  /-- It is visible and not wanted. -/
  | gone {x : Entity} (hx : x ∈ visible) (hno : desired.contains x.kind x.idText = false) :
    Calls desired visible ⟨.delete, x, none, []⟩

namespace State

variable {desired current visible : State} {sel : Selection} {p : Plan} {op : PlannedOp}
  {d x : Entity}

/-- Where there is a plan, it holds exactly what is to be done. -/
theorem mem_ops_iff_calls (h : desired.planTo current sel = .ok p) :
    op ∈ p.ops ↔ Calls desired (current.select sel) op := by
  rw [mem_ops_of_planTo h]
  constructor
  · rintro (⟨d, hd, hplan⟩ | ⟨x, hx, hno, rfl⟩)
    · rcases planFor_eq_ok_iff.1 hplan with ⟨x, hget, rfl⟩ | ⟨hno, -, rfl⟩
      · exact .both hd (mem_of_get? hget) (ref_of_get? hget)
      · exact .new hd (by rw [contains, hno]; rfl)
    · exact .gone hx hno
  · intro hcalls
    cases hcalls with
    | new hd hno =>
      refine .inl ⟨_, hd, planFor_eq_ok_iff.2 (.inr ⟨?_, ?_, rfl⟩)⟩
      · exact get?_eq_none_iff.2 (contains_eq_false_iff.1 hno)
      · exact (exists_planTo_iff.1 ⟨p, h⟩ _ hd).resolve_left (by simp [hno])
    | @both d x hd hx href =>
      refine .inl ⟨d, hd, planFor_eq_ok_iff.2 (.inl ⟨x, ?_, rfl⟩)⟩
      exact get?_eq_some_iff.2 ⟨hx, congrArg Reference.kind href, congrArg Reference.id href⟩
    | gone hx hno => exact .inr ⟨_, hx, hno, rfl⟩

/-- A visible object is left as it is when it and the wanted one are the same, and is updated when
they are not. -/
theorem action_ofMatch (hdesired : desired.WellFormed) (hvisible : visible.WellFormed)
    (hd : d ∈ desired) (hx : x ∈ visible) (href : x.ref = d.ref) :
    ((PlannedOp.ofMatch d x).action = .keep ↔ x.SameFields d) ∧
      ((PlannedOp.ofMatch d x).action = .update ↔ ¬x.SameFields d) := by
  have hid : x.id? = d.id? := by
    rw [id?_of_mem hx, id?_of_mem hd]
    exact congrArg some (congrArg Reference.id href)
  have hkeep : (PlannedOp.ofMatch d x).action = .keep ↔ x.SameFields d :=
    Entity.action_ofMatch_eq_keep_iff.trans (Entity.sameFields_iff (hvisible x hx)
      (hdesired d hd) (congrArg Reference.kind href) hid).symm
  refine ⟨hkeep, ?_⟩
  rw [← hkeep]
  constructor
  · intro hupdate
    rw [hupdate]
    decide
  · intro hne
    exact (ofMatch_of_ne_keep hne).1

/-- An update says what it changes. -/
theorem changes_ofMatch (h : (PlannedOp.ofMatch d x).action = .update) :
    (PlannedOp.ofMatch d x).changes ≠ [] := by
  unfold PlannedOp.ofMatch at h ⊢
  simp only at h ⊢
  split at h
  · cases h
  · rename_i hchanges
    rw [if_neg hchanges]
    simpa using hchanges

end State

/-! ### Exact plans -/

/-- What an operation does tells where its object is, and whether its two forms are the same. -/
structure PlannedOp.Exact (desired visible : State) (op : PlannedOp) : Prop where
  /-- What is wanted and not visible is created. -/
  create : op.action = .create ↔
    desired.contains op.kind op.id = true ∧ visible.contains op.kind op.id = false
  /-- What is visible and not wanted is deleted. -/
  delete : op.action = .delete ↔
    desired.contains op.kind op.id = false ∧ visible.contains op.kind op.id = true
  /-- What is wanted as it is stays. -/
  keep : op.action = .keep ↔
    ∃ d ∈ desired, ∃ x ∈ visible, d.ref = op.key ∧ x.ref = op.key ∧ x.SameFields d
  /-- What is wanted in another form is updated. -/
  update : op.action = .update ↔
    ∃ d ∈ desired, ∃ x ∈ visible, d.ref = op.key ∧ x.ref = op.key ∧ ¬x.SameFields d
  /-- An update carries the wanted entity without time stamps, the visible one, and what changes. -/
  carries : op.action = .update → ∃ d ∈ desired, ∃ x ∈ visible, d.ref = op.key ∧ x.ref = op.key ∧
    op.entity.Unstamped d ∧ op.previous = some x ∧ op.changes ≠ []

/-- A plan does what takes the visible objects to the desired state, object by object, and nothing
else. -/
structure Plan.Exact (desired visible : State) (p : Plan) : Prop where
  /-- What is wanted or visible has its operation, and nothing else has one. -/
  covers : ∀ ref : Reference, (∃ op ∈ p.ops, op.key = ref) ↔
    desired.contains ref.kind ref.id = true ∨ visible.contains ref.kind ref.id = true
  /-- No object has two. -/
  single : (p.ops.map (·.key)).Nodup
  each : ∀ op ∈ p.ops, op.Exact desired visible
  ordered : p.ops.Pairwise PlannedOp.Precedes

namespace State

variable {desired current visible : State} {sel : Selection} {p : Plan} {op : PlannedOp}
  {d x : Entity} {ref : Reference}

/-- An id that is not in a state is that of no member. -/
theorem ne_ref_of_not_contains {s : State} (hno : s.contains ref.kind ref.id = false)
    (hx : x ∈ s) : x.ref ≠ ref := by
  intro href
  cases hno.symm.trans (contains_of_ref hx href)

/-- Of the objects with an id, the wanted one and the visible one are meant. -/
theorem exists_both_iff {P : Entity → Entity → Prop} (hd : d ∈ desired) (hx : x ∈ visible)
    (hdref : d.ref = ref) (hxref : x.ref = ref) :
    (∃ d ∈ desired, ∃ x ∈ visible, d.ref = ref ∧ x.ref = ref ∧ P x d) ↔ P x d := by
  constructor
  · rintro ⟨d', hd', x', hx', hdref', hxref', h⟩
    rwa [eq_of_ref hd' hd (hdref'.trans hdref.symm), eq_of_ref hx' hx (hxref'.trans hxref.symm)]
      at h
  · intro h
    exact ⟨d, hd, x, hx, hdref, hxref, h⟩

/-- Whatever is to be done is done exactly. -/
theorem exact_of_calls (hdesired : desired.WellFormed) (hvisible : visible.WellFormed)
    (h : Calls desired visible op) : op.Exact desired visible := by
  cases h with
  | @new d hd hno =>
    have hwanted : desired.contains d.kind d.idText = true := contains_of_mem hd
    have hnone : ∀ x ∈ visible, x.ref ≠ d.ref := fun _ => ne_ref_of_not_contains hno
    refine ⟨iff_of_true rfl ⟨hwanted, hno⟩, iff_of_false (by simp) ?_, iff_of_false (by simp) ?_,
      iff_of_false (by simp) ?_, fun h => by cases h⟩
    · rintro ⟨hgone, -⟩
      cases hgone.symm.trans hwanted
    · rintro ⟨-, -, x, hx, -, hxref, -⟩
      exact hnone x hx hxref
    · rintro ⟨-, -, x, hx, -, hxref, -⟩
      exact hnone x hx hxref
  | @both d x hd hx href =>
    obtain ⟨hkeep, hupdate⟩ := action_ofMatch hdesired hvisible hd hx href
    have hkey : (PlannedOp.ofMatch d x).key = d.ref := key_ofMatch d x
    have hwanted := contains_of_ref hd hkey.symm
    have hheld := contains_of_ref hx (href.trans hkey.symm)
    have hact : (PlannedOp.ofMatch d x).action = .keep ∨
        (PlannedOp.ofMatch d x).action = .update := by
      by_cases hsame : x.SameFields d
      · exact .inl (hkeep.2 hsame)
      · exact .inr (hupdate.2 hsame)
    refine ⟨iff_of_false ?_ ?_, iff_of_false ?_ ?_, ?_, ?_, fun h => ?_⟩
    · rcases hact with h | h <;> simp [h]
    · rintro ⟨-, hno⟩
      cases hno.symm.trans hheld
    · rcases hact with h | h <;> simp [h]
    · rintro ⟨hno, -⟩
      cases hno.symm.trans hwanted
    · rw [hkeep, hkey, exists_both_iff hd hx rfl href]
    · rw [hupdate, hkey, exists_both_iff (P := fun x d => ¬x.SameFields d) hd hx rfl href]
    · obtain ⟨-, hentity, hprevious⟩ := ofMatch_of_ne_keep (by rw [h]; decide)
      exact ⟨d, hd, x, hx, hkey.symm, href.trans hkey.symm,
        hentity ▸ Entity.unstamped_withoutTimestamps d, hprevious, changes_ofMatch h⟩
  | @gone x hx hno =>
    have hheld : visible.contains x.kind x.idText = true := contains_of_mem hx
    have hnone : ∀ d ∈ desired, d.ref ≠ x.ref := fun _ => ne_ref_of_not_contains hno
    refine ⟨iff_of_false (by simp) ?_, iff_of_true rfl ⟨hno, hheld⟩, iff_of_false (by simp) ?_,
      iff_of_false (by simp) ?_, fun h => by cases h⟩
    · rintro ⟨hwanted, -⟩
      cases hno.symm.trans hwanted
    · rintro ⟨d, hd, -, -, hdref, -, -⟩
      exact hnone d hd hdref
    · rintro ⟨d, hd, -, -, hdref, -, -⟩
      exact hnone d hd hdref

/-- What is wanted or visible calls for an operation, and nothing else does. -/
theorem exists_calls_iff : (∃ op, Calls desired visible op ∧ op.key = ref) ↔
    desired.contains ref.kind ref.id = true ∨ visible.contains ref.kind ref.id = true := by
  constructor
  · rintro ⟨op, hcalls, rfl⟩
    cases hcalls with
    | new hd _ => exact .inl (contains_of_mem hd)
    | @both d x hd _ _ => exact .inl (contains_of_ref hd (key_ofMatch d x).symm)
    | gone hx _ => exact .inr (contains_of_mem hx)
  · intro h
    cases hwanted : desired.contains ref.kind ref.id with
    | true =>
      obtain ⟨d, hd, rfl⟩ := contains_ref_iff.1 hwanted
      cases hvisible : visible.contains d.ref.kind d.ref.id with
      | true =>
        obtain ⟨x, hx, hxref⟩ := contains_ref_iff.1 hvisible
        exact ⟨_, .both hd hx hxref, key_ofMatch d x⟩
      | false => exact ⟨_, .new hd hvisible, rfl⟩
    | false =>
      obtain ⟨x, hx, rfl⟩ := contains_ref_iff.1 (h.resolve_left (by simp [hwanted]))
      exact ⟨_, .gone hx hwanted, rfl⟩

/-- Comparing two well-formed states, as all that are read are (`State.wellFormed_of_ofJson?`), ends
in a conflict exactly when a wanted entity has the id of an object that the selection hides.
Otherwise it gives a plan, and the plan is exact. -/
theorem exact_planTo (desired current : State) (sel : Selection) (hdesired : desired.WellFormed)
    (hcurrent : current.WellFormed) :
    ((∃ kind id, desired.planTo current sel = .error (.conflict kind id)) ↔
      ∃ d ∈ desired, current.contains d.kind d.idText = true ∧
        (current.select sel).contains d.kind d.idText = false) ∧
    ((¬∃ d ∈ desired, current.contains d.kind d.idText = true ∧
        (current.select sel).contains d.kind d.idText = false) →
      ∃ p, desired.planTo current sel = .ok p ∧ p.Exact desired (current.select sel)) := by
  refine ⟨conflict_iff, fun hfree => ?_⟩
  obtain ⟨p, hp⟩ : ∃ p, desired.planTo current sel = .ok p := by
    refine exists_planTo_iff.2 fun d hd => ?_
    by_cases hshown : (current.select sel).contains d.kind d.idText = true
    · exact .inl hshown
    · have hhidden : (current.select sel).contains d.kind d.idText = false := by simpa using hshown
      cases hheld : current.contains d.kind d.idText with
      | false => exact .inr rfl
      | true => exact absurd ⟨d, hd, hheld, hhidden⟩ hfree
  have hvisible : (current.select sel).WellFormed := fun x hx => hcurrent x (mem_of_mem_select hx)
  refine ⟨p, hp, fun ref => ?_, nodup_ops_of_planTo hp, fun op hop => ?_, pairwise_planTo hp⟩
  · rw [← exists_calls_iff]
    exact exists_congr fun op => and_congr_left fun _ => mem_ops_iff_calls hp
  · exact exact_of_calls hdesired hvisible ((mem_ops_iff_calls hp).1 hop)

end State

/-! ### All four operations -/

/-- A service on an internal host, as a gateway tells it that keeps the time of its creation. -/
def storedService (id name : String) : Entity :=
  (Resource.make .service (some id)
    { (default : Service) with name := some name, host := some (name ++ ".internal") } []
    (some 1700000000) none).toEntity

/-- What a gateway holds. -/
def heldObjects : State :=
  .collect [storedService "s0" "old", storedService "s1" "gone", Sample.route "r1" "main" "s0"]

/-- A route as a gateway told it at some time, with the times of its creation and last update. -/
def toldRoute (id name serviceId : String) : Entity :=
  (Resource.make .route (some id)
    { (default : Route) with
      name := some name, service := some (.byId serviceId), paths := ["/" ++ name] } []
    (some 1700000000) (some 1700000500)).toEntity

/-- What it is to hold: the older service, a new one, and the route to the new one. -/
def wantedObjects : State :=
  .collect [Sample.service "s0" "old", Sample.service "s2" "new", toldRoute "r1" "main" "s2"]

/-- The older service stays, the new one is created, the one that is not wanted is deleted, and the
route is updated: it is sent without the time stamps that it is wanted with. -/
theorem exact_planTo_wantedObjects : ∃ p, wantedObjects.planTo heldObjects .everything = .ok p ∧
    p.ops.map (fun op => (op.action, op.key)) = [(.keep, ⟨.service, "s0"⟩),
      (.create, ⟨.service, "s2"⟩), (.delete, ⟨.service, "s1"⟩), (.update, ⟨.route, "r1"⟩)] ∧
      (wantedObjects.get? .route "r1").map (fun d =>
        (d.resource.createdAt, d.resource.updatedAt)) =
          some (some 1700000000, some 1700000500) ∧
      (∀ op ∈ p.ops, op.key = ⟨.route, "r1"⟩ → op.entity.resource.createdAt = none ∧
        op.entity.resource.updatedAt = none ∧ op.entity.references = [⟨.service, "s2"⟩]) ∧
      p.Exact wantedObjects (heldObjects.select .everything) := by
  have hfree : ¬∃ d ∈ wantedObjects, heldObjects.contains d.kind d.idText = true ∧
      (heldObjects.select .everything).contains d.kind d.idText = false := by
    have hshown : ∀ d ∈ wantedObjects.entities, ¬(heldObjects.contains d.kind d.idText = true ∧
        (heldObjects.select .everything).contains d.kind d.idText = false) := by
      decide +kernel
    rintro ⟨d, hd, hhidden⟩
    exact hshown d hd hhidden
  obtain ⟨p, hp, hexact⟩ := (State.exact_planTo wantedObjects heldObjects .everything
    (by decide +kernel) (by decide +kernel)).2 hfree
  have heval : (wantedObjects.planTo heldObjects .everything).toOption.map (fun p =>
      p.ops.map fun op => (op.action, op.key)) = some [(.keep, ⟨.service, "s0"⟩),
        (.create, ⟨.service, "s2"⟩), (.delete, ⟨.service, "s1"⟩), (.update, ⟨.route, "r1"⟩)] := by
    decide +kernel
  have hsent : (wantedObjects.planTo heldObjects .everything).toOption.any (fun p =>
      p.ops.all fun op => op.key == ⟨.route, "r1"⟩ →
        op.entity.resource.createdAt = none ∧ op.entity.resource.updatedAt = none ∧
          op.entity.references = [⟨.service, "s2"⟩]) = true := by
    decide +kernel
  rw [hp] at heval hsent
  refine ⟨p, hp, Option.some.inj heval, by decide +kernel, fun op hop hkey => ?_, hexact⟩
  have hall := List.all_eq_true.1 hsent op hop
  exact of_decide_eq_true hall (by simpa using hkey)

end Gateway
