import Gateway.Proofs.Planning
import Gateway.Proofs.State

/-!
# The effect of operations

A state becomes another by operations when these determine what is held under their keys and
nothing else has changed (`State.Becomes`). `Plan.Fits` says of a plan and a state that no
operation of the plan can get in the way of another: ids that are to be created are free, and
natural keys are shared with nothing but the object itself. Then, whichever operations have taken
effect, each of the others can (`State.Becomes.apply`), so operations can be applied in any order
(`Plan.Fits.exists_applyAll`).
-/

namespace Gateway

/-! ### Operations -/

namespace PlannedOp

/-- What the gateway holds of the object once the operation has taken effect. -/
def result (op : PlannedOp) : Option Entity :=
  match op.action with
  | .delete => none
  | _ => some op.entity

variable {op : PlannedOp}

theorem result_of_delete (h : op.action = .delete) : op.result = none := by
  unfold result
  rw [h]

theorem result_of_ne_delete (h : op.action ≠ .delete) : op.result = some op.entity := by
  unfold result
  split
  · contradiction
  · rfl

/-- An operation that leaves something behind is no deletion, and what it leaves is its own entity.
-/
theorem eq_entity_of_result {e : Entity} (h : op.result = some e) :
    op.action ≠ .delete ∧ e = op.entity := by
  unfold result at h
  split at h
  · cases h
  · exact ⟨by assumption, (Option.some.inj h).symm⟩

end PlannedOp

namespace Plan

variable {p : Plan} {op : PlannedOp}

theorem mem_mutations : op ∈ p.mutations ↔ op ∈ p.ops ∧ op.action ≠ .keep := by
  simp [mutations, PlannedOp.isMutation, Action.isMutation, bne]

theorem ne_keep_of_mem (h : op ∈ p.mutations) : op.action ≠ .keep := (mem_mutations.1 h).2

end Plan

/-! ### Carrying out an operation -/

/-- An operation that is carried out settles what is held of its object, and changes nothing
else. -/
theorem State.get?_apply {s t : State} {op : PlannedOp} (hact : op.action ≠ .keep)
    (h : s.apply op.action op.entity = .ok t) (kind : Kind) (id : String) :
    t.get? kind id = if op.kind = kind ∧ op.id = id then op.result else s.get? kind id := by
  unfold apply at h
  split at h
  · rename_i hcreate
    unfold applyCreate at h
    split at h
    · cases h
    · split at h
      · cases h
      · split at h
        · rename_i t' ht'
          cases h
          rw [get?_insert ht', PlannedOp.result_of_ne_delete (by simp [hcreate])]
          rfl
        · cases h
  · rename_i hupdate
    unfold applyUpdate at h
    split at h
    · split at h
      · rename_i t' ht'
        cases h
        rw [get?_upsert ht', PlannedOp.result_of_ne_delete (by simp [hupdate])]
        rfl
      · cases h
    · cases h
  · rename_i hdelete
    unfold applyDelete at h
    split at h
    · cases h
      rw [get?_erase, PlannedOp.result_of_delete hdelete]
      rfl
    · cases h
  · contradiction

/-! ### States before and after -/

/-- A state becomes another when operations take effect: each of them determines what is held of
its object, and every other object is as it was. -/
structure State.Becomes (s : State) (ops : List PlannedOp) (t : State) : Prop where
  changed : ∀ op ∈ ops, t.get? op.kind op.id = op.result
  unchanged : ∀ kind id, (∀ op ∈ ops, op.key ≠ ⟨kind, id⟩) → t.get? kind id = s.get? kind id

namespace State.Becomes

variable {s t t' : State} {ops : List PlannedOp} {op : PlannedOp} {x : Entity}

/-- Nothing has taken effect yet. -/
theorem refl (s : State) : s.Becomes [] s := ⟨by simp, by simp⟩

/-- The operations that have taken effect settle what is held in the end. -/
theorem unique (h : s.Becomes ops t) (h' : s.Becomes ops t') : t = t' := by
  refine ext_get? fun kind id => ?_
  by_cases hkey : ∃ op ∈ ops, op.key = ⟨kind, id⟩
  · obtain ⟨op, hop, hkey⟩ := hkey
    cases hkey
    exact (h.changed op hop).trans (h'.changed op hop).symm
  · simp only [not_exists, not_and] at hkey
    exact (h.unchanged kind id hkey).trans (h'.unchanged kind id hkey).symm

/-- The order in which operations are listed does not count, nor how often. -/
theorem congr {ops' : List PlannedOp} (h : s.Becomes ops t) (hmem : ∀ op, op ∈ ops ↔ op ∈ ops') :
    s.Becomes ops' t where
  changed op hop := h.changed op ((hmem op).2 hop)
  unchanged kind id hno := h.unchanged kind id fun op hop => hno op ((hmem op).1 hop)

/-- What is held afterwards was held before or has been created or updated. -/
theorem mem (h : s.Becomes ops t) (hx : x ∈ t) :
    (x ∈ s ∧ ∀ op ∈ ops, op.key ≠ x.ref) ∨
      ∃ op ∈ ops, op.action ≠ .delete ∧ x = op.entity := by
  have hget := get?_of_mem hx
  by_cases hkey : ∃ op ∈ ops, op.key = x.ref
  · obtain ⟨op, hop, hkey⟩ := hkey
    right
    have hres := h.changed op hop
    rw [show op.kind = x.kind from congrArg Reference.kind hkey,
      show op.id = x.idText from congrArg Reference.id hkey, hget] at hres
    exact ⟨op, hop, PlannedOp.eq_entity_of_result hres.symm⟩
  · simp only [not_exists, not_and] at hkey
    left
    rw [h.unchanged _ _ hkey] at hget
    exact ⟨mem_of_get? hget, hkey⟩

/-- An object that no operation is about is held afterwards as before. -/
theorem mem_of_mem (h : s.Becomes ops t) (hx : x ∈ s) (hno : ∀ op ∈ ops, op.key ≠ x.ref) :
    x ∈ t :=
  mem_of_get? ((h.unchanged _ _ hno).trans (get?_of_mem hx))

/-- What has been created or updated is held. -/
theorem mem_of_op (h : s.Becomes ops t) (hop : op ∈ ops) (hact : op.action ≠ .delete) :
    op.entity ∈ t := by
  have hget := h.changed op hop
  rw [PlannedOp.result_of_ne_delete hact] at hget
  exact mem_of_get? hget

/-- What has been deleted is not held. -/
theorem not_contains (h : s.Becomes ops t) (hop : op ∈ ops) (hact : op.action = .delete) :
    t.get? op.kind op.id = none := by
  rw [h.changed op hop, PlannedOp.result_of_delete hact]

/-- One more operation takes effect. -/
theorem cons (h : s.Becomes ops t) (hnew : ∀ o ∈ ops, o.key ≠ op.key)
    (hget : ∀ kind id, t'.get? kind id =
      if op.kind = kind ∧ op.id = id then op.result else t.get? kind id) :
    s.Becomes (op :: ops) t' where
  changed o ho := by
    rw [hget]
    rcases List.mem_cons.1 ho with rfl | ho
    · rw [if_pos ⟨rfl, rfl⟩]
    · rw [if_neg fun heq => hnew o ho (by simp [PlannedOp.key, heq]), h.changed o ho]
  unchanged kind id hno := by
    rw [hget, if_neg fun heq => hno op List.mem_cons_self (by simp [PlannedOp.key, heq])]
    exact h.unchanged kind id fun o ho => hno o (List.mem_cons_of_mem _ ho)

end State.Becomes

/-! ### Plans that fit a state -/

/-- No mutation of a plan can get in the way of another, when a gateway holds a state. -/
structure Plan.Fits (p : Plan) (s : State) : Prop where
  /-- No object is the subject of two mutations. -/
  nodup : (p.mutations.map (·.key)).Nodup
  identified : ∀ op ∈ p.mutations, op.entity.id?.isSome
  /-- What is to be created is not there. -/
  free : ∀ op ∈ p.mutations, op.action = .create → s.get? op.kind op.id = none
  /-- What is to be updated or deleted is there. -/
  held : ∀ op ∈ p.mutations, op.action ≠ .create → (s.get? op.kind op.id).isSome
  /-- What is to be written shares its natural key with no other object that is there. -/
  keyed : ∀ op ∈ p.mutations, op.action ≠ .delete →
    ∀ x ∈ s, op.entity.SameKey x → x.idText = op.id
  /-- Nor with anything else that is to be written. -/
  distinct : ∀ op ∈ p.mutations, op.action ≠ .delete → ∀ o ∈ p.mutations, o.action ≠ .delete →
    op.entity.SameKey o.entity → o.id = op.id

namespace State.Becomes

variable {p : Plan} {s t : State} {ops : List PlannedOp} {op : PlannedOp}

/-- An operation that has not taken effect still finds what it is about as it was planned. -/
theorem get?_of_new (h : s.Becomes ops t) (hnew : ∀ o ∈ ops, o.key ≠ op.key) :
    t.get? op.kind op.id = s.get? op.kind op.id := h.unchanged _ _ hnew

/-- Whichever operations have taken effect, what is still to be written shares its natural key with
no other object. -/
theorem idText_of_sameKey (h : s.Becomes ops t) (hfit : p.Fits s) (hops : ops ⊆ p.mutations)
    (hop : op ∈ p.mutations) (hact : op.action ≠ .delete) {x : Entity} (hx : x ∈ t)
    (hsame : op.entity.SameKey x) : x.idText = op.id := by
  rcases h.mem hx with ⟨hx, -⟩ | ⟨o, ho, hoact, rfl⟩
  · exact hfit.keyed op hop hact x hx hsame
  · exact hfit.distinct op hop hact o (hops ho) hoact hsame

/-- Whichever operations have taken effect, each of the others can. -/
theorem apply (h : s.Becomes ops t) (hfit : p.Fits s) (hops : ops ⊆ p.mutations)
    (hop : op ∈ p.mutations) (hnew : ∀ o ∈ ops, o.key ≠ op.key) :
    ∃ t', t.apply op.action op.entity = .ok t' ∧ s.Becomes (op :: ops) t' := by
  have hid := Entity.id?_of_isSome (hfit.identified op hop)
  have hget := h.get?_of_new hnew
  have hsame : op.action ≠ .delete → ∀ x ∈ t, op.entity.SameKey x → x.idText = op.id :=
    fun hact _ hx hsame => h.idText_of_sameKey hfit hops hop hact hx hsame
  have hheld : op.action ≠ .create → t.contains op.kind op.id = true := by
    intro hact
    rw [State.contains, hget]
    exact hfit.held op hop hact
  have hcan : ∃ t', t.apply op.action op.entity = .ok t' := by
    unfold State.apply
    cases hact : op.action with
    | create =>
      have hfree : t.contains op.kind op.id = false := by
        rw [State.contains, hget, hfit.free op hop hact]
        rfl
      obtain ⟨t', ht'⟩ := exists_insert (hfit.identified op hop) hfree fun x hx hkey =>
        contains_eq_false_iff.1 hfree x hx hkey.1.symm (hsame (by simp [hact]) x hx hkey)
      refine ⟨t', ?_⟩
      unfold State.applyCreate
      simp only [hid]
      rw [if_neg (by simpa [PlannedOp.kind, PlannedOp.id] using hfree), ht']
    | update =>
      obtain ⟨t', ht'⟩ := exists_upsert (hfit.identified op hop) (hsame (by simp [hact]))
      refine ⟨t', ?_⟩
      unfold State.applyUpdate
      simp only
      rw [if_pos (by simpa [PlannedOp.kind, PlannedOp.id] using hheld (by simp [hact])), ht']
    | delete =>
      refine ⟨t.erase op.kind op.id, ?_⟩
      unfold State.applyDelete
      simp only
      rw [if_pos (by simpa [PlannedOp.kind, PlannedOp.id] using hheld (by simp [hact]))]
      rfl
    | keep => exact absurd hact (Plan.ne_keep_of_mem hop)
  obtain ⟨t', ht'⟩ := hcan
  exact ⟨t', ht', h.cons hnew (get?_apply (Plan.ne_keep_of_mem hop) ht')⟩

end State.Becomes

/-! ### All operations -/

/-- Apply operations one after the other. -/
def State.applyAll (s : State) (ops : List PlannedOp) : Except ClientError State :=
  ops.foldlM (fun s op => s.apply op.action op.entity) s

/-- When more operations on distinct objects have been applied one after the other, the mutations
among them have taken effect as well. -/
theorem State.Becomes.of_applyAll {s t u : State} {done ops : List PlannedOp}
    (hdone : s.Becomes done t) (hnew : ∀ o ∈ done, ∀ op ∈ ops, o.key ≠ op.key)
    (hnodup : (ops.map (·.key)).Nodup) (h : t.applyAll ops = .ok u) :
    s.Becomes (ops.filter PlannedOp.isMutation ++ done) u := by
  induction ops generalizing done t with
  | nil =>
    cases h
    exact hdone
  | cons op rest ih =>
    obtain ⟨hop, hrest⟩ := List.nodup_cons.1 hnodup
    unfold applyAll at h
    rw [List.foldlM_cons] at h
    obtain ⟨t', hstep, h⟩ := Except.bind_eq_ok_iff.1 h
    have hnew' : ∀ o ∈ done, ∀ x ∈ rest, o.key ≠ x.key :=
      fun o ho x hx => hnew o ho x (List.mem_cons_of_mem _ hx)
    by_cases hmut : op.isMutation
    · have hact : op.action ≠ .keep := by
        simpa [PlannedOp.isMutation, Action.isMutation] using hmut
      have hdone' := hdone.cons (fun o ho => hnew o ho op List.mem_cons_self)
        (get?_apply hact hstep)
      rw [List.filter_cons_of_pos hmut]
      refine (ih hdone' ?_ hrest h).congr fun o => List.perm_middle.mem_iff
      intro o ho x hx heq
      rcases List.mem_cons.1 ho with rfl | ho
      · exact hop (List.mem_map.2 ⟨x, hx, heq.symm⟩)
      · exact hnew' o ho x hx heq
    · have hkeep : op.action = .keep := by
        simpa [PlannedOp.isMutation, Action.isMutation] using hmut
      rw [hkeep] at hstep
      cases hstep
      rw [List.filter_cons_of_neg hmut]
      exact ih hdone hnew' hrest h

/-- When operations on distinct objects have been applied one after the other, each mutation among
them has taken effect, and nothing else has changed. -/
theorem State.becomes_of_applyAll {s t : State} {ops : List PlannedOp}
    (hnodup : (ops.map (·.key)).Nodup) (h : s.applyAll ops = .ok t) :
    s.Becomes (ops.filter PlannedOp.isMutation) t := by
  have hall := (Becomes.refl s).of_applyAll (by simp) hnodup h
  rwa [List.append_nil] at hall

namespace Plan.Fits

variable {p : Plan} {s t : State} {ops done : List PlannedOp}

/-- Operations of which none has taken effect yet can be applied one after the other. -/
theorem exists_applyAll_of_becomes (hfit : p.Fits s) (h : s.Becomes done t)
    (hdone : done ⊆ p.mutations) (hops : ops ⊆ p.ops)
    (hnodup : (((ops.filter PlannedOp.isMutation) ++ done).map (·.key)).Nodup) :
    ∃ t', t.applyAll ops = .ok t' ∧ s.Becomes ((ops.filter PlannedOp.isMutation) ++ done) t' := by
  induction ops generalizing t done with
  | nil => exact ⟨t, rfl, h⟩
  | cons op rest ih =>
    obtain ⟨hop, hrest⟩ := List.cons_subset.1 hops
    by_cases hmut : op.isMutation
    · rw [List.filter_cons_of_pos hmut, List.cons_append, List.map_cons, List.nodup_cons] at hnodup
      rw [List.filter_cons_of_pos hmut]
      have hmem : op ∈ p.mutations := List.mem_filter.2 ⟨hop, hmut⟩
      have hnew : ∀ o ∈ done, o.key ≠ op.key := fun o ho heq =>
        hnodup.1 (List.mem_map.2 ⟨o, List.mem_append_right _ ho, heq⟩)
      obtain ⟨t₁, hstep, h₁⟩ := h.apply hfit hdone hmem hnew
      have hperm : (rest.filter PlannedOp.isMutation ++ op :: done).Perm
          (op :: (rest.filter PlannedOp.isMutation ++ done)) := List.perm_middle
      obtain ⟨t', hall, h'⟩ := ih h₁ (List.cons_subset.2 ⟨hmem, hdone⟩) hrest
        ((hperm.map _).nodup_iff.2 (List.nodup_cons.2 hnodup))
      refine ⟨t', ?_, h'.congr fun o => hperm.mem_iff⟩
      unfold State.applyAll
      rw [List.foldlM_cons, hstep]
      exact hall
    · rw [List.filter_cons_of_neg hmut] at hnodup ⊢
      obtain ⟨t', hall, h'⟩ := ih h hdone hrest hnodup
      refine ⟨t', ?_, h'⟩
      have hkeep : op.action = .keep := by
        simpa [PlannedOp.isMutation, Action.isMutation] using hmut
      unfold State.applyAll
      rw [List.foldlM_cons, hkeep]
      exact hall

/-- A plan that fits a state can be applied to it. -/
theorem exists_applyAll (hfit : p.Fits s) :
    ∃ t, s.applyAll p.ops = .ok t ∧ s.Becomes p.mutations t := by
  have hnodup : ((p.mutations ++ []).map PlannedOp.key).Nodup := by
    rw [List.append_nil]
    exact hfit.nodup
  obtain ⟨t, ht, h⟩ := hfit.exists_applyAll_of_becomes (.refl s) (List.nil_subset _)
    (List.Subset.refl _) hnodup
  rw [List.append_nil] at h
  exact ⟨t, ht, h⟩

end Plan.Fits

end Gateway
