import Mathlib.Tactic.ByContra
import Gateway.Plan.Check

/-!
# What passes the checks

Flat declarations pass the checks exactly when each entity does by itself
(`Options.check_eq_ok_iff`), and a missing field is reported exactly for the entities that lack it
(`Options.missingField_mem_faults_iff`).
-/

namespace Gateway

variable {o : Options} {es : List Entity} {e : Entity}

/-- Nothing is wrong with an entity: the gateway can take it, the selection can confine it, and it
lacks no field. -/
structure Options.Permits (o : Options) (e : Entity) : Prop where
  supported : o.capabilities.supports e.kind = true
  scope : o.capabilities.consumerGroupScoping = true ∨ e.isGroupScoped = false
  partials : o.capabilities.partials = true ∨ e.linksPartials = false
  confined : o.selection.isActive = true → e.kind ∉ unconfinedKinds
  complete : e.missingField? = none

/-- The entities of a kind are those among all that are of it. -/
theorem mem_entitiesOfKind {kind : Kind} : e ∈ entitiesOfKind es kind ↔ e ∈ es ∧ e.kind = kind := by
  simp [entitiesOfKind]

/-- There are none when no entity is of the kind. -/
theorem entitiesOfKind_isEmpty_iff {kind : Kind} :
    (entitiesOfKind es kind).isEmpty = true ↔ ∀ e ∈ es, e.kind ≠ kind := by
  simp [entitiesOfKind]

namespace Capabilities

/-- No capability is missing when every entity is of a supported kind and every plugin can be scoped
and linked as it is. -/
theorem faults_eq_nil_iff {c : Capabilities} : c.faults es = [] ↔
    ∀ e ∈ es, c.supports e.kind = true ∧ (c.consumerGroupScoping = true ∨ e.isGroupScoped = false) ∧
      (c.partials = true ∨ e.linksPartials = false) := by
  have hkinds : (Kind.creationOrder.filter fun kind =>
      !(entitiesOfKind es kind).isEmpty && !c.supports kind) = [] ↔
      ∀ e ∈ es, c.supports e.kind = true := by
    rw [List.filter_eq_nil_iff]
    constructor
    · intro h e he
      by_contra hno
      refine h e.kind e.kind.mem_creationOrder ?_
      have hne : (entitiesOfKind es e.kind).isEmpty = false := by
        rw [Bool.eq_false_iff, Ne, entitiesOfKind_isEmpty_iff]
        exact fun hall => hall e he rfl
      simpa [hne] using hno
    · intro h kind _ hfault
      simp only [Bool.and_eq_true, Bool.not_eq_true', Bool.eq_false_iff, Ne,
        entitiesOfKind_isEmpty_iff] at hfault
      obtain ⟨hsome, hno⟩ := hfault
      exact hsome fun e he hk => hno (hk ▸ h e he)
  have hunless : ∀ {b : Bool} {p : Entity → Bool},
      (if b = true then [] else es.filter p) = [] ↔ ∀ e ∈ es, b = true ∨ p e = false := by
    intro b p
    cases b <;> simp [List.filter_eq_nil_iff]
  unfold faults
  simp only [List.append_eq_nil_iff, List.map_eq_nil_iff, hkinds, hunless]
  constructor
  · rintro ⟨⟨hkind, hscope⟩, hpartials⟩ e he
    exact ⟨hkind e he, hscope e he, hpartials e he⟩
  · intro h
    exact ⟨⟨fun e he => (h e he).1, fun e he => (h e he).2.1⟩, fun e he => (h e he).2.2⟩

end Capabilities

/-- Only some kinds have fields that they need. -/
theorem Entity.kind_mem_of_missingField? (h : e.missingField? ≠ none) : e.kind ∈ checkedKinds := by
  obtain ⟨k, r⟩ := e
  cases k <;> first | exact absurd rfl h | simp [checkedKinds]

/-- No field is missing when none is of any entity. -/
theorem fieldFaults_eq_nil_iff : fieldFaults es = [] ↔ ∀ e ∈ es, e.missingField? = none := by
  unfold fieldFaults
  simp only [List.filterMap_eq_nil_iff, List.mem_flatMap, mem_entitiesOfKind,
    Option.map_eq_none_iff]
  constructor
  · intro h e he
    by_contra hno
    exact hno (h e ⟨e.kind, Entity.kind_mem_of_missingField? hno, he, rfl⟩)
  · rintro h e ⟨_, -, he, -⟩
    exact h e he

/-- A selection has nothing to object to when it is inactive or no kind that it cannot confine is
declared. -/
theorem Selection.faults_eq_nil_iff {sel : Selection} : sel.faults es = [] ↔
    ∀ e ∈ es, sel.isActive = true → e.kind ∉ unconfinedKinds := by
  unfold faults
  cases sel.isActive with
  | false => simp
  | true =>
    rw [if_pos rfl, List.map_eq_nil_iff, List.filter_eq_nil_iff]
    constructor
    · intro h e he _ hmem
      have hempty : (entitiesOfKind es e.kind).isEmpty = true := by simpa using h e.kind hmem
      exact entitiesOfKind_isEmpty_iff.1 hempty e he rfl
    · intro h kind hmem hfault
      have hempty : (entitiesOfKind es kind).isEmpty = true :=
        entitiesOfKind_isEmpty_iff.2 fun e he hk => h e he rfl (hk ▸ hmem)
      simp [hempty] at hfault

/-- Flat declarations pass the checks when each entity does. -/
theorem Options.check_eq_ok_iff : o.check es = .ok () ↔ ∀ e ∈ es, o.Permits e := by
  have hfaults : o.check es = .ok () ↔ o.faults es = [] := by
    unfold check
    split
    · rename_i h
      simp [h]
    · rename_i h
      simp [h]
  rw [hfaults, faults, List.append_eq_nil_iff, List.append_eq_nil_iff,
    Capabilities.faults_eq_nil_iff, Selection.faults_eq_nil_iff, fieldFaults_eq_nil_iff]
  constructor
  · rintro ⟨⟨hcap, hsel⟩, hfield⟩ e he
    obtain ⟨hkind, hscope, hpartials⟩ := hcap e he
    exact ⟨hkind, hscope, hpartials, hsel e he, hfield e he⟩
  · intro h
    exact ⟨⟨fun e he => ⟨(h e he).supported, (h e he).scope, (h e he).partials⟩,
      fun e he => (h e he).confined⟩, fun e he => (h e he).complete⟩

/-- A missing field is reported for the entities that lack it. -/
theorem Options.missingField_mem_faults_iff {kind : Kind} {label field : String} :
    PlanError.missingField kind label field ∈ o.faults es ↔
      ∃ e ∈ es, e.kind = kind ∧ e.faultLabel = label ∧ e.missingField? = some field := by
  have hcapabilities : PlanError.missingField kind label field ∉ o.capabilities.faults es := by
    simp [Capabilities.faults]
  have hselection : PlanError.missingField kind label field ∉ o.selection.faults es := by
    unfold Selection.faults
    split <;> simp
  rw [faults, List.mem_append, List.mem_append, or_iff_right (not_or.2 ⟨hcapabilities, hselection⟩),
    fieldFaults]
  simp only [List.mem_filterMap, List.mem_flatMap, mem_entitiesOfKind, Option.map_eq_some_iff,
    PlanError.missingField.injEq]
  constructor
  · rintro ⟨e, ⟨_, -, he, -⟩, _, hfield, hk, hlabel, rfl⟩
    exact ⟨e, he, hk, hlabel, hfield⟩
  · rintro ⟨e, he, hk, hlabel, hfield⟩
    have hmissing : e.missingField? ≠ none := by
      rw [hfield]
      simp
    have hchecked := Entity.kind_mem_of_missingField? hmissing
    exact ⟨e, ⟨e.kind, hchecked, he, rfl⟩, field, hfield, hk, hlabel, rfl⟩

/-- Under an active selection, whatever is permitted carries tags, or is a membership. -/
theorem Options.Permits.taggable (h : o.Permits e) (hact : o.selection.isActive = true)
    (hne : e.kind ≠ .membership) : e.kind.taggable = true := by
  have hconfined := h.confined hact
  revert hconfined hne
  cases e.kind <;> decide

end Gateway
