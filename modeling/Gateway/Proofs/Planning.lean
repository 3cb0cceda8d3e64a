import Mathlib.Data.List.Forall2
import Gateway.IdSupply

/-!
# Steps of planning

What it takes for a computation of planning to succeed (`Planning.Yields`), step by step: each way
of putting computations together has its law (`Planning.yields_bind`, `Planning.yields_lift`, …), so
that a successful computation can be taken apart, and put together, one step at a time. Checks are
taken apart in the same way (`Except.bind_eq_ok_iff`, `Except.mapM_eq_ok_iff`). A computation that
fails (`Planning.Fails`) is followed to the step that does (`Planning.fails_bind`,
`Planning.exists_of_fails_foldlM`), and what it may fail with follows from its steps
(`Planning.FailsOnly`).
-/

namespace List

variable {α β : Type} {R : α → β → Prop} {xs : List α} {ys : List β}

/-- Every member on the right has its partner on the left. -/
theorem Forall₂.exists_of_mem_right (h : Forall₂ R xs ys) {y : β} (hy : y ∈ ys) :
    ∃ x ∈ xs, R x y := by
  induction h with
  | nil => cases hy
  | cons hR _ ih =>
    rcases mem_cons.1 hy with rfl | hy
    · exact ⟨_, mem_cons_self, hR⟩
    · obtain ⟨x, hx, hR⟩ := ih hy
      exact ⟨x, mem_cons_of_mem _ hx, hR⟩

/-- Every member on the left has its partner on the right. -/
theorem Forall₂.exists_of_mem_left (h : Forall₂ R xs ys) {x : α} (hx : x ∈ xs) :
    ∃ y ∈ ys, R x y :=
  h.flip.exists_of_mem_right hx

/-- What holds of any two members on the left, one before the other, tells what holds of their
partners. -/
theorem Forall₂.pairwise {P : α → α → Prop} {Q : β → β → Prop} (h : Forall₂ R xs ys)
    (hP : xs.Pairwise P) (himp : ∀ x x' y y', R x y → R x' y' → P x x' → Q y y') :
    ys.Pairwise Q := by
  induction h with
  | nil => exact .nil
  | @cons x y xs ys hR hrest ih =>
    obtain ⟨hx, hP⟩ := pairwise_cons.1 hP
    refine pairwise_cons.2 ⟨fun y' hy' => ?_, ih hP⟩
    obtain ⟨x', hx', hR'⟩ := hrest.exists_of_mem_right hy'
    exact himp x x' y y' hR hR' (hx x' hx')

end List

namespace Except

variable {ε α β : Type}

/-- Two checks pass one after the other when each does. -/
theorem bind_eq_ok_iff {x : Except ε α} {f : α → Except ε β} {b : β} :
    (x >>= f) = .ok b ↔ ∃ a, x = .ok a ∧ f a = .ok b := by
  cases x with
  | error e =>
    constructor
    · intro h
      cases h
    · rintro ⟨a, h, -⟩
      cases h
  | ok a =>
    constructor
    · intro h
      exact ⟨a, rfl, h⟩
    · rintro ⟨a', h, hf⟩
      cases h
      exact hf

/-- Of two checks one after the other, the first fails, or else the second. -/
theorem bind_eq_error_iff {x : Except ε α} {f : α → Except ε β} {e : ε} :
    (x >>= f) = .error e ↔ x = .error e ∨ ∃ a, x = .ok a ∧ f a = .error e := by
  cases x with
  | error e' =>
    constructor
    · intro h
      cases h
      exact .inl rfl
    · rintro (h | ⟨a, h, -⟩)
      · cases h
        rfl
      · cases h
  | ok a =>
    constructor
    · intro h
      exact .inr ⟨a, rfl, h⟩
    · rintro (h | ⟨a', h, hf⟩)
      · cases h
      · cases h
        exact hf

/-- What is returned is the result. -/
theorem pure_eq_ok_iff {a b : α} : (pure a : Except ε α) = .ok b ↔ a = b :=
  ⟨fun h => Except.ok.inj h, fun h => congrArg _ h⟩

/-- A result that is there is one without an error. -/
theorem toOption_eq_some_iff {x : Except ε α} {a : α} : x.toOption = some a ↔ x = .ok a := by
  cases x <;> simp [Except.toOption]

/-- A check passes for a list when it passes for each member. -/
theorem mapM_eq_ok_iff {f : α → Except ε β} {xs : List α} {ys : List β} :
    xs.mapM f = .ok ys ↔ List.Forall₂ (fun x y => f x = .ok y) xs ys := by
  induction xs generalizing ys with
  | nil =>
    rw [List.mapM_nil, pure_eq_ok_iff, List.forall₂_nil_left_iff]
    exact eq_comm
  | cons x rest ih =>
    simp only [List.mapM_cons, bind_eq_ok_iff, pure_eq_ok_iff, ih, List.forall₂_cons_left_iff]
    constructor
    · rintro ⟨y, hy, ys, hys, rfl⟩
      exact ⟨y, ys, hy, hys, rfl⟩
    · rintro ⟨y, ys, hy, hys, rfl⟩
      exact ⟨y, hy, ys, hys, rfl⟩

/-- Where a check fails for a list, it fails for a member. -/
theorem exists_error_of_mapM {f : α → Except ε β} {xs : List α} {e : ε}
    (h : xs.mapM f = .error e) : ∃ x ∈ xs, f x = .error e := by
  induction xs with
  | nil => cases h
  | cons x rest ih =>
    rw [List.mapM_cons] at h
    rcases bind_eq_error_iff.1 h with h | ⟨y, -, h⟩
    · exact ⟨x, List.mem_cons_self, h⟩
    · rcases bind_eq_error_iff.1 h with h | ⟨ys, -, h⟩
      · obtain ⟨x', hx', hf⟩ := ih h
        exact ⟨x', List.mem_cons_of_mem _ hx', hf⟩
      · cases h

end Except

namespace Gateway

/-! ### Fresh ids -/

namespace IdSupply

/-- The id that will be handed out after `n` others. -/
def nth (s : IdSupply) (n : Nat) : String := s.issue (s.taken + n)

/-- What is left when `n` ids have been taken. -/
def after (s : IdSupply) (n : Nat) : IdSupply := { s with taken := s.taken + n }

/-- An id is not handed out any more. -/
def Spares (s : IdSupply) (id : String) : Prop := ∀ n, s.nth n ≠ id

/-- What is not handed out is not handed out later. -/
theorem Spares.after {s : IdSupply} {id : String} (h : s.Spares id) (n : Nat) :
    (s.after n).Spares id := by
  intro m
  have hne := h (n + m)
  rwa [nth, ← Nat.add_assoc] at hne

end IdSupply

/-! ### Computations -/

namespace Planning

variable {α β : Type} {s s' t : IdSupply} {a : α} {b : β}

/-- A computation succeeds with a result, and takes fresh ids until a supply is left. -/
def Yields (x : Planning α) (s : IdSupply) (a : α) (s' : IdSupply) : Prop :=
  x.run s = (.ok a, s')

/-- A computation has one result. -/
theorem Yields.unique {x : Planning α} {a' : α} {t' : IdSupply} (h : Yields x s a s')
    (h' : Yields x s a' t') : a = a' ∧ s' = t' := by
  have heq : (Except.ok a, s') = ((Except.ok a', t') : Except PlanError α × IdSupply) :=
    h.symm.trans h'
  simpa using heq

/-- The result of a computation, if it succeeds. -/
def result? (x : Planning α) (s : IdSupply) : Option α := (x.run s).1.toOption

/-- A result that is there is one that the computation yields. -/
theorem yields_of_result? {x : Planning α} (h : result? x s = some a) : ∃ s', Yields x s a s' :=
  ⟨_, Prod.ext (Except.toOption_eq_some_iff.1 h) rfl⟩

/-- What is returned is yielded, and no id is taken. -/
theorem yields_pure {a' : α} : Yields (pure a) s a' s' ↔ a = a' ∧ s = s' := by
  unfold Yields
  change ((Except.ok a, s) : Except PlanError α × IdSupply) = (Except.ok a', s') ↔ _
  simp

/-- One computation after another is run from the ids that the first one leaves. -/
private theorem run_bind {x : Planning α} {f : α → Planning β} :
    (x >>= f).run s =
      match x.run s with
      | (.ok a, t) => (f a).run t
      | (.error e, t) => (.error e, t) := by
  change (match x.run s with | (r, t) => ExceptT.bindCont f r t) = _
  generalize x.run s = y
  obtain ⟨r, t⟩ := y
  cases r <;> rfl

/-- One computation after another yields what the second one does, from what the first one leaves.
-/
theorem yields_bind {x : Planning α} {f : α → Planning β} :
    Yields (x >>= f) s b s' ↔ ∃ a t, Yields x s a t ∧ Yields (f a) t b s' := by
  unfold Yields
  rw [run_bind]
  split
  · rename_i a t hx
    rw [hx]
    constructor
    · intro h
      exact ⟨a, t, rfl, h⟩
    · rintro ⟨a', t', h, hf⟩
      cases h
      exact hf
  · rename_i e t hx
    rw [hx]
    constructor
    · intro h
      cases h
    · rintro ⟨a', t', h, -⟩
      cases h

/-- A check takes no id. -/
theorem yields_lift {x : Except PlanError α} :
    Yields (liftM x) s a s' ↔ x = .ok a ∧ s = s' := by
  unfold Yields
  change (x, s) = (Except.ok a, s') ↔ _
  rw [Prod.mk.injEq]

/-- A fresh id is the next one, and is taken. -/
theorem yields_freshId {id : String} :
    Yields freshId s id s' ↔ s.issue s.taken = id ∧ { s with taken := s.taken + 1 } = s' := by
  unfold Yields
  change ((Except.ok (s.issue s.taken), { s with taken := s.taken + 1 }) :
    Except PlanError String × IdSupply) = (Except.ok id, s') ↔ _
  simp

/-- Nothing to go through leaves what one began with. -/
theorem yields_foldlM_nil {f : β → α → Planning β} {b₀ : β} :
    Yields ([].foldlM f b₀) s b s' ↔ b₀ = b ∧ s = s' := by
  rw [List.foldlM_nil, yields_pure]

/-- What there is to go through is gone through member by member. -/
theorem yields_foldlM_cons {f : β → α → Planning β} {b₀ : β} {xs : List α} :
    Yields ((a :: xs).foldlM f b₀) s b s' ↔
      ∃ b₁ t, Yields (f b₀ a) s b₁ t ∧ Yields (xs.foldlM f b₁) t b s' := by
  rw [List.foldlM_cons, yields_bind]

/-- What every step preserves, of what has been computed and of the supply that is left, holds at
the end. -/
theorem foldlM_invariant {P : β → IdSupply → Prop} {f : β → α → Planning β} {xs : List α} {b₀ : β}
    (hstep : ∀ b x s b' s', x ∈ xs → P b s → Yields (f b x) s b' s' → P b' s') (h₀ : P b₀ s)
    (h : Yields (xs.foldlM f b₀) s b s') : P b s' := by
  induction xs generalizing b₀ s with
  | nil =>
    obtain ⟨rfl, rfl⟩ := yields_foldlM_nil.1 h
    exact h₀
  | cons x rest ih =>
    obtain ⟨b₁, t, hx, hrest⟩ := yields_foldlM_cons.1 h
    have h₁ : P b₁ t := hstep b₀ x s b₁ t List.mem_cons_self h₀ hx
    exact ih (fun b y s b' s' hy => hstep b y s b' s' (List.mem_cons_of_mem _ hy)) h₁ hrest

/-- What every step preserves of what has been computed holds at the end. -/
theorem foldlM_induction {P : β → Prop} {f : β → α → Planning β} {xs : List α} {b₀ : β}
    (hstep : ∀ b x s b' s', x ∈ xs → P b → Yields (f b x) s b' s' → P b') (h₀ : P b₀)
    (h : Yields (xs.foldlM f b₀) s b s') : P b :=
  foldlM_invariant (P := fun b _ => P b) hstep h₀ h

/-- Each member of a list has its result in its place, from a supply of which what every computation
preserves still holds. -/
theorem forall₂_of_mapM {P : IdSupply → Prop} {f : α → Planning β} {xs : List α} {bs : List β}
    (hf : ∀ x s b s', P s → Yields (f x) s b s' → P s') (h₀ : P s)
    (h : Yields (xs.mapM f) s bs s') :
    List.Forall₂ (fun x b => ∃ t t', P t ∧ Yields (f x) t b t') xs bs := by
  induction xs generalizing s bs with
  | nil =>
    rw [List.mapM_nil, yields_pure] at h
    obtain ⟨rfl, -⟩ := h
    exact .nil
  | cons x rest ih =>
    simp only [List.mapM_cons, yields_bind, yields_pure] at h
    obtain ⟨b, t, hb, bs', t', hrest, rfl, rfl⟩ := h
    exact .cons ⟨s, t, h₀, hb⟩ (ih (hf x s b t h₀ hb) hrest)

/-- What each computation ensures of its result holds of all results. -/
theorem forall_of_mapM {P : β → Prop} {f : α → Planning β} {xs : List α} {bs : List β}
    (hf : ∀ x ∈ xs, ∀ s b s', Yields (f x) s b s' → P b) (h : Yields (xs.mapM f) s bs s') :
    ∀ b ∈ bs, P b := by
  induction xs generalizing s bs with
  | nil =>
    rw [List.mapM_nil, yields_pure] at h
    obtain ⟨rfl, -⟩ := h
    simp
  | cons x rest ih =>
    simp only [List.mapM_cons, yields_bind, yields_pure] at h
    obtain ⟨b, t, hb, bs', t', hrest, rfl, rfl⟩ := h
    intro y hy
    rcases List.mem_cons.1 hy with rfl | hy
    · exact hf x List.mem_cons_self _ _ _ hb
    · exact ih (fun x hx => hf x (List.mem_cons_of_mem _ hx)) hrest y hy

/-! ### Failures -/

/-- A computation fails, and leaves a supply. -/
def Fails (x : Planning α) (s : IdSupply) (err : PlanError) (s' : IdSupply) : Prop :=
  x.run s = (.error err, s')

variable {err : PlanError}

/-- What a computation fails with, if it fails. -/
def error? (x : Planning α) (s : IdSupply) : Option PlanError :=
  match (x.run s).1 with
  | .ok _ => none
  | .error err => some err

/-- An error that is there is one with which the computation fails. -/
theorem fails_of_error? {x : Planning α} (h : error? x s = some err) : ∃ s', Fails x s err s' := by
  unfold error? at h
  split at h
  · cases h
  · rename_i err' heq
    cases h
    exact ⟨_, Prod.ext heq rfl⟩

/-- Returning something does not fail. -/
theorem not_fails_pure : ¬Fails (pure a) s err s' := by
  intro h
  cases (Prod.mk.inj h).1

/-- Of two computations one after the other, the first fails, or else the second. -/
theorem fails_bind {x : Planning α} {f : α → Planning β} :
    Fails (x >>= f) s err s' ↔ Fails x s err s' ∨ ∃ a t, Yields x s a t ∧ Fails (f a) t err s' := by
  unfold Fails Yields
  rw [run_bind]
  split
  · rename_i a t hx
    rw [hx]
    constructor
    · intro h
      exact .inr ⟨a, t, rfl, h⟩
    · rintro (h | ⟨a', t', h, hf⟩)
      · cases h
      · cases h
        exact hf
  · rename_i e t hx
    rw [hx]
    constructor
    · intro h
      cases h
      exact .inl rfl
    · rintro (h | ⟨a', t', h, -⟩)
      · cases h
        rfl
      · cases h

/-- What takes no ids fails as it does by itself. -/
theorem fails_lift {x : Except PlanError α} :
    Fails (liftM x) s err s' ↔ x = .error err ∧ s = s' := by
  unfold Fails
  change (x, s) = (Except.error err, s') ↔ _
  rw [Prod.mk.injEq]

/-- There is always another id. -/
theorem not_fails_freshId : ¬Fails freshId s err s' := by
  intro h
  cases (Prod.mk.inj h).1

/-- Where a walk over a list fails, it gets as far as some member, and fails there. -/
theorem exists_of_fails_foldlM {f : β → α → Planning β} {xs : List α} {b₀ : β}
    (h : Fails (xs.foldlM f b₀) s err s') : ∃ before x after b t, xs = before ++ x :: after ∧
      Yields (before.foldlM f b₀) s b t ∧ Fails (f b x) t err s' := by
  induction xs generalizing b₀ s with
  | nil =>
    rw [List.foldlM_nil] at h
    exact absurd h not_fails_pure
  | cons x rest ih =>
    rw [List.foldlM_cons, fails_bind] at h
    rcases h with h | ⟨b₁, t, hx, h⟩
    · exact ⟨[], x, rest, b₀, s, rfl, yields_foldlM_nil.2 ⟨rfl, rfl⟩, h⟩
    · obtain ⟨before, y, after, b, t', rfl, hbefore, hy⟩ := ih h
      exact ⟨x :: before, y, after, b, t', rfl, yields_foldlM_cons.2 ⟨b₁, t, hx, hbefore⟩, hy⟩

/-- All failures of a computation are of one sort. -/
def FailsOnly (P : PlanError → Prop) (x : Planning α) : Prop :=
  ∀ s err s', Fails x s err s' → P err

namespace FailsOnly

variable {P : PlanError → Prop}

/-- Returning something does not fail in any way. -/
theorem pure (a : α) : FailsOnly P (Pure.pure a) := fun _ _ _ h => absurd h not_fails_pure

/-- Nor does taking a fresh id. -/
theorem freshId : FailsOnly P freshId := fun _ _ _ h => absurd h not_fails_freshId

/-- What takes no ids fails in the ways in which it does by itself. -/
theorem lift {x : Except PlanError α} (h : ∀ err, x = .error err → P err) :
    FailsOnly P (liftM x) := fun _ err _ hx => h err (fails_lift.1 hx).1

/-- One computation after another fails in the ways in which one of them does. -/
theorem bind {x : Planning α} {f : α → Planning β} (hx : FailsOnly P x)
    (hf : ∀ a, FailsOnly P (f a)) : FailsOnly P (x >>= f) := by
  intro s err s' h
  rcases fails_bind.1 h with h | ⟨a, t, -, h⟩
  · exact hx s err s' h
  · exact hf a t err s' h

/-- Lists fail in the ways in which their members do. -/
theorem mapM {f : α → Planning β} {xs : List α} (hf : ∀ x ∈ xs, FailsOnly P (f x)) :
    FailsOnly P (xs.mapM f) := by
  induction xs with
  | nil =>
    rw [List.mapM_nil]
    exact .pure _
  | cons x rest ih =>
    rw [List.mapM_cons]
    exact (hf x List.mem_cons_self).bind fun b =>
      (ih fun y hy => hf y (List.mem_cons_of_mem _ hy)).bind fun bs => .pure _

end FailsOnly

end Planning

end Gateway
