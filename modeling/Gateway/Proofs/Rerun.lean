import Gateway.Proofs.Flattening
import Gateway.Proofs.Recognition
import Gateway.Proofs.Successor

/-!
# Resolving the same declarations again

The state that a plan leaves behind shows all that was asked for. When the same declarations are
resolved against it, every one is recognised: the second run goes through the same resolved states
as the first (`Rerun.exists_placed`, `Rerun.exists_placeAll`), takes no fresh id, and gives every
declaration the id that it ended up with the first time. The invariant is `Rerun.InStep`: what has
been resolved is the same, and every reference that has a meaning has the same in both runs.
-/

namespace Gateway

open Planning Resolution

/-- What is known when declarations are resolved against a state that a first run left behind: it
shows all that was asked for in a form that needs no change, it hides nothing that was not hidden
before, and ids that are handed out are fresh. -/
structure Rerun (o : Options) (current next desired : State) (S T : IdSupply) : Prop where
  lookup : o.lookupTags.isEmpty = true
  kept : ∀ d ∈ desired, ∃ x ∈ next.select o.selection, x.Keeps d
  hidden : ∀ x ∈ next, next.visible o.selection x = false →
    x ∈ current ∧ current.visible o.selection x = false
  injective : Function.Injective S.nth
  injective' : Function.Injective T.nth
  spares : ∀ x ∈ current, S.Spares x.idText
  spares' : ∀ x ∈ next, T.Spares x.idText

/-- An id has a meaning: it gave way to another, or is that of something resolved. -/
def Resolution.Knows (r : Resolution) (kind : Kind) (id : String) : Prop :=
  r.moves.resolve kind id ≠ id ∨ r.desired.contains kind id = true

namespace Rerun

variable {o : Options} {current next desired : State} {S T : IdSupply} {m n : Nat}
  {r r' r₁ : Resolution} {e e' linked a a' : Entity} {ref : Reference} {s' t : IdSupply}

/-- The two runs have resolved the same, and the ids of enclosing objects mean the same, be they
declared or fresh. -/
structure InStep (o : Options) (current next : State) (S T : IdSupply) (m : Nat)
    (r r' : Resolution) : Prop where
  options : r.options = o
  options' : r'.options = o
  holds : r.current = current
  holds' : r'.current = next
  shows : r.visible = current.select o.selection
  shows' : r'.visible = next.select o.selection
  desired : r'.desired = r.desired
  given : ∀ kind id, S.Spares id → T.Spares id →
    r'.moves.resolve kind id = r.moves.resolve kind id
  fresh : ∀ kind i, Entity.isReferable kind = true → i < m → r.Knows kind (S.nth i) →
    r'.moves.resolve kind (T.nth i) = r.moves.resolve kind (S.nth i)

/-- At the start neither run has resolved anything. -/
theorem inStep_start : InStep o current next S T m (start o current) (start o next) where
  options := rfl
  options' := rfl
  holds := rfl
  holds' := rfl
  shows := rfl
  shows' := rfl
  desired := rfl
  given _ _ _ _ := rfl
  fresh := by
    rintro kind i - - (hmoved | hcontains)
    · exact absurd rfl hmoved
    · obtain ⟨x, hx, -⟩ := State.contains_iff.1 hcontains
      exact absurd hx State.not_mem_empty

/-- What a reference means in the first run it means in the second. -/
theorem InStep.lookUp (h : InStep o current next S T m r r')
    (hlookup : o.lookupTags.isEmpty = true) {owner owner' : String} {kind : Kind}
    {fk fk' : ForeignKey} {id : String} (hkind : Entity.isReferable kind = true)
    (hfk : fk.Twin S T m fk') (hid : r.lookUp owner kind fk = .ok id) :
    r'.lookUp owner' kind fk' = .ok id := by
  rw [lookUp_eq_ok_iff (by rw [h.options]; exact hlookup)] at hid
  rw [lookUp_eq_ok_iff (by rw [h.options']; exact hlookup), h.desired]
  obtain ⟨hbare, hid⟩ := hid
  cases hfk with
  | given hspare =>
    refine ⟨hbare, hid.imp_left ?_⟩
    rintro ⟨declared, hdeclared, rfl, hcontains⟩
    obtain ⟨hS, hT⟩ := hspare declared hdeclared
    exact ⟨declared, hdeclared, h.given kind declared hS hT, hcontains⟩
  | @fresh i hi =>
    rcases hid with ⟨_, ⟨⟩, rfl, hcontains⟩ | ⟨⟨⟩, -⟩
    refine ⟨rfl, .inl ⟨T.nth i, rfl, h.fresh kind i hkind hi ?_, hcontains⟩⟩
    by_cases hmoved : r.moves.resolve kind (S.nth i) = S.nth i
    · rw [hmoved] at hcontains
      exact .inr hcontains
    · exact .inl hmoved

/-! ### What is to be added -/

/-- What is to be added in one run and in the other: the same, or an enclosing object under the
fresh id that it took in each. -/
inductive Candidates (S T : IdSupply) (m : Nat) : Entity → Entity → Prop
  | given {a : Entity}
      (hspare : Entity.isReferable a.kind = true → ∀ id ∈ a.id?, S.Spares id ∧ T.Spares id)
      (hknown : a.naturalKey?.isSome ∨ a.id?.isSome) : Candidates S T m a a
  | fresh {a : Entity} {i : Nat} (hi : i < m) (hkind : Entity.isReferable a.kind = true)
      (hid : a.id? = some (S.nth i)) (hkey : a.naturalKey?.isSome) :
    Candidates S T m a (a.withId (T.nth i))

namespace Candidates

theorem kind_eq (h : Candidates S T m a a') : a'.kind = a.kind := by
  cases h <;> rfl

/-- The fresh id that an enclosing object takes is no part of its natural key. -/
theorem naturalKey?_eq (h : Candidates S T m a a') : a'.naturalKey? = a.naturalKey? := by
  cases h <;> rfl

/-- But for their ids they are the same. -/
theorem withId_eq (h : Candidates S T m a a') (id : String) : a'.withId id = a.withId id := by
  cases h <;> rfl

end Candidates

/-- When the references of a declaration can be resolved in the first run, they can be in the
second, and what is to be added is the same but for a fresh id. -/
theorem InStep.exists_link (h : InStep o current next S T m r r')
    (hlookup : o.lookupTags.isEmpty = true) (htwin : e.Twin S T m e')
    (hlink : r.link e = .ok linked) : ∃ linked', r'.link e' = .ok linked' ∧
      r'.repeats linked'.withDerivedId = r.repeats linked.withDerivedId ∧
      linked'.kind = linked.kind ∧ linked'.naturalKey? = linked.naturalKey? ∧
      Candidates S T m (r.candidate linked) (r'.candidate linked') := by
  have hrepeats : ∀ x, r'.repeats x = r.repeats x := by
    intro x
    unfold repeats
    rw [h.options, h.options', h.desired]
  have hcandidate : ∀ x, r'.candidate x = r.candidate x := by
    intro x
    unfold candidate
    rw [h.options, h.options']
  have hfind : ∀ kind fk fk' id, Entity.isReferable kind = true → ForeignKey.Twin S T m fk fk' →
      r.lookUp e.describe kind fk = .ok id → r'.lookUp e'.describe kind fk' = .ok id :=
    fun _ _ _ _ hkind hfk => h.lookUp hlookup hkind hfk
  unfold link at hlink ⊢
  have hknown := htwin.known_relink hlink
  obtain ⟨linked', hlink', hcases⟩ := htwin.relink hfind hlink
  refine ⟨linked', hlink', ?_⟩
  rcases hcases with ⟨rfl, hspare⟩ | ⟨i, hi, hkind, hid, rfl⟩
  · refine ⟨hrepeats _, rfl, rfl, ?_⟩
    rw [hcandidate]
    refine .given (fun hkind => ?_) ?_
    · rw [kind_candidate] at hkind
      rw [id?_candidate hkind]
      exact hspare
    · rw [naturalKey?_candidate]
      by_cases hkey : linked'.naturalKey? = none
      · rw [candidate, Entity.id?_apply, Entity.withDerivedId_of_naturalKey? hkey]
        refine hknown.imp_right fun hid => ?_
        obtain ⟨id, hid, -⟩ := hid
        exact Option.isSome_iff_exists.2 ⟨id, hid⟩
      · exact .inl (Option.isSome_iff_ne_none.2 hkey)
  · have hkey : linked.naturalKey?.isSome := by
      refine hknown.resolve_right ?_
      rintro ⟨id, hsome, hspare⟩
      exact hspare i (Option.some.inj (hid.symm.trans hsome))
    have hderived := Entity.withDerivedId_of_isReferable hkind
    have hderived' : (linked.withId (T.nth i)).withDerivedId = linked.withId (T.nth i) :=
      Entity.withDerivedId_of_isReferable hkind
    refine ⟨?_, rfl, rfl, ?_⟩
    · rw [hrepeats, hderived, hderived', repeats_of_isReferable hkind,
        repeats_of_isReferable (e := linked.withId _) hkind]
    · rw [hcandidate, candidate, candidate, hderived, hderived', Entity.apply_withId]
      exact .fresh hi hkind hid hkey

/-! ### One declaration -/

section

variable (h : Rerun o current next desired S T) (hstep : InStep o current next S T m r r')
  (hcand : Candidates S T m a a') {id : String} {moves : Moves}
  (hident : Identified r a (S.after n) id moves s')

include h hstep hcand hident in
/-- What the first run added is recognised by the second. -/
theorem exists_match? (hd : a.withId id ∈ desired) :
    ∃ x ∈ next, r'.visible.match? a' = some x ∧ x.idText = id := by
  obtain ⟨x, hx, hkeeps⟩ := h.kept _ hd
  have hk : x.kind = a.kind := congrArg Reference.kind hkeeps.ref
  have hid : x.idText = id := congrArg Reference.id hkeeps.ref
  have hkey : x.naturalKey? = a.naturalKey? := hkeeps.naturalKey?
  refine ⟨x, State.mem_of_mem_select hx, ?_, hid⟩
  rw [hstep.shows']
  by_cases hnone : a.naturalKey? = none
  · cases hcand with
    | given _ hknown =>
      obtain ⟨b, hb⟩ := Option.isSome_iff_exists.1 (hknown.resolve_left (by simp [hnone]))
      rw [State.match?_of_naturalKey? hnone, hb, ← hident.eq_of_naturalKey? hnone hb, ← hid, ← hk]
      exact State.get?_of_mem hx
    | fresh _ _ _ hsome => simp [hnone] at hsome
  · refine match?_of_sameKey hx ⟨hcand.kind_eq.trans hk.symm, ?_, ?_⟩
    · rw [hcand.naturalKey?_eq, hkey]
    · rw [hcand.naturalKey?_eq]
      exact Option.isSome_iff_ne_none.2 hnone

include h hstep hcand in
/-- What the first run did not refuse, the second does not refuse. -/
theorem refuse_eq_ok (hrefuse : r.refuse a = .ok ()) : r'.refuse a' = .ok () := by
  rw [refuse_eq_ok_iff (by rw [hstep.holds]; exact hstep.shows), hstep.holds] at hrefuse
  rw [refuse_eq_ok_iff (by rw [hstep.holds']; exact hstep.shows'), hstep.holds', hstep.desired]
  obtain ⟨hkey, hfree⟩ := hrefuse
  refine ⟨fun x hx hsame => hkey x hx ?_, fun b hb y hy href => ?_⟩
  · exact ⟨hcand.kind_eq.symm.trans hsame.1, hcand.naturalKey?_eq.symm.trans hsame.2.1,
      hcand.naturalKey?_eq ▸ hsame.2.2⟩
  · by_contra hno
    obtain ⟨hheld, hhidden⟩ := h.hidden y hy (by simpa using hno)
    cases hcand with
    | given _ _ =>
      rw [hfree b hb y hheld href] at hhidden
      cases hhidden
    | @fresh i _ _ _ _ =>
      cases hb
      exact h.spares' y hy i (congrArg Reference.id href).symm

include h hstep hident in
/-- A fresh id from before resolution is the final one only of the object that took it. -/
theorem id?_of_nth (hmn : m ≤ n) {i : Nat} (hi : i < m) (heq : id = S.nth i) :
    a.id? = some (S.nth i) := by
  rcases hident.id_cases with ⟨y, hy, hyid⟩ | hsome | heq'
  · rw [hstep.shows] at hy
    exact absurd (hyid.trans heq).symm (h.spares y (State.mem_of_mem_select hy) i)
  · rw [hsome, heq]
  · exact absurd (h.injective (heq.symm.trans heq')) (by omega)

section

variable (hmn : m ≤ n) {added : State} (hadd : r.desired.insert (a.withId id) = .ok added)
  {kind : Kind} {i : Nat} (hkind : Entity.isReferable kind = true) (hi : i < m)
  (hknows : Resolution.Knows { r with desired := added, moves := r.moves.settle a id } kind
    (S.nth i))

include h hstep hident hmn hadd hkind hi hknows

/-- The fresh ids of other objects mean what they meant before. -/
theorem resolve_settle_of_ne (a' : Entity)
    (hother : ¬(a.kind = kind ∧ a.id? = some (S.nth i)))
    (hother' : ¬(a'.kind = kind ∧ a'.id? = some (T.nth i))) :
    (r'.moves.settle a' id).resolve kind (T.nth i) =
      (r.moves.settle a id).resolve kind (S.nth i) := by
  have hmoves : (r.moves.settle a id).resolve kind (S.nth i) = r.moves.resolve kind (S.nth i) := by
    rw [Moves.resolve_settle, if_neg fun hc => hother ⟨hc.1, hc.2.1⟩]
  rw [hmoves, Moves.resolve_settle, if_neg fun hc => hother' ⟨hc.1, hc.2.1⟩]
  refine hstep.fresh kind i hkind hi (hknows.imp (fun hne => hmoves ▸ hne) fun hcontains => ?_)
  obtain ⟨y, hy, hyk, hyid⟩ := State.contains_iff.1 hcontains
  rcases (State.mem_insert hadd).1 hy with rfl | hy
  · exact absurd ⟨hyk, id?_of_nth h hstep hident hmn hi hyid⟩ hother
  · exact State.contains_iff.2 ⟨y, hy, hyk, hyid⟩

include hcand in
/-- When what is to be added gets its final id, fresh ids mean the same in both runs. -/
theorem resolve_settle_nth {x : Entity} (hx : x ∈ next) (hid : x.idText = id)
    (hunmoved : Entity.isReferable a.kind = true → ∀ i, a.id? = some (S.nth i) →
      r.moves.resolve a.kind (S.nth i) = S.nth i) :
    (r'.moves.settle a' id).resolve kind (T.nth i) =
      (r.moves.settle a id).resolve kind (S.nth i) := by
  have hother := resolve_settle_of_ne h hstep hident hmn hadd hkind hi hknows a'
  cases hcand with
  | given hspare _ =>
    refine hother ?_ ?_
    · rintro ⟨rfl, hsome⟩
      exact (hspare hkind _ hsome).1 i rfl
    · rintro ⟨rfl, hsome⟩
      exact (hspare hkind _ hsome).2 i rfl
  | @fresh j _ _ hj _ =>
    by_cases hsame : a.kind = kind ∧ j = i
    · obtain ⟨rfl, rfl⟩ := hsame
      have hmoved : T.nth j ≠ id := fun heq => h.spares' x hx j (heq.trans hid.symm)
      have hthere : (r'.moves.settle (a.withId (T.nth j)) id).resolve a.kind (T.nth j) = id := by
        rw [Moves.resolve_settle, if_pos ⟨rfl, rfl, hmoved⟩]
      rw [hthere, Moves.resolve_settle]
      by_cases hkept : S.nth j = id
      · rw [if_neg fun hc => hc.2.2 hkept, hunmoved hkind j hj, hkept]
      · rw [if_pos ⟨rfl, hj, hkept⟩]
    · refine hother ?_ ?_
      · rintro ⟨hk, hsome⟩
        exact hsame ⟨hk, h.injective (Option.some.inj (hj.symm.trans hsome))⟩
      · rintro ⟨hk, hsome⟩
        exact hsame ⟨hk, h.injective' (Option.some.inj hsome)⟩

end

include h hstep hcand hident in
/-- When what is to be added gets its final id, references mean the same in both runs as before, and
those to the new entity do as well. -/
theorem inStep_settle (hmn : m ≤ n) {x : Entity} (hx : x ∈ next) (hid : x.idText = id)
    (hunmoved : Entity.isReferable a.kind = true → ∀ i, a.id? = some (S.nth i) →
      r.moves.resolve a.kind (S.nth i) = S.nth i)
    {added : State} (hadd : r.desired.insert (a.withId id) = .ok added) :
    InStep o current next S T m { r with desired := added, moves := r.moves.settle a id }
      { r' with desired := added, moves := r'.moves.settle a' id } where
  options := hstep.options
  options' := hstep.options'
  holds := hstep.holds
  holds' := hstep.holds'
  shows := hstep.shows
  shows' := hstep.shows'
  desired := rfl
  given kind b hS hT := by
    simp only [Moves.resolve_settle, hstep.given kind b hS hT]
    cases hcand with
    | given _ _ => rfl
    | @fresh i _ _ hown _ =>
      rw [if_neg fun hc => hT i (Option.some.inj hc.2.1),
        if_neg fun hc => hS i (Option.some.inj (hown.symm.trans hc.2.1))]
  fresh _ _ hkind hi hknows :=
    resolve_settle_nth h hstep hcand hident hmn hadd hkind hi hknows hx hid hunmoved

end

/-- What becomes of a declaration in the first run becomes of it in the second, without a fresh
id. -/
theorem exists_placed (h : Rerun o current next desired S T)
    (hstep : InStep o current next S T m r r') (htwin : e.Twin S T m e') (hmn : m ≤ n)
    (hunmoved : ∀ i, e.id? = some (S.nth i) → r.moves.resolve e.kind (S.nth i) = S.nth i)
    (hplaced : Placed r e (S.after n) ref r₁ s') (hsub : ∀ d ∈ r₁.desired, d ∈ desired) :
    ∃ r₁', Placed r' e' t ref r₁' t ∧ InStep o current next S T m r₁ r₁' := by
  cases hplaced with
  | @repeated linked hlink hrepeats =>
    obtain ⟨linked', hlink', hrepeats', hk, hkey, -⟩ := hstep.exists_link h.lookup htwin hlink
    refine ⟨r', ?_, hstep⟩
    have hheld : r'.heldId linked' = r.heldId linked := by
      rw [heldId_congr hk hkey, heldId, heldId, hstep.desired]
    rw [← hk, ← hheld]
    exact .repeated hlink' (hrepeats'.trans hrepeats)
  | @added linked id moves added _ hlink hrepeats hrefuse hident hadd =>
    obtain ⟨linked', hlink', hrepeats', hk, -, hcand⟩ := hstep.exists_link h.lookup htwin hlink
    obtain ⟨x, hx, hmatch, rfl⟩ := exists_match? h hstep hcand hident
      (hsub _ (State.mem_insert_self hadd))
    have hadd' : r'.desired.insert ((r'.candidate linked').withId x.idText) = .ok added := by
      rw [hcand.withId_eq, hstep.desired, hadd]
    refine ⟨{ r' with desired := added, moves := r'.moves.settle (r'.candidate linked') x.idText },
      ?_, ?_⟩
    · rw [← hk]
      exact .added hlink' (hrepeats'.trans hrepeats) (refuse_eq_ok h hstep hcand hrefuse)
        (identified_of_match? hmatch) hadd'
    · rw [hident.moves_eq]
      refine inStep_settle h hstep hcand hident hmn hx rfl (fun hkind i hi => ?_) hadd
      rw [kind_candidate] at hkind ⊢
      rw [id?_candidate hkind, Entity.id?_relink hlink] at hi
      rw [Entity.kind_relink hlink]
      exact hunmoved i hi

/-! ### All declarations -/

/-- What becomes of declarations in the first run becomes of them in the second: every one ends up
as it did before. -/
theorem exists_placeAll (h : Rerun o current next desired S T) {es es' : List Entity}
    {refs : List Reference} (htwins : List.Forall₂ (Entity.Twin S T m) es es')
    (hdistinct : es.Pairwise (IdSupply.Apart S)) (hmn : m ≤ n)
    (hstep : InStep o current next S T m r r')
    (hunmoved : ∀ e ∈ es, ∀ i, e.id? = some (S.nth i) →
      r.moves.resolve e.kind (S.nth i) = S.nth i)
    (hplace : Yields (r.placeAll es) (S.after n) (refs, r₁) s')
    (hsub : ∀ d ∈ r₁.desired, d ∈ desired) :
    ∃ r₁', Yields (r'.placeAll es') t (refs, r₁') t ∧ r₁'.desired = r₁.desired := by
  induction htwins generalizing r r' n refs with
  | nil =>
    obtain ⟨rfl, rfl, rfl⟩ := yields_placeAll_nil.1 hplace
    exact ⟨r', yields_placeAll_nil.2 ⟨rfl, rfl, rfl⟩, hstep.desired⟩
  | @cons e e' rest rest' htwin htwins ih =>
    obtain ⟨ref, r₂, s₂, refs, hplaced, hrest, rfl⟩ := yields_placeAll_cons.1 hplace
    obtain ⟨hapart, hdistinct⟩ := List.pairwise_cons.1 hdistinct
    obtain ⟨k, hnk, rfl⟩ := hplaced.exists_after
    have hsub₂ : ∀ d ∈ r₂.desired, d ∈ desired := fun d hd =>
      hsub d (desired_subset_foldlM (yields_foldlM_step_iff.2 ⟨refs, hrest⟩) hd)
    obtain ⟨r₂', hplaced', hstep₂⟩ := exists_placed h hstep htwin hmn
      (hunmoved e List.mem_cons_self) hplaced hsub₂
    have hunmoved₂ : ∀ x ∈ rest, ∀ i, x.id? = some (S.nth i) →
        r₂.moves.resolve x.kind (S.nth i) = S.nth i := by
      intro x hx i hi
      obtain ⟨x', -, htwin'⟩ := htwins.exists_of_mem_left hx
      rw [hplaced.resolve_eq (htwin'.isReferable_of_id? hi) fun _ hown => hapart x hx i hown hi]
      exact hunmoved x (List.mem_cons_of_mem _ hx) i hi
    obtain ⟨r₁', hrest', hdesired⟩ := ih hdistinct (Nat.le_trans hmn hnk) hstep₂ hunmoved₂ hrest
    exact ⟨r₁', yields_placeAll_cons.2 ⟨ref, r₂', t, refs, hplaced', hrest', rfl⟩, hdesired⟩

end Rerun

end Gateway
