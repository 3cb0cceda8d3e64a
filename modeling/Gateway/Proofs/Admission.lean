import Gateway.Proofs.Correspondence

/-!
# What becomes of a declaration

What becomes of a declaration is told here without a supply: `Resolution.Admitted` lists the fresh
ids that are taken instead (`Resolution.placed_iff`). It depends on what has been resolved of other
kinds only through references, so declarations of one kind do not see each other when their
references are looked up (`Resolution.Admitted.link_iff`), and what is noted of ids that nothing
refers to does not count (`Resolution.Admitted.congr`).
-/

namespace Gateway

open Planning

/-! ### Ids that are handed out -/

namespace IdSupply

variable {s : IdSupply} {taken rest : List String} {n m : Nat}

/-- The next `n` ids. -/
def next (s : IdSupply) (n : Nat) : List String := (List.range n).map s.nth

/-- The ids in a list are the next ones. -/
def Offers (s : IdSupply) (taken : List String) : Prop := s.next taken.length = taken

/-- As many ids come as are asked for. -/
@[simp] theorem length_next (s : IdSupply) (n : Nat) : (s.next n).length = n := by simp [next]

/-- The next ids come next. -/
theorem offers_next (s : IdSupply) (n : Nat) : s.Offers (s.next n) := by
  rw [Offers, length_next]

/-- No ids at all may always come next. -/
theorem offers_nil (s : IdSupply) : s.Offers [] := rfl

/-- Any list of ids may come next. -/
theorem exists_offers (taken : List String) : ∃ s : IdSupply, s.Offers taken := by
  refine ⟨⟨fun i => taken.getD i "", 0⟩, List.ext_getElem (by simp) fun i _ hi => ?_⟩
  simp [next, nth, hi]

/-- More ids are the next ones, and then those after them. -/
theorem next_add (s : IdSupply) (n m : Nat) : s.next (n + m) = s.next n ++ (s.after n).next m := by
  unfold next
  rw [List.range_add, List.map_append, List.map_map]
  congr 1
  exact List.map_congr_left fun i _ => (nth_after s n i).symm

/-- A supply echoes another one when its next ids are those of the other under other names. -/
theorem echoes_of_next {f : String → String} {t : IdSupply} (h : (s.next n).map f = t.next n) :
    s.Echoes f t n := by
  intro i hi
  have hnth := congrArg (·[i]?) h
  simpa [next, hi, eq_comm] using hnth

/-- A list comes next when its first part does, and its second part after that. -/
theorem offers_append :
    s.Offers (taken ++ rest) ↔ s.Offers taken ∧ (s.after taken.length).Offers rest := by
  unfold Offers
  rw [List.length_append, next_add]
  constructor
  · intro h
    exact List.append_inj h (length_next s _)
  · rintro ⟨htaken, hrest⟩
    rw [htaken, hrest]

end IdSupply

/-! ### Looking up references -/

/-- References that mean the same are replaced in the same way. -/
theorem Entity.relink_of_agree {find find' : Kind → ForeignKey → Except PlanError String}
    {e linked : Entity} (hfind : ∀ l ∈ e.links, find' l.1 l.2 = find l.1 l.2)
    (h : e.relink find = .ok linked) : e.relink find' = .ok linked := by
  have hself : e.Image .unchanged e := image_unchanged_iff.2 rfl
  obtain ⟨linked', hlinked', himage⟩ := hself.relink (fun l hl id hid => by
    have hfk : l.2.rename Relabelling.unchanged.rename = l.2 :=
      ForeignKey.rename_eq_self fun _ _ => rfl
    rw [hfk]
    exact (hfind l hl).trans hid) h
  rwa [image_unchanged_iff.1 himage] at hlinked'

/-- States with the same objects of a kind list them in the same way. -/
theorem State.ofKind_congr {s t : State} {kind : Kind}
    (h : ∀ x : Entity, x.kind = kind → (x ∈ s ↔ x ∈ t)) : s.ofKind kind = t.ofKind kind := by
  have heq : s.filter (·.kind == kind) = t.filter (·.kind == kind) := by
    refine State.ext_mem fun x => ?_
    rw [State.mem_filter, State.mem_filter, beq_iff_eq]
    exact and_congr_left fun hk => h x hk
  exact congrArg State.entities heq

namespace Resolution

variable {r r₁ r₂ r' : Resolution} {e e₁ c x : Entity} {s s' : IdSupply}
  {taken : List String} {id : String} {ref : Reference} {desired : State}

/-! ### One declaration -/

/-- The id that an entity gets among the objects of a state, and the fresh ids that it takes. -/
inductive Named (v : State) (c : Entity) : List String → String → Prop
  /-- It is one of the objects. -/
  | stored {x : Entity} (h : v.match? c = some x) : Named v c [] x.idText
  /-- It is new, and has the declared id. -/
  | declared {id : String} (h : v.match? c = none) (hid : c.id? = some id) : Named v c [] id
  /-- It is new, and takes a fresh id. -/
  | fresh {id : String} (h : v.match? c = none) (hid : c.id? = none) : Named v c [id] id

/-- How an id is found is told by the fresh ids it takes, without the supply. -/
theorem identified_iff {moves : Moves} : Identified r c s id moves s' ↔ ∃ taken,
    Named r.visible c taken id ∧ s.Offers taken ∧ s' = s.after taken.length ∧
      moves = r.moves.settle c id := by
  constructor
  · intro h
    have hmoves := h.moves_eq
    cases h with
    | same hmatch _ => exact ⟨[], .stored hmatch, s.offers_nil, rfl, hmoves⟩
    | moved hmatch _ _ => exact ⟨[], .stored hmatch, s.offers_nil, rfl, hmoves⟩
    | adopted hmatch _ => exact ⟨[], .stored hmatch, s.offers_nil, rfl, hmoves⟩
    | declared hmatch hid => exact ⟨[], .declared hmatch hid, s.offers_nil, rfl, hmoves⟩
    | fresh hmatch hid => exact ⟨[_], .fresh hmatch hid, s.offers_next 1, rfl, hmoves⟩
  · rintro ⟨taken, hnamed, hoffers, rfl, rfl⟩
    cases hnamed with
    | stored hmatch => exact identified_of_match? hmatch
    | declared hmatch hid =>
      have hident := Identified.declared (s := s) hmatch hid
      rwa [hident.moves_eq] at hident
    | fresh hmatch hid =>
      obtain rfl : s.nth 0 = id := List.singleton_inj.1 hoffers
      have hident := Identified.fresh (s := s) hmatch hid
      rwa [hident.moves_eq] at hident

/-- What it takes to add an entity under an id. -/
structure Enters (r : Resolution) (c : Entity) (taken : List String) (id : String) : Prop where
  allowed : r.refuse c = .ok ()
  named : Named r.visible c taken id
  unused : r.desired.contains c.kind id = false

/-- A declaration whose key nothing shares repeats nothing. -/
theorem repeats_of_unkeyed (h : ∀ x ∈ r.desired, ¬e.SameKey x) : r.repeats e = .ok false := by
  have hnone : r.desired.keyHolder? e = none := State.keyHolder?_eq_none_iff.2 h
  have hnone' : r.desired.keyHolder? (r.options.selection.apply e) = none := hnone
  unfold repeats
  split
  · rw [hnone]
    rfl
  · split
    · simp only [hnone']
    · rfl
  · rfl

/-- What one resolution does not refuse, another does not either, where the natural key is free and
the gateway is the same. -/
theorem refuse_of_unkeyed (hcurrent : r'.current = r.current) (hvisible : r'.visible = r.visible)
    (hfree : ∀ x ∈ r'.desired, ¬c.SameKey x) (h : r.refuse c = .ok ()) : r'.refuse c = .ok () := by
  unfold refuse at h ⊢
  rw [State.keyHolder?_eq_none_iff.2 hfree, hcurrent, hvisible, if_neg (by simp)]
  split at h
  · cases h
  · exact h

/-- What enters shares its key with nothing that has been resolved. -/
theorem Enters.unkeyed (h : r.Enters c taken id) : ∀ x ∈ r.desired, ¬c.SameKey x :=
  unkeyed_of_refuse h.allowed

/-- What enters can be added: its id is free, and so is its key. -/
theorem Enters.exists_insert (h : r.Enters c taken id) :
    ∃ desired, r.desired.insert (c.withId id) = .ok desired :=
  State.exists_insert rfl h.unused h.unkeyed

/-- What may be added may be added where less has been resolved. -/
theorem Enters.mono (h : r.Enters c taken id) (hcurrent : r'.current = r.current)
    (hvisible : r'.visible = r.visible) (hsub : ∀ x ∈ r'.desired, x ∈ r.desired) :
    r'.Enters c taken id where
  allowed := refuse_of_unkeyed hcurrent hvisible (fun x hx => h.unkeyed x (hsub x hx)) h.allowed
  named := hvisible ▸ h.named
  unused := State.contains_eq_false_iff.2 fun x hx =>
    State.contains_eq_false_iff.1 h.unused x (hsub x hx)

/-- What may be added may still be added when another entity has been. -/
theorem Enters.after_insert (h : r.Enters c taken id) (hadd : r.desired.insert x = .ok desired)
    (hkey : ¬c.SameKey x) (hid : x.kind = c.kind → x.idText ≠ id)
    (hcurrent : r'.current = r.current) (hvisible : r'.visible = r.visible)
    (hdesired : r'.desired = desired) : r'.Enters c taken id := by
  have hunkeyed : ∀ y ∈ r'.desired, ¬c.SameKey y := by
    intro y hy
    rw [hdesired] at hy
    rcases (State.mem_insert hadd).1 hy with rfl | hy
    · exact hkey
    · exact h.unkeyed y hy
  refine ⟨refuse_of_unkeyed hcurrent hvisible hunkeyed h.allowed, hvisible ▸ h.named, ?_⟩
  refine State.contains_eq_false_iff.2 fun y hy => ?_
  rw [hdesired] at hy
  rcases (State.mem_insert hadd).1 hy with rfl | hy
  · exact hid
  · exact State.contains_eq_false_iff.1 h.unused y hy

/-- What becomes of a declaration, and the fresh ids that it takes. -/
inductive Admitted (r : Resolution) (e : Entity) : List String → Reference → Resolution → Prop
  /-- It repeats what has been resolved. -/
  | repeated {linked x : Entity} (hlink : r.link e = .ok linked) (hx : x ∈ r.desired)
      (hagain : RepeatedBy x (r.candidate linked)) : Admitted r e [] x.ref r
  /-- It is added. -/
  | added {linked : Entity} {taken : List String} {id : String} {desired : State}
      (hlink : r.link e = .ok linked) (henters : r.Enters (r.candidate linked) taken id)
      (hadd : r.desired.insert ((r.candidate linked).withId id) = .ok desired) :
    Admitted r e taken ⟨linked.kind, id⟩
      { r with desired := desired, moves := r.moves.settle (r.candidate linked) id }

/-- Options and the state of the gateway are the same throughout. -/
theorem Admitted.frame (h : Admitted r e taken ref r') :
    r'.options = r.options ∧ r'.current = r.current ∧ r'.visible = r.visible := by
  cases h <;> exact ⟨rfl, rfl, rfl⟩

/-- What becomes of a declaration depends on the supply only in the ids that come next. -/
theorem placed_iff : Placed r e s ref r' s' ↔ ∃ taken,
    Admitted r e taken ref r' ∧ s.Offers taken ∧ s' = s.after taken.length := by
  constructor
  · intro h
    cases h with
    | @repeated linked hlink hrepeats =>
      obtain ⟨x, hx, hagain⟩ := repeats_iff.1 hrepeats
      rw [← ref_eq_heldId hx hagain.linked]
      exact ⟨[], .repeated hlink hx hagain, s.offers_nil, rfl⟩
    | added hlink hrepeats hrefuse hident hadd =>
      obtain ⟨taken, hnamed, hoffers, rfl, rfl⟩ := identified_iff.1 hident
      obtain ⟨-, hunused, -⟩ := State.insert_eq_ok_iff.1 ⟨_, hadd⟩
      exact ⟨taken, .added hlink ⟨hrefuse, hnamed, hunused⟩ hadd, hoffers, rfl⟩
  · rintro ⟨taken, h, hoffers, rfl⟩
    cases h with
    | @repeated linked x hlink hx hagain =>
      rw [ref_eq_heldId hx hagain.linked]
      exact .repeated hlink (repeats_iff.2 ⟨x, hx, hagain⟩)
    | @added linked _ id desired hlink henters hadd =>
      have hunkeyed := unkeyed_of_refuse henters.allowed
      have hident : Identified r (r.candidate linked) s id _ _ :=
        identified_iff.2 ⟨taken, henters.named, hoffers, rfl, rfl⟩
      exact .added hlink (repeats_of_unkeyed hunkeyed) henters.allowed hident hadd

/-! ### What references depend on -/

/-- A reference means the same where the same objects of its kind have been resolved, and its id
gave way to the same. -/
theorem lookUp_congr {owner : String} {kind : Kind} {fk : ForeignKey}
    (hoptions : r'.options = r.options) (hcurrent : r'.current = r.current)
    (hdesired : r'.desired.ofKind kind = r.desired.ofKind kind)
    (hmoves : ∀ a, fk.id = some a → r'.moves.resolve kind a = r.moves.resolve kind a) :
    r'.lookUp owner kind fk = r.lookUp owner kind fk := by
  have hcontains : ∀ id, r'.desired.contains kind id = r.desired.contains kind id := by
    intro id
    rw [Bool.eq_iff_iff, State.contains_iff, State.contains_iff]
    simp only [← and_assoc, ← State.mem_ofKind, hdesired]
  have hshared : r'.isShared = r.isShared := by
    unfold isShared
    rw [hoptions]
  have hnamed : r'.named kind = r.named kind := by
    unfold named
    rw [hdesired, hcurrent, hshared]
  unfold lookUp
  cases hid : fk.id with
  | some a => simp only [hmoves a hid, hcontains, hcurrent, hshared]
  | none => cases fk.name <;> simp only [hnamed, hcurrent, hshared, hoptions]

/-- A reference is found alike in two resolutions that agree in what has been resolved of its kind,
and in what is noted of its id. -/
theorem link_of_agree {linked : Entity} (hoptions : r'.options = r.options)
    (hcurrent : r'.current = r.current)
    (hdesired : ∀ l ∈ e.links, r'.desired.ofKind l.1 = r.desired.ofKind l.1)
    (hmoves : ∀ l ∈ e.links, ∀ a, l.2.id = some a →
      r'.moves.resolve l.1 a = r.moves.resolve l.1 a)
    (h : r.link e = .ok linked) : r'.link e = .ok linked :=
  Entity.relink_of_agree
    (fun l hl => lookUp_congr hoptions hcurrent (hdesired l hl) (hmoves l hl)) h

/-- There is a supply under which this becomes of the declaration. -/
theorem Admitted.exists_placed (h : Admitted r e taken ref r') :
    ∃ s : IdSupply, Placed r e s ref r' (s.after taken.length) := by
  obtain ⟨s, hoffers⟩ := IdSupply.exists_offers taken
  exact ⟨s, placed_iff.2 ⟨taken, h, hoffers, rfl⟩⟩

/-- A declaration settles what its own id means, and leaves alone what other ids mean. -/
theorem Admitted.resolve_eq_ite (h : Admitted r e taken ref r') {kind : Kind} {a : String}
    (hkind : Entity.isReferable kind = true) : r'.moves.resolve kind a =
      if GivesUp kind a (e, ref) then ref.id else r.moves.resolve kind a := by
  obtain ⟨s, hplaced⟩ := h.exists_placed
  exact hplaced.resolve_eq_ite hkind

/-- Declarations of the same kind do not see each other when their references are looked up. -/
theorem Admitted.link_iff (h : Admitted r e₁ taken ref r₁) (hk : e₁.kind = e.kind)
    {linked : Entity} : r₁.link e = .ok linked ↔ r.link e = .ok linked := by
  obtain ⟨hoptions, hcurrent, -⟩ := h.frame
  have hne : ∀ l ∈ e.links, e₁.kind ≠ l.1 := by
    intro l hl heq
    have hrank : l.1.rank < e.kind.rank := Detail.rank_lt_of_mem_links hl
    rw [← heq, hk] at hrank
    exact Nat.lt_irrefl _ hrank
  have hdesired : ∀ l ∈ e.links, r₁.desired.ofKind l.1 = r.desired.ofKind l.1 := by
    intro l hl
    refine State.ofKind_congr fun x hx => ?_
    cases h with
    | repeated _ _ _ => rfl
    | @added linked _ id desired hlink _ hadd =>
      rw [State.mem_insert hadd, or_iff_right]
      rintro rfl
      rw [Entity.kind_withId, kind_candidate, Entity.kind_relink hlink] at hx
      exact hne l hl hx
  have hmoves : ∀ l ∈ e.links, ∀ a, l.2.id = some a →
      r₁.moves.resolve l.1 a = r.moves.resolve l.1 a := by
    intro l hl a _
    rw [h.resolve_eq_ite (Detail.isReferable_of_mem_links hl), if_neg]
    exact fun hgives => hne l hl hgives.1
  constructor
  · intro hlink
    exact link_of_agree hoptions.symm hcurrent.symm (fun l hl => (hdesired l hl).symm)
      (fun l hl a ha => (hmoves l hl a ha).symm) hlink
  · intro hlink
    exact link_of_agree hoptions hcurrent hdesired hmoves hlink

/-- Two resolutions that differ at most in what is noted of ids that nothing in question refers
to. -/
structure SameOn (used : Kind → String → Prop) (r r' : Resolution) : Prop where
  options : r'.options = r.options
  current : r'.current = r.current
  visible : r'.visible = r.visible
  desired : r'.desired = r.desired
  moves (kind : Kind) (a : String) (h : used kind a) :
    r'.moves.resolve kind a = r.moves.resolve kind a

variable {used : Kind → String → Prop}

namespace SameOn

/-- A resolution differs from itself in nothing. -/
theorem refl (r : Resolution) : SameOn used r r := ⟨rfl, rfl, rfl, rfl, fun _ _ _ => rfl⟩

/-- What differs in nothing that is used from a second one, and that from a third, does so from the
third. -/
theorem trans (h : SameOn used r r₁) (h' : SameOn used r₁ r₂) : SameOn used r r₂ where
  options := h'.options.trans h.options
  current := h'.current.trans h.current
  visible := h'.visible.trans h.visible
  desired := h'.desired.trans h.desired
  moves kind a ha := (h'.moves kind a ha).trans (h.moves kind a ha)

end SameOn

/-- What is noted of ids that no declaration refers to does not matter. -/
theorem Admitted.congr (h : Admitted r e taken ref r₁) (hsame : SameOn used r r')
    (hlinks : ∀ l ∈ e.links, ∀ a, l.2.id = some a → used l.1 a)
    (hused : ∀ kind a, used kind a → Entity.isReferable kind = true) :
    ∃ r₁', Admitted r' e taken ref r₁' ∧ SameOn used r₁ r₁' := by
  have hlink : ∀ linked, r.link e = .ok linked → r'.link e = .ok linked := fun linked =>
    link_of_agree hsame.options hsame.current (fun _ _ => by rw [hsame.desired])
      fun l hl a ha => hsame.moves l.1 a (hlinks l hl a ha)
  have hmoves : ∀ {r₁'}, Admitted r' e taken ref r₁' → ∀ kind a, used kind a →
      r₁'.moves.resolve kind a = r₁.moves.resolve kind a := by
    intro r₁' h' kind a ha
    rw [h.resolve_eq_ite (hused kind a ha), h'.resolve_eq_ite (hused kind a ha),
      hsame.moves kind a ha]
  obtain ⟨o, held, shown, desired, moves⟩ := r'
  obtain ⟨rfl, rfl, rfl, rfl, -⟩ := hsame
  cases h with
  | repeated hlinked hx hagain =>
    have h' := Admitted.repeated (hlink _ hlinked) hx hagain
    exact ⟨_, h', rfl, rfl, rfl, rfl, hmoves h'⟩
  | added hlinked henters hadd =>
    have h' := Admitted.added (hlink _ hlinked)
      ⟨henters.allowed, henters.named, henters.unused⟩ hadd
    exact ⟨_, h', rfl, rfl, rfl, rfl, hmoves h'⟩

end Resolution

end Gateway
