import Gateway.Proofs.Following
import Gateway.Proofs.Parentage

/-!
# Resolution under a relabelling

Resolution sees ids only as names and tags only as sets, save where a plugin of a consumer-group
repeats an earlier one. So the image of a declaration ends up as the image of what the declaration
ends up as (`Resolution.Placed.follows`), and so do the images of many
(`Resolution.PlacedAll.follows`), provided that declarations which end up as one object carry their
tags in one order (`Resolution.TagsAgree`). They always do in a run that succeeds
(`Resolution.PlacedAll.tagsAgree`).
-/

/-- Partners are paired with the same, up to a function. -/
theorem List.Forall₂.zip_map {α β γ δ : Type} {R : α → β → Prop} {xs : List α} {ys : List β}
    (h : List.Forall₂ R xs ys) (f : γ → δ) (zs : List γ) :
    List.Forall₂ (fun p q => R p.1 q.1 ∧ q.2 = f p.2) (xs.zip zs) (ys.zip (zs.map f)) := by
  induction h generalizing zs with
  | nil => exact .nil
  | cons hfirst _ ih =>
    cases zs with
    | nil => exact .nil
    | cons z zs => exact .cons ⟨hfirst, rfl⟩ (ih zs)

namespace Gateway

open Planning

/-! ### Look-ups that find one object -/

namespace State

variable {s s' : State} {kind : Kind} {p p' : Entity → Bool} {x y : Entity} {φ : Relabelling}

/-- One object of a kind satisfies a condition, and no other does. -/
theorem filter_ofKind_eq_singleton_iff : (s.ofKind kind).filter p = [x] ↔
    (x ∈ s ∧ x.kind = kind ∧ p x = true) ∧ ∀ y ∈ s, y.kind = kind → p y = true → y = x := by
  have hmem : ∀ y, y ∈ (s.ofKind kind).filter p ↔ (y ∈ s ∧ y.kind = kind) ∧ p y = true := by
    intro y
    rw [List.mem_filter, mem_ofKind]
  constructor
  · intro h
    have hx := (hmem x).1 (h ▸ List.mem_singleton_self x)
    refine ⟨⟨hx.1.1, hx.1.2, hx.2⟩, fun y hy hk hp => ?_⟩
    exact List.mem_singleton.1 (h ▸ (hmem y).2 ⟨⟨hy, hk⟩, hp⟩)
  · rintro ⟨⟨hx, hk, hp⟩, huniq⟩
    have hnodup : ((s.ofKind kind).filter p).Nodup :=
      (List.filter_sublist.trans List.filter_sublist).nodup s.nodup_refs.of_map
    refine List.perm_singleton.1 ((List.perm_ext_iff_of_nodup hnodup (List.nodup_singleton x)).2 ?_)
    intro y
    rw [hmem, List.mem_singleton]
    constructor
    · rintro ⟨⟨hy, hyk⟩, hyp⟩
      exact huniq y hy hyk hyp
    · rintro rfl
      exact ⟨⟨hx, hk⟩, hp⟩

/-- The one object that satisfies a condition is seen as the one object that satisfies it there. -/
theorem Image.filter_ofKind_eq_singleton (h : s.Image φ s')
    (hp : ∀ x y, x.kind = kind → x.Image φ y → p' y = p x)
    (hx : (s.ofKind kind).filter p = [x]) :
    ∃ y, (s'.ofKind kind).filter p' = [y] ∧ x.Image φ y := by
  obtain ⟨⟨hmem, hk, hpx⟩, huniq⟩ := filter_ofKind_eq_singleton_iff.1 hx
  obtain ⟨y, hy, hxy⟩ := h.forth x hmem
  refine ⟨y, filter_ofKind_eq_singleton_iff.2 ⟨⟨hy, hxy.kind.trans hk, ?_⟩, ?_⟩, hxy⟩
  · rw [hp x y hk hxy, hpx]
  · intro z hz hzk hpz
    obtain ⟨w, hw, hwz⟩ := h.back z hz
    have hwk : w.kind = kind := hwz.kind.symm.trans hzk
    obtain rfl := huniq w hw hwk ((hp w z hwk hwz).symm.trans hpz)
    exact eq_of_mem hz hy (hwz.kind.trans hxy.kind.symm) (hwz.idText.trans hxy.idText.symm)

/-- A search among the objects of a kind finds something in both runs or in neither. -/
theorem Image.filter_ofKind_isEmpty (h : s.Image φ s')
    (hp : ∀ x y, x.kind = kind → x.Image φ y → p' y = p x) :
    ((s'.ofKind kind).filter p').isEmpty = ((s.ofKind kind).filter p).isEmpty := by
  rw [Bool.eq_iff_iff, List.isEmpty_iff, List.isEmpty_iff, List.filter_eq_nil_iff,
    List.filter_eq_nil_iff]
  constructor
  · intro hall x hx hpx
    obtain ⟨hx, hk⟩ := mem_ofKind.1 hx
    obtain ⟨y, hy, hxy⟩ := h.forth x hx
    exact hall y (mem_ofKind.2 ⟨hy, hxy.kind.trans hk⟩) ((hp x y hk hxy).trans hpx)
  · intro hall y hy hpy
    obtain ⟨hy, hk⟩ := mem_ofKind.1 hy
    obtain ⟨x, hx, hxy⟩ := h.back y hy
    have hxk : x.kind = kind := hxy.kind.symm.trans hk
    exact hall x (mem_ofKind.2 ⟨hx, hxk⟩) ((hp x y hxk hxy).symm.trans hpy)

/-- A state all of whose members look the same is seen as itself. -/
theorem Image.self (h : ∀ x ∈ s, x.Image φ x) : s.Image φ s :=
  ⟨fun x hx => ⟨x, hx, h x hx⟩, fun x hx => ⟨x, hx, h x hx⟩⟩

end State

/-- Kind and id, the id under another name. -/
def Reference.rename (f : String → String) (ref : Reference) : Reference := ⟨ref.kind, f ref.id⟩

/-- Different references are different under other names. -/
theorem Reference.rename_injective {f : String → String} (hf : Function.Injective f) :
    Function.Injective (Reference.rename f) := by
  intro a b h
  obtain ⟨hk, hid⟩ := Reference.mk.inj h
  exact congr (congrArg Reference.mk hk) (hf hid)

/-- An entity is known to the other run under the other name of its id. -/
theorem Entity.Image.ref {φ : Relabelling} {a a' : Entity} (h : a.Image φ a') :
    a'.ref = a.ref.rename φ.rename := by
  rw [Entity.ref, h.kind, h.idText]
  rfl

namespace Resolution

/-! ### Two resolutions -/

/-- What has been resolved in one run and in the other, against the same gateway. Nothing that the
gateway holds looks different. -/
structure Image (φ : Relabelling) (r r' : Resolution) : Prop where
  options : r'.options = r.options
  current : r'.current = r.current
  visible : r'.visible = r.visible
  held : r.current.Image φ r.current
  shown : r.visible.Image φ r.visible
  desired : r.desired.Image φ r'.desired
  moves (kind : Kind) (id : String) :
    r'.moves.resolve kind (φ.rename id) = φ.rename (r.moves.resolve kind id)

variable {φ : Relabelling} {r r' r₁ : Resolution} {e e' : Entity} {o : Options}
  {current : State} {s s' s₁ t t' : IdSupply} {ref : Reference} {id : String} {moves : Moves}

/-- Both runs start from the same state of the gateway. -/
theorem Image.start (h : ∀ x ∈ current, x.Image φ x) :
    (start o current).Image φ (start o current) where
  options := rfl
  current := rfl
  visible := rfl
  held := .self h
  shown := .self fun x hx => h x (State.mem_filter.1 hx).1
  desired := .empty
  moves _ _ := rfl

namespace Image

variable (h : r.Image φ r')

include h

/-- It is seen alike whether an entity is offered by a lookup tag. -/
theorem isShared (he : e.Image φ e') : r'.isShared e' = r.isShared e := by
  unfold Resolution.isShared
  rw [h.options, he.kind, he.hasAnyTag]

/-- A name that means one object means its image in the other run. -/
theorem named_eq_singleton {kind : Kind} (hk : Entity.isReferable kind = true) {name : String}
    {x : Entity} (hx : r.named kind name = [x]) :
    ∃ y, r'.named kind name = [y] ∧ x.Image φ y := by
  have hname : ∀ x y : Entity, x.kind = kind → x.Image φ y →
      y.answersToName name = x.answersToName name :=
    fun x y hxk hxy => hxy.answersToName (hxk ▸ hk) name
  have hempty := h.desired.filter_ofKind_isEmpty hname
  unfold named at hx ⊢
  simp only [hempty] at hx ⊢
  split at hx
  · rename_i hno
    rw [if_pos hno, h.current]
    refine h.held.filter_ofKind_eq_singleton (fun x y hxk hxy => ?_) hx
    rw [h.isShared hxy, hname x y hxk hxy]
  · rename_i hno
    rw [if_neg hno]
    exact h.desired.filter_ofKind_eq_singleton hname hx

/-- A reference means in one run what it means in the other. -/
theorem lookUp {owner owner' : String} {kind : Kind} {fk : ForeignKey}
    (hk : Entity.isReferable kind = true) (hid : r.lookUp owner kind fk = .ok id) :
    r'.lookUp owner' kind (fk.rename φ.rename) = .ok (φ.rename id) := by
  obtain ⟨fid, name, extra⟩ := fk
  unfold Resolution.lookUp at hid ⊢
  have hbare : (ForeignKey.rename φ.rename ⟨fid, name, extra⟩).isBare =
      (ForeignKey.mk fid name extra).isBare := rfl
  rw [hbare]
  split at hid
  · cases hid
  · rename_i hno
    rw [if_neg hno]
    cases fid with
    | some declared =>
      have hheld :
          (r.current.get? kind (φ.rename (r.moves.resolve kind declared))).any r'.isShared =
            (r.current.get? kind (r.moves.resolve kind declared)).any r.isShared := by
        have hget := h.held.get? kind (r.moves.resolve kind declared)
        revert hget
        generalize r.current.get? kind (r.moves.resolve kind declared) = x
        generalize r.current.get? kind (φ.rename (r.moves.resolve kind declared)) = y
        rintro (hxy | _)
        · exact h.isShared hxy
        · rfl
      simp only [ForeignKey.rename, Option.map_some, h.moves, h.desired.contains, h.current,
        hheld] at hid ⊢
      split at hid
      · rename_i hfound
        cases hid
        rw [if_pos hfound]
      · cases hid
    | none =>
      cases name with
      | some name =>
        obtain ⟨x, hx, rfl⟩ := only_eq_ok_iff.1 hid
        obtain ⟨y, hy, hxy⟩ := h.named_eq_singleton hk hx
        exact only_eq_ok_iff.2 ⟨y, hy, hxy.idText⟩
      | none =>
        simp only [ForeignKey.rename, Option.map_none, h.options, h.current] at hid ⊢
        split at hid
        · cases hid
        · rename_i htags
          rw [if_neg htags]
          obtain ⟨x, hx, rfl⟩ := only_eq_ok_iff.1 hid
          obtain ⟨y, hy, hxy⟩ := h.held.filter_ofKind_eq_singleton
            (fun x y _ hxy => h.isShared hxy) hx
          exact only_eq_ok_iff.2 ⟨y, hy, hxy.idText⟩

/-- References are replaced alike in both runs. -/
theorem link {linked : Entity} (he : e.Image φ e') (hlink : r.link e = .ok linked) :
    ∃ linked', r'.link e' = .ok linked' ∧ linked.Image φ linked' :=
  he.relink (fun _ hl _ hid => h.lookUp (Detail.isReferable_of_mem_links hl) hid) hlink

/-- What is admitted in one run is admitted in the other. -/
theorem refuse (he : e.Image φ e') (hok : r.refuse e = .ok ()) : r'.refuse e' = .ok () := by
  unfold Resolution.refuse at hok ⊢
  rw [(h.desired.keyHolder? he).isSome_eq]
  split at hok
  · cases hok
  · rename_i hno
    rw [if_neg hno, he.id?]
    cases hid : e.id? with
    | none => rfl
    | some id =>
      simp only [hid, Option.map_some, he.kind, h.current, h.visible, h.held.contains,
        h.shown.contains] at hok ⊢
      split at hok
      · cases hok
      · rename_i hfree
        rw [if_neg hfree]

/-- An entity gets the image of the id that it gets in the other run, and takes a fresh id where it
does there. -/
theorem identified (he : e.Image φ e') (hident : Identified r e s id moves s') :
    ∃ n, s' = s.after n ∧ ∀ t, s.Echoes φ.rename t n →
      Identified r' e' t (φ.rename id) (r'.moves.settle e' (φ.rename id)) (t.after n) := by
  have hmatch : Option.Rel (Entity.Image φ) (r.visible.match? e) (r'.visible.match? e') := by
    rw [h.visible]
    exact h.shown.match? he
  have recognised : ∀ x, r.visible.match? e = some x → ∀ t : IdSupply,
      Identified r' e' t (φ.rename x.idText) (r'.moves.settle e' (φ.rename x.idText)) t := by
    intro x hx t
    rw [hx] at hmatch
    obtain ⟨y, hy, hxy⟩ : ∃ y, r'.visible.match? e' = some y ∧ x.Image φ y := by
      revert hmatch
      generalize r'.visible.match? e' = y
      rintro (hxy | _)
      exact ⟨_, rfl, hxy⟩
    rw [← hxy.idText]
    exact identified_of_match? hy
  have unknown : r.visible.match? e = none → r'.visible.match? e' = none := by
    intro hx
    have hsome := hmatch.isSome_eq
    rw [hx] at hsome
    exact Option.not_isSome_iff_eq_none.1 (by rw [hsome]; simp)
  cases hident with
  | same hx hid => exact ⟨0, rfl, fun t _ => recognised _ hx t⟩
  | moved hx hid hne => exact ⟨0, rfl, fun t _ => recognised _ hx t⟩
  | adopted hx hid => exact ⟨0, rfl, fun t _ => recognised _ hx t⟩
  | declared hx hid =>
    refine ⟨0, rfl, fun t _ => ?_⟩
    have hid' : e'.id? = some (φ.rename id) := by rw [he.id?, hid, Option.map_some]
    have hident' := Identified.declared (s := t) (unknown hx) hid'
    rwa [hident'.moves_eq] at hident'
  | fresh hx hid =>
    refine ⟨1, rfl, fun t ht => ?_⟩
    have hid' : e'.id? = none := by rw [he.id?, hid, Option.map_none]
    have hident' := Identified.fresh (s := t) (unknown hx) hid'
    have hfirst : t.issue t.taken = φ.rename (s.issue s.taken) := ht 0 Nat.one_pos
    rw [hident'.moves_eq, hfirst] at hident'
    exact hident'

/-- What is noted of ids is the same under the other names. -/
theorem resolve_settle (he : e.Image φ e') (kind : Kind) (id a : String) :
    (r'.moves.settle e' (φ.rename id)).resolve kind (φ.rename a) =
      φ.rename ((r.moves.settle e id).resolve kind a) := by
  have hid : e.id?.map φ.rename = some (φ.rename a) ↔ e.id? = some a :=
    (Option.map_injective φ.injective).eq_iff (b := some a)
  have hcond : (e'.kind = kind ∧ e'.id? = some (φ.rename a) ∧ φ.rename a ≠ φ.rename id) ↔
      (e.kind = kind ∧ e.id? = some a ∧ a ≠ id) := by
    rw [he.kind, he.id?, hid, Ne, φ.injective.eq_iff]
  rw [Moves.resolve_settle, Moves.resolve_settle, if_congr hcond rfl (h.moves kind a)]
  split <;> rfl

/-- A declaration is taken for a repetition in both runs, or in none, where what it would repeat
carries its tags in the same order. -/
theorem repeats (he : e.Image φ e') (hlinks : ∀ l ∈ e.links, ∃ id, l.2 = .byId id)
    (hdesired : ∀ d ∈ r.desired, ∀ l ∈ d.links, ∃ id, l.2 = .byId id) {b : Bool}
    (hb : r.repeats e = .ok b) (htags : e'.isGroupScoped = true → ∀ y ∈ r'.desired, e'.SameKey y →
      y.tags = (r'.options.selection.apply e').tags) : r'.repeats e' = .ok b := by
  unfold Resolution.repeats at hb ⊢
  rw [he.kind, he.isGroupScoped, h.options]
  have hcandidate := he.apply r.options.selection
  split at hb
  · rw [← hb, (h.desired.keyHolder? he).isSome_eq]
  · rename_i hk
    split at hb
    · rename_i hgroup
      rw [if_pos hgroup]
      simp only at hb ⊢
      split at hb
      · rename_i x hx
        obtain ⟨hmem, hsame⟩ := State.keyHolder?_eq_some_iff.1 hx
        obtain ⟨y, hy, hxy⟩ := h.desired.forth x hmem
        have hsame' := (hcandidate.sameKey_iff hxy).2 hsame
        rw [State.keyHolder?_eq_some_iff.2 ⟨hy, hsame'⟩]
        split at hb
        · rename_i hbody
          have hbody' := hxy.sameBody hcandidate (hsame.1.symm.trans hk) hk
            (wellFormed_of_byId (hdesired x hmem)) (fun l hl => wellFormed_of_byId hlinks l hl)
            hbody
          have hagree := htags (he.isGroupScoped.trans hgroup) y hy hsame'
          rw [h.options] at hagree
          simp only [if_pos (hbody'.2 hagree)]
          exact hb
        · cases hb
      · rename_i hx
        have hnone := (h.desired.keyHolder? hcandidate).isSome_eq
        rw [hx, Option.isSome_none, Option.isSome_eq_false_iff, Option.isNone_iff_eq_none] at hnone
        rw [hnone]
        exact hb
    · rename_i hgroup
      rw [if_neg hgroup]
      exact hb
  · exact hb

end Image

/-! ### Tags of what ends up as one object -/

/-- The tags that a declaration is resolved with are those that it is declared with, beside those of
the selection. -/
theorem tags_apply_congr (sel : Selection) {a b : Entity} (hk : a.kind = b.kind)
    (h : a.tags = b.tags) : (sel.apply a).tags = (sel.apply b).tags := by
  simp only [Selection.apply, Entity.tags_withTags, hk, h]

/-- Replacing references changes neither kind nor tags. -/
theorem tags_link {linked : Entity} (h : r.link e = .ok linked) :
    linked.withDerivedId.kind = e.kind ∧ linked.withDerivedId.tags = e.tags := by
  obtain ⟨d, -, rfl⟩ := Entity.relink_eq_ok_iff.1 h
  obtain ⟨k, x⟩ := e
  cases k <;> exact ⟨rfl, rfl⟩

/-- What a declaration ends up as carries its tags. -/
theorem Placed.exists_tagged (h : Placed r e s ref r' s') : ∃ d ∈ r'.desired, d.ref = ref ∧
    d.tags = (r.options.selection.apply e).tags := by
  cases h with
  | @repeated linked hlink hrepeats =>
    obtain ⟨x, hmem, hrepeated⟩ := repeats_iff.1 hrepeats
    obtain ⟨hk, htags⟩ := tags_link hlink
    refine ⟨x, hmem, ref_eq_heldId hmem hrepeated.linked, ?_⟩
    rw [← tags_apply_congr _ hk htags]
    obtain ⟨hkey, hmembership | ⟨-, -, hbody⟩⟩ := hrepeated
    · have htaggable : Kind.membership.taggable = false := rfl
      have hnone : ∀ y : Entity, y.kind = .membership → y.tags = [] :=
        fun y hy => y.resource.tags_eq_nil (hy ▸ htaggable)
      rw [hnone x (hkey.1.symm.trans hmembership), hnone _ hmembership]
    · exact Entity.tags_of_sameBody hkey.1.symm hbody
  | @added linked id moves desired _ hlink _ _ _ hadd =>
    obtain ⟨hk, htags⟩ := tags_link hlink
    refine ⟨_, State.mem_insert_self hadd, ?_, tags_apply_congr _ hk htags⟩
    rw [Entity.ref, Entity.kind_withId, kind_candidate, Entity.idText_withId]

/-- Whatever has been resolved was so before, or is what the declaration ends up as. -/
theorem Placed.mem_or_ref_eq (h : Placed r e s ref r' s') {d : Entity} (hd : d ∈ r'.desired) :
    d ∈ r.desired ∨ d.ref = ref := by
  cases h with
  | repeated _ _ => exact .inl hd
  | added _ _ _ _ hadd =>
    rcases (State.mem_insert hadd).1 hd with rfl | hd
    · right
      rw [Entity.ref, Entity.kind_withId, kind_candidate, Entity.idText_withId]
    · exact .inl hd

/-- Declarations that end up as one object carry the same tags in the same order, with those that
the selection adds. -/
def TagsAgree (sel : Selection) (ps : List (Entity × Reference)) : Prop :=
  ∀ p ∈ ps, ∀ q ∈ ps, p.2 = q.2 → (sel.apply p.1).tags = (sel.apply q.1).tags

/-- Every declaration ends up as something that carries the tags of the declaration and those of the
selection. -/
theorem PlacedAll.exists_tagged {ps : List (Entity × Reference)} (h : PlacedAll r s ps r' s') :
    ∀ p ∈ ps, ∃ d ∈ r'.desired, d.ref = p.2 ∧ d.tags = (r.options.selection.apply p.1).tags := by
  induction h with
  | nil => simp
  | @cons r r₁ r' e ref s t s' rest hfirst hrest ih =>
    have hoptions : r₁.options = r.options := by cases hfirst <;> rfl
    intro p hp
    rcases List.mem_cons.1 hp with rfl | hp
    · obtain ⟨d, hd, hdtags⟩ := hfirst.exists_tagged
      exact ⟨d, hrest.desired_subset hd, hdtags⟩
    · rw [← hoptions]
      exact ih p hp

/-- In a run that succeeds, declarations that end up as one object agree in their tags. -/
theorem PlacedAll.tagsAgree {ps : List (Entity × Reference)} (h : PlacedAll r s ps r' s') :
    TagsAgree r.options.selection ps := by
  intro p hp q hq heq
  obtain ⟨d, hd, hdref, hdtags⟩ := h.exists_tagged p hp
  obtain ⟨x, hx, hxref, hxtags⟩ := h.exists_tagged q hq
  rw [← hdtags, ← hxtags, State.eq_of_ref hd hx (hdref.trans (heq.trans hxref.symm))]

/-! ### One declaration in two runs -/

/-- Only the next ids are taken. -/
theorem Placed.exists_eq_after (h : Placed r e s ref r' s') : ∃ n, s' = s.after n := by
  obtain ⟨k, -, hk⟩ := h.exists_after (S := s) (n := 0)
  exact ⟨k, hk⟩

/-- What a declaration repeats is what it ends up as. -/
theorem Placed.ref_eq_of_sameKey {linked x : Entity} (h : Placed r e s ref r' s')
    (hlink : r.link e = .ok linked) (hx : x ∈ r.desired) (hsame : linked.withDerivedId.SameKey x) :
    x.ref = ref := by
  cases h with
  | repeated hlink' _ =>
    cases hlink.symm.trans hlink'
    exact ref_eq_heldId hx (by simpa [Entity.SameKey] using hsame)
  | added hlink' hrepeats hrefuse _ _ =>
    cases hlink.symm.trans hlink'
    -- an entity that shares its natural key with `x` would have been refused
    exact absurd hsame (unkeyed_of_refuse hrefuse x hx)

/-- A declaration is resolved in the other run as it is in this one, under the other names. -/
theorem Placed.follows {n : Nat} (h : Placed r e s ref r₁ (s.after n)) (hr : r.Image φ r')
    (hbyId : ∀ d ∈ r.desired, ∀ l ∈ d.links, ∃ id, l.2 = .byId id) (he : e.Image φ e')
    (htags : ∀ y ∈ r'.desired, y.ref = ref.rename φ.rename →
      y.tags = (r'.options.selection.apply e').tags) (ht : s.Echoes φ.rename t n) :
    ∃ r₁', Placed r' e' t (ref.rename φ.rename) r₁' (t.after n) ∧ r₁.Image φ r₁' := by
  have again : ∀ {linked linked' : Entity} {b : Bool}, r.link e = .ok linked →
      r'.link e' = .ok linked' → linked.Image φ linked' →
      r.repeats linked.withDerivedId = .ok b → r'.repeats linked'.withDerivedId = .ok b := by
    intro linked linked' b hlink hlink' himage hrepeats
    refine hr.repeats himage.withDerivedId (fun l hl => ?_) hbyId hrepeats ?_
    · rw [Entity.links_withDerivedId] at hl
      exact Entity.exists_byId_of_mem_links hlink hl
    · intro _ y hy hsame
      obtain ⟨x, hx, hxy⟩ := hr.desired.back y hy
      have href := h.ref_eq_of_sameKey hlink hx ((himage.withDerivedId.sameKey_iff hxy).1 hsame)
      obtain ⟨hk, hsameTags⟩ := tags_link hlink'
      rw [tags_apply_congr _ hk hsameTags]
      exact htags y hy (by rw [hxy.ref, href])
  generalize hs' : s.after n = s' at h
  cases h with
  | @repeated linked hlink hrepeats =>
    obtain ⟨linked', hlink', himage⟩ := hr.link he hlink
    obtain rfl : n = 0 := IdSupply.after_inj hs'
    have href : (⟨linked'.kind, r'.heldId linked'⟩ : Reference) =
        (⟨linked.kind, r.heldId linked⟩ : Reference).rename φ.rename := by
      obtain ⟨x, hx, hagain⟩ := repeats_iff.1 hrepeats
      obtain ⟨y, hy, hxy⟩ := hr.desired.forth x hx
      rw [← ref_eq_heldId hx hagain.linked,
        ← ref_eq_heldId hy ((himage.sameKey_iff hxy).2 hagain.linked)]
      exact hxy.ref
    refine ⟨r', ?_, hr⟩
    rw [← href]
    exact .repeated hlink' (again hlink hlink' himage hrepeats)
  | @added linked id moves desired _ hlink hrepeats hrefuse hident hadd =>
    obtain ⟨linked', hlink', himage⟩ := hr.link he hlink
    have hcandidate : (r.candidate linked).Image φ (r'.candidate linked') := by
      unfold candidate
      rw [hr.options]
      exact himage.withDerivedId.apply r.options.selection
    obtain ⟨m, hm, hident'⟩ := hr.identified hcandidate hident
    obtain rfl : n = m := IdSupply.after_inj (hs'.trans hm)
    obtain ⟨desired', hadd', hdesired⟩ := hr.desired.insert (hcandidate.withId id) hadd
    have hplaced := Placed.added hlink' (again hlink hlink' himage hrepeats)
      (hr.refuse hcandidate hrefuse) (hident' t ht) hadd'
    rw [himage.kind] at hplaced
    refine ⟨_, hplaced, hr.options, hr.current, hr.visible, hr.held, hr.shown, hdesired, ?_⟩
    rw [hident.moves_eq]
    exact fun kind a => hr.resolve_settle hcandidate kind id a

/-- A declaration that ends up as what is resolved already shares its natural key. -/
theorem Placed.sameKey_of_ref_eq {x : Entity} (h : Placed r e s ref r' s') (hx : x ∈ r.desired)
    (href : x.ref = ref) : ∃ linked, r.link e = .ok linked ∧ linked.SameKey x := by
  cases h with
  | @repeated linked hlink hrepeats =>
    obtain ⟨y, hmem, hagain⟩ := repeats_iff.1 hrepeats
    rw [State.eq_of_ref hx hmem (href.trans (ref_eq_heldId hmem hagain.linked).symm)]
    exact ⟨linked, hlink, hagain.linked⟩
  | @added linked id moves desired _ hlink _ _ _ hadd =>
    obtain ⟨-, hfree, -⟩ := State.insert_eq_ok_iff.1 ⟨_, hadd⟩
    refine absurd ?_ (State.contains_eq_false_iff.1 hfree x hx ?_)
    · rw [Entity.idText_withId]
      exact congrArg Reference.id href
    · rw [Entity.kind_withId, kind_candidate]
      exact congrArg Reference.kind href

/-- What a declaration ends up as in both runs agrees with it in its tags. -/
theorem Placed.tags_eq (h : Placed r e s ref r₁ s₁) {ref' : Reference} {r₁' : Resolution}
    (h' : Placed r' e' t ref' r₁' s') (hr : r.Image φ r') (he : e.Image φ e') :
    ∀ y ∈ r'.desired, y.ref = ref.rename φ.rename →
      y.tags = (r'.options.selection.apply e').tags := by
  intro y hy href
  obtain ⟨x, hx, hxy⟩ := hr.desired.back y hy
  have hxref : x.ref = ref := by
    refine Reference.rename_injective φ.injective ?_
    rw [← hxy.ref, href]
  obtain ⟨linked, hlink, hsame⟩ := h.sameKey_of_ref_eq hx hxref
  obtain ⟨linked', hlink', himage⟩ := hr.link he hlink
  have hsame' : linked'.withDerivedId.SameKey y := by
    have := (himage.sameKey_iff hxy).2 hsame
    simpa [Entity.SameKey] using this
  obtain ⟨d, hd, hdref, hdtags⟩ := h'.exists_tagged
  rw [State.eq_of_ref (h'.step.desired_subset hy) hd
    ((h'.ref_eq_of_sameKey hlink' hy hsame').trans hdref.symm), hdtags]

/-- There is one thing only that becomes of a declaration. -/
theorem Placed.unique {ref' : Reference} {r₁' : Resolution} (h : Placed r e s ref r₁ s₁)
    (h' : Placed r e s ref' r₁' s') : ref = ref' ∧ r₁ = r₁' ∧ s₁ = s' := by
  obtain ⟨heq, hs⟩ := (yields_place_iff.2 h).unique (yields_place_iff.2 h')
  obtain ⟨href, hr⟩ := Prod.mk.inj heq
  exact ⟨href, hr, hs⟩

/-! ### Many declarations in two runs -/

namespace PlacedAll

variable {ps qs : List (Entity × Reference)} {n : Nat}

/-- Only the next ids are taken. -/
theorem exists_eq_after (h : PlacedAll r s ps r' s') : ∃ n, s' = s.after n := by
  induction h with
  | nil => exact ⟨0, rfl⟩
  | cons hfirst _ ih =>
    obtain ⟨n, rfl⟩ := hfirst.exists_eq_after
    obtain ⟨m, rfl⟩ := ih
    exact ⟨n + m, IdSupply.after_after _ n m⟩

/-- Declarations that end up as told are resolved. -/
theorem yields_placeAll (h : PlacedAll r s ps r' s') :
    Yields (r.placeAll (ps.map Prod.fst)) s (ps.map Prod.snd, r') s' := by
  induction h with
  | nil r s => exact yields_placeAll_nil.2 ⟨rfl, rfl, rfl⟩
  | cons hfirst _ ih => exact yields_placeAll_cons.2 ⟨_, _, _, _, hfirst, ih, rfl⟩

/-- Declarations are resolved in the other run as they are in this one, under the other names, where
those that end up as one object agree in their tags. -/
theorem follows (done : List (Entity × Reference)) (h : PlacedAll r s ps r₁ (s.after n))
    (hr : r.Image φ r') (hsound : Sound o current r)
    (hps : List.Forall₂ (fun p q => p.1.Image φ q.1 ∧ q.2 = p.2.rename φ.rename) ps qs)
    (hdone : ∀ y ∈ r'.desired, ∃ q ∈ done, q.2 = y.ref ∧ y.tags = (o.selection.apply q.1).tags)
    (hagree : TagsAgree o.selection (done ++ qs)) (ht : s.Echoes φ.rename t n) :
    ∃ r₁', PlacedAll r' t qs r₁' (t.after n) ∧ r₁.Image φ r₁' := by
  generalize hs' : s.after n = s' at h
  induction h generalizing r' qs done n t with
  | nil =>
    cases hps
    obtain rfl : n = 0 := IdSupply.after_inj hs'
    exact ⟨r', .nil r' t, hr⟩
  | @cons r r₂ r₁ e ref s s₂ s' rest hfirst hrest ih =>
    obtain ⟨⟨e', ref'⟩, qs, ⟨he, rfl⟩, hrestPs, rfl⟩ := List.forall₂_cons_left_iff.1 hps
    obtain ⟨k, rfl⟩ := hfirst.exists_eq_after
    obtain ⟨m, rfl⟩ := hrest.exists_eq_after
    obtain rfl : n = k + m := IdSupply.after_inj (hs'.trans (s.after_after k m))
    have hoptions : r'.options = o := hr.options.trans hsound.options
    obtain ⟨r₂', hfirst', hr₂⟩ := hfirst.follows hr hsound.linked he (fun y hy href => by
      obtain ⟨q, hq, hqref, htags⟩ := hdone y hy
      rw [htags, hoptions]
      exact hagree q (List.mem_append_left _ hq) _
        (List.mem_append_right _ List.mem_cons_self) (hqref.trans href)) ht.left
    have hdone' : ∀ y ∈ r₂'.desired, ∃ q ∈ done ++ [(e', ref.rename φ.rename)], q.2 = y.ref ∧
        y.tags = (o.selection.apply q.1).tags := by
      intro y hy
      rcases hfirst'.mem_or_ref_eq hy with hold | hnew
      · obtain ⟨q, hq, hqtags⟩ := hdone y hold
        exact ⟨q, List.mem_append_left _ hq, hqtags⟩
      · obtain ⟨d, hd, hdref, hdtags⟩ := hfirst'.exists_tagged
        refine ⟨_, List.mem_append_right _ (List.mem_singleton_self _), hnew.symm, ?_⟩
        rw [State.eq_of_ref hy hd (hnew.trans hdref.symm), hdtags, hoptions]
    obtain ⟨r₁', hrest', hr₁⟩ := ih _ hr₂ (hsound.step hfirst.step) hrestPs hdone'
      (by rwa [List.append_assoc]) ht.right rfl
    rw [IdSupply.after_after] at hrest'
    exact ⟨r₁', .cons hfirst' hrest', hr₁⟩

/-- Declarations that are resolved in both runs end up as the images of one another. -/
theorem refs_eq {r₁' : Resolution} (h : PlacedAll r s ps r₁ (s.after n))
    (h' : PlacedAll r' t qs r₁' t') (hr : r.Image φ r') (hsound : Sound o current r)
    (hps : List.Forall₂ (fun p q => p.1.Image φ q.1) ps qs) (ht : s.Echoes φ.rename t n) :
    qs.map Prod.snd = (ps.map Prod.snd).map (.rename φ.rename) := by
  generalize hs' : s.after n = s' at h
  induction h generalizing r' qs n t with
  | nil =>
    cases hps
    rfl
  | @cons r r₂ r₁ e ref s s₂ s' rest hfirst hrest ih =>
    obtain ⟨⟨e', ref'⟩, qs, he, hrestPs, rfl⟩ := List.forall₂_cons_left_iff.1 hps
    obtain ⟨k, rfl⟩ := hfirst.exists_eq_after
    obtain ⟨m, rfl⟩ := hrest.exists_eq_after
    obtain rfl : n = k + m := IdSupply.after_inj (hs'.trans (s.after_after k m))
    cases h' with
    | cons hfirst' hrest' =>
      obtain ⟨r₂', hfollows, hr₂⟩ :=
        hfirst.follows hr hsound.linked he (hfirst.tags_eq hfirst' hr he) ht.left
      obtain ⟨rfl, rfl, rfl⟩ := hfirst'.unique hfollows
      rw [List.map_cons, ih hrest' hr₂ (hsound.step hfirst.step) hrestPs ht.right rfl]
      rfl

end PlacedAll

end Resolution

namespace Content

open Resolution

variable {c c' : Content} {φ : Relabelling} {o : Options} {current desired : State}
  {refs : List Reference} {s s' t t' : IdSupply} {n : Nat}

/-- In a run that succeeds, declarations that end up as one object agree in their tags. -/
theorem tagsAgree_of_finalIds {es : List Entity} (hes : Yields c.flatten s es t)
    (hrefs : Yields (c.finalIds current o) s refs s') :
    TagsAgree o.selection ((inOrder es).zip refs) := by
  obtain ⟨es', t', r, hes', -, hplace⟩ := yields_finalIds_iff.1 hrefs
  obtain ⟨rfl, rfl⟩ := hes.unique hes'
  exact (placedAll_of_placeAll hplace).tagsAgree

/-- The ids that a document takes are the next ones. -/
theorem Image.exists_eq_after (h : c.Image φ c') (hrefs : Yields (c.finalIds current o) s refs s') :
    ∃ n, s' = s.after n := by
  obtain ⟨es, s₁, r, hes, -, hplace⟩ := yields_finalIds_iff.1 hrefs
  obtain ⟨k, rfl, -⟩ := h.follows_flatten s es s₁ hes
  obtain ⟨m, rfl⟩ := (placedAll_of_placeAll hplace).exists_eq_after
  exact ⟨k + m, IdSupply.after_after s k m⟩

/-- Where a document is resolved, its image is flattened into the images of its entities, with the
ids that the other run takes. -/
theorem Image.exists_flatten (h : c.Image φ c')
    (hrefs : Yields (c.finalIds current o) s refs (s.after n)) (ht : s.Echoes φ.rename t n) :
    ∃ es es' k m r, n = k + m ∧ Yields c.flatten s es (s.after k) ∧ o.check es = .ok () ∧
      Yields c'.flatten t es' (t.after k) ∧
      List.Forall₂ (Entity.Image φ) (inOrder es) (inOrder es') ∧ o.check es' = .ok () ∧
      Yields ((start o current).placeAll (inOrder es)) (s.after k) (refs, r) (s.after n) := by
  obtain ⟨es, s₁, r, hes, hcheck, hplace⟩ := yields_finalIds_iff.1 hrefs
  obtain ⟨k, rfl, hflat⟩ := h.follows_flatten s es s₁ hes
  obtain ⟨m, hm⟩ := (placedAll_of_placeAll hplace).exists_eq_after
  obtain rfl : n = k + m := IdSupply.after_inj (hm.trans (s.after_after k m))
  obtain ⟨es', hes', himage⟩ := hflat t ht.left
  have hcheck' : o.check es' = .ok () := by
    rw [Options.check_eq_ok_iff] at hcheck ⊢
    intro e' he'
    obtain ⟨e, he, hee'⟩ := himage.exists_of_mem_right he'
    exact hee'.permits (hcheck e he)
  exact ⟨es, es', k, m, r, rfl, hes, hcheck, hes', forall₂_inOrder (fun _ _ he => he.kind) himage,
    hcheck', hplace⟩

/-- The image of a document asks for the image of the state that the document asks for, where
declarations that end up as one object agree in their tags. -/
theorem Image.exists_resolve (h : c.Image φ c') (hheld : ∀ x ∈ current, x.Image φ x)
    (hres : Yields (c.resolve current o) s desired (s.after n))
    (hrefs : Yields (c.finalIds current o) s refs (s.after n)) (ht : s.Echoes φ.rename t n)
    (hagree : ∀ es u, Yields c'.flatten t es u →
      TagsAgree o.selection ((inOrder es).zip (refs.map (.rename φ.rename)))) :
    ∃ desired', Yields (c'.resolve current o) t desired' (t.after n) ∧
      Yields (c'.finalIds current o) t (refs.map (.rename φ.rename)) (t.after n) ∧
      desired.Image φ desired' := by
  obtain ⟨es, es', k, m, -, rfl, hes, -, hes', hordered, hcheck', -⟩ := h.exists_flatten hrefs ht
  obtain ⟨-, r, rfl, hplace⟩ := (yields_resolve_finalIds_iff hes).1 ⟨hres, hrefs⟩
  have hlength : (inOrder es).length = refs.length := (forall₂_of_placeAll hplace).length_eq
  have hall := placedAll_of_placeAll hplace
  rw [← IdSupply.after_after] at hall
  obtain ⟨r', hall', hr'⟩ := PlacedAll.follows [] hall (.start hheld) (sound_start o current)
    (hordered.zip_map _ refs) (fun y hy => absurd hy State.not_mem_empty) (hagree es' _ hes')
    ht.right
  rw [IdSupply.after_after] at hall'
  have hplace' := hall'.yields_placeAll
  rw [List.map_fst_zip, List.map_snd_zip] at hplace'
  · obtain ⟨hres', hrefs'⟩ := (yields_resolve_finalIds_iff hes').2 ⟨hcheck', r', rfl, hplace'⟩
    exact ⟨r'.desired, hres', hrefs', hr'.desired⟩
  · rw [List.length_map, ← hlength, hordered.length_eq]
  · rw [List.length_map, ← hlength, hordered.length_eq]

/-- Where both a document and its image can be resolved, every declaration of the image ends up as
the image of what it ends up as in the document. -/
theorem Image.finalIds_eq (h : c.Image φ c') (hheld : ∀ x ∈ current, x.Image φ x)
    {refs' : List Reference} (hrefs : Yields (c.finalIds current o) s refs (s.after n))
    (hrefs' : Yields (c'.finalIds current o) t refs' t') (ht : s.Echoes φ.rename t n) :
    refs' = refs.map (.rename φ.rename) := by
  obtain ⟨es, es', k, m, r, rfl, -, -, hes', hordered, -, hplace⟩ := h.exists_flatten hrefs ht
  obtain ⟨es₁, t₁, r', hes₁, -, hplace'⟩ := yields_finalIds_iff.1 hrefs'
  obtain ⟨rfl, rfl⟩ := hes'.unique hes₁
  have hlength := (forall₂_of_placeAll hplace).length_eq
  have hlength' := (forall₂_of_placeAll hplace').length_eq
  have hpairs : List.Forall₂ (fun p q => p.1.Image φ q.1) ((inOrder es).zip refs)
      ((inOrder es').zip refs') := by
    rw [← List.map_fst_zip hlength.le, ← List.map_fst_zip hlength'.le,
      List.forall₂_map_left_iff, List.forall₂_map_right_iff] at hordered
    exact hordered
  have hall := placedAll_of_placeAll hplace
  rw [← IdSupply.after_after] at hall
  have heq := hall.refs_eq (placedAll_of_placeAll hplace') (.start hheld) (sound_start o current)
    hpairs ht.right
  rw [List.map_snd_zip hlength'.ge] at heq
  rw [heq, List.map_snd_zip hlength.ge]

end Content

end Gateway
