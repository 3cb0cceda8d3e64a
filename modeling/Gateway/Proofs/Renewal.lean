import Mathlib.Logic.Equiv.Basic
import Gateway.Proofs.Documents

/-!
# Fresh ids in the place of others

Derived ids are put together from other ids with colons, so an id is renamed part by part
(`renameParts`). For every two lists of ids of the same length there is a relabelling that puts one
in the place of the other, and leaves alone what has none of them as a part
(`Relabelling.exists_replaces`). So a document asks for the same state whichever fresh ids it takes,
but for these ids (`Content.exists_renewed`).
-/

/-- What is related to a part of a list is related to a part of any list that is related to it. -/
theorem List.Forall₂.exists_sublist {α β : Type} {R : α → β → Prop} {xs : List α} {ys zs : List β}
    (h : List.Forall₂ R xs ys) (hzs : zs.Sublist ys) :
    ∃ ws, ws.Sublist xs ∧ List.Forall₂ R ws zs := by
  induction hzs generalizing xs with
  | slnil => exact ⟨[], List.nil_sublist xs, .nil⟩
  | cons _ _ ih =>
    obtain ⟨x, xs, -, hrest, rfl⟩ := List.forall₂_cons_right_iff.1 h
    obtain ⟨ws, hws, hall⟩ := ih hrest
    exact ⟨ws, hws.cons x, hall⟩
  | cons_cons _ _ ih =>
    obtain ⟨x, xs, hfirst, hrest, rfl⟩ := List.forall₂_cons_right_iff.1 h
    obtain ⟨ws, hws, hall⟩ := ih hrest
    exact ⟨x :: ws, hws.cons_cons x, .cons hfirst hall⟩

namespace Gateway

/-! ### Ids that are put together -/

/-- The parts of a text between its colons. -/
def idParts (text : String) : List String := (text.toList.splitOn ':').map .ofList

/-- The text with every part between its colons under another name. -/
def renameParts (f : String → String) (text : String) : String :=
  ":".intercalate ((idParts text).map f)

section idParts

variable {f : String → String} {text part a b : String}

/-- Parts without colons that are joined by colons are the parts of the result. -/
theorem idParts_intercalate {parts : List String} (hne : parts ≠ [])
    (h : ∀ part ∈ parts, ':' ∉ part.toList) : idParts (":".intercalate parts) = parts := by
  have hsplit : ([':'].intercalate (parts.map String.toList)).splitOn ':' =
      parts.map String.toList := by
    refine List.splitOn_intercalate ':' (fun l hl => ?_) (by simpa using hne)
    obtain ⟨part, hpart, rfl⟩ := List.mem_map.1 hl
    exact h part hpart
  have htext : (":".intercalate parts).toList = [':'].intercalate (parts.map String.toList) :=
    String.toList_intercalate
  unfold idParts
  rw [htext, hsplit, List.map_map]
  exact List.map_eq_self fun part _ => String.ofList_toList

/-- A text is put together from its parts again. -/
theorem intercalate_idParts (text : String) : ":".intercalate (idParts text) = text := by
  unfold idParts
  refine String.toList_inj.1 ?_
  rw [String.toList_intercalate, List.map_map]
  have hid : String.toList ∘ String.ofList = id := funext fun _ => String.toList_ofList
  rw [hid, List.map_id]
  exact List.intercalate_splitOn ':'

/-- The parts of a text determine it. -/
theorem idParts_injective (h : idParts a = idParts b) : a = b := by
  rw [← intercalate_idParts a, h, intercalate_idParts]

/-- There are no colons in the parts. -/
theorem not_mem_of_mem_idParts (h : part ∈ idParts text) : ':' ∉ part.toList := by
  have hsplit : ∀ (cs w : List Char), w ∈ cs.splitOn ':' → ':' ∉ w := by
    intro cs
    induction cs with
    | nil => simp
    | cons c cs ih =>
      intro w hw
      rw [List.splitOn_cons_eq_if_modifyHead] at hw
      split at hw
      · rcases List.mem_cons.1 hw with rfl | hw
        · exact List.not_mem_nil
        · exact ih w hw
      · rename_i hc
        cases hcs : cs.splitOn ':' with
        | nil => exact absurd hcs (List.splitOn_ne_nil _ _)
        | cons first rest =>
          rw [hcs, List.modifyHead_cons] at hw
          have hfirst : ':' ∉ first := ih first (hcs ▸ List.mem_cons_self)
          rcases List.mem_cons.1 hw with rfl | hw
          · refine List.not_mem_cons_of_ne_of_not_mem (fun heq => hc ?_) hfirst
            rw [← heq, beq_self_eq_true]
          · exact ih w (hcs ▸ List.mem_cons_of_mem _ hw)
  obtain ⟨w, hw, rfl⟩ := List.mem_map.1 h
  rw [String.toList_ofList]
  exact hsplit _ w hw

/-- The parts of a text on both sides of a colon come one after the other. -/
theorem idParts_colon (a b : String) : idParts (a ++ ":" ++ b) = idParts a ++ idParts b := by
  have htext : (a ++ ":" ++ b).toList = a.toList ++ ':' :: b.toList := by simp
  unfold idParts
  rw [htext, List.splitOn_append_cons_self, List.map_append]

/-- Even the empty text has a part. -/
theorem idParts_ne_nil (text : String) : idParts text ≠ [] := by
  simp [idParts]

/-- A text without colons is its own only part. -/
theorem idParts_of_not_mem (h : ':' ∉ text.toList) : idParts text = [text] := by
  unfold idParts
  rw [List.splitOn_eq_singleton h, List.map_singleton, String.ofList_toList]

/-- The parts of a renamed text are the renamed parts, where no name has a colon in it. -/
theorem idParts_renameParts (hf : ∀ a, ':' ∉ a.toList → ':' ∉ (f a).toList) :
    idParts (renameParts f text) = (idParts text).map f := by
  refine idParts_intercalate (by simp [idParts_ne_nil]) fun part hpart => ?_
  obtain ⟨w, hw, rfl⟩ := List.mem_map.1 hpart
  exact hf w (not_mem_of_mem_idParts hw)

/-- A text none of whose parts has another name keeps its own. -/
theorem renameParts_eq_self (h : ∀ part ∈ idParts text, f part = part) :
    renameParts f text = text := by
  unfold renameParts
  rw [List.map_eq_self h, intercalate_idParts]

/-- A text without colons is renamed as a whole. -/
theorem renameParts_of_not_mem (h : ':' ∉ text.toList) : renameParts f text = f text := by
  unfold renameParts
  rw [idParts_of_not_mem h, List.map_singleton, String.intercalate_singleton]

/-- A derived id is renamed on both sides of its colon. -/
theorem renameParts_colon (hf : ∀ a, ':' ∉ a.toList → ':' ∉ (f a).toList) (a b : String) :
    renameParts f (a ++ ":" ++ b) = renameParts f a ++ ":" ++ renameParts f b := by
  refine idParts_injective ?_
  rw [idParts_renameParts hf, idParts_colon, idParts_colon, idParts_renameParts hf,
    idParts_renameParts hf, List.map_append]

/-- Texts keep apart when their parts do. -/
theorem renameParts_injective (hf : ∀ a, ':' ∉ a.toList → ':' ∉ (f a).toList)
    (hinjective : Function.Injective f) : Function.Injective (renameParts f) := by
  intro a b h
  refine idParts_injective (List.map_injective_iff.2 hinjective ?_)
  rw [← idParts_renameParts hf, ← idParts_renameParts hf, h]

end idParts

/-! ### Ids in the place of others -/

/-- For every two lists of ids of the same length there is a permutation of all ids that puts the
ids of the second list in the place of those of the first, and moves no other id. -/
theorem exists_perm_map_eq {us vs : List String} (hlength : us.length = vs.length) (hus : us.Nodup)
    (hvs : vs.Nodup) : ∃ σ : Equiv.Perm String, us.map σ = vs ∧ ∀ a ∉ us, a ∉ vs → σ a = a := by
  induction us generalizing vs with
  | nil =>
    obtain rfl := List.length_eq_zero_iff.1 hlength.symm
    exact ⟨Equiv.refl _, rfl, fun _ _ _ => rfl⟩
  | cons u us ih =>
    obtain ⟨v, vs, rfl⟩ := List.exists_cons_of_length_eq_add_one hlength.symm
    obtain ⟨hu, hus⟩ := List.nodup_cons.1 hus
    obtain ⟨hv, hvs⟩ := List.nodup_cons.1 hvs
    obtain ⟨σ, hmap, hfixed⟩ := ih (Nat.succ.inj hlength) hus hvs
    -- what `u` was moved to gives way to `v`
    refine ⟨σ.trans (Equiv.swap (σ u) v), ?_, fun a ha ha' => ?_⟩
    · rw [List.map_cons, Equiv.trans_apply, Equiv.swap_apply_left, ← hmap]
      refine congrArg _ (List.map_congr_left fun a ha => ?_)
      refine Equiv.swap_apply_of_ne_of_ne (fun heq => hu (σ.injective heq ▸ ha)) ?_
      rintro heq
      exact hv (heq ▸ hmap ▸ List.mem_map_of_mem ha)
    · rw [List.mem_cons, not_or] at ha ha'
      obtain ⟨hau, ha⟩ := ha
      obtain ⟨hav, ha'⟩ := ha'
      rw [Equiv.trans_apply, hfixed a ha ha']
      refine Equiv.swap_apply_of_ne_of_ne (fun heq => hau ?_) hav
      exact σ.injective ((hfixed a ha ha').trans heq)

/-- Ids that are distinct, not empty and without colons, and no part of any of the texts. -/
structure Unseen (texts ids : List String) : Prop where
  nodup : ids.Nodup
  single : ∀ id ∈ ids, id ≠ "" ∧ ':' ∉ id.toList
  unseen : ∀ id ∈ ids, ∀ text ∈ texts, id ∉ idParts text

/-- Whether ids are unseen can be computed, as there are finitely many texts to look at. -/
instance (texts ids : List String) : Decidable (Unseen texts ids) :=
  decidable_of_iff (ids.Nodup ∧ (∀ id ∈ ids, id ≠ "" ∧ ':' ∉ id.toList) ∧
      ∀ id ∈ ids, ∀ text ∈ texts, id ∉ idParts text)
    ⟨fun ⟨hnodup, hsingle, hunseen⟩ => ⟨hnodup, hsingle, hunseen⟩,
      fun h => ⟨h.nodup, h.single, h.unseen⟩⟩

/-- Neither the order of the ids nor that of the texts matters. -/
theorem Unseen.perm {texts texts' ids ids' : List String} (h : Unseen texts ids)
    (hids : ids'.Perm ids) (htexts : texts'.Perm texts) : Unseen texts' ids' where
  nodup := hids.nodup_iff.2 h.nodup
  single id hid := h.single id (hids.subset hid)
  unseen id hid text htext := h.unseen id (hids.subset hid) text (htexts.subset htext)

/-- The relabelling puts the ids of the second list in the place of those of the first, in some
order. It leaves alone whatever has none of them as a part, and the order of tags. -/
structure Relabelling.Replaces (φ : Relabelling) (us vs : List String) : Prop where
  ids : (us.map φ.rename).Perm vs
  others (text : String) (h : ∀ part ∈ idParts text, part ∉ us ∧ part ∉ vs) : φ.rename text = text
  tags : φ.retag = Eq

/-- Ids can be put in the place of others, each in the place of the one beside it. -/
theorem Relabelling.exists_replaces {us vs : List String} (hlength : us.length = vs.length)
    (hus : us.Nodup) (hvs : vs.Nodup) (hsingle : ∀ id ∈ us ++ vs, id ≠ "" ∧ ':' ∉ id.toList) :
    ∃ φ : Relabelling, φ.Replaces us vs ∧ us.map φ.rename = vs := by
  obtain ⟨σ, hmap, hfixed⟩ := exists_perm_map_eq hlength hus hvs
  have hmoved : ∀ a, σ a ≠ a → σ a ∈ us ++ vs := by
    intro a ha
    by_contra hmem
    rw [List.mem_append, not_or] at hmem
    exact ha (σ.injective (hfixed (σ a) hmem.1 hmem.2))
  have hempty : σ "" = "" := by
    by_contra hne
    refine hne (hfixed "" (fun hmem => ?_) fun hmem => ?_)
    · exact (hsingle "" (List.mem_append_left _ hmem)).1 rfl
    · exact (hsingle "" (List.mem_append_right _ hmem)).1 rfl
  have hcolon : ∀ a, ':' ∉ a.toList → ':' ∉ (σ a).toList := by
    intro a ha
    by_cases heq : σ a = a
    · rwa [heq]
    · exact (hsingle _ (hmoved a heq)).2
  let φ : Relabelling :=
    { rename := renameParts σ
      retag := Eq
      injective := renameParts_injective hcolon σ.injective
      rename_empty := by
        rw [renameParts_of_not_mem (by simp), hempty]
      rename_colon := renameParts_colon hcolon
      retag_nil := rfl
      perm := List.Perm.of_eq
      append := fun h us => by rw [h] }
  have hids : us.map φ.rename = vs := by
    rw [← hmap]
    exact List.map_congr_left fun id hid =>
      renameParts_of_not_mem (hsingle id (List.mem_append_left _ hid)).2
  refine ⟨φ, ⟨.of_eq hids, fun text h => ?_, rfl⟩, hids⟩
  exact renameParts_eq_self fun part hpart => hfixed part (h part hpart).1 (h part hpart).2

/-! ### Runs that take other ids -/

/-- The ids of a supply that echoes another one are those of the other under their new names. -/
theorem IdSupply.Echoes.map_next {f : String → String} {s t : IdSupply} {n : Nat}
    (h : s.Echoes f t n) : t.next n = (s.next n).map f := by
  unfold next
  rw [List.map_map]
  exact List.map_congr_left fun i hi => h i (List.mem_range.1 hi)

namespace Entity

variable {φ : Relabelling} {a a' b b' : Entity}

/-- No part of a configuration is an id. -/
theorem Image.settings (h : a.Image φ a') : a'.settings = a.settings := by
  cases h with
  | @mk k r r' h =>
    have hdetail := h.detail
    cases k with
    | plugin =>
      show [some (.map r'.detail.config), r'.detail.ordering] = _
      rw [hdetail]
      rfl
    | _ => rfl

/-- Time stamps are not renamed. -/
theorem Image.createdAt (h : a.Image φ a') : a'.resource.createdAt = a.resource.createdAt := by
  cases h with
  | mk h => exact h.createdAt

/-- Time stamps are not renamed. -/
theorem Image.updatedAt (h : a.Image φ a') : a'.resource.updatedAt = a.resource.updatedAt := by
  cases h with
  | mk h => exact h.updatedAt

/-- Where tags stay in their order, an entity is seen as one thing only. -/
theorem rightUnique_image (htags : φ.retag = Eq) : Relator.RightUnique (Image φ) := by
  rintro _ _ _ ⟨hb⟩ ⟨hc⟩
  have htagsOf := hb.tags
  have htagsOf' := hc.tags
  rw [htags] at htagsOf htagsOf'
  exact congrArg (Entity.mk _) (Resource.ext_of (hb.id.trans hc.id.symm)
    (hb.detail.trans hc.detail.symm) (htagsOf.symm.trans htagsOf')
    (hb.createdAt.trans hc.createdAt.symm) (hb.updatedAt.trans hc.updatedAt.symm))

/-- What is written alike is so in the eyes of another run. -/
theorem WrittenAlike.image (h : a.WrittenAlike b) (ha : a.Image φ a') (hb : b.Image φ b') :
    a'.WrittenAlike b' where
  id? := by rw [ha.id?, hb.id?, h.id?]
  createdAt := by rw [ha.createdAt, hb.createdAt, h.createdAt]
  updatedAt := by rw [ha.updatedAt, hb.updatedAt, h.updatedAt]
  settings := by rw [ha.settings, hb.settings, h.settings]

end Entity

namespace Resolution

variable {φ : Relabelling} {p p' q q' : Entity × Reference} {all all' : List (Entity × Reference)}

/-- A declaration as another run sees it, with what it ends up as in its eyes. -/
abbrev SeenAs (φ : Relabelling) (p q : Entity × Reference) : Prop :=
  p.1.Image φ q.1 ∧ q.2 = p.2.rename φ.rename

/-- Declarations as another run sees them, with what they end up as in its eyes. -/
abbrev Seen (φ : Relabelling) (ps qs : List (Entity × Reference)) : Prop :=
  List.Forall₂ (SeenAs φ) ps qs

section tags

variable {ps qs : List (Entity × Reference)}

/-- Declarations that agree in their tags do so in the eyes of another run that leaves the order of
tags alone. -/
theorem TagsAgree.seen {sel : Selection} (hagree : TagsAgree sel ps) (h : Seen φ ps qs)
    (htags : φ.retag = Eq) : TagsAgree sel qs := by
  have same : ∀ {p q : Entity × Reference}, p.1.Image φ q.1 →
      (sel.apply q.1).tags = (sel.apply p.1).tags := by
    intro p q hpq
    have hretag := (hpq.apply sel).retag
    rw [htags] at hretag
    exact hretag.symm
  intro q hq q' hq' heq
  obtain ⟨p, hp, hpq, href⟩ := h.exists_of_mem_right hq
  obtain ⟨p', hp', hpq', href'⟩ := h.exists_of_mem_right hq'
  rw [same hpq, same hpq']
  refine hagree p hp p' hp' (Reference.rename_injective φ.injective ?_)
  rw [← href, ← href', heq]

end tags

/-- Two declarations end up as one object in both runs or in neither. -/
theorem SeenAs.ref_eq_iff (hp : SeenAs φ p p') (hq : SeenAs φ q q') : p'.2 = q'.2 ↔ p.2 = q.2 := by
  rw [hp.2, hq.2]
  exact (Reference.rename_injective φ.injective).eq_iff

/-- What gives up an id in the eyes of another run gives one up. -/
theorem SeenAs.givesUp {kind : Kind} {a : String} (hp : SeenAs φ p p')
    (h : GivesUp kind (φ.rename a) p') : GivesUp kind a p := by
  obtain ⟨himage, href⟩ := hp
  obtain ⟨hk, hid, hne⟩ := h
  rw [himage.id?] at hid
  refine ⟨himage.kind.symm.trans hk, Option.map_injective φ.injective hid, fun heq => hne ?_⟩
  rw [href, ← heq]
  rfl

/-- What does not show does not show in the eyes of another run. -/
theorem Exchangeable.seen (h : Exchangeable all p q) (hall : Seen φ all all') (hp : SeenAs φ p p')
    (hq : SeenAs φ q q') : Exchangeable all' p' q' where
  moves := by
    intro x hx l hl a ha hup hup'
    obtain ⟨y, hy, hyx, -⟩ := hall.exists_of_mem_right hx
    rw [hyx.links] at hl
    obtain ⟨⟨kind, fk⟩, hfk, rfl⟩ := List.mem_map.1 hl
    obtain ⟨b, hb, rfl⟩ := Option.mem_map.1 ha
    exact (hp.ref_eq_iff hq).2 (h.moves y hy _ hfk b hb (hp.givesUp hup) (hq.givesUp hup'))
  alike heq := (h.alike ((hp.ref_eq_iff hq).1 heq)).image hp.1 hq.1

section numbered

variable {ps ps' qs qs' : List ((Entity × Reference) × Nat)}

/-- Declarations with their numbers, as another run sees them. -/
abbrev NumberedAs (φ : Relabelling) (ps qs : List ((Entity × Reference) × Nat)) : Prop :=
  List.Forall₂ (fun a b => SeenAs φ a.1 b.1 ∧ b.2 = a.2) ps qs

/-- Another run gives the same numbers to the declarations that it sees. -/
theorem exists_numberedAs (h : Seen φ (ps.map Prod.fst) all) :
    ∃ ps', ps'.map Prod.fst = all ∧ NumberedAs φ ps ps' := by
  induction ps generalizing all with
  | nil =>
    cases h
    exact ⟨[], rfl, .nil⟩
  | cons a rest ih =>
    cases h with
    | @cons _ q _ _ hfirst hrest =>
      obtain ⟨rest', rfl, hrest'⟩ := ih hrest
      exact ⟨(q, a.2) :: rest', rfl, .cons ⟨hfirst, rfl⟩ hrest'⟩

/-- Numbers apart, declarations are seen one by one. -/
theorem NumberedAs.seen (h : NumberedAs φ ps qs) : Seen φ (ps.map Prod.fst) (qs.map Prod.fst) := by
  rw [Seen, List.forall₂_map_left_iff, List.forall₂_map_right_iff]
  exact h.imp fun _ _ hab => hab.1

/-- Another run sees the numbers in the same order. -/
theorem NumberedAs.numbers (h : NumberedAs φ ps qs) : qs.map Prod.snd = ps.map Prod.snd := by
  induction h with
  | nil => rfl
  | cons hfirst _ ih => rw [List.map_cons, List.map_cons, ih, hfirst.2]

/-- What overtakes freely does so in the eyes of another run. -/
theorem OvertakesFreely.seen (h : OvertakesFreely ps qs) (hps : NumberedAs φ ps ps')
    (hqs : NumberedAs φ qs qs') (hperm : ps'.Perm qs') : OvertakesFreely ps' qs' where
  perm := hperm
  numbers := by
    rw [hps.numbers]
    exact h.numbers
  exchangeable := by
    intro a' b' hab' hba'
    obtain ⟨_, hab, hpair⟩ := hps.exists_sublist hab'
    obtain ⟨_, hba, hpair'⟩ := hqs.exists_sublist hba'
    obtain ⟨a, _, ha, hrest, rfl⟩ := List.forall₂_cons_right_iff.1 hpair
    obtain ⟨b, _, hb, hnil, rfl⟩ := List.forall₂_cons_right_iff.1 hrest
    obtain ⟨b₁, _, hb₁, hrest', rfl⟩ := List.forall₂_cons_right_iff.1 hpair'
    obtain ⟨a₁, _, ha₁, hnil', rfl⟩ := List.forall₂_cons_right_iff.1 hrest'
    cases hnil
    cases hnil'
    -- a number tells which declaration it is in the other order
    have same : ∀ {x y : (Entity × Reference) × Nat}, x ∈ ps → y ∈ qs → x.2 = y.2 → x = y :=
      fun hx hy heq => List.inj_on_of_nodup_map h.numbers hx (h.perm.symm.subset hy) heq
    obtain rfl := same (hab.subset (by simp)) (hba.subset (by simp)) (ha.2.symm.trans ha₁.2)
    obtain rfl := same (hab.subset (by simp)) (hba.subset (by simp)) (hb.2.symm.trans hb₁.2)
    exact (h.exchangeable _ _ hab hba).seen hps.seen ha.1 hb.1

/-- In another order of the declarations they are seen with the same numbers, in the order in which
the other run sees their entities. -/
theorem exists_numberedAs_of_perm {es es' : List Entity} (hps : NumberedAs φ ps ps')
    (hperm : qs.Perm ps) (hqs : (qs.map Prod.fst).map Prod.fst = es)
    (hes : List.Forall₂ (Entity.Image φ) es es') (htags : φ.retag = Eq) :
    ∃ qs', NumberedAs φ qs qs' ∧ qs'.Perm ps' ∧ (qs'.map Prod.fst).map Prod.fst = es' := by
  obtain ⟨qs', hnumbered, hperm'⟩ := List.perm_comp_forall₂ hperm hps
  refine ⟨qs', hnumbered, hperm', (Entity.rightUnique_image htags).forall₂ ?_ (hqs ▸ hes)⟩
  rw [List.forall₂_map_left_iff, List.forall₂_map_right_iff]
  exact (NumberedAs.seen hnumbered).imp fun _ _ h => h.1

end numbered

end Resolution

namespace Content

open Planning Resolution

variable {c c' : Content} {o : Options} {current desired : State} {s t : IdSupply} {n : Nat}

/-- The texts in which ids stand, of a document and of what the gateway holds. -/
def allIdTexts (c : Content) (current : State) : List String :=
  c.idTexts ++ current.entities.flatMap Entity.idTexts

/-- The image of a document is flattened into the images of its entities, and takes the ids that
stand in the place of those that the document takes. -/
theorem Image.exists_takes {φ : Relabelling} {taken : List String} {es : List Entity}
    (h : c.Image φ c') (hes : Takes c.flatten taken es) :
    ∃ es', Takes c'.flatten (taken.map φ.rename) es' ∧ List.Forall₂ (Entity.Image φ) es es' := by
  obtain ⟨s, hs⟩ := IdSupply.exists_offers taken
  obtain ⟨k, hk, hall⟩ := h.follows_flatten s es _ (hes s hs)
  obtain rfl := IdSupply.after_inj hk
  obtain ⟨es', hes', himage⟩ := hall (s.rename φ.rename) (s.echoes_rename φ.rename _)
  obtain ⟨taken', hoffers, hafter, htakes⟩ := c'.isLocal_flatten _ _ _ hes'
  have hlength : taken.length = taken'.length := IdSupply.after_inj hafter
  refine ⟨es', ?_, himage⟩
  rw [← hs, ← (s.echoes_rename φ.rename _).map_next, hlength, hoffers]
  exact htakes

/-- Unseen ids can be put in the place of other unseen ones, and no text looks different then. -/
theorem exists_replaces_of_unseen {texts : List String} (hfresh : Unseen texts (s.next n))
    (hfresh' : Unseen texts (t.next n)) : ∃ φ : Relabelling, φ.Replaces (s.next n) (t.next n) ∧
      s.Echoes φ.rename t n ∧ ∀ text ∈ texts, φ.rename text = text := by
  have hsingle : ∀ id ∈ s.next n ++ t.next n, id ≠ "" ∧ ':' ∉ id.toList :=
    List.forall_mem_append.2 ⟨hfresh.single, hfresh'.single⟩
  obtain ⟨φ, hreplaces, hmap⟩ := Relabelling.exists_replaces (by simp) hfresh.nodup hfresh'.nodup
    hsingle
  refine ⟨φ, hreplaces, IdSupply.echoes_of_next hmap, fun text htext => ?_⟩
  exact hreplaces.others text fun part hpart =>
    ⟨fun hmem => hfresh.unseen part hmem text htext hpart,
      fun hmem => hfresh'.unseen part hmem text htext hpart⟩

/-- A document asks for the same state whichever fresh ids it takes, but for these ids. -/
theorem exists_renewed (h : c.ResolvesFreely c' current o s n desired)
    (htexts : c'.idTexts ⊆ c.idTexts) (hfresh : Unseen (c.allIdTexts current) (s.next n))
    (hfresh' : Unseen (c.allIdTexts current) (t.next n)) :
    ∃ φ desired', φ.Replaces (s.next n) (t.next n) ∧ c.ResolvesFreely c' current o t n desired' ∧
      State.Image φ desired desired' := by
  obtain ⟨hres, taken, taken', es, es', refs, ps, qs, hoffers, hflat, hperm, hflat', hrefs, hps,
    hqs, hfree⟩ := h
  obtain ⟨φ, hreplaces, hechoes, hfixed⟩ := exists_replaces_of_unseen hfresh hfresh'
  obtain ⟨hfixedDoc, hfixedHeld⟩ := List.forall_mem_append.1 hfixed
  have hself : c.Image φ c := Content.image_self hfixedDoc
  have hself' : c'.Image φ c' := Content.image_self fun text htext => hfixedDoc text (htexts htext)
  have hheld : ∀ x ∈ current, x.Image φ x := fun x hx =>
    Entity.image_self fun id hid => hfixedHeld id (List.mem_flatMap_of_mem hx hid)
  obtain ⟨es₀, es₁, k, m, r, rfl, hes₀, -, hes₁, hordered, -, -⟩ :=
    hself.exists_flatten hrefs hechoes
  obtain ⟨rfl, hk⟩ := hes₀.unique (hflat s hoffers)
  obtain rfl := IdSupply.after_inj hk
  obtain ⟨es₂, hflat₁, -⟩ := hself.exists_takes hflat
  obtain ⟨es₁', hflat₁', himage'⟩ := hself'.exists_takes hflat'
  have hoffers₁ : t.Offers (taken.map φ.rename) := by
    rw [IdSupply.Offers, List.length_map, hechoes.left.map_next, hoffers]
  obtain ⟨rfl, -⟩ := hes₁.unique (hflat₁ t hoffers₁)
  -- the other run sees the same declarations, and resolves what it sees
  have hseen : Seen φ ((inOrder es₀).zip refs) ((inOrder es₁).zip (refs.map (.rename φ.rename))) :=
    hordered.zip_map _ refs
  have hagree := (tagsAgree_of_finalIds hes₀ hrefs).seen hseen hreplaces.tags
  obtain ⟨desired', hres', hrefs', himage⟩ := hself.exists_resolve hheld hres hrefs hechoes
    fun es₂ u hes₂ => by
      obtain ⟨rfl, -⟩ := hes₁.unique hes₂
      exact hagree
  -- what overtakes freely here does so there
  obtain ⟨ps', hps', hnumbered⟩ := exists_numberedAs (hps ▸ hseen)
  obtain ⟨qs', hnumbered', hperm', hqs'⟩ := exists_numberedAs_of_perm hnumbered hfree.perm.symm hqs
    (forall₂_inOrder (fun _ _ he => he.kind) himage') hreplaces.tags
  exact ⟨φ, desired', hreplaces, ⟨hres', _, _, es₁, es₁', _, ps', qs', hoffers₁, hflat₁,
    hperm.map _, hflat₁', hrefs', hps', hqs', hfree.seen hnumbered hnumbered' hperm'.symm⟩, himage⟩

end Content

end Gateway
