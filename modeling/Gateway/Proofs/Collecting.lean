import Mathlib.Data.List.Induction
import Gateway.Proofs.Snapshot
import Gateway.Sample

/-!
# Collecting what is given

A list of entities is collected one by one, each in the place of what had its id, and errors are
passed over. An entity whose natural key is held under another id is kept out (`Entity.KeptOut`),
and what had its own id is gone all the same. So what is collected are the entities that were not
kept out and whose ids do not come up again (`State.mem_collect_iff`), and these need not be the
last of their duplicates (`Entity.LastIn`): that depends on what follows the ones that were kept out
(`MadeGood`). Main statement: `Register.collect_exact`, for a register of one kind.
-/

namespace Gateway

/-- The places of an element in a list that is made longer by one. -/
theorem exists_split_concat_iff {α : Type} {P : List α → List α → Prop} {xs : List α} {a x : α} :
    (∃ before after, xs ++ [a] = before ++ x :: after ∧ P before after) ↔
      x = a ∧ P xs [] ∨ ∃ before after, xs = before ++ x :: after ∧ P before (after ++ [a]) := by
  constructor
  · rintro ⟨before, after, hsplit, h⟩
    rcases List.eq_nil_or_concat after with rfl | ⟨rest, b, rfl⟩
    · obtain ⟨rfl, hlast⟩ := List.append_inj' hsplit rfl
      cases hlast
      exact .inl ⟨rfl, h⟩
    · rw [List.concat_eq_append] at hsplit h
      have hsplit' : xs ++ [a] = (before ++ x :: rest) ++ [b] := by
        rw [hsplit, List.append_assoc, List.cons_append]
      obtain ⟨hxs, hlast⟩ := List.append_inj' hsplit' rfl
      cases hlast
      exact .inr ⟨before, rest, hxs, h⟩
  · rintro (⟨rfl, h⟩ | ⟨before, after, rfl, h⟩)
    · exact ⟨xs, [], rfl, h⟩
    · exact ⟨before, after ++ [a], by rw [List.append_assoc, List.cons_append], h⟩

/-- Two places in a list are the same, or one stands before the other. -/
theorem places_of_split {α : Type} {before after early late : List α} {x y : α}
    (h : before ++ x :: after = early ++ y :: late) :
    (before = early ∧ x = y ∧ after = late) ∨
      (∃ mid, early = before ++ x :: mid ∧ after = mid ++ y :: late) ∨
      ∃ mid, before = early ++ y :: mid ∧ late = mid ++ x :: after := by
  rcases List.append_eq_append_iff.1 h with ⟨mid, rfl, hmid⟩ | ⟨mid, rfl, hmid⟩
  · rcases List.cons_eq_append_iff.1 hmid with ⟨rfl, heq⟩ | ⟨rest, rfl, hrest⟩
    · obtain ⟨rfl, rfl⟩ := List.cons.inj heq
      exact .inl ⟨(List.append_nil _).symm, rfl, rfl⟩
    · exact .inr (.inl ⟨rest, rfl, hrest⟩)
  · rcases List.cons_eq_append_iff.1 hmid with ⟨rfl, heq⟩ | ⟨rest, rfl, hrest⟩
    · obtain ⟨rfl, rfl⟩ := List.cons.inj heq
      exact .inl ⟨List.append_nil _, rfl, rfl⟩
    · exact .inr (.inr ⟨rest, rfl, hrest⟩)

variable {s : State} {e x y : Entity} {es before after : List Entity} {kind : Kind}

/-! ### Putting in place, or not -/

namespace State

/-- An entity can be put in place when it has an id and no object with another id has its natural
key. -/
theorem exists_upsert_iff : (∃ t, s.upsert e = .ok t) ↔
    e.id?.isSome ∧ ∀ x ∈ s, x.SameKey e → x.ref = e.ref := by
  constructor
  · intro h
    obtain ⟨hid, -, hfree⟩ := insert_eq_ok_iff.1 h
    refine ⟨hid, fun x hx hsame => ?_⟩
    by_contra hne
    refine hfree x (mem_without.2 ⟨hx, fun hplace => hne ?_⟩) hsame.symm
    obtain ⟨hk, hid'⟩ := hplace
    rw [Entity.id?_of_isSome hid, Option.some_inj] at hid'
    rw [Entity.ref, Entity.ref, hk, hid']
  · rintro ⟨hid, hkey⟩
    exact exists_upsert hid fun x hx hsame => congrArg Reference.id (hkey x hx hsame.symm)

/-- After an attempt to put an entity in place, it is there unless it was kept out, and what had its
id is gone. -/
theorem mem_afterUpsert : x ∈ s.afterUpsert e ↔
    (x = e ∧ e.id?.isSome ∧ ∀ y ∈ s, y.SameKey e → y.ref = e.ref) ∨
      x ∈ s ∧ (e.id?.isSome → x.ref ≠ e.ref) := by
  have hwithout : x ∈ s.without e ↔ x ∈ s ∧ (e.id?.isSome → x.ref ≠ e.ref) := by
    rw [mem_without]
    refine and_congr_right fun _ => ?_
    cases hid : e.id? with
    | none => simp
    | some id =>
      have htext : e.idText = id := Entity.idText_of_id? hid
      simp [Entity.ref, htext]
  unfold afterUpsert
  cases hput : s.upsert e with
  | ok t =>
    have hplaced := exists_upsert_iff.1 ⟨t, hput⟩
    show x ∈ t ↔ _
    rw [mem_insert hput, hwithout]
    exact or_congr_left (and_iff_left hplaced).symm
  | error err =>
    have hrefused : ¬(e.id?.isSome ∧ ∀ y ∈ s, y.SameKey e → y.ref = e.ref) := by
      intro hplaced
      obtain ⟨t, ht⟩ := exists_upsert_iff.2 hplaced
      rw [hput] at ht
      cases ht
    show x ∈ s.without e ↔ _
    rw [hwithout, or_iff_right fun h => hrefused h.2]

end State

/-! ### One after the other -/

/-- An entity is kept out by another one that was collected before it and has its natural key under
another id. -/
def Entity.KeptOut (before : List Entity) (e x : Entity) : Prop :=
  x ∈ State.collect before ∧ x.SameKey e ∧ x.ref ≠ e.ref

/-- An entity is the last of its duplicates in a list: it has an id, and none of those with an id
that follow it shares its id or its natural key. -/
def Entity.LastIn (es : List Entity) (e : Entity) : Prop :=
  ∃ before after, es = before ++ e :: after ∧ e.id?.isSome ∧
    ∀ y ∈ after, y.id?.isSome → e.Apart y

/-- Wherever an entity of a list is kept out by another one, the id of that one comes up again, and
so does the id or the natural key of the entity that was kept out. -/
def MadeGood (es : List Entity) : Prop :=
  ∀ before e after, es = before ++ e :: after → e.id?.isSome → ∀ x, e.KeptOut before x →
    (∃ y ∈ after, y.id?.isSome ∧ y.ref = x.ref) ∧ ∃ y ∈ after, y.id?.isSome ∧ ¬e.Apart y

namespace State

/-- The last entity is upserted after all others. -/
theorem collect_concat (es : List Entity) (e : Entity) :
    collect (es ++ [e]) = (collect es).afterUpsert e := by
  simp [collect, List.foldl_append]

/-- What is collected are the entities with an id that were not kept out and whose ids do not come
up again. -/
theorem mem_collect_iff : e ∈ collect es ↔ ∃ before after, es = before ++ e :: after ∧
    e.id?.isSome ∧ (∀ x, ¬e.KeptOut before x) ∧ ∀ y ∈ after, y.id?.isSome → y.ref ≠ e.ref := by
  induction es using List.reverseRecOn with
  | nil => simp [collect]
  | append_singleton es a ih =>
    rw [collect_concat, mem_afterUpsert, exists_split_concat_iff, ih]
    refine or_congr ?_ ?_
    · refine and_congr_right fun heq => ?_
      subst heq
      have hfree : (∀ y ∈ collect es, y.SameKey e → y.ref = e.ref) ↔ ∀ x, ¬e.KeptOut es x := by
        simp only [Entity.KeptOut, not_and, not_not]
      rw [hfree]
      simp
    · constructor
      · rintro ⟨⟨before, after, hsplit, hid, hfree, hlater⟩, hne⟩
        refine ⟨before, after, hsplit, hid, hfree, fun y hy hyid => ?_⟩
        rcases List.mem_append.1 hy with hy | hy
        · exact hlater y hy hyid
        · rw [List.mem_singleton.1 hy] at hyid ⊢
          exact (hne hyid).symm
      · rintro ⟨before, after, hsplit, hid, hfree, hlater⟩
        refine ⟨⟨before, after, hsplit, hid, hfree, fun y hy => ?_⟩, fun haid => ?_⟩
        · exact hlater y (List.mem_append_left _ hy)
        · exact (hlater a (by simp) haid).symm

/-- What is collected was given. -/
theorem mem_of_mem_collect (h : e ∈ collect es) : e ∈ es := by
  obtain ⟨before, after, rfl, -⟩ := mem_collect_iff.1 h
  simp

/-- What has been collected is still there as long as its id does not come up again. -/
theorem mem_collect_append (h : x ∈ collect before)
    (hlater : ∀ y ∈ after, y.id?.isSome → y.ref ≠ x.ref) : x ∈ collect (before ++ after) := by
  obtain ⟨early, late, rfl, hid, hfree, hnext⟩ := mem_collect_iff.1 h
  refine mem_collect_iff.2 ⟨early, late ++ after, by simp, hid, hfree, fun y hy => ?_⟩
  rcases List.mem_append.1 hy with hy | hy
  · exact hnext y hy
  · exact hlater y hy

/-- No entity is the last of its duplicates if one that shares its natural key follows it, and its
id does not come up after that one. -/
theorem not_lastIn (hid : e.id?.isSome) (hsame : x.SameKey e) (hne : x.ref ≠ e.ref)
    (hlater : ∀ y ∈ after, y.id?.isSome → y.ref ≠ x.ref) :
    ¬x.LastIn (before ++ e :: after) := by
  rintro ⟨early, late, hsplit, hxid, hlast⟩
  rcases places_of_split hsplit with ⟨-, rfl, -⟩ | ⟨mid, -, rfl⟩ | ⟨mid, -, rfl⟩
  · exact hne rfl
  · exact hlater x (by simp) hxid rfl
  · exact (hlast e (by simp) hid).2 hsame

/-- Where the last of all duplicates are collected, what is done to those that are kept out is made
good. -/
theorem madeGood_of_lastIn (h : ∀ e, e ∈ collect es ↔ e.LastIn es) : MadeGood es := by
  rintro before e after rfl hid x hout
  obtain ⟨hx, hsame, hne⟩ := hout
  constructor
  · by_contra hno
    have hlater : ∀ y ∈ after, y.id?.isSome → y.ref ≠ x.ref := fun y hy hyid href =>
      hno ⟨y, hy, hyid, href⟩
    have hkept : x ∈ collect (before ++ e :: after) := by
      refine mem_collect_append hx fun y hy hyid => ?_
      rcases List.mem_cons.1 hy with rfl | hy
      · exact hne.symm
      · exact hlater y hy hyid
    exact not_lastIn hid hsame hne hlater ((h x).1 hkept)
  · by_contra hno
    have hlast : e.LastIn (before ++ e :: after) := by
      refine ⟨before, after, rfl, hid, fun y hy hyid => ?_⟩
      by_contra happ
      exact hno ⟨y, hy, hyid, happ⟩
    obtain ⟨early, late, hsplit, -, hfree, hlater⟩ := mem_collect_iff.1 ((h e).2 hlast)
    rcases places_of_split hsplit with ⟨rfl, -, -⟩ | ⟨mid, -, rfl⟩ | ⟨mid, -, rfl⟩
    · exact hfree x ⟨hx, hsame, hne⟩
    · exact hno ⟨e, by simp, hid, fun happ => happ.1 rfl⟩
    · exact hlater e (by simp) hid rfl

/-- Where what is done to those that are kept out is made good, the last of all duplicates are
collected. -/
theorem mem_collect_iff_lastIn (h : MadeGood es) : e ∈ collect es ↔ e.LastIn es := by
  rw [mem_collect_iff]
  constructor
  · rintro ⟨before, after, rfl, hid, hfree, hlater⟩
    refine ⟨before, after, rfl, hid, fun y hy hyid => ⟨(hlater y hy hyid).symm, ?_⟩⟩
    intro hsame
    -- the one that shares the natural key found `e` in its way, so the id of `e` comes up again
    obtain ⟨mid, rest, rfl⟩ := List.append_of_mem hy
    have he : e ∈ collect (before ++ e :: mid) := mem_collect_iff.2
      ⟨before, mid, rfl, hid, hfree, fun z hz => hlater z (List.mem_append_left _ hz)⟩
    have hout : y.KeptOut (before ++ e :: mid) e := ⟨he, hsame, (hlater y hy hyid).symm⟩
    obtain ⟨⟨z, hz, hzid, hzref⟩, -⟩ :=
      h (before ++ e :: mid) y rest (by simp) hyid e hout
    exact hlater z (by simp [hz]) hzid hzref
  · rintro ⟨before, after, rfl, hid, hlast⟩
    refine ⟨before, after, rfl, hid, fun x hout => ?_, fun y hy hyid => ?_⟩
    · obtain ⟨-, y, hy, hyid, hnot⟩ := h before e after rfl hid x hout
      exact hnot (hlast y hy hyid)
    · exact (hlast y hy hyid).1.symm

end State

/-! ### Registers -/

/-- What becomes of a kind when an object of the kind is put in place becomes of its register. -/
theorem Registry.after_upsert_kind (v : Registry) (e : Entity) :
    v.after (.upsert e) e.kind = stateLeft ((Register.upsert e).run (v e.kind)) := by
  simp only [Registry.after, Registry.left, Registry.upsert, Registry.onKind, EStateM.run]
  cases Register.upsert e (v e.kind) <;> exact Function.update_self _ _ _

namespace Register

/-- The register of a list of objects of one kind, each in the place of what had its id; errors are
passed over. -/
def collect (es : List Entity) : Register :=
  es.foldl (fun g e => stateLeft ((upsert e).run g)) {}

variable (hkind : ∀ e ∈ es, e.kind = kind)

include hkind

/-- Objects of one kind are collected in its register as they are in a state. -/
theorem index_collect : (collect es).index = (State.collect es).catalog kind := by
  have hfold : ∀ v : Registry, (es.foldl (fun v e => v.after (.upsert e)) v) kind =
      es.foldl (fun g e => stateLeft ((upsert e).run g)) (v kind) := by
    induction es with
    | nil => exact fun _ => rfl
    | cons a rest ih =>
      intro v
      obtain ⟨rfl, hrest⟩ := List.forall_mem_cons.1 hkind
      rw [List.foldl_cons, List.foldl_cons, ih hrest, Registry.after_upsert_kind]
  have hhistory := Registry.catalog_foldl_after Registry.catalog_empty (es.map .upsert)
  rw [List.foldl_map, List.foldl_map] at hhistory
  rw [collect, ← show Registry.empty kind = ({} : Register) from rfl, ← hfold Registry.empty]
  exact congrFun hhistory kind

/-- Objects of one kind are listed by their register as they are by a state. -/
theorem values_collect : (collect es).values = (State.collect es).entities := by
  rw [values_eq_ofKind (index_collect hkind)]
  refine List.filter_eq_self.2 fun e he => ?_
  rw [hkind e (State.mem_of_mem_collect he), beq_self_eq_true]

/-- The register lists what the state of all entities holds. -/
theorem mem_values_collect : e ∈ (collect es).values ↔ e ∈ State.collect es := by
  rw [values_collect hkind, State.mem_def]

/-- What is collected is found under its id. -/
theorem byId_collect_iff {id : String} :
    (collect es).byId[id]? = some e ↔ e ∈ (collect es).values ∧ e.id? = some id := by
  have hlook : (collect es).byId[id]? = (State.collect es).get? kind id :=
    congrFun (congrArg Index.byId (index_collect hkind)) id
  rw [hlook, State.get?_eq_some_iff, mem_values_collect hkind]
  refine and_congr_right fun he => ?_
  rw [State.id?_of_mem he, Option.some_inj]
  exact and_iff_right (hkind e (State.mem_of_mem_collect he))

/-- What is collected is found under its natural key. -/
theorem getByKey?_collect_iff {key : NaturalKey} :
    (collect es).getByKey? key = some e ↔ e ∈ (collect es).values ∧ e.naturalKey? = some key := by
  rw [getByKey?_eq (index_collect hkind), State.getByKey?_eq_some_iff, mem_values_collect hkind]
  refine and_congr_right fun he => ?_
  exact and_iff_right (hkind e (State.mem_of_mem_collect he))

omit hkind

/-- Collecting a list of entities of one kind: the register lists what the state of the list lists,
and holds those entities that have an id, were not kept out by one that held their natural key under
another id when their turn came, and whose ids do not come up again. Each is found under its id and
under its natural key, and nothing else is found. These are the last of all duplicates if and only
if, wherever an entity is kept out by another one, the id of that one comes up again later, and so
does the id or the natural key of the entity that was kept out. -/
theorem collect_exact (kind : Kind) (es : List Entity) (hkind : ∀ e ∈ es, e.kind = kind) :
    (collect es).values = (State.collect es).entities ∧
    (∀ e, e ∈ (collect es).values ↔ ∃ before after, es = before ++ e :: after ∧ e.id?.isSome ∧
      (∀ x, ¬e.KeptOut before x) ∧ ∀ y ∈ after, y.id?.isSome → y.ref ≠ e.ref) ∧
    (∀ e id, (collect es).byId[id]? = some e ↔ e ∈ (collect es).values ∧ e.id? = some id) ∧
    (∀ e key, (collect es).getByKey? key = some e ↔
      e ∈ (collect es).values ∧ e.naturalKey? = some key) ∧
    ((∀ e, e ∈ (collect es).values ↔ e.LastIn es) ↔ MadeGood es) := by
  refine ⟨values_collect hkind, fun e => ?_, fun e id => byId_collect_iff hkind,
    fun e key => getByKey?_collect_iff hkind, ?_⟩
  · rw [mem_values_collect hkind]
    exact State.mem_collect_iff
  · have hvalues : (∀ e, e ∈ (collect es).values ↔ e.LastIn es) ↔
        ∀ e, e ∈ State.collect es ↔ e.LastIn es :=
      forall_congr' fun e => iff_congr (mem_values_collect hkind) Iff.rfl
    rw [hvalues]
    exact ⟨State.madeGood_of_lastIn, fun hgood e => State.mem_collect_iff_lastIn hgood⟩

/-- A service, another one with its name, and the first one again: the second is kept out by the
first, and the third makes this good. -/
def givenTwice : List Entity :=
  [Sample.service "s1" "a", Sample.service "s2" "a", Sample.service "s1" "a"]

/-- The second of two services with one name is not held. -/
theorem second_kept_out : Sample.service "s2" "a" ∉
    State.collect [Sample.service "s1" "a", Sample.service "s2" "a"] := by
  intro hheld
  have hnone : (State.collect [Sample.service "s1" "a", Sample.service "s2" "a"]).contains
      .service "s2" = false := by decide +kernel
  cases hnone.symm.trans (State.contains_of_mem hheld)

theorem madeGood_givenTwice : MadeGood givenTwice := by
  intro before e after hsplit hid x hout
  obtain ⟨hx, -, hne⟩ := hout
  have hgiven := State.mem_of_mem_collect hx
  match before, hsplit with
  | [], _ => cases hgiven
  | [_], hsplit =>
    cases hsplit
    cases List.mem_singleton.1 hgiven
    exact ⟨⟨_, List.mem_cons_self, rfl, rfl⟩, _, List.mem_cons_self, rfl,
      fun happ => happ.2 ⟨rfl, rfl, rfl⟩⟩
  | [_, _], hsplit =>
    cases hsplit
    rcases List.mem_cons.1 hgiven with rfl | hgiven
    · exact absurd rfl hne
    · cases List.mem_singleton.1 hgiven
      exact absurd hx second_kept_out
  | [_, _, _], hsplit => cases hsplit
  | _ :: _ :: _ :: _ :: _, hsplit => cases hsplit

/-- The last of the three services is held, it is found by its name, and it is the last of all its
duplicates. -/
theorem collected_of_givenTwice : (∀ e ∈ givenTwice, e.kind = .service) ∧
    (∀ e, e ∈ (collect givenTwice).values ↔ e.LastIn givenTwice) ∧
    (collect givenTwice).getByKey? ⟨["a"]⟩ = some (Sample.service "s1" "a") := by
  have hkind : ∀ e ∈ givenTwice, e.kind = .service := by
    intro e he
    simp only [givenTwice, List.mem_cons, List.not_mem_nil, or_false] at he
    rcases he with rfl | rfl | rfl <;> rfl
  obtain ⟨-, -, -, hkey, hlast⟩ := collect_exact .service givenTwice hkind
  have hall := hlast.2 madeGood_givenTwice
  refine ⟨hkind, hall, (hkey _ _).2 ⟨(hall _).2 ?_, rfl⟩⟩
  exact ⟨[Sample.service "s1" "a", Sample.service "s2" "a"], [], rfl, rfl, by simp⟩

/-- Of two services with one name the first is held and not the last. -/
theorem not_always_last : ¬∀ (kind : Kind) (es : List Entity), (∀ e ∈ es, e.kind = kind) →
    ∀ e, e ∈ (collect es).values ↔ e.LastIn es := by
  intro h
  have hkind : ∀ e ∈ [Sample.service "s1" "a", Sample.service "s2" "a"], e.kind = .service := by
    intro e he
    simp only [List.mem_cons, List.not_mem_nil, or_false] at he
    rcases he with rfl | rfl <;> rfl
  have hlast : (Sample.service "s2" "a").LastIn
      [Sample.service "s1" "a", Sample.service "s2" "a"] :=
    ⟨[Sample.service "s1" "a"], [], rfl, rfl, by simp⟩
  exact second_kept_out ((mem_values_collect hkind).1 ((h .service _ hkind _).2 hlast))

end Register

end Gateway
