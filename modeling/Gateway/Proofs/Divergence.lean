import Gateway.Proofs.Reading

/-!
# Differences are where values diverge

Two values diverge at a sequence of keys when both hold maps at every proper prefix of it, and at
its end they hold different values, not both maps (`Value.Diverge`). The differences between two
maps are these places, each once and in ascending order, with what the two maps hold there, and what
is reported of each is its path and these two values (`Value.differences_exact`). Replaying them on
the first map (`Value.replay`) makes it the second.

Maps are compared key by key, so everything here goes by induction on two values side by side
(`Value.SideBySide`): values that are not both maps are compared as a whole, and what two maps show
under a key is what the values under this key show (`Value.getD_get?_groups`).
-/

namespace Gateway

namespace Dict

variable {α β : Type}

/-- Store a value under a key, or remove the key when there is none. -/
def put (d : Dict α) (key : String) : Option α → Dict α
  | some value => insert d key value
  | none => erase d key

/-- What is put under a key is found there, and everything else is found as before. -/
theorem get?_put (d : Dict α) (key k : String) (value : Option α) :
    get? (put d key value) k = if key = k then value else get? d k := by
  cases value with
  | none => exact get?_erase d key k
  | some value => exact get?_insert d key k value

/-- The keys stay in order. -/
theorem Sorted.put {d : Dict α} (h : Sorted d) (key : String) (value : Option α) :
    Sorted (Dict.put d key value) := by
  cases value with
  | none => exact h.erase key
  | some value => exact h.insert key value

/-- What is found is what was found before, changed. -/
theorem get?_mapValues (f : α → β) (d : Dict α) (key : String) :
    get? (mapValues f d) key = (get? d key).map f := by
  induction d with
  | nil => rfl
  | cons e rest ih =>
    change (if e.1 = key then some (f e.2) else get? (mapValues f rest) key) = _
    rw [ih, get?]
    split <;> rfl

/-- Changing the values leaves the order of keys alone. -/
theorem Sorted.mapValues {d : Dict α} (h : Sorted d) (f : α → β) : Sorted (Dict.mapValues f d) :=
  List.pairwise_map.2 h

end Dict

namespace Value

variable {v w : Option Value} {old new : Settings} {keys : List String} {key : String}
  {d : Difference}

/-! ### Places -/

/-- What a value holds at the end of a sequence of keys. -/
def at? : Option Value → List String → Option Value
  | v, [] => v
  | some (map m), key :: rest => at? (Dict.get? m key) rest
  | _, _ :: _ => none

/-- Nothing is found inside what is missing. -/
@[simp] theorem at?_none (keys : List String) : at? none keys = none := by
  cases keys <;> rfl

/-- Both are maps. -/
def BothMaps (v w : Option Value) : Prop := ∃ m n, v = some (map m) ∧ w = some (map n)

/-- Two values diverge at a sequence of keys: both hold maps at every proper prefix, and at its end
they hold different values, or only one of them holds a value; but not both hold maps there. -/
structure Diverge (v w : Option Value) (keys : List String) : Prop where
  above : ∀ p, p <+: keys → p ≠ keys → BothMaps (at? v p) (at? w p)
  differ : sameOption (at? v keys) (at? w keys) = false
  notMaps : ¬BothMaps (at? v keys) (at? w keys)

/-- At the values themselves there is a difference when they are not the same, and not both maps. -/
theorem diverge_nil_iff : Diverge v w [] ↔ sameOption v w = false ∧ ¬BothMaps v w := by
  constructor
  · rintro ⟨-, hdiffer, hmaps⟩
    exact ⟨hdiffer, hmaps⟩
  · rintro ⟨hdiffer, hmaps⟩
    exact ⟨fun p hp hne => absurd (List.prefix_nil.1 hp) hne, hdiffer, hmaps⟩

/-- Only maps diverge below, and they do where what they hold under the first key does. -/
theorem diverge_cons_iff : Diverge v w (key :: keys) ↔
    ∃ m n, v = some (map m) ∧ w = some (map n) ∧
      Diverge (Dict.get? m key) (Dict.get? n key) keys := by
  constructor
  · rintro ⟨habove, hdiffer, hmaps⟩
    obtain ⟨m, n, rfl, rfl⟩ := habove [] List.nil_prefix (List.cons_ne_nil _ _).symm
    refine ⟨m, n, rfl, rfl, fun p hp hne => ?_, hdiffer, hmaps⟩
    exact habove (key :: p) (List.cons_prefix_cons.2 ⟨rfl, hp⟩) fun heq => hne (List.cons.inj heq).2
  · rintro ⟨m, n, rfl, rfl, habove, hdiffer, hmaps⟩
    refine ⟨fun p hp hne => ?_, hdiffer, hmaps⟩
    rcases List.prefix_cons_iff.1 hp with rfl | ⟨q, rfl, hq⟩
    · exact ⟨m, n, rfl, rfl⟩
    · exact habove q hq fun heq => hne (congrArg (key :: ·) heq)

/-! ### Values side by side -/

/-- A property of any two values that are not both maps, and of two maps when what they hold under
each key has it. -/
structure SideBySide (P : Option Value → Option Value → Prop) : Prop where
  leaf : ∀ v w, ¬BothMaps v w → P v w
  maps : ∀ old new, Dict.Sorted old → Dict.Sorted new →
    (∀ key, P (Dict.get? old key) (Dict.get? new key)) → P (some (map old)) (some (map new))

namespace SideBySide

variable {P : Option Value → Option Value → Prop}

/-- What is missing is not a map, so it is looked at as it is. -/
theorem leaf_none (h : SideBySide P) (w : Option Value) : P none w :=
  h.leaf none w (by rintro ⟨m, n, hv, -⟩; cases hv)

mutual

/-- Values are gone through side by side, the recursion being on the first one. -/
theorem holds_some (h : SideBySide P) : (v : Value) → v.WellFormed → ∀ w : Option Value,
    (∀ x ∈ w, x.WellFormed) → P (some v) w
  | null, _, w, _ | bool _, _, w, _ | num _, _, w, _ | str _, _, w, _ | list _, _, w, _ =>
    h.leaf _ w (by rintro ⟨m, n, hv, -⟩; cases hv)
  | map old, hv, w, hw => by
    by_cases hmaps : BothMaps (some (map old)) w
    · obtain ⟨m, new, -, rfl⟩ := hmaps
      have hnew := hw _ rfl
      rw [WellFormed] at hv hnew
      refine h.maps old new hv.1 hnew.1 fun key => holds_get? h old hv.2 key _ fun x hx => ?_
      exact wellFormedEntries_iff.1 hnew.2 _ (Dict.mem_of_get? hx)
    · exact h.leaf _ w hmaps

/-- The same of what is found under a key, if anything is. -/
theorem holds_get? (h : SideBySide P) : (entries : List (String × Value)) →
    WellFormedEntries entries → ∀ key, ∀ w : Option Value, (∀ x ∈ w, x.WellFormed) →
      P (Dict.get? entries key) w
  | [], _, _, w, _ => h.leaf_none w
  | (k, v) :: rest, hes, key, w, hw => by
    rw [WellFormedEntries] at hes
    rw [Dict.get?]
    split
    · exact holds_some h v hes.1 w hw
    · exact holds_get? h rest hes.2 key w hw

end

/-- Any two well-formed values have such a property. -/
theorem holds (h : SideBySide P) (hv : ∀ x ∈ v, x.WellFormed) (hw : ∀ x ∈ w, x.WellFormed) :
    P v w := by
  cases v with
  | none => exact h.leaf_none w
  | some v => exact h.holds_some v (hv v rfl) w hw

end SideBySide

/-! ### Differences between what is held under a key -/

/-- The differences between two values that may be absent. -/
def differencesOption : Option Value → Option Value → List Difference
  | some v, w => differencesFrom v w
  | none, some w => [⟨[], none, some w⟩]
  | none, none => []

/-- Values that are not both maps are compared as a whole. -/
theorem differencesOption_of_not_maps (h : ¬BothMaps v w) :
    differencesOption v w = if sameOption v w then [] else [⟨[], v, w⟩] := by
  cases v with
  | none => cases w <;> rfl
  | some v =>
    rw [differencesOption]
    refine differencesFrom.eq_2 v w fun old new hv hw => h ⟨old, new, ?_, hw⟩
    rw [hv]

/-- The differences under each key of two maps. -/
def groups (old new : Settings) : List (String × List Difference) :=
  entryDifferences old new ++ additions old new

/-- Under an old key there are the differences of what stands there and what stands there now. -/
theorem get?_entryDifferences (old new : Settings) (key : String) :
    Dict.get? (entryDifferences old new) key =
      (Dict.get? old key).map fun v => differencesFrom v (Dict.get? new key) := by
  induction old with
  | nil => rfl
  | cons e rest ih =>
    obtain ⟨k, v⟩ := e
    rw [entryDifferences, Dict.get?, Dict.get?, ih]
    split
    · rename_i hk
      rw [hk, Option.map_some]
    · rfl

/-- Old entries come in order, and so do their differences. -/
theorem sorted_entryDifferences (h : Dict.Sorted old) :
    Dict.Sorted (entryDifferences old new) := by
  have hkeys : (entryDifferences old new).map (·.1) = old.map (·.1) := by
    clear h
    induction old with
    | nil => rfl
    | cons e rest ih => rw [entryDifferences, List.map_cons, List.map_cons, ih]
  have hascend : (old.map (·.1)).Pairwise (· < ·) := List.pairwise_map.2 h
  rw [← hkeys] at hascend
  exact List.pairwise_map.1 hascend

/-- What two maps show under a key is what the values under this key show. -/
theorem getD_get?_groups (hold : Dict.Sorted old) (hnew : Dict.Sorted new) (key : String) :
    (Dict.get? (Dict.ofList (groups old new)) key).getD [] =
      differencesOption (Dict.get? old key) (Dict.get? new key) := by
  have hadded : additions old new = Dict.mapValues (fun w => [⟨[], none, some w⟩])
      (new.filter fun e => (Dict.get? old e.1).isNone) := rfl
  rw [groups, Dict.get?_ofList_append, Dict.ofList_of_sorted (sorted_entryDifferences hold), hadded,
    Dict.ofList_of_sorted (Dict.Sorted.mapValues (hnew.filter _) _), Dict.get?_mapValues,
    Dict.get?_filter fun key => (Dict.get? old key).isNone, get?_entryDifferences]
  cases Dict.get? old key with
  | some v => rfl
  | none => cases Dict.get? new key <;> rfl

/-- Two maps differ by the differences under their keys, in the order of keys. -/
theorem differencesOption_maps : differencesOption (some (map old)) (some (map new)) =
    inKeyOrder (groups old new) :=
  differencesFrom.eq_1 old new

/-- A difference between two maps is one under some key. -/
theorem mem_differencesOption_maps (hold : Dict.Sorted old) (hnew : Dict.Sorted new) :
    d ∈ differencesOption (some (map old)) (some (map new)) ↔
      ∃ key, ∃ e ∈ differencesOption (Dict.get? old key) (Dict.get? new key), e.under key = d := by
  rw [differencesOption_maps, inKeyOrder, List.mem_flatMap]
  constructor
  · rintro ⟨g, hg, hd⟩
    obtain ⟨e, he, rfl⟩ := List.mem_map.1 hd
    refine ⟨g.1, e, ?_, rfl⟩
    rw [← getD_get?_groups hold hnew, Dict.get?_of_mem (Dict.sorted_ofList _) hg]
    exact he
  · rintro ⟨key, e, he, rfl⟩
    rw [← getD_get?_groups hold hnew] at he
    cases hget : Dict.get? (Dict.ofList (groups old new)) key with
    | none =>
      rw [hget] at he
      cases he
    | some es =>
      rw [hget] at he
      exact ⟨(key, es), Dict.mem_of_get? hget, List.mem_map.2 ⟨e, he, rfl⟩⟩

/-! ### The differences are where the values diverge -/

/-- A difference is a place where the two values diverge, with what they hold there. -/
theorem mem_differencesOption_iff (hv : ∀ x ∈ v, x.WellFormed) (hw : ∀ x ∈ w, x.WellFormed) :
    ∀ d, d ∈ differencesOption v w ↔
      Diverge v w d.keys ∧ d.old = at? v d.keys ∧ d.new = at? w d.keys := by
  refine SideBySide.holds (P := fun v w => ∀ d, d ∈ differencesOption v w ↔
    Diverge v w d.keys ∧ d.old = at? v d.keys ∧ d.new = at? w d.keys) ⟨?leaf, ?maps⟩ hv hw
  case leaf =>
    intro v w hmaps d
    obtain ⟨keys, x, y⟩ := d
    rw [differencesOption_of_not_maps hmaps]
    cases keys with
    | nil =>
      rw [diverge_nil_iff]
      cases hsame : sameOption v w <;> simp [at?, hmaps]
    | cons key rest =>
      rw [diverge_cons_iff]
      constructor
      · intro hd
        split at hd
        · cases hd
        · cases List.mem_singleton.1 hd
      · rintro ⟨⟨m, n, hv, hw, -⟩, -⟩
        exact absurd ⟨m, n, hv, hw⟩ hmaps
  case maps =>
    intro old new hold hnew ih d
    obtain ⟨keys, x, y⟩ := d
    rw [mem_differencesOption_maps hold hnew]
    constructor
    · rintro ⟨key, e, he, heq⟩
      cases heq
      obtain ⟨hdiverge, hx, hy⟩ := (ih key e).1 he
      exact ⟨diverge_cons_iff.2 ⟨old, new, rfl, rfl, hdiverge⟩, hx, hy⟩
    · rintro ⟨hdiverge, hx, hy⟩
      cases keys with
      | nil => exact absurd ⟨old, new, rfl, rfl⟩ hdiverge.notMaps
      | cons key rest =>
        obtain ⟨m, n, hm, hn, hdiverge⟩ := diverge_cons_iff.1 hdiverge
        cases hm
        cases hn
        exact ⟨key, ⟨rest, x, y⟩, (ih key _).2 ⟨hdiverge, hx, hy⟩, rfl⟩

/-- Differences come in ascending order of their keys. -/
theorem pairwise_differencesOption (hv : ∀ x ∈ v, x.WellFormed) (hw : ∀ x ∈ w, x.WellFormed) :
    (differencesOption v w).Pairwise (·.keys < ·.keys) := by
  refine SideBySide.holds (P := fun v w => (differencesOption v w).Pairwise (·.keys < ·.keys))
    ⟨?leaf, ?maps⟩ hv hw
  case leaf =>
    intro v w hmaps
    rw [differencesOption_of_not_maps hmaps]
    split
    · exact .nil
    · exact List.pairwise_singleton _ _
  case maps =>
    intro old new hold hnew ih
    rw [differencesOption_maps, inKeyOrder, List.pairwise_flatMap]
    constructor
    · intro g hg
      have hgroup := getD_get?_groups hold hnew g.1
      rw [Dict.get?_of_mem (Dict.sorted_ofList _) hg] at hgroup
      have hkeys : g.2.Pairwise (·.keys < ·.keys) := by
        rw [show g.2 = _ from hgroup]
        exact ih g.1
      exact List.pairwise_map.2 (hkeys.imp List.cons_lt_cons_self.2)
    · refine (Dict.sorted_ofList (groups old new)).imp fun {g g'} hlt d hd d' hd' => ?_
      obtain ⟨e, -, rfl⟩ := List.mem_map.1 hd
      obtain ⟨e', -, rfl⟩ := List.mem_map.1 hd'
      exact List.cons_lt_cons_iff.2 (.inl hlt)

/-! ### Replaying -/

/-- A value with another one, or none, put at the end of a sequence of keys. -/
def putAt (v : Option Value) (keys : List String) (x : Option Value) : Option Value :=
  match keys, v with
  | [], _ => x
  | key :: rest, some (map m) => some (map (Dict.put m key (putAt (Dict.get? m key) rest x)))
  | _ :: _, v => v

/-- What becomes of a value when the new values of differences are put in their places in turn. -/
def replay (ds : List Difference) (v : Option Value) : Option Value :=
  ds.foldl (fun v d => putAt v d.keys d.new) v

/-- Differences are made good one after the other. -/
theorem replay_append (ds es : List Difference) (v : Option Value) :
    replay (ds ++ es) v = replay es (replay ds v) :=
  List.foldl_append

/-- Differences under a key are replayed on what is held under it. -/
theorem replay_under {m : Settings} (hm : Dict.Sorted m) (ds : List Difference) (key : String) :
    ∃ m', replay (ds.map (Difference.under key)) (some (map m)) = some (map m') ∧ Dict.Sorted m' ∧
      ∀ j, Dict.get? m' j = if key = j then replay ds (Dict.get? m key) else Dict.get? m j := by
  induction ds generalizing m with
  | nil =>
    refine ⟨m, rfl, hm, fun j => ?_⟩
    split
    · rename_i hj
      rw [hj]
      rfl
    · rfl
  | cons d ds ih =>
    obtain ⟨m', hm', hsorted, hget⟩ :=
      ih (hm.put key (putAt (Dict.get? m key) d.keys d.new))
    refine ⟨m', hm', hsorted, fun j => ?_⟩
    rw [hget, Dict.get?_put, if_pos rfl, Dict.get?_put]
    split <;> rfl

/-- The differences under different keys do not disturb each other. -/
theorem replay_flatMap {m : Settings} (hm : Dict.Sorted m) {gs : Dict (List Difference)}
    (hgs : Dict.Sorted gs) :
    ∃ m', replay (gs.flatMap fun g => g.2.map (Difference.under g.1)) (some (map m)) =
        some (map m') ∧ Dict.Sorted m' ∧
      ∀ j, Dict.get? m' j = replay ((Dict.get? gs j).getD []) (Dict.get? m j) := by
  induction gs generalizing m with
  | nil => exact ⟨m, rfl, hm, fun _ => rfl⟩
  | cons g gs ih =>
    obtain ⟨key, ds⟩ := g
    obtain ⟨hlt, hrest⟩ := List.pairwise_cons.1 hgs
    obtain ⟨m₁, hm₁, hsorted₁, hget₁⟩ := replay_under hm ds key
    obtain ⟨m₂, hm₂, hsorted₂, hget₂⟩ := ih hsorted₁ hrest
    refine ⟨m₂, ?_, hsorted₂, fun j => ?_⟩
    · rw [List.flatMap_cons, replay_append, hm₁, hm₂]
    · rw [hget₂, hget₁, Dict.get?]
      split
      · rename_i hj
        subst hj
        rw [Dict.get?_eq_none_of_lt hlt]
        rfl
      · rfl

/-- Replaying the differences on the first value makes it the second. -/
theorem same_replay (hv : ∀ x ∈ v, x.WellFormed) (hw : ∀ x ∈ w, x.WellFormed) :
    sameOption (replay (differencesOption v w) v) w = true := by
  refine SideBySide.holds (P := fun v w => sameOption (replay (differencesOption v w) v) w = true)
    ⟨?leaf, ?maps⟩ hv hw
  case leaf =>
    intro v w hmaps
    rw [differencesOption_of_not_maps hmaps]
    split
    · rename_i hsame
      exact hsame
    · exact sameOption_self w
  case maps =>
    intro old new hold hnew ih
    obtain ⟨m, hm, hsorted, hget⟩ := replay_flatMap hold (Dict.sorted_ofList (groups old new))
    rw [differencesOption_maps, inKeyOrder, hm, sameOption, same, sameEntries_iff hsorted hnew]
    intro key
    rw [hget, getD_get?_groups hold hnew]
    exact ih key

/-! ### Paths -/

/-- Once a path is not empty, every further key is joined to it by a point. -/
theorem foldl_dotted {path : String} (h : path ≠ "") (keys : List String) :
    keys.foldl (fun path key => if path.isEmpty then key else path ++ "." ++ key) path =
      ".".intercalate (path :: keys) := by
  induction keys generalizing path with
  | nil => simp
  | cons key keys ih =>
    have hne : path ++ "." ++ key ≠ "" := by simp [String.append_eq_empty_iff]
    rw [List.foldl_cons, if_neg (by simpa using h), ih hne, String.intercalate_cons_append,
      String.intercalate_cons_cons]

/-- The path of a sequence of keys is the keys joined by points, from the first on that is not
empty. -/
theorem dotted_eq (keys : List String) :
    FieldChange.dotted keys = ".".intercalate (keys.dropWhile String.isEmpty) := by
  unfold FieldChange.dotted
  induction keys with
  | nil => rfl
  | cons key keys ih =>
    rw [List.foldl_cons, if_pos (by rfl), List.dropWhile_cons]
    by_cases hkey : key = ""
    · subst hkey
      simpa using ih
    · rw [if_neg (by simpa using hkey)]
      exact foldl_dotted hkey keys

/-! ### Maps -/

/-- What two maps show at the end of a sequence of keys, under the path of these keys. -/
def shown (old new : Settings) (keys : List String) : FieldChange where
  path := ".".intercalate (keys.dropWhile String.isEmpty)
  old := at? (some (map old)) keys
  new := at? (some (map new)) keys

/-- The differences between two maps are exact. There is one for each sequence of keys at which the
maps diverge, and they come in ascending order of the keys. What is reported is one changed field
for each of them, in this order: its path is the keys joined by points, and it shows what the two
maps hold there. So there is no changed field exactly when the maps are the same, and replaying the
differences on the first map makes it the second. -/
theorem differences_exact (hold : (map old).WellFormed) (hnew : (map new).WellFormed) :
    (∀ d, d ∈ differences old new ↔ d.keys ≠ [] ∧
        Diverge (some (map old)) (some (map new)) d.keys ∧
          d.old = at? (some (map old)) d.keys ∧ d.new = at? (some (map new)) d.keys) ∧
      (differences old new).Pairwise (·.keys < ·.keys) ∧
      FieldChange.between old new = ((differences old new).map (·.keys)).map (shown old new) ∧
      (FieldChange.between old new = [] ↔ same (map old) (map new) = true) ∧
      ∃ m, replay (differences old new) (some (map old)) = some (map m) ∧
        same (map m) (map new) = true := by
  have hv : ∀ x ∈ some (map old), x.WellFormed := by
    rintro x ⟨⟩
    exact hold
  have hw : ∀ x ∈ some (map new), x.WellFormed := by
    rintro x ⟨⟩
    exact hnew
  have hplaces := mem_differencesOption_iff hv hw
  refine ⟨fun d => ?_, pairwise_differencesOption hv hw, ?_, ?_, ?_⟩
  · refine (hplaces d).trans (and_iff_right_of_imp ?_).symm
    rintro ⟨hdiverge, -⟩ hnil
    -- both hold maps at the root
    rw [hnil] at hdiverge
    exact hdiverge.notMaps ⟨old, new, rfl, rfl⟩
  · rw [List.map_map]
    refine List.map_congr_left fun d hd => ?_
    obtain ⟨-, hfound, hfound'⟩ := (hplaces d).1 hd
    rw [FieldChange.ofDifference, dotted_eq, hfound, hfound']
    rfl
  · exact List.map_eq_nil_iff.trans (differencesFrom_eq_nil_iff_same _ hold _ hnew)
  · have hsame := same_replay hv hw
    change sameOption (replay (differences old new) (some (map old))) _ = true at hsame
    cases hreplay : replay (differences old new) (some (map old)) with
    | none =>
      rw [hreplay] at hsame
      cases hsame
    | some x =>
      rw [hreplay] at hsame
      cases x with
      | map m => exact ⟨m, rfl, hsame⟩
      | _ => cases hsame

/-- A limit on requests, with one more entry in its configuration. -/
def limits (minute : Int) (entry : String × Value) : Settings :=
  [("config", map [entry, ("minute", whole minute)]), ("name", str "limiter")]

/-- What is nested is compared key by key and reported under its path, and a list that has become a
map as a whole. -/
theorem differences_exact_of_limits :
    (map (limits 10 ("headers", list [str "a"]))).WellFormed ∧
      (map (limits 20 ("headers", map []))).WellFormed ∧
      (differences (limits 10 ("headers", list [str "a"])) (limits 20 ("headers", map []))).map
        (·.keys) = [["config", "headers"], ["config", "minute"]] ∧
      FieldChange.between (limits 10 ("headers", list [str "a"])) (limits 20 ("headers", map [])) =
        [⟨"config.headers", some (list [str "a"]), some (map [])⟩,
          ⟨"config.minute", some (whole 10), some (whole 20)⟩] ∧
      ∃ m, replay (differences (limits 10 ("headers", list [str "a"]))
          (limits 20 ("headers", map []))) (some (map (limits 10 ("headers", list [str "a"])))) =
        some (map m) ∧ same (map m) (map (limits 20 ("headers", map []))) = true := by
  have wellFormed_limits : ∀ {minute v}, v.WellFormed →
      (map (limits minute ("headers", v))).WellFormed := by
    intro minute v hv
    have hkeys : "config" < "name" ∧ "headers" < "minute" := by decide
    have hconfig : (map [("headers", v), ("minute", whole minute)]).WellFormed := by
      rw [WellFormed]
      exact ⟨List.pairwise_pair.2 hkeys.2, hv, trivial, trivial⟩
    unfold limits
    rw [WellFormed]
    exact ⟨List.pairwise_pair.2 hkeys.1, hconfig, trivial, trivial⟩
  have hold : (map (limits 10 ("headers", list [str "a"]))).WellFormed :=
    wellFormed_limits ⟨trivial, trivial⟩
  have hnew : (map (limits 20 ("headers", map []))).WellFormed :=
    wellFormed_limits ⟨.nil, trivial⟩
  obtain ⟨-, -, hentries, -, hreplay⟩ := differences_exact hold hnew
  have hkeys : (differences (limits 10 ("headers", list [str "a"]))
      (limits 20 ("headers", map []))).map (·.keys) =
        [["config", "headers"], ["config", "minute"]] := by decide +kernel
  refine ⟨hold, hnew, hkeys, ?_, hreplay⟩
  rw [hentries, hkeys]
  rfl

end Value

end Gateway
