import Mathlib.Data.List.Induction
import Gateway.Value.Difference

/-!
# When there is no difference

Two maps show no difference exactly when they have the same keys and no difference under any of them
(`Value.differencesFrom_map_eq_nil_iff`), and two well-formed values exactly when they are the same
(`Value.differencesFrom_eq_nil_iff_same`).
-/

namespace Gateway

/-! ### Dictionaries and their entries -/

namespace Dict

variable {α : Type} {d : Dict α} {es fs : List (String × α)} {key : String} {value : α}

/-- What is found in a map is among its entries. -/
theorem mem_of_get? (h : get? d key = some value) : (key, value) ∈ d := by
  induction d with
  | nil => cases h
  | cons e rest ih =>
    obtain ⟨k, v⟩ := e
    rw [get?] at h
    split at h
    · rename_i heq
      cases h
      cases heq
      exact List.mem_cons_self
    · exact List.mem_cons_of_mem _ (ih h)

/-- Where keys ascend, every entry is found. -/
theorem get?_of_mem (hs : Sorted d) (h : (key, value) ∈ d) : get? d key = some value := by
  induction d with
  | nil => cases h
  | cons e rest ih =>
    obtain ⟨k, v⟩ := e
    obtain ⟨hlt, hrest⟩ := List.pairwise_cons.1 hs
    rw [get?]
    rcases List.mem_cons.1 h with heq | h
    · cases heq
      rw [if_pos rfl]
    · have hlt' : k < key := hlt (key, value) h
      have hne : k ≠ key := by
        rintro rfl
        exact String.lt_irrefl _ hlt'
      rw [if_neg hne]
      exact ih hrest h

/-- A key that occurs among the entries is found, if perhaps with a later value. -/
theorem get?_isSome_of_mem (h : (key, value) ∈ d) : (get? d key).isSome := by
  induction d with
  | nil => cases h
  | cons e rest ih =>
    obtain ⟨k, v⟩ := e
    rw [get?]
    split
    · rfl
    · rename_i hne
      rcases List.mem_cons.1 h with heq | h
      · cases heq
        exact absurd rfl hne
      · exact ih h

/-- A map is built entry by entry. -/
theorem ofList_append_singleton (es : List (String × α)) (e : String × α) :
    ofList (es ++ [e]) = insert (ofList es) e.1 e.2 := by
  simp [ofList, List.foldl_append]

/-- Of the entries with a key the last counts. -/
theorem get?_ofList (es : List (String × α)) (key : String) :
    get? (ofList es) key = (es.reverse.find? (·.1 == key)).map (·.2) := by
  induction es using List.reverseRecOn with
  | nil => rfl
  | append_singleton es e ih =>
    rw [ofList_append_singleton, get?_insert, ih, List.reverse_concat, List.find?_cons]
    by_cases h : e.1 = key
    · simp [h]
    · have hne : (e.1 == key) = false := by simpa using h
      rw [if_neg h, hne]

/-- A map has no entries but those that it is built from. -/
theorem mem_of_mem_ofList {e : String × α} (h : e ∈ ofList es) : e ∈ es := by
  have hget := get?_of_mem (sorted_ofList es) h
  rw [get?_ofList] at hget
  obtain ⟨x, hx, hvalue⟩ := Option.map_eq_some_iff.1 hget
  have hkey : x.1 = e.1 := by simpa using List.find?_some hx
  have hmem := List.mem_reverse.1 (List.mem_of_find?_eq_some hx)
  rwa [show e = x from Prod.ext hkey.symm hvalue.symm]

/-- An entry whose key no other has is found. -/
theorem get?_ofList_of_unique (h : (key, value) ∈ es)
    (hunique : ∀ v, (key, v) ∈ es → v = value) : get? (ofList es) key = some value := by
  rw [get?_ofList]
  cases hfind : es.reverse.find? (·.1 == key) with
  | none =>
    have hno := List.find?_eq_none.1 hfind _ (List.mem_reverse.2 h)
    simp at hno
  | some x =>
    obtain ⟨k, v⟩ := x
    have hkey : k = key := by simpa using List.find?_some hfind
    have hmem := List.mem_reverse.1 (List.mem_of_find?_eq_some hfind)
    rw [hkey] at hmem
    rw [Option.map_some, hunique v hmem]

/-- A key before all others is not found. -/
theorem get?_eq_none_of_lt (h : ∀ e ∈ d, key < e.1) : get? d key = none := by
  induction d with
  | nil => rfl
  | cons e rest ih =>
    have hlt : key < e.1 := h e List.mem_cons_self
    have hne : e.1 ≠ key := by
      intro heq
      rw [heq] at hlt
      exact String.lt_irrefl _ hlt
    rw [get?, if_neg hne]
    exact ih fun x hx => h x (List.mem_cons_of_mem _ hx)

/-- A key that no entry has is not found. -/
theorem get?_ofList_eq_none (h : ∀ v, (key, v) ∉ es) : get? (ofList es) key = none := by
  rw [get?_ofList, List.find?_eq_none.2, Option.map_none]
  intro x hx hkey
  have hkey : x.1 = key := by simpa using hkey
  exact h x.2 (hkey ▸ List.mem_reverse.1 hx)

/-- Doing away with repetition leaves the members. -/
theorem mem_distinct {ts : List String} {t : String} : t ∈ distinct ts ↔ t ∈ ts := by
  unfold distinct keys
  rw [List.mem_map]
  constructor
  · rintro ⟨entry, hentry, rfl⟩
    obtain ⟨t, ht, rfl⟩ := List.mem_map.1 (mem_of_mem_ofList hentry)
    exact ht
  · intro ht
    have hentry : (t, ()) ∈ ts.map fun t => (t, ()) := List.mem_map_of_mem ht
    have hget := get?_ofList_of_unique hentry fun _ _ => rfl
    exact ⟨(t, ()), mem_of_get? hget, rfl⟩

/-- A list without repetitions comes in ascending order. -/
theorem sorted_distinct (ts : List String) : (distinct ts).Pairwise (· < ·) :=
  List.pairwise_map.2 (sorted_ofList _)

end Dict

/-! ### Comparison -/

namespace Number

/-- A number is the same as itself, a NaN included: the bits are compared first. -/
theorem same_self (n : Number) : n.same n = true := by
  cases n <;> simp [same, Double.same]

end Number

namespace Value

mutual

/-- Every value is the same as itself. -/
theorem same_self : (v : Value) → same v v = true
  | null => rfl
  | bool b => by simp [same]
  | num n => by simp [same, Number.same_self]
  | str s => by simp [same]
  | list items => by simpa [same] using sameItems_self items
  | map entries => by simpa [same] using sameEntries_self entries

/-- A list is the same as itself, item by item. -/
theorem sameItems_self : (items : List Value) → sameItems items items = true
  | [] => rfl
  | v :: rest => by simp [sameItems, same_self v, sameItems_self rest]

/-- A map is the same as itself, entry by entry. -/
theorem sameEntries_self : (entries : List (String × Value)) → sameEntries entries entries = true
  | [] => rfl
  | (k, v) :: rest => by simp [sameEntries, same_self v, sameEntries_self rest]

end

/-- What may be missing is the same as itself. -/
theorem sameOption_self (v : Option Value) : sameOption v v = true := by
  cases v with
  | none => rfl
  | some v => exact same_self v

/-- Only the text itself is the same as a text. -/
theorem eq_str_of_same {s : String} {v : Value} (h : same (str s) v = true) : v = str s := by
  cases v <;> simp_all [same]

/-! What is written under different names or of different things is not the same, so what is written
the same is equal. -/

section

variable {α : Type} {f : α → Value} (hf : ∀ a b, same (f a) (f b) = true → a = b)

include hf

/-- What is written the same is equal, where this holds of what may be missing. -/
theorem eq_of_sameOption {x y : Option α} (h : sameOption (x.map f) (y.map f) = true) : x = y := by
  cases x with
  | none =>
    cases y with
    | none => rfl
    | some b => cases h
  | some a =>
    cases y with
    | none => simp [sameOption] at h
    | some b => rw [hf a b h]

/-- Lists that are written the same are equal, where this holds of their items. -/
theorem eq_of_sameItems {as bs : List α} (h : sameItems (as.map f) (bs.map f) = true) :
    as = bs := by
  induction as generalizing bs with
  | nil =>
    cases bs with
    | nil => rfl
    | cons b bs => simp [sameItems] at h
  | cons a as ih =>
    cases bs with
    | nil => simp [sameItems] at h
    | cons b bs =>
      simp only [List.map_cons, sameItems, Bool.and_eq_true] at h
      rw [hf a b h.1, ih h.2]

/-- Maps that are written the same are equal, where this holds of their values. -/
theorem eq_of_sameEntries {as bs : Dict α}
    (h : sameEntries (Dict.mapValues f as) (Dict.mapValues f bs) = true) : as = bs := by
  unfold Dict.mapValues at h
  induction as generalizing bs with
  | nil =>
    cases bs with
    | nil => rfl
    | cons b bs => simp [sameEntries] at h
  | cons a as ih =>
    cases bs with
    | nil => simp [sameEntries] at h
    | cons b bs =>
      simp only [List.map_cons, sameEntries, Bool.and_eq_true, beq_iff_eq] at h
      rw [Prod.ext h.1.1 (hf a.2 b.2 h.1.2), ih h.2]

end

/-- Texts are the same only where they are equal. -/
theorem eq_of_same_str (s t : String) (h : same (str s) (str t) = true) : s = t := by
  simpa [same] using h

/-- Whole numbers are the same only where they are equal. -/
theorem eq_of_same_whole {m n : Int} (h : same (whole m) (whole n) = true) : m = n := by
  simpa [whole, same, Number.same] using h

/-- Lists of texts that are the same are equal. -/
theorem eq_of_same_texts {ts us : List String} (h : same (texts ts) (texts us) = true) :
    ts = us := by
  unfold texts at h
  rw [same] at h
  exact eq_of_sameItems eq_of_same_str h

/-- Maps that are the same have the same values under every key. -/
theorem sameOption_get? {as bs : List (String × Value)} (h : sameEntries as bs = true)
    (key : String) : sameOption (Dict.get? as key) (Dict.get? bs key) = true := by
  induction as generalizing bs with
  | nil =>
    cases bs with
    | nil => rfl
    | cons b bs => simp [sameEntries] at h
  | cons a as ih =>
    cases bs with
    | nil => simp [sameEntries] at h
    | cons b bs =>
      obtain ⟨j, v⟩ := a
      obtain ⟨k, w⟩ := b
      simp only [sameEntries, Bool.and_eq_true, beq_iff_eq] at h
      obtain ⟨⟨rfl, hsame⟩, hrest⟩ := h
      rw [Dict.get?, Dict.get?]
      split
      · exact hsame
      · exact ih hrest

/-- Where keys ascend, maps are the same when they have the same values under every key. -/
theorem sameEntries_iff {as bs : List (String × Value)} (hs : Dict.Sorted as)
    (ht : Dict.Sorted bs) : sameEntries as bs = true ↔
      ∀ key, sameOption (Dict.get? as key) (Dict.get? bs key) = true := by
  refine ⟨sameOption_get?, fun h => ?_⟩
  induction as generalizing bs with
  | nil =>
    cases bs with
    | nil => rfl
    | cons b bs => simpa [Dict.get?, sameOption] using h b.1
  | cons a as ih =>
    cases bs with
    | nil => simpa [Dict.get?, sameOption] using h a.1
    | cons b bs =>
      obtain ⟨j, v⟩ := a
      obtain ⟨k, w⟩ := b
      obtain ⟨hj, has⟩ := List.pairwise_cons.1 hs
      obtain ⟨hk, hbs⟩ := List.pairwise_cons.1 ht
      -- were one of the first keys smaller, the other map would have nothing under it
      have hjk : ¬j < k := by
        intro hlt
        have hkey := h j
        rw [Dict.get?_eq_none_of_lt (d := (k, w) :: bs)
          (List.forall_mem_cons.2 ⟨hlt, fun e he => String.lt_trans hlt (hk e he)⟩)] at hkey
        simp [Dict.get?, sameOption] at hkey
      have hkj : ¬k < j := by
        intro hlt
        have hkey := h k
        rw [Dict.get?_eq_none_of_lt (d := (j, v) :: as)
          (List.forall_mem_cons.2 ⟨hlt, fun e he => String.lt_trans hlt (hj e he)⟩)] at hkey
        simp [Dict.get?, sameOption] at hkey
      obtain rfl : j = k := String.le_antisymm (String.not_lt.1 hkj) (String.not_lt.1 hjk)
      have hfirst : same v w = true := by simpa [Dict.get?, sameOption] using h j
      have hrest : sameEntries as bs = true := by
        refine ih has hbs fun key => ?_
        by_cases hkey : j = key
        · subst hkey
          rw [Dict.get?_eq_none_of_lt hj, Dict.get?_eq_none_of_lt hk]
          rfl
        · simpa [Dict.get?, hkey] using h key
      simp [sameEntries, hfirst, hrest]

/-! ### Well-formed entries -/

/-- Entries are well formed when every value is. -/
theorem wellFormedEntries_iff {entries : List (String × Value)} :
    WellFormedEntries entries ↔ ∀ e ∈ entries, e.2.WellFormed := by
  induction entries with
  | nil => simp [WellFormedEntries]
  | cons e rest ih =>
    obtain ⟨k, v⟩ := e
    simp [WellFormedEntries, ih]

/-! ### No difference -/

/-- One group of differences is found for every old entry. -/
theorem mem_entryDifferences {old : List (String × Value)} {new : Settings}
    {g : String × List Difference} : g ∈ entryDifferences old new ↔
      ∃ v, (g.1, v) ∈ old ∧ g.2 = differencesFrom v (Dict.get? new g.1) := by
  induction old with
  | nil => simp [entryDifferences]
  | cons e rest ih =>
    obtain ⟨k, w⟩ := e
    rw [entryDifferences, List.mem_cons, ih]
    constructor
    · rintro (rfl | ⟨v, hv, hg⟩)
      · exact ⟨w, List.mem_cons_self, rfl⟩
      · exact ⟨v, List.mem_cons_of_mem _ hv, hg⟩
    · rintro ⟨v, hv, hg⟩
      rcases List.mem_cons.1 hv with heq | hv
      · obtain ⟨rfl, rfl⟩ := Prod.mk.inj heq
        exact .inl (Prod.ext rfl hg)
      · exact .inr ⟨v, hv, hg⟩

/-- One group of differences is found for every entry that is new. -/
theorem mem_additions {old new : Settings} {g : String × List Difference} :
    g ∈ additions old new ↔
      ∃ v, (g.1, v) ∈ new ∧ Dict.get? old g.1 = none ∧ g.2 = [⟨[], none, some v⟩] := by
  unfold additions
  simp only [List.mem_map, List.mem_filter, Option.isNone_iff_eq_none]
  constructor
  · rintro ⟨e, ⟨he, hno⟩, rfl⟩
    exact ⟨e.2, he, hno, rfl⟩
  · rintro ⟨v, hv, hno, hg⟩
    exact ⟨(g.1, v), ⟨hv, hno⟩, Prod.ext rfl hg.symm⟩

/-- No difference is left when no key has any. -/
theorem inKeyOrder_eq_nil_iff {groups : List (String × List Difference)} :
    inKeyOrder groups = [] ↔ ∀ g ∈ Dict.ofList groups, g.2 = [] := by
  unfold inKeyOrder
  rw [List.flatMap_eq_nil_iff]
  exact forall₂_congr fun g _ => List.map_eq_nil_iff

/-- Two maps show no difference when they have the same keys and no difference under any of them. -/
theorem differencesFrom_map_eq_nil_iff {old new : Settings} (hs : Dict.Sorted old) :
    differencesFrom (map old) (some (map new)) = [] ↔
      (∀ k v, Dict.get? old k = some v → differencesFrom v (Dict.get? new k) = []) ∧
        ∀ k, Dict.get? old k = none → Dict.get? new k = none := by
  rw [differencesFrom, inKeyOrder_eq_nil_iff]
  constructor
  · intro h
    constructor
    · intro k v hv
      have hgroup : Dict.get? (Dict.ofList (entryDifferences old new ++ additions old new)) k =
          some (differencesFrom v (Dict.get? new k)) := by
        refine Dict.get?_ofList_of_unique (List.mem_append_left _
          (mem_entryDifferences.2 ⟨v, Dict.mem_of_get? hv, rfl⟩)) fun ds hds => ?_
        rcases List.mem_append.1 hds with hds | hds
        · obtain ⟨w, hw, hds⟩ := mem_entryDifferences.1 hds
          rw [Option.some.inj ((Dict.get?_of_mem hs hw).symm.trans hv)] at hds
          exact hds
        · obtain ⟨w, -, hno, -⟩ := mem_additions.1 hds
          cases hno.symm.trans hv
      exact h _ (Dict.mem_of_get? hgroup)
    · intro k hk
      by_contra hne
      obtain ⟨v, hv⟩ := Option.ne_none_iff_exists'.1 hne
      have hadded : (k, [⟨[], none, some v⟩]) ∈ additions old new :=
        mem_additions.2 ⟨v, Dict.mem_of_get? hv, hk, rfl⟩
      have hsome : (Dict.get? (Dict.ofList
          (entryDifferences old new ++ additions old new)) k).isSome = true := by
        rw [Dict.get?_ofList, Option.isSome_map, List.find?_isSome]
        exact ⟨_, List.mem_reverse.2 (List.mem_append_right _ hadded), by simp⟩
      obtain ⟨ds, hds⟩ := Option.isSome_iff_exists.1 hsome
      have hempty := h _ (Dict.mem_of_get? hds)
      rcases List.mem_append.1 (Dict.mem_of_mem_ofList (Dict.mem_of_get? hds)) with hmem | hmem
      · obtain ⟨w, hw, -⟩ := mem_entryDifferences.1 hmem
        have hheld := Dict.get?_isSome_of_mem hw
        rw [hk] at hheld
        cases hheld
      · obtain ⟨w, -, -, hne⟩ := mem_additions.1 hmem
        rw [hempty] at hne
        cases hne
  · rintro ⟨hold, hnew⟩ g hg
    rcases List.mem_append.1 (Dict.mem_of_mem_ofList hg) with hmem | hmem
    · obtain ⟨v, hv, hds⟩ := mem_entryDifferences.1 hmem
      rw [hds]
      exact hold _ v (Dict.get?_of_mem hs hv)
    · obtain ⟨v, hv, hno, -⟩ := mem_additions.1 hmem
      have hsome := Dict.get?_isSome_of_mem hv
      rw [hnew _ hno] at hsome
      cases hsome

/-- What is no map differs from whatever is not the same. -/
theorem differencesFrom_eq_nil_iff {v : Value} {w : Option Value} (hv : v.asMap? = none) :
    differencesFrom v w = [] ↔ sameOption (some v) w = true := by
  cases v
  case map => cases hv
  all_goals
    rw [differencesFrom]
    · split <;> simp_all
    · simp

/-- What has gone makes a difference. -/
theorem differencesFrom_none_ne_nil (v : Value) : differencesFrom v none ≠ [] := by
  rw [differencesFrom.eq_def]
  cases v <;> simp [sameOption]

mutual

/-- Well-formed values show no difference when they are the same. -/
theorem differencesFrom_eq_nil_iff_same : (v : Value) → v.WellFormed → ∀ w : Value, w.WellFormed →
    (differencesFrom v (some w) = [] ↔ same v w = true)
  | null, _, _, _ => differencesFrom_eq_nil_iff rfl
  | bool _, _, _, _ => differencesFrom_eq_nil_iff rfl
  | num _, _, _, _ => differencesFrom_eq_nil_iff rfl
  | str _, _, _, _ => differencesFrom_eq_nil_iff rfl
  | list _, _, _, _ => differencesFrom_eq_nil_iff rfl
  | map old, h, w, hw => by
    cases w with
    | map new =>
      rw [WellFormed] at h hw
      rw [differencesFrom_map_eq_nil_iff h.1, same, sameEntries_iff h.1 hw.1]
      have heach : ∀ key v w, Dict.get? old key = some v → Dict.get? new key = some w →
          (differencesFrom v (some w) = [] ↔ same v w = true) := by
        intro key v w hv hw'
        exact differencesFrom_entries_iff old h.2 key v (Dict.mem_of_get? hv) w
          (wellFormedEntries_iff.1 hw.2 _ (Dict.mem_of_get? hw'))
      constructor
      · rintro ⟨hold, hnew⟩ key
        cases hv : Dict.get? old key with
        | none =>
          rw [hnew key hv]
          rfl
        | some v =>
          have hsame := hold key v hv
          cases hw' : Dict.get? new key with
          | none =>
            rw [hw'] at hsame
            exact absurd hsame (differencesFrom_none_ne_nil v)
          | some w =>
            rw [hw'] at hsame
            exact (heach key v w hv hw').1 hsame
      · intro hsame
        refine ⟨fun key v hv => ?_, fun key hv => ?_⟩
        · have hkey := hsame key
          rw [hv] at hkey
          cases hw' : Dict.get? new key with
          | none =>
            rw [hw'] at hkey
            simp [sameOption] at hkey
          | some w =>
            rw [hw'] at hkey
            exact (heach key v w hv hw').2 hkey
        · have hkey := hsame key
          rw [hv] at hkey
          cases hw' : Dict.get? new key with
          | none => rfl
          | some w =>
            rw [hw'] at hkey
            simp [sameOption] at hkey
    | _ =>
      rw [differencesFrom.eq_def]
      simp [sameOption, same]

/-- The same of the entries of a map, one by one: the recursion is on the values in them. -/
theorem differencesFrom_entries_iff : (entries : List (String × Value)) →
    WellFormedEntries entries → ∀ k v, (k, v) ∈ entries → ∀ w : Value, w.WellFormed →
      (differencesFrom v (some w) = [] ↔ same v w = true)
  | [], _, _, _, hv, _, _ => by cases hv
  | (j, u) :: rest, h, k, v, hv, w, hw => by
    rw [WellFormedEntries] at h
    rcases List.mem_cons.1 hv with heq | hv
    · cases heq
      exact differencesFrom_eq_nil_iff_same u h.1 w hw
    · exact differencesFrom_entries_iff rest h.2 k v hv w hw

end

/-- A well-formed value does not differ from itself. -/
theorem differencesFrom_self (v : Value) (h : v.WellFormed) : differencesFrom v (some v) = [] :=
  (differencesFrom_eq_nil_iff_same v h v h).2 (same_self v)

end Value

end Gateway
