import Mathlib.Data.List.Infix
import Gateway.Config.Pointer
import Gateway.Proofs.Divergence

/-!
# Unused leaves

A leaf of a value is what stands at the end of a sequence of keys and holds nothing below
(`Value.LeafAt`). A pointer is written key by key, and no escaped key has a slash in it, so
splitting a pointer at its slashes gives back the keys (`Pointer.keys_foldl_child`). So different
leaves have different pointers, and a pointer covers another one exactly when its keys come first
there (`Pointer.covers_foldl_child_iff`): comparing texts is comparing keys. Only the pointer to the
root is special, since it is written like the one to an empty key; but a value whose root is a leaf
has no other leaves. Main statement: `UnusedKeys.unused_exact`.
-/

namespace Gateway

/-! ### Pointers and keys -/

namespace Pointer

variable {ks place leaf : List String} {here key : String}

/-- The characters of a key, given those of its escaped form. -/
def unescape : List Char → List Char
  | '~' :: '0' :: rest => '~' :: unescape rest
  | '~' :: '1' :: rest => '/' :: unescape rest
  | c :: rest => c :: unescape rest
  | [] => []

/-- The keys that a pointer names. -/
def keys (pointer : String) : List String :=
  ((pointer.toList.splitOn '/').drop 1).map fun token => String.ofList (unescape token)

/-- A pointer as it is shown, that to the root included. -/
def shown (pointer : String) : String := if pointer.isEmpty then root else pointer

/-- The pointer to the end of a sequence of keys. -/
def ofKeys (ks : List String) : String := shown (ks.foldl child "")

/-- Where no tilde stands a character is read as it is. -/
theorem unescape_cons {c : Char} (h : c ≠ '~') (rest : List Char) :
    unescape (c :: rest) = c :: unescape rest := by
  conv_lhs => unfold unescape
  split <;> simp_all

/-- Escaping is undone. -/
theorem unescape_escape (cs : List Char) : unescape (cs.flatMap escapeChar) = cs := by
  induction cs with
  | nil => rfl
  | cons c cs ih =>
    rw [List.flatMap_cons]
    by_cases htilde : c = '~'
    · subst htilde
      exact congrArg _ ih
    · by_cases hslash : c = '/'
      · subst hslash
        exact congrArg _ ih
      · have hc : escapeChar c = [c] := by rw [escapeChar, if_neg htilde, if_neg hslash]
        rw [hc, List.singleton_append, unescape_cons htilde, ih]

/-- An escaped key has no slash in it. -/
theorem slash_not_mem_escape (key : String) : '/' ∉ (escape key).toList := by
  unfold escape
  rw [String.toList_ofList, List.mem_flatMap]
  rintro ⟨c, -, hc⟩
  unfold escapeChar at hc
  split at hc
  · simp at hc
  · split at hc
    · simp at hc
    · rename_i hslash
      exact hslash (List.mem_singleton.1 hc).symm

/-- A child has a slash and its escaped key behind the pointer to its parent. -/
theorem toList_child (here key : String) :
    (child here key).toList = here.toList ++ '/' :: (escape key).toList := by
  simp [child]

/-- Splitting a pointer at its slashes gives the escaped keys, one by one. -/
theorem splitOn_foldl_child (ks : List String) (here : String) :
    (ks.foldl child here).toList.splitOn '/' =
      here.toList.splitOn '/' ++ ks.map fun key => (escape key).toList := by
  induction ks generalizing here with
  | nil => rw [List.map_nil, List.append_nil, List.foldl_nil]
  | cons key ks ih =>
    rw [List.foldl_cons, ih, toList_child, List.splitOn_append_cons_self,
      List.splitOn_eq_singleton (slash_not_mem_escape key), List.append_assoc]
    rfl

/-- A pointer names the keys that it was made of. -/
theorem keys_foldl_child (ks : List String) : keys (ks.foldl child "") = ks := by
  unfold keys
  rw [splitOn_foldl_child, String.toList_empty, List.splitOn_nil]
  simp [escape, unescape_escape, Function.comp_def]

/-- The pointer to a child is not empty. -/
theorem isEmpty_child (here key : String) : (child here key).isEmpty = false := by
  rw [String.isEmpty_eq_false_iff]
  intro hempty
  have := congrArg String.toList hempty
  simp [toList_child] at this

/-- So the pointer to what lies deeper is not empty. -/
theorem isEmpty_foldl_child (hne : ks ≠ []) (here : String) :
    (ks.foldl child here).isEmpty = false := by
  induction ks using List.reverseRecOn with
  | nil => exact absurd rfl hne
  | append_singleton ks key _ =>
    rw [List.foldl_append]
    exact isEmpty_child _ key

/-- A pointer from the root is put together key by key. -/
theorem ofKeys_of_ne_nil (hne : ks ≠ []) : ofKeys ks = ks.foldl child "" := by
  unfold ofKeys shown
  rw [isEmpty_foldl_child hne, if_neg Bool.false_ne_true]

/-- Below the root, a pointer names the keys that lead to its place. -/
theorem keys_ofKeys (hne : ks ≠ []) : keys (ofKeys ks) = ks := by
  rw [ofKeys_of_ne_nil hne, keys_foldl_child]

/-- The pointer to the root is written like the one to an empty key. -/
theorem keys_ofKeys_nil : keys (ofKeys []) = [""] := by
  decide +kernel

/-- A pointer is the beginning of those to places below. -/
theorem toList_foldl_child_append (hne : leaf ≠ []) (here : String) :
    (here ++ "/").toList <+: (leaf.foldl child here).toList := by
  induction leaf generalizing here with
  | nil => exact absurd rfl hne
  | cons key leaf ih =>
    have hchild : (here ++ "/").toList <+: (child here key).toList :=
      ⟨(escape key).toList, by simp [child]⟩
    rcases leaf with _ | ⟨next, leaf⟩
    · exact hchild
    · refine hchild.trans (List.IsPrefix.trans ⟨['/'], ?_⟩ (ih (List.cons_ne_nil _ _) _))
      rw [String.toList_append]
      rfl

/-- Behind a pointer and a slash more keys follow. -/
theorem keys_prefix {p l : String} (h : (p ++ "/").toList <+: l.toList) : keys p <+: keys l := by
  obtain ⟨rest, hrest⟩ := h
  have hsplit : l.toList.splitOn '/' = p.toList.splitOn '/' ++ rest.splitOn '/' := by
    rw [← hrest, String.toList_append, List.append_assoc]
    exact List.splitOn_append_cons_self _ _
  unfold keys
  rw [hsplit, List.drop_append_of_le_length (List.length_pos_of_ne_nil (List.splitOn_ne_nil _ _)),
    List.map_append]
  exact List.prefix_append _ _

/-- A pointer covers those whose keys begin with its own, and no others. -/
theorem covers_foldl_child_iff (place leaf : List String) :
    covers (place.foldl child "") (leaf.foldl child "") = true ↔ place <+: leaf := by
  unfold covers
  rw [Bool.or_eq_true, beq_iff_eq, List.isPrefixOf_iff_prefix]
  constructor
  · rintro (heq | hprefix)
    · rw [← keys_foldl_child leaf, heq, keys_foldl_child]
    · have hkeys := keys_prefix hprefix
      rwa [keys_foldl_child, keys_foldl_child] at hkeys
  · rintro ⟨rest, rfl⟩
    rw [List.foldl_append]
    rcases rest with _ | ⟨key, rest⟩
    · exact .inl rfl
    · exact .inr (toList_foldl_child_append (List.cons_ne_nil _ _) _)

end Pointer

/-! ### What a mode reads -/

namespace Mode

variable {mode : Mode} {place : String} {ks : List String}

/-- A mode reads what is under two keys. -/
theorem foldl_keys_of_mem_consumed (h : place ∈ mode.consumed) :
    (Pointer.keys place).foldl Pointer.child "" = place ∧ (Pointer.keys place).length = 2 := by
  have hall : ∀ mode : Mode, ∀ place ∈ mode.consumed,
      (Pointer.keys place).foldl Pointer.child "" = place ∧
        (Pointer.keys place).length = 2 := by
    intro mode
    cases mode <;> decide +kernel
  exact hall mode place h

/-- What a mode reads covers those pointers whose keys begin with its own. -/
theorem covers_ofKeys_iff (h : place ∈ mode.consumed) :
    Pointer.covers place (Pointer.ofKeys ks) = true ↔ Pointer.keys place <+: ks := by
  obtain ⟨hplace, hlength⟩ := foldl_keys_of_mem_consumed h
  by_cases hks : ks = []
  · -- the pointer to the root begins with a slash only
    subst hks
    have hroot : ∀ mode : Mode, ∀ place ∈ mode.consumed,
        Pointer.covers place (Pointer.ofKeys []) = false := by
      intro mode
      cases mode <;> decide +kernel
    have hne : Pointer.keys place ≠ [] := List.ne_nil_of_length_eq_add_one hlength
    simp [hroot mode place h, hne]
  · rw [Pointer.ofKeys_of_ne_nil hks, ← Pointer.covers_foldl_child_iff, hplace]

end Mode

/-! ### Leaves -/

namespace Value

variable {v w : Value} {m : Settings} {ks : List String} {here key p : String}

/-- Nothing stands below: this is no map, or one without entries. -/
def IsLeaf (v : Value) : Prop := ∀ m, v = map m → m = []

/-- There is a leaf at the end of a sequence of keys. -/
def LeafAt (v : Value) (ks : List String) : Prop := ∃ x, at? (some v) ks = some x ∧ x.IsLeaf

/-- A value is its own leaf when nothing stands in it. -/
theorem leafAt_nil_iff : v.LeafAt [] ↔ v.IsLeaf := by
  simp [LeafAt, at?]

/-- The leaves of a map lie under its keys. -/
theorem leafAt_cons_iff :
    v.LeafAt (key :: ks) ↔ ∃ m w, v = map m ∧ Dict.get? m key = some w ∧ w.LeafAt ks := by
  unfold LeafAt
  cases v with
  | map m =>
    cases hget : Dict.get? m key with
    | none => simp [at?, hget, at?_none]
    | some w => simp [at?, hget]
  | _ => simp [at?]

/-- Below a leaf there is no other one. -/
theorem eq_nil_of_leafAt (hleaf : v.IsLeaf) (h : v.LeafAt ks) : ks = [] := by
  cases ks with
  | nil => rfl
  | cons key ks =>
    obtain ⟨m, w, rfl, hget, -⟩ := leafAt_cons_iff.1 h
    rw [hleaf m rfl] at hget
    cases hget

/-- A leaf is listed by the pointer to it. -/
theorem leafPointers_of_isLeaf (h : v.IsLeaf) : leafPointers here v = [Pointer.shown here] := by
  cases v with
  | map m =>
    obtain rfl := h m rfl
    rfl
  | _ => rfl

/-- A map lists the leaves in it, if anything stands in it. -/
theorem leafPointers_map (hne : m ≠ []) : leafPointers here (map m) = entryPointers here m := by
  cases m with
  | nil => exact absurd rfl hne
  | cons e rest => rfl

/-- These come entry by entry. -/
theorem entryPointers_eq_flatMap (here : String) (m : Settings) :
    entryPointers here m = m.flatMap fun e => leafPointers (Pointer.child here e.1) e.2 := by
  induction m with
  | nil => rfl
  | cons e rest ih => rw [entryPointers, ih, List.flatMap_cons]

/-- A leaf has no leaf but itself. -/
theorem mem_leafPointers_of_isLeaf (h : v.IsLeaf) : p ∈ leafPointers here v ↔
    ∃ ks, v.LeafAt ks ∧ p = Pointer.shown (ks.foldl Pointer.child here) := by
  rw [leafPointers_of_isLeaf h, List.mem_singleton]
  constructor
  · rintro rfl
    exact ⟨[], leafAt_nil_iff.2 h, rfl⟩
  · rintro ⟨ks, hks, rfl⟩
    rw [eq_nil_of_leafAt h hks, List.foldl_nil]

mutual

/-- The pointers to the leaves below a place are those to the ends of their keys. -/
theorem mem_leafPointers_iff : (v : Value) → v.WellFormed → ∀ here p, p ∈ leafPointers here v ↔
    ∃ ks, v.LeafAt ks ∧ p = Pointer.shown (ks.foldl Pointer.child here)
  | null, _, here, p | bool _, _, here, p | num _, _, here, p | str _, _, here, p
  | list _, _, here, p => mem_leafPointers_of_isLeaf (by simp [IsLeaf])
  | map [], _, here, p => mem_leafPointers_of_isLeaf (by simp [IsLeaf])
  | map (e :: rest), h, here, p => by
    rw [WellFormed] at h
    have hnot : ¬(map (e :: rest)).IsLeaf := fun hleaf => List.cons_ne_nil _ _ (hleaf _ rfl)
    rw [leafPointers_map (List.cons_ne_nil _ _), entryPointers_eq_flatMap, List.mem_flatMap]
    constructor
    · rintro ⟨x, hx, hp⟩
      obtain ⟨ks, hks, rfl⟩ := (mem_leafPointers_of_mem (e :: rest) h.2 x hx _ p).1 hp
      have hget : Dict.get? (e :: rest) x.1 = some x.2 := Dict.get?_of_mem h.1 hx
      exact ⟨x.1 :: ks, leafAt_cons_iff.2 ⟨_, x.2, rfl, hget, hks⟩, rfl⟩
    · rintro ⟨ks, hks, rfl⟩
      cases ks with
      | nil => exact absurd (leafAt_nil_iff.1 hks) hnot
      | cons key ks =>
        obtain ⟨_, w, heq, hget, hks⟩ := leafAt_cons_iff.1 hks
        cases heq
        have hmem : (key, w) ∈ e :: rest := Dict.mem_of_get? hget
        refine ⟨(key, w), hmem, (mem_leafPointers_of_mem (e :: rest) h.2 _ hmem _ _).2 ?_⟩
        exact ⟨ks, hks, rfl⟩

/-- The same of an entry of a map, by recursion on the value in it. -/
theorem mem_leafPointers_of_mem : (m : List (String × Value)) → WellFormedEntries m →
    ∀ x ∈ m, ∀ here p, p ∈ leafPointers here x.2 ↔
      ∃ ks, x.2.LeafAt ks ∧ p = Pointer.shown (ks.foldl Pointer.child here)
  | [], _, _, hx, _, _ => absurd hx List.not_mem_nil
  | (k, v) :: rest, h, x, hx, here, p => by
    rw [WellFormedEntries] at h
    rcases List.mem_cons.1 hx with rfl | hx
    · exact mem_leafPointers_iff v h.1 here p
    · exact mem_leafPointers_of_mem rest h.2 x hx here p

end

/-- Different leaves of a value have different pointers. -/
theorem ofKeys_inj {ks' : List String} (hks : v.LeafAt ks) (hks' : v.LeafAt ks')
    (heq : Pointer.ofKeys ks = Pointer.ofKeys ks') : ks = ks' := by
  by_cases hnil : ks = []
  · subst hnil
    exact (eq_nil_of_leafAt (leafAt_nil_iff.1 hks) hks').symm
  · by_cases hnil' : ks' = []
    · subst hnil'
      exact eq_nil_of_leafAt (leafAt_nil_iff.1 hks') hks
    · rw [← Pointer.keys_ofKeys hnil, heq, Pointer.keys_ofKeys hnil']

/-- Unused are the leaves whose keys begin with those of no place that is read. -/
theorem mem_unusedLeaves_iff (hv : v.WellFormed) {mode : Mode} : p ∈ v.unusedLeaves mode ↔
    ∃ ks, v.LeafAt ks ∧ p = Pointer.ofKeys ks ∧
      ∀ place ∈ mode.consumed, ¬Pointer.keys place <+: ks := by
  have hread : ∀ ks, (!mode.consumed.any fun place =>
      Pointer.covers place (Pointer.ofKeys ks)) = true ↔
      ∀ place ∈ mode.consumed, ¬Pointer.keys place <+: ks := by
    intro ks
    rw [Bool.not_eq_true', List.any_eq_false]
    exact forall₂_congr fun place hplace => not_congr (Mode.covers_ofKeys_iff hplace)
  unfold unusedLeaves
  rw [Dict.mem_distinct, List.mem_filter, mem_leafPointers_iff v hv]
  constructor
  · rintro ⟨⟨ks, hks, rfl⟩, hunused⟩
    exact ⟨ks, hks, rfl, (hread ks).1 hunused⟩
  · rintro ⟨ks, hks, rfl, hunused⟩
    exact ⟨⟨ks, hks, rfl⟩, (hread ks).2 hunused⟩

end Value

namespace UnusedKeys

open Value

/-- What is reported as unused of a value is, in ascending order and without repetition, the
pointers to those of its leaves whose keys do not begin with the keys of a place that the mode
reads. Whatever is in the keys, below the root a pointer tells the keys that lead to its place, and
different leaves have different pointers. -/
theorem unused_exact {v : Value} (hv : v.WellFormed) (mode : Mode) :
    (ofValue mode v).unused.Pairwise (· < ·) ∧
      (∀ p, p ∈ (ofValue mode v).unused ↔ ∃ ks, v.LeafAt ks ∧ p = Pointer.ofKeys ks ∧
        ∀ place ∈ mode.consumed, ¬Pointer.keys place <+: ks) ∧
      (∀ ks, ks ≠ [] → Pointer.keys (Pointer.ofKeys ks) = ks) ∧
      ∀ ks ks', v.LeafAt ks → v.LeafAt ks' → Pointer.ofKeys ks = Pointer.ofKeys ks' → ks = ks' :=
  ⟨Dict.sorted_distinct _, fun _ => mem_unusedLeaves_iff hv, fun _ => Pointer.keys_ofKeys,
    fun _ _ => ofKeys_inj⟩

/-- A value with an empty key, a slash and a tilde in its keys, and a key that begins like one that
is read. -/
def oddKeys : Value :=
  map [("", whole 1), ("a/b", map [("~", .bool true)]),
    ("sync", map [("concurrency", map [("x", .null)]), ("concurrency~", .null)])]

/-- What is under the key that is read is not reported, and everything else is. -/
theorem unused_exact_of_oddKeys : oddKeys.WellFormed ∧
    (ofValue .sync oddKeys).unused = ["/", "/a~1b/~0", "/sync/concurrency~0"] ∧
    Pointer.ofKeys [""] = "/" ∧ Pointer.ofKeys ["a/b", "~"] = "/a~1b/~0" ∧
    ∃ ks, oddKeys.LeafAt ks ∧ "/sync/concurrency~0" = Pointer.ofKeys ks ∧
      ∀ place ∈ Mode.sync.consumed, ¬Pointer.keys place <+: ks := by
  have hv : oddKeys.WellFormed := by decide
  obtain ⟨-, hmem, -⟩ := unused_exact hv .sync
  have hunused : (ofValue .sync oddKeys).unused = ["/", "/a~1b/~0", "/sync/concurrency~0"] := by
    decide +kernel
  refine ⟨hv, hunused, by decide +kernel, by decide +kernel, (hmem _).1 ?_⟩
  rw [hunused]
  decide

end UnusedKeys

end Gateway
