import Gateway.Config.Basic
import Gateway.Proofs.Leaves

/-!
# Unused keys and what is read

What a mode reads is written down twice: in the places of `Mode.consumed`, and in the readers of the
settings. A reader of a section that is a map looks at the fields of its settings and at nothing
else (`Json.ReadsFields`), and no key in these fields is reported, so removing what is reported
changes nothing there. But a reader also accepts the settings as a list, in their order of
declaration, and such a section is reported as a whole: without it, its settings are the defaults
(`Config.withoutLists`). Main statement: `UnusedKeys.unread_exact`.
-/

namespace Gateway

namespace Dict

variable {α : Type}

/-- Two dictionaries hold the same under some keys. -/
def AgreeOn (names : List String) (d d' : Dict α) : Prop :=
  ∀ name ∈ names, get? d name = get? d' name

end Dict

/-! ### Removing keys -/

namespace Value

variable {v : Option Value} {m : Settings} {removed : List (List String)} {key : String}
  {ks : List String}

/-- Whether what is there is a list. -/
def isListed : Option Value → Bool
  | some (list _) => true
  | _ => false

/-- A pointer names a key that occurs in a value. -/
def Occurs (v : Value) (p : String) : Prop :=
  Pointer.keys p ≠ [] ∧ (at? (some v) (Pointer.keys p)).isSome

/-- What is left of a value when what stands at the ends of sequences of keys is removed in turn. -/
def without (v : Option Value) (removed : List (List String)) : Option Value :=
  removed.foldl (fun v ks => putAt v ks none) v

/-- What follows a key in those of some sequences that begin with it. -/
def tailsUnder (key : String) : List (List String) → List (List String)
  | [] => []
  | [] :: rest => tailsUnder key rest
  | (k :: ks) :: rest => if k = key then ks :: tailsUnder key rest else tailsUnder key rest

/-- What is removed below a key is removed under it. -/
theorem mem_tailsUnder_iff : ks ∈ tailsUnder key removed ↔ key :: ks ∈ removed := by
  induction removed with
  | nil => simp [tailsUnder]
  | cons first rest ih =>
    cases first with
    | nil => simp [tailsUnder, ih]
    | cons k tail =>
      rw [tailsUnder, List.mem_cons, List.cons.injEq, ← ih]
      by_cases hk : k = key
      · simp [hk]
      · simp [hk, Ne.symm hk]

/-- Nothing is removed below a key under which nothing is. -/
theorem tailsUnder_eq_nil (h : ∀ ks, key :: ks ∉ removed) : tailsUnder key removed = [] :=
  List.eq_nil_iff_forall_not_mem.2 fun ks hks => h ks (mem_tailsUnder_iff.1 hks)

/-- There is nothing to remove where nothing is. -/
theorem putAt_none_none (ks : List String) : putAt none ks none = none := by
  cases ks <;> rfl

/-- Nor are there many things. -/
theorem without_none (removed : List (List String)) : without none removed = none := by
  induction removed with
  | nil => rfl
  | cons ks rest ih =>
    rw [without, List.foldl_cons, putAt_none_none]
    exact ih

/-- What is removed as a whole is gone. -/
theorem without_of_nil_mem (h : [] ∈ removed) : without v removed = none := by
  induction removed generalizing v with
  | nil => cases h
  | cons ks rest ih =>
    rcases List.mem_cons.1 h with rfl | h
    · exact without_none rest
    · exact ih h

/-- Under each key of a map it is removed what starts with this key. -/
theorem without_map (hm : Dict.Sorted m) (hremoved : [] ∉ removed) :
    ∃ left, without (some (map m)) removed = some (map left) ∧ Dict.Sorted left ∧
      ∀ key, Dict.get? left key = without (Dict.get? m key) (tailsUnder key removed) := by
  induction removed generalizing m with
  | nil => exact ⟨m, rfl, hm, fun _ => rfl⟩
  | cons ks rest ih =>
    cases ks with
    | nil => exact absurd List.mem_cons_self hremoved
    | cons k tail =>
      obtain ⟨left, hleft, hsorted, hget⟩ := ih (hm.put k (putAt (Dict.get? m k) tail none))
        fun hnil => hremoved (List.mem_cons_of_mem _ hnil)
      refine ⟨left, hleft, hsorted, fun key => ?_⟩
      rw [hget, Dict.get?_put, tailsUnder]
      split
      · rename_i hk
        rw [hk]
        rfl
      · rfl

end Value

/-! ### Readers of sections -/

namespace Json

open Value

variable {names : List String} {m m' : Settings} {α : Type} {default a : α}
  {read : Json → Option α}

/-- A reader of a section: all it is told is what stands in the fields with some names, and in an
empty map it finds the defaults. -/
structure ReadsFields (names : List String) (default : α) (read : Json → Option α) : Prop where
  fields : ∃ build, ∀ j, read j = (fields? names j).bind build
  empty : read (ofValue (map [])) = some default

namespace ReadsFields

/-- Where the same stands in the fields, the same is read. -/
theorem congr (h : ReadsFields names default read) (hm : Dict.Sorted m) (hm' : Dict.Sorted m')
    (hagree : Dict.AgreeOn names m m') : read (ofValue (map m)) = read (ofValue (map m')) := by
  obtain ⟨build, hbuild⟩ := h.fields
  have hfields : fields? names (ofValue (map m)) = fields? names (ofValue (map m')) := by
    rw [fields?_ofValue hm, fields?_ofValue hm']
    exact congrArg some (List.map_congr_left fun name hname => by rw [hagree name hname])
  rw [hbuild, hbuild, hfields]

/-- Only lists and maps have fields. -/
theorem list_or_map (h : ReadsFields names default read) {v : Value}
    (ha : read (ofValue v) = some a) : (∃ items, v = list items) ∨ ∃ m, v = map m := by
  obtain ⟨build, hbuild⟩ := h.fields
  rw [hbuild] at ha
  cases v with
  | list items => exact .inl ⟨items, rfl⟩
  | map m => exact .inr ⟨m, rfl⟩
  | _ => cases ha

end ReadsFields

/-- When the leaves of a section are removed that are not under the names of its settings, the
settings stay the same, unless the section is a list, which is one leaf: then the defaults are
left. -/
theorem ReadsFields.fieldOr_without (h : ReadsFields names default read) {v : Option Value}
    (hv : ∀ x ∈ v, x.WellFormed) {removed : List (List String)}
    (hremoved : ∀ x ∈ v, ∀ ks, ks ∈ removed ↔
      x.LeafAt ks ∧ ∀ name ∈ names, ¬[name] <+: ks)
    (ha : fieldOr default read (v.map ofValue) = some a) :
    fieldOr default read ((without v removed).map ofValue) =
      some (if isListed v then default else a) := by
  cases v with
  | none =>
    rw [without_none]
    exact ha
  | some x =>
    -- a leaf is removed as a whole
    have hleaf : x.IsLeaf → without (some x) removed = none := by
      intro hleaf
      refine without_of_nil_mem ((hremoved x rfl []).2 ⟨leafAt_nil_iff.2 hleaf, ?_⟩)
      rintro name - hprefix
      exact List.cons_ne_nil _ _ (List.prefix_nil.1 hprefix)
    rcases h.list_or_map ha with ⟨items, rfl⟩ | ⟨m, rfl⟩
    · rw [hleaf (by simp [IsLeaf])]
      rfl
    · by_cases hm : m = []
      · subst hm
        rw [hleaf (by simp [IsLeaf])]
        exact h.empty.symm.trans ha
      · have hwf := hv _ rfl
        rw [WellFormed] at hwf
        have hnil : [] ∉ removed := by
          intro hmem
          exact hm (leafAt_nil_iff.1 ((hremoved _ rfl _).1 hmem).1 m rfl)
        obtain ⟨left, hleft, hsorted, hget⟩ := without_map hwf.1 hnil
        -- nothing is removed in the fields that are read
        have hagree : Dict.AgreeOn names left m := by
          intro name hname
          rw [hget, tailsUnder_eq_nil]
          · rfl
          · intro ks hmem
            exact ((hremoved _ rfl _).1 hmem).2 name hname (List.prefix_append [name] ks)
        rw [hleft]
        exact (h.congr hsorted hwf.1 hagree).trans ha

end Json

/-- The settings of a run are read from their three fields, whatever else stands beside them. -/
theorem RunSettings.readsFields :
    Json.ReadsFields ["concurrency", "dry_run", "continue_on_error"] {} ofJson? :=
  ⟨⟨_, fun _ => rfl⟩, rfl⟩

/-- The settings of the selection are read from their two fields. -/
theorem SelectionSettings.readsFields :
    Json.ReadsFields ["select_tags", "default_lookup_tags"] {} ofJson? :=
  ⟨⟨_, fun _ => rfl⟩, rfl⟩

/-- The settings of the gateway are read from their two fields. -/
theorem GatewaySettings.readsFields : Json.ReadsFields ["version", "enterprise"] {} ofJson? :=
  ⟨⟨_, fun _ => rfl⟩, rfl⟩

/-! ### Configurations -/

namespace Config

open Value Json

variable {m : Settings} {c : Config}

/-- A configuration is read section by section. -/
theorem ofJson?_map_iff (hm : Dict.Sorted m) : ofJson? (.ofValue (map m)) = some c ↔
    fieldOr {} RunSettings.ofJson? ((Dict.get? m "sync").map ofValue) = some c.sync ∧
      fieldOr {} SelectionSettings.ofJson? ((Dict.get? m "selection").map ofValue) =
        some c.selection ∧
      fieldOr {} GatewaySettings.ofJson? ((Dict.get? m "gateway").map ofValue) =
        some c.gateway := by
  unfold ofJson?
  rw [fields?_ofValue hm]
  simp only [List.map_cons, List.map_nil, Option.bind_eq_bind, Option.bind_some,
    Option.bind_eq_some_iff, Option.some_inj]
  constructor
  · rintro ⟨sync, hsync, selection, hselection, gateway, hgateway, rfl⟩
    exact ⟨hsync, hselection, hgateway⟩
  · rintro ⟨hsync, hselection, hgateway⟩
    exact ⟨_, hsync, _, hselection, _, hgateway, rfl⟩

/-- The configuration with the defaults in place of the sections that a document writes as
lists. -/
def withoutLists (m : Settings) (c : Config) : Config where
  sync := if isListed (Dict.get? m "sync") then {} else c.sync
  selection := if isListed (Dict.get? m "selection") then {} else c.selection
  gateway := if isListed (Dict.get? m "gateway") then {} else c.gateway

/-- Leaving lists out changes nothing where every section that is written as a list reads as the
default. -/
theorem withoutLists_eq_self_iff : c.withoutLists m = c ↔
    (isListed (Dict.get? m "sync") → c.sync = {}) ∧
      (isListed (Dict.get? m "selection") → c.selection = {}) ∧
      (isListed (Dict.get? m "gateway") → c.gateway = {}) := by
  obtain ⟨sync, selection, gateway⟩ := c
  simp only [withoutLists, Config.mk.injEq, ite_eq_right_iff]
  exact and_congr (imp_congr_right fun _ => eq_comm)
    (and_congr (imp_congr_right fun _ => eq_comm) (imp_congr_right fun _ => eq_comm))

/-- A configuration is accepted when it has workers, no blank tag and a version that can be read. -/
theorem check_eq_ok_iff : c.check = .ok () ↔ c.sync.concurrency ≠ 0 ∧
    c.selection.selectTags.any Text.allBlank = false ∧
      ∃ v, c.gateway.parsedVersion = .ok v := by
  unfold check
  split
  · simp_all
  · split
    · simp_all
    · cases hversion : c.gateway.parsedVersion <;> simp_all

/-- The defaults pass every check. -/
theorem check_withoutLists (h : c.check = .ok ()) : (c.withoutLists m).check = .ok () := by
  obtain ⟨hconcurrency, htags, hversion⟩ := check_eq_ok_iff.1 h
  refine check_eq_ok_iff.2 ⟨?_, ?_, ?_⟩ <;> unfold withoutLists <;> dsimp only <;> split
  · decide
  · exact hconcurrency
  · rfl
  · exact htags
  · exact ⟨none, rfl⟩
  · exact hversion

/-- A document is a configuration when it can be read as one that is accepted. -/
theorem ofDocument_eq_ok_iff {v : Value} : ofDocument v = .ok c ↔
    ofJson? (.ofValue v) = some c ∧ c.check = .ok () := by
  unfold ofDocument
  cases hread : ofJson? (.ofValue v) with
  | none => simp
  | some c' =>
    change (c'.check.map fun _ => c') = .ok c ↔ some c' = some c ∧ _
    rw [Option.some_inj]
    cases hcheck : c'.check with
    | error e =>
      constructor
      · rintro ⟨⟩
      · rintro ⟨rfl, hc⟩
        rw [hcheck] at hc
        cases hc
    | ok u =>
      constructor
      · rintro ⟨⟩
        exact ⟨rfl, hcheck⟩
      · rintro ⟨rfl, -⟩
        rfl

end Config

/-! ### What is reported -/

namespace UnusedKeys

open Value

variable {entries : Settings} {mode : Mode} {key : String} {ks : List String}

/-- The keys that the reported pointers name. -/
def removed (r : UnusedKeys) : List (List String) := r.unused.map Pointer.keys

/-- Every pointer names a key: also that to the root, of which an empty key is read. -/
theorem nil_not_mem_removed (h : (map entries).WellFormed) :
    [] ∉ (ofValue mode (map entries)).removed := by
  intro hmem
  obtain ⟨p, hp, hkeys⟩ := List.mem_map.1 hmem
  obtain ⟨ks, -, rfl, -⟩ := (mem_unusedLeaves_iff h).1 hp
  by_cases hks : ks = []
  · rw [hks, Pointer.keys_ofKeys_nil] at hkeys
    cases hkeys
  · rw [Pointer.keys_ofKeys hks] at hkeys
    exact hks hkeys

/-- The keys that the reported pointers name are those of the leaves that are not read. -/
theorem mem_removed_iff (h : (map entries).WellFormed) (hkey : key ≠ "") :
    key :: ks ∈ (ofValue mode (map entries)).removed ↔
      (map entries).LeafAt (key :: ks) ∧
        ∀ place ∈ mode.consumed, ¬Pointer.keys place <+: key :: ks := by
  unfold removed
  rw [List.mem_map]
  constructor
  · rintro ⟨p, hp, hkeys⟩
    obtain ⟨ks', hleaf, rfl, hunread⟩ := (mem_unusedLeaves_iff h).1 hp
    by_cases hks : ks' = []
    · rw [hks, Pointer.keys_ofKeys_nil] at hkeys
      cases hkeys
      exact absurd rfl hkey
    · rw [Pointer.keys_ofKeys hks] at hkeys
      rw [← hkeys]
      exact ⟨hleaf, hunread⟩
  · rintro ⟨hleaf, hunread⟩
    exact ⟨_, (mem_unusedLeaves_iff h).2 ⟨_, hleaf, rfl, hunread⟩,
      Pointer.keys_ofKeys (List.cons_ne_nil _ _)⟩

/-- Of a section a mode reads what is under its settings, and nothing else. -/
theorem unread_iff {names : List String}
    (hnames : tailsUnder key (mode.consumed.map Pointer.keys) = names.map fun name => [name]) :
    (∀ place ∈ mode.consumed, ¬Pointer.keys place <+: key :: ks) ↔
      ∀ name ∈ names, ¬[name] <+: ks := by
  have hmem : ∀ rest, key :: rest ∈ mode.consumed.map Pointer.keys ↔
      ∃ name ∈ names, [name] = rest := by
    intro rest
    rw [← mem_tailsUnder_iff, hnames, List.mem_map]
  constructor
  · intro h name hname hprefix
    obtain ⟨place, hplace, hkeys⟩ := List.mem_map.1 ((hmem _).2 ⟨name, hname, rfl⟩)
    refine h place hplace ?_
    rw [hkeys]
    exact (List.prefix_cons_inj key).2 hprefix
  · intro h place hplace hprefix
    obtain ⟨-, hlength⟩ := Mode.foldl_keys_of_mem_consumed hplace
    obtain ⟨k, rest, hkeys⟩ := List.exists_cons_of_length_eq_add_one hlength
    rw [hkeys, List.cons_prefix_cons] at hprefix
    obtain ⟨rfl, hprefix⟩ := hprefix
    obtain ⟨name, hname, rfl⟩ := (hmem rest).1 (List.mem_map.2 ⟨place, hplace, hkeys⟩)
    exact h name hname hprefix

/-- A section is read without the keys that are reported as it is read with them, unless it is a
list: then the defaults are read. -/
theorem fieldOr_section {α : Type} {names : List String} {default a : α} {read : Json → Option α}
    (h : (map entries).WellFormed) (hkey : key ≠ "")
    (hnames : tailsUnder key (mode.consumed.map Pointer.keys) = names.map fun name => [name])
    (hread : Json.ReadsFields names default read)
    (ha : Json.fieldOr default read ((Dict.get? entries key).map .ofValue) = some a) :
    Json.fieldOr default read ((without (Dict.get? entries key)
      (tailsUnder key (ofValue mode (map entries)).removed)).map .ofValue) =
      some (if isListed (Dict.get? entries key) then default else a) := by
  refine hread.fieldOr_without ?_ ?_ ha
  · intro x hx
    rw [WellFormed] at h
    exact wellFormedEntries_iff.1 h.2 _ (Dict.mem_of_get? hx)
  · intro x hx ks
    rw [mem_tailsUnder_iff, mem_removed_iff h hkey, unread_iff hnames, leafAt_cons_iff]
    refine and_congr_left fun _ => ?_
    constructor
    · rintro ⟨_, w, heq, hget, hleaf⟩
      cases heq
      cases hx.symm.trans hget
      exact hleaf
    · exact fun hleaf => ⟨entries, x, rfl, hx, hleaf⟩

/-- Of a configuration that is not empty only keys are reported that occur in it; of an empty one,
where none occurs, the root is. -/
theorem occurs_iff (h : (map entries).WellFormed) :
    (∀ p ∈ (ofValue mode (map entries)).unused, (map entries).Occurs p) ↔ entries ≠ [] := by
  constructor
  · rintro hoccurs rfl
    have hroot : Pointer.root ∈ (ofValue mode (map [])).unused := by
      cases mode <;> decide +kernel
    obtain ⟨-, hat⟩ := hoccurs _ hroot
    exact absurd hat (by decide +kernel)
  · intro hne p hp
    obtain ⟨ks, hleaf, rfl, -⟩ := (mem_unusedLeaves_iff h).1 hp
    have hks : ks ≠ [] := by
      rintro rfl
      exact hne (leafAt_nil_iff.1 hleaf entries rfl)
    obtain ⟨x, hx, -⟩ := hleaf
    unfold Occurs
    rw [Pointer.keys_ofKeys hks, hx]
    exact ⟨hks, rfl⟩

/-- Of a configuration, in each mode, only keys are reported that occur in it if and only if it is
not empty. When a configuration is accepted, it is accepted also without the keys that are reported
for a run, and what is lost with them is the sections written as lists: so the outcome is the same
if and only if each of these gives the defaults. -/
theorem unread_exact (h : (map entries).WellFormed) :
    (∀ mode, (∀ p ∈ (ofValue mode (map entries)).unused, (map entries).Occurs p) ↔
        entries ≠ []) ∧
      ∀ c, Config.ofDocument (map entries) = .ok c →
        ∃ left, without (some (map entries)) (ofValue .sync (map entries)).removed =
            some (map left) ∧
          Config.ofDocument (map left) = .ok (c.withoutLists entries) ∧
          (Config.ofDocument (map left) = .ok c ↔
            (isListed (Dict.get? entries "sync") → c.sync = {}) ∧
              (isListed (Dict.get? entries "selection") → c.selection = {}) ∧
              (isListed (Dict.get? entries "gateway") → c.gateway = {})) := by
  refine ⟨fun mode => occurs_iff h, fun c hc => ?_⟩
  have hsorted : Dict.Sorted entries := by
    rw [WellFormed] at h
    exact h.1
  obtain ⟨hread, hcheck⟩ := Config.ofDocument_eq_ok_iff.1 hc
  obtain ⟨hsync, hselection, hgateway⟩ := (Config.ofJson?_map_iff hsorted).1 hread
  have hnil : [] ∉ (ofValue .sync (map entries)).removed := nil_not_mem_removed h
  obtain ⟨left, hleft, hleftSorted, hget⟩ := without_map hsorted hnil
  have hleftRead : Config.ofDocument (map left) = .ok (c.withoutLists entries) := by
    refine Config.ofDocument_eq_ok_iff.2 ⟨?_, Config.check_withoutLists hcheck⟩
    rw [Config.ofJson?_map_iff hleftSorted, hget, hget, hget]
    exact ⟨fieldOr_section h (by decide) (by decide +kernel) RunSettings.readsFields hsync,
      fieldOr_section h (by decide) (by decide +kernel) SelectionSettings.readsFields hselection,
      fieldOr_section h (by decide) (by decide +kernel) GatewaySettings.readsFields hgateway⟩
  refine ⟨left, hleft, hleftRead, ?_⟩
  rw [hleftRead, Except.ok.injEq, Config.withoutLists_eq_self_iff]

/-- A misspelt key, and a section that is written as a list. -/
def misspelt : Settings :=
  [("gateway", map [("enterprise", .bool true), ("versoin", str "3.4")]),
    ("sync", list [whole 5])]

/-- Without what is reported, the settings of the section that is a map are as before, and those of
the list are lost. -/
theorem unread_exact_of_misspelt : (map misspelt).WellFormed ∧
    (ofValue .sync (map misspelt)).unused = ["/gateway/versoin", "/sync"] ∧
    (∀ p ∈ (ofValue .sync (map misspelt)).unused, (map misspelt).Occurs p) ∧
    Config.ofDocument (map misspelt) =
      .ok { sync := { concurrency := 5 }, gateway := { enterprise := true } } ∧
    ∃ left, without (some (map misspelt)) (ofValue .sync (map misspelt)).removed =
        some (map left) ∧
      Config.ofDocument (map left) = .ok { gateway := { enterprise := true } } := by
  have hv : (map misspelt).WellFormed := by decide
  have hc : Config.ofDocument (map misspelt) =
      .ok { sync := { concurrency := 5 }, gateway := { enterprise := true } } := by rfl
  obtain ⟨hoccurs, hunread⟩ := unread_exact hv
  obtain ⟨left, hleft, hread, -⟩ := hunread _ hc
  exact ⟨hv, by decide +kernel, (hoccurs .sync).2 (List.cons_ne_nil _ _), hc, left, hleft, hread⟩

/-- In an empty configuration no key occurs, but the root is reported; and a section written as a
list is reported, but it is read. -/
theorem not_always_unread :
    (¬∀ entries, (map entries).WellFormed →
      ∀ mode, ∀ p ∈ (ofValue mode (map entries)).unused, (map entries).Occurs p) ∧
    ¬∀ entries, (map entries).WellFormed → ∀ c, Config.ofDocument (map entries) = .ok c →
      ∀ left, without (some (map entries)) (ofValue .sync (map entries)).removed = some left →
        Config.ofDocument left = .ok c := by
  constructor
  · intro hoccurs
    have hunused : (ofValue .sync (map [])).unused = [Pointer.root] := by decide +kernel
    have hroot := hoccurs [] (by decide) .sync Pointer.root (by rw [hunused]; exact .head _)
    exact absurd hroot.2 (by decide +kernel)
  · intro hunread
    have hread := hunread [("sync", list [whole 5])] (by decide) { sync := { concurrency := 5 } }
      (by rfl) (map []) (by rfl)
    cases hread

end UnusedKeys

end Gateway
