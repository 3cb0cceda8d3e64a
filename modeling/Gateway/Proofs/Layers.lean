import Gateway.Config.Layered
import Gateway.Proofs.Divergence

/-!
# The last layer that speaks

A value is silent at a sequence of keys when it holds nothing at its end and nothing but maps on the
way there (`Value.SilentAt`). A value that is laid over another one decides what is found at a
sequence of keys unless it is silent there (`Value.at?_overlay_iff`). So of documents that are laid
over each other the last one that is not silent has the word (`Value.LastWord`): an empty map, an
absent key and a document that is null keep what was there, while a null under a key, or a text in
the place of a map, does away with it. Main statement: `Config.last_word_wins`.
-/

namespace Gateway

namespace Value

variable {base v x : Value} {m entries : Settings} {keys : List String} {key : String}
  {documents : List Value}

/-! ### Silence -/

/-- A value is silent at a sequence of keys: it holds nothing at its end, and whatever it holds on
the way is a map. -/
structure SilentAt (v : Value) (keys : List String) : Prop where
  nothing : at? (some v) keys = none
  maps : ∀ p, p <+: keys → p ≠ keys → ∀ w, at? (some v) p = some w → ∃ m, w = map m

/-- At its root every value holds something. -/
theorem not_silentAt_nil : ¬SilentAt v [] := by
  intro h
  cases h.nothing

/-- Only maps are silent below, and they are where what they hold under the first key is. -/
theorem silentAt_cons_iff : SilentAt v (key :: keys) ↔
    ∃ m, v = map m ∧ ∀ w, Dict.get? m key = some w → SilentAt w keys := by
  constructor
  · rintro ⟨hnothing, hmaps⟩
    obtain ⟨m, rfl⟩ := hmaps [] List.nil_prefix (List.cons_ne_nil _ _).symm v rfl
    have hbelow : at? (Dict.get? m key) keys = none := hnothing
    refine ⟨m, rfl, fun w hw => ⟨by rw [← hw]; exact hbelow, fun p hp hne u hu => ?_⟩⟩
    refine hmaps (key :: p) (List.cons_prefix_cons.2 ⟨rfl, hp⟩) ?_ u ?_
    · intro heq
      exact hne (List.cons.inj heq).2
    · show at? (Dict.get? m key) p = some u
      rw [hw]
      exact hu
  · rintro ⟨m, rfl, hbelow⟩
    refine ⟨?_, fun p hp hne u hu => ?_⟩
    · show at? (Dict.get? m key) keys = none
      cases hget : Dict.get? m key with
      | none => exact at?_none keys
      | some w => exact (hbelow w hget).nothing
    · rcases List.prefix_cons_iff.1 hp with rfl | ⟨q, rfl, hq⟩
      · cases hu
        exact ⟨m, rfl⟩
      · have hu : at? (Dict.get? m key) q = some u := hu
        cases hget : Dict.get? m key with
        | none =>
          rw [hget, at?_none] at hu
          cases hu
        | some w =>
          rw [hget] at hu
          exact (hbelow w hget).maps q hq (fun heq => hne (congrArg (key :: ·) heq)) u hu

/-! ### One value over another -/

/-- Unless both are maps, a value takes the place of the one that it is laid over. -/
theorem overlay_of_not_bothMaps (h : ¬BothMaps (some base) (some v)) : overlay base v = v := by
  cases v with
  | map entries =>
    cases base with
    | map m => exact absurd ⟨m, entries, rfl, rfl⟩ h
    | _ => rw [overlay]; simp
  | _ => rw [overlay]; simp

/-- Where a map is silent, anything but a map holds nothing. -/
theorem at?_eq_none_of_silentAt (h : ¬BothMaps (some base) (some v)) (hv : SilentAt v keys) :
    at? (some base) keys = none := by
  cases keys with
  | nil => exact absurd hv not_silentAt_nil
  | cons key keys =>
    obtain ⟨entries, rfl, -⟩ := silentAt_cons_iff.1 hv
    cases base with
    | map m => exact absurd ⟨m, entries, rfl, rfl⟩ h
    | _ => rfl

/-- Where a map that is laid over another one has a key, its value there is laid over the other's;
under all other keys nothing changes. -/
theorem get?_overlayEntries (h : Dict.Sorted entries) (m : Settings) (key : String) :
    Dict.get? (overlayEntries m entries) key = match Dict.get? entries key with
      | some v => some (overlay ((Dict.get? m key).getD null) v)
      | none => Dict.get? m key := by
  induction entries generalizing m with
  | nil => rfl
  | cons e rest ih =>
    obtain ⟨k, v⟩ := e
    obtain ⟨hfirst, hrest⟩ := List.pairwise_cons.1 h
    rw [overlayEntries, ih hrest, Dict.get?, Dict.get?_insert]
    by_cases hk : k = key
    · subst hk
      have hnone : Dict.get? rest k = none := Dict.get?_eq_none_of_lt hfirst
      rw [hnone, if_pos rfl, if_pos rfl]
    · rw [if_neg hk, if_neg hk]

/-- A value laid over another one decides what is found at a sequence of keys, unless it is silent
there. -/
theorem at?_overlay_iff (hv : v.WellFormed) (hx : ∀ m, x ≠ map m) :
    at? (some (overlay base v)) keys = some x ↔
      at? (some v) keys = some x ∨ SilentAt v keys ∧ at? (some base) keys = some x := by
  induction keys generalizing base v with
  | nil =>
    rw [or_iff_left fun h => not_silentAt_nil h.1]
    by_cases hmaps : BothMaps (some base) (some v)
    · -- neither of the two maps is `x`
      obtain ⟨m, entries, hbase, hentries⟩ := hmaps
      cases hbase
      cases hentries
      rw [overlay]
      simp [at?, (hx _).symm]
    · rw [overlay_of_not_bothMaps hmaps]
  | cons key keys ih =>
    by_cases hmaps : BothMaps (some base) (some v)
    · obtain ⟨m, entries, hbase, hentries⟩ := hmaps
      cases hbase
      cases hentries
      rw [WellFormed] at hv
      rw [overlay, silentAt_cons_iff]
      show at? (Dict.get? (overlayEntries m entries) key) keys = some x ↔
        at? (Dict.get? entries key) keys = some x ∨ _ ∧ at? (Dict.get? m key) keys = some x
      rw [get?_overlayEntries hv.1]
      cases hget : Dict.get? entries key with
      | none => simp [hget]
      | some w =>
        have hw : w.WellFormed := wellFormedEntries_iff.1 hv.2 _ (Dict.mem_of_get? hget)
        have hsilent : (∃ m, map entries = map m ∧
            ∀ u, Dict.get? m key = some u → SilentAt u keys) ↔ SilentAt w keys := by
          simp [hget]
        show at? (some (overlay _ w)) keys = some x ↔ _
        rw [ih hw, hsilent]
        refine or_congr_right (and_congr_right fun hkeys => ?_)
        -- the null that stands for an absent key holds nothing below, where alone `w` is silent
        cases hm : Dict.get? m key with
        | some u => rfl
        | none =>
          have hnull : ¬BothMaps (some null) (some w) := by
            rintro ⟨_, _, h, -⟩
            cases h
          show at? (some null) keys = some x ↔ _
          rw [at?_eq_none_of_silentAt hnull hkeys, at?_none]
    · rw [overlay_of_not_bothMaps hmaps, iff_self_or]
      rintro ⟨hkeys, hbase⟩
      rw [at?_eq_none_of_silentAt hmaps hkeys] at hbase
      cases hbase

/-! ### Documents over each other -/

/-- The last document that is not silent at a sequence of keys holds a value there. -/
def LastWord (documents : List Value) (keys : List String) (x : Value) : Prop :=
  ∃ before d after, documents = before ++ d :: after ∧ at? (some d) keys = some x ∧
    ∀ d' ∈ after, SilentAt d' keys

/-- The first document has the last word when all others are silent. -/
theorem lastWord_cons_iff : LastWord (v :: documents) keys x ↔
    LastWord documents keys x ∨ at? (some v) keys = some x ∧ ∀ d ∈ documents, SilentAt d keys := by
  constructor
  · rintro ⟨before, d, after, heq, hd, hafter⟩
    rcases before with _ | ⟨w, before⟩
    · obtain ⟨rfl, rfl⟩ := List.cons.inj heq
      exact .inr ⟨hd, hafter⟩
    · exact .inl ⟨before, d, after, (List.cons.inj heq).2, hd, hafter⟩
  · rintro (⟨before, d, after, rfl, hd, hafter⟩ | ⟨hd, hafter⟩)
    · exact ⟨v :: before, d, after, rfl, hd, hafter⟩
    · exact ⟨[], v, documents, rfl, hd, hafter⟩

/-- What is found at a sequence of keys comes from the last document that is not silent there, and
if all are, from what they are laid over. -/
theorem at?_foldl_overlay_iff (hdocuments : ∀ d ∈ documents, d.WellFormed)
    (hx : ∀ m, x ≠ map m) : at? (some (documents.foldl overlay base)) keys = some x ↔
      LastWord documents keys x ∨
        (∀ d ∈ documents, SilentAt d keys) ∧ at? (some base) keys = some x := by
  induction documents generalizing base with
  | nil => simp [LastWord]
  | cons v rest ih =>
    obtain ⟨hv, hrest⟩ := List.forall_mem_cons.1 hdocuments
    rw [List.foldl_cons, ih hrest, at?_overlay_iff hv hx, lastWord_cons_iff, List.forall_mem_cons]
    tauto

/-- Nothing but a map is found in the empty map. -/
theorem at?_map_nil_ne (hx : ∀ m, x ≠ map m) : at? (some (map [])) keys ≠ some x := by
  cases keys with
  | nil =>
    intro h
    exact hx [] (Option.some.inj h).symm
  | cons key keys => simp [at?, Dict.get?]

/-- The document with the last word at a sequence of keys says what is found there. -/
theorem at?_overlayAll_iff (hdocuments : ∀ d ∈ documents, d.WellFormed) (hx : ∀ m, x ≠ map m) :
    at? (some (overlayAll documents)) keys = some x ↔ LastWord documents keys x := by
  unfold overlayAll
  rw [at?_foldl_overlay_iff hdocuments hx]
  exact or_iff_left fun h => at?_map_nil_ne hx h.2

end Value

/-! ### Documents that are read -/

namespace Yaml.Data

mutual

/-- The value of a datum is well formed. -/
theorem wellFormed_of_toValue? : (d : Data) → {v : Value} → d.toValue? = some v → v.WellFormed
  | null, _, h | bool _, _, h | num _, _, h | infinity _, _, h | notANumber, _, h
  | text _, _, h => by cases h; trivial
  | sequence items, _, h => by
    obtain ⟨vs, hvs, rfl⟩ := Option.map_eq_some_iff.1 h
    rw [Value.WellFormed]
    exact wellFormed_of_itemValues? items hvs
  | mapping entries, _, h => by
    obtain ⟨es, hes, rfl⟩ := Option.map_eq_some_iff.1 h
    exact Value.wellFormed_ofEntries (wellFormed_of_entryValues? entries hes)
  | tagged tag d, _, h => by
    obtain ⟨w, hw, rfl⟩ := Option.map_eq_some_iff.1 h
    exact Value.wellFormed_ofEntries ⟨wellFormed_of_toValue? d hw, trivial⟩

/-- The items of a sequence are read as well-formed values. -/
theorem wellFormed_of_itemValues? : (items : List Data) → {vs : List Value} →
    itemValues? items = some vs → Value.WellFormedItems vs
  | [], _, h => by cases h; trivial
  | d :: rest, _, h => by
    rw [itemValues?] at h
    split at h
    · rename_i v vs hv hvs
      cases h
      exact ⟨wellFormed_of_toValue? d hv, wellFormed_of_itemValues? rest hvs⟩
    · cases h

/-- The entries of a mapping are read as well-formed values. -/
theorem wellFormed_of_entryValues? : (entries : List (Data × Data)) →
    {es : List (String × Value)} → entryValues? entries = some es → Value.WellFormedEntries es
  | [], _, h => by cases h; trivial
  | (k, d) :: rest, _, h => by
    rw [entryValues?] at h
    split at h
    · rename_i key v es _ hv hes
      cases h
      exact ⟨wellFormed_of_toValue? d hv, wellFormed_of_entryValues? rest hes⟩
    · cases h

end

end Yaml.Data

namespace Config

open Value

/-- The value of a document that was read is well formed. -/
theorem wellFormed_of_readLayer {text : String} {v : Value} (h : readLayer text = .ok (some v)) :
    v.WellFormed := by
  unfold readLayer at h
  split at h
  · cases h
  · rename_i d _
    split at h
    · cases h
    · split at h
      · rename_i w hw
        cases h
        exact Yaml.Data.wellFormed_of_toValue? d hw
      · cases h

/-- In documents laid over each other, what is found at a sequence of keys and is not a map is what
the last document holds there that is not silent. A configuration is made of the documents that its
texts hold, in their order, but for those that are null. -/
theorem last_word_wins :
    (∀ documents : List Value, (∀ d ∈ documents, d.WellFormed) → ∀ keys x, (∀ m, x ≠ map m) →
      (at? (some (overlayAll documents)) keys = some x ↔ LastWord documents keys x)) ∧
    ∀ texts document, load texts = .ok document →
      ∃ layers, List.Forall₂ (fun text layer => readLayer text = .ok layer) texts layers ∧
        document = overlayAll (layers.filterMap id) ∧
        ∀ keys x, (∀ m, x ≠ map m) →
          (at? (some document) keys = some x ↔ LastWord (layers.filterMap id) keys x) := by
  refine ⟨fun documents hdocuments keys x hx => at?_overlayAll_iff hdocuments hx, ?_⟩
  intro texts document h
  unfold load at h
  cases hread : texts.mapM readLayer with
  | error err =>
    rw [hread] at h
    cases h
  | ok layers =>
    rw [hread] at h
    cases h
    have hlayers := Except.mapM_eq_ok_iff.1 hread
    refine ⟨layers, hlayers, rfl, fun keys x hx => at?_overlayAll_iff (fun d hd => ?_) hx⟩
    obtain ⟨layer, hmem, rfl⟩ := List.mem_filterMap.1 hd
    obtain ⟨text, -, htext⟩ := hlayers.exists_of_mem_right hmem
    exact wellFormed_of_readLayer htext

/-- Three documents, of which the second unsets what the first set and the third has nothing to say
there. -/
def threeDocuments : List Value :=
  [map [("db", map [("host", .str "a"), ("port", whole 1)])], map [("db", map [("port", .null)])],
    map [("db", map []), ("log", .bool true)]]

/-- The host of the first document is kept, the null of the second stands in place of the port. -/
theorem last_word_of_threeDocuments :
    at? (some (overlayAll threeDocuments)) ["db", "host"] = some (.str "a") ∧
      at? (some (overlayAll threeDocuments)) ["db", "port"] = some .null := by
  have hall := last_word_wins.1 threeDocuments (by decide)
  have hsilent : ∀ m entries key, Dict.get? entries "db" = some (map m) → Dict.get? m key = none →
      SilentAt (map entries) ["db", key] := by
    intro m entries key hdb hkey
    refine silentAt_cons_iff.2 ⟨entries, rfl, fun w hw => ?_⟩
    rw [hdb] at hw
    cases hw
    exact silentAt_cons_iff.2 ⟨m, rfl, by simp [hkey]⟩
  constructor
  · refine (hall _ _ (by simp)).2 ⟨[], _, _, rfl, rfl, ?_⟩
    intro d hd
    rcases List.mem_pair.1 hd with rfl | rfl
    · exact hsilent _ _ _ rfl rfl
    · exact hsilent _ _ _ rfl rfl
  · refine (hall _ _ (by simp)).2 ⟨[_], _, [_], rfl, rfl, ?_⟩
    intro d hd
    rw [List.mem_singleton.1 hd]
    exact hsilent _ _ _ rfl rfl

end Config

end Gateway
