/-!
# Dictionaries

A dictionary is a list of entries whose keys ascend strictly, so two dictionaries with the same
look-ups are the same list. Every operation is described through `Dict.get?`:
`Dict.get?_insert`, `Dict.get?_erase`; `Dict.Sorted` is kept by each (`Dict.Sorted.insert`,
`Dict.Sorted.erase`, `Dict.sorted_ofList`).
-/

namespace Gateway

/-- Entries with ascending keys. -/
abbrev Dict (α : Type) := List (String × α)

namespace Dict

variable {α β : Type}

/-- Keys ascend strictly. -/
def Sorted (d : Dict α) : Prop := d.Pairwise (·.1 < ·.1)

/-- The value stored under a key. -/
def get? : Dict α → String → Option α
  | [], _ => none
  | (k, v) :: rest, key => if k = key then some v else get? rest key

/-- Store a value under a key, in place of the value that was there. -/
def insert : Dict α → String → α → Dict α
  | [], key, value => [(key, value)]
  | (k, v) :: rest, key, value =>
    if key < k then (key, value) :: (k, v) :: rest
    else if key = k then (key, value) :: rest
    else (k, v) :: insert rest key value

/-- Remove a key. -/
def erase (d : Dict α) (key : String) : Dict α := d.filter (·.1 != key)

/-- The dictionary of a list of entries; of several entries with one key the last counts. -/
def ofList (entries : List (String × α)) : Dict α :=
  entries.foldl (fun d e => insert d e.1 e.2) []

/-- The keys, ascending. -/
def keys (d : Dict α) : List String := d.map (·.1)

/-- The members of a list of texts, ascending and without repetition. -/
def distinct (ts : List String) : List String := keys (ofList (ts.map fun t => (t, ())))

/-- Apply a function to every value. -/
def mapValues (f : α → β) (d : Dict α) : Dict β := d.map fun e => (e.1, f e.2)

/-! ### Laws -/

private theorem ne_of_lt {a b : String} (h : a < b) : a ≠ b := fun e =>
  String.lt_irrefl b (e ▸ h)

private theorem lt_of_not_lt {a b : String} (h : ¬a < b) (ne : a ≠ b) : b < a :=
  Decidable.byContradiction fun h' =>
    ne (String.le_antisymm (String.not_lt.1 h') (String.not_lt.1 h))

/-- Storing changes the look-up of its own key only. -/
theorem get?_insert (d : Dict α) (key k : String) (value : α) :
    get? (insert d key value) k = if key = k then some value else get? d k := by
  induction d with
  | nil => simp [insert, get?]
  | cons e rest ih =>
    obtain ⟨k', v'⟩ := e
    rw [insert]
    split
    · simp only [get?]
    · split
      · next h => subst h; simp only [get?]; split <;> simp_all
      · next h =>
        simp only [get?, ih]
        by_cases hk : k' = k
        · subst hk; simp [h]
        · simp [hk]

/-- What is found in a dictionary after storing was stored, or there before. -/
theorem mem_insert {d : Dict α} {key : String} {value : α} {e : String × α}
    (h : e ∈ insert d key value) : e = (key, value) ∨ e ∈ d := by
  induction d with
  | nil => simp_all [insert]
  | cons e' rest ih =>
    obtain ⟨k', v'⟩ := e'
    rw [insert] at h
    split at h
    · simpa using h
    · split at h <;> grind

/-- Storing keeps the keys ascending. -/
theorem Sorted.insert {d : Dict α} (h : Sorted d) (key : String) (value : α) :
    Sorted (Dict.insert d key value) := by
  induction d with
  | nil => simp [Dict.insert, Sorted]
  | cons e rest ih =>
    obtain ⟨k, v⟩ := e
    simp only [Sorted, List.pairwise_cons] at h
    rw [Dict.insert]
    split
    · next hlt =>
      simp only [Sorted, List.pairwise_cons, List.mem_cons]
      refine ⟨fun e he => ?_, h⟩
      rcases he with rfl | he
      · exact hlt
      · exact String.lt_trans hlt (h.1 _ he)
    · split
      · next heq => subst heq; simpa [Sorted] using h
      · next hn hne =>
        simp only [Sorted, List.pairwise_cons]
        refine ⟨fun e he => ?_, ih h.2⟩
        rcases mem_insert he with rfl | he
        · exact lt_of_not_lt hn hne
        · exact h.1 _ he

/-- Removing keeps the keys ascending. -/
theorem Sorted.erase {d : Dict α} (h : Sorted d) (key : String) : Sorted (Dict.erase d key) :=
  List.Pairwise.filter _ h

/-- A key that was removed is not found; every other look-up is unchanged. -/
theorem get?_erase (d : Dict α) (key k : String) :
    get? (erase d key) k = if key = k then none else get? d k := by
  induction d with
  | nil => simp [erase, get?]
  | cons e rest ih =>
    obtain ⟨k', v'⟩ := e
    simp only [erase] at ih
    by_cases h : k' = key
    · subst h
      simp only [erase, List.filter_cons, bne_self_eq_false, Bool.false_eq_true, if_false, ih, get?]
      split <;> rfl
    · simp only [erase, List.filter_cons, bne_iff_ne, ne_eq, h, not_false_eq_true, if_true, get?,
        ih]
      by_cases hk : k' = k
      · subst hk; simp [Ne.symm h]
      · simp [hk]

private theorem sorted_foldl_insert (entries : List (String × α)) {d : Dict α} (h : Sorted d) :
    Sorted (entries.foldl (fun d e => Dict.insert d e.1 e.2) d) := by
  induction entries generalizing d with
  | nil => exact h
  | cons e rest ih => exact ih (h.insert e.1 e.2)

/-- A dictionary made of a list of entries has ascending keys. -/
theorem sorted_ofList (entries : List (String × α)) : Sorted (ofList entries) :=
  sorted_foldl_insert entries List.Pairwise.nil

end Dict

end Gateway
