import Gateway.Json.Decode

/-!
# Differences between configuration maps

`Value.differences old new` lists where two maps differ: maps are compared key by key at any depth,
anything else (scalars, lists, a map in the place of a scalar) as a whole. Each difference carries
the keys that lead to it, and they come in ascending order of these keys. `FieldChange` is a
difference with its keys joined to one dotted path, the form in which plans show it.
-/

namespace Gateway

/-- A place where two values differ. -/
structure Difference where
  /-- The keys that lead to the place. -/
  keys : List String
  /-- What was there; none when nothing was. -/
  old : Option Value
  /-- What is there now; none when nothing is. -/
  new : Option Value

/-- The same difference seen from outside a map that holds it under a key. -/
def Difference.under (key : String) (d : Difference) : Difference :=
  { d with keys := key :: d.keys }

namespace Value

/-- Entries of the second map whose keys the first does not have, each as an added value. -/
def additions (old new : Settings) : List (String × List Difference) :=
  (new.filter fun e => (Dict.get? old e.1).isNone).map fun e =>
    (e.1, [⟨[], none, some e.2⟩])

/-- The differences under each key, brought into the order of the keys. -/
def inKeyOrder (groups : List (String × List Difference)) : List Difference :=
  (Dict.ofList groups).flatMap fun g => g.2.map (Difference.under g.1)

mutual

/-- The differences between a value and what has taken its place. -/
def differencesFrom (old : Value) (new : Option Value) : List Difference :=
  match old, new with
  | map old, some (map new) => inKeyOrder (entryDifferences old new ++ additions old new)
  | old, new => if sameOption (some old) new then [] else [⟨[], some old, new⟩]

/-- The differences under each key of the first map. -/
def entryDifferences (old : List (String × Value)) (new : Settings) :
    List (String × List Difference) :=
  match old with
  | [] => []
  | (k, v) :: rest => (k, differencesFrom v (Dict.get? new k)) :: entryDifferences rest new

end

/-- The differences between two maps, in ascending order of their keys. -/
def differences (old new : Settings) : List Difference :=
  differencesFrom (map old) (some (map new))

end Value

/-! ### Changes of fields -/

/-- A changed field of an entity. -/
structure FieldChange where
  /-- The keys from the entity down, joined by points. -/
  path : String
  old : Option Value
  new : Option Value

namespace FieldChange

/-- Keys joined by points; empty keys at the front leave no point behind. -/
def dotted (keys : List String) : String :=
  keys.foldl (fun path key => if path.isEmpty then key else path ++ "." ++ key) ""

/-- A difference as the change of a field. -/
def ofDifference (d : Difference) : FieldChange := ⟨dotted d.keys, d.old, d.new⟩

/-- The changes that turn one body into another. -/
def between (old new : Settings) : List FieldChange :=
  (Value.differences old new).map ofDifference

/-- One line: path, old and new value. -/
def text (c : FieldChange) : String :=
  let side (v : Option Value) : String := (v.map Value.text).getD "<absent>"
  c.path ++ ": " ++ side c.old ++ " -> " ++ side c.new

/-- The written form, with null for an absent value. -/
def toValue (c : FieldChange) : Value :=
  .map [("new", c.new.getD .null), ("old", c.old.getD .null), ("path", .str c.path)]

/-- Read a change; a value that is null is absent. An array gives all three parts. -/
def ofJson? : Json → Option FieldChange
  | .arr [path, old, new] => ofPlaces? (some path) (some old) (some new)
  | .obj members => do
    ofPlaces? (← Json.member? members "path") (← Json.member? members "old")
      (← Json.member? members "new")
  | _ => none
where
  /-- Read a change from what stands in the places of its parts. -/
  ofPlaces? (path old new : Option Json) : Option FieldChange := do
    some ⟨← Json.text? (← path), ← Json.optional Json.toValue? old,
      ← Json.optional Json.toValue? new⟩

end FieldChange

end Gateway
