import Gateway.Config.Error
import Gateway.Value

/-!
# Unused keys

A configuration may hold keys that nothing reads, which usually are misspelt. Every place without
keys below it is a leaf, named by a pointer: the keys that lead to it, each behind a slash, with
slash and tilde inside a key escaped. Each mode reads what is under some pointers
(`Mode.consumed`), and the leaves under none of them are unused (`Value.unusedLeaves`).
-/

namespace Gateway

namespace Pointer

/-! ### Writing -/

/-- A character of a key inside a pointer. -/
def escapeChar (c : Char) : List Char :=
  if c = '~' then ['~', '0'] else if c = '/' then ['~', '1'] else [c]

/-- A key inside a pointer. -/
def escape (key : String) : String := String.ofList (key.toList.flatMap escapeChar)

/-- The pointer to a key below a place. -/
def child (here key : String) : String := here ++ "/" ++ escape key

/-- The pointer to the root, which leaves no trace in the pointers below it. -/
def root : String := "/"

/-- Whether a pointer leads to a place or below it. -/
def covers (place leaf : String) : Bool :=
  leaf == place || (place ++ "/").toList.isPrefixOf leaf.toList

end Pointer

namespace Mode

/-- The places that every mode reads. -/
def commonPlaces : List String :=
  ["/selection/select_tags", "/selection/default_lookup_tags", "/gateway/version",
    "/gateway/enterprise"]

/-- The places that a mode reads, with everything below them. -/
def consumed : Mode → List String
  | validate => commonPlaces
  | diff => commonPlaces ++ ["/sync/concurrency"]
  | sync => commonPlaces ++ ["/sync/concurrency", "/sync/dry_run", "/sync/continue_on_error"]

end Mode

namespace Value

mutual

/-- The pointers to the leaves of a value that stands at a place. Lists are values, not
structure. -/
def leafPointers (here : String) : Value → List String
  | map ((k, v) :: rest) =>
    leafPointers (Pointer.child here k) v ++ entryPointers here rest
  | _ => [if here.isEmpty then Pointer.root else here]

/-- The pointers to the leaves of the entries of a map. -/
def entryPointers (here : String) : List (String × Value) → List String
  | [] => []
  | (k, v) :: rest => leafPointers (Pointer.child here k) v ++ entryPointers here rest

end

/-- The leaves that a mode does not read, ascending and without repetition. -/
def unusedLeaves (v : Value) (mode : Mode) : List String :=
  Dict.distinct ((v.leafPointers "").filter fun leaf =>
    !mode.consumed.any fun place => Pointer.covers place leaf)

end Value

/-- What a mode reads of a configuration, and what it does not. -/
structure UnusedKeys where
  mode : Mode
  /-- The places that the mode reads, ascending. -/
  consumed : List String
  /-- The leaves that it does not. -/
  unused : List String
  deriving DecidableEq, Repr

namespace UnusedKeys

/-- The report on a configuration. -/
def ofValue (mode : Mode) (v : Value) : UnusedKeys where
  mode := mode
  consumed := Dict.distinct mode.consumed
  unused := v.unusedLeaves mode

/-- Whether everything is read. -/
def isClean (r : UnusedKeys) : Bool := r.unused.isEmpty

/-- Refuse a configuration with unused keys. -/
def refuse (r : UnusedKeys) : Except ConfigError UnusedKeys :=
  if r.isClean then .ok r else .error (.unusedKeys r.mode r.unused)

end UnusedKeys

end Gateway
