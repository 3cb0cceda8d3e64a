import Gateway.Json

/-!
# Reading typed data from a document

Small readers from `Json` to types, none of which coerces: a number is not text, and `1.0` is not a
whole number. `Json.fields?` is the rule for structures: an object, in which unknown members are
ignored and a known one may stand once, or an array that gives the fields in their order of
declaration, in which missing fields at the end are absent.
-/

namespace Gateway.Json

/-- Apply a reader to every item of a list. -/
def readAll (read : Json → Option α) : List Json → Option (List α)
  | [] => some []
  | j :: rest =>
    match read j, readAll read rest with
    | some a, some as => some (a :: as)
    | _, _ => none

/-- Text. -/
def text? : Json → Option String
  | str s => some s
  | _ => none

/-- A truth value. -/
def bool? : Json → Option Bool
  | bool b => some b
  | _ => none

/-- A whole number within bounds. -/
def whole? (least greatest : Int) : Json → Option Int
  | num (.whole n) => if least ≤ n && n ≤ greatest then some n else none
  | _ => none

/-- A whole number from zero up to below `bound`. -/
def natural? (bound : Nat) (j : Json) : Option Nat := (whole? 0 (bound - 1) j).map Int.toNat

/-- A list. -/
def list? (read : Json → Option α) : Json → Option (List α)
  | arr items => readAll read items
  | _ => none

/-- A list of texts. -/
def texts? : Json → Option (List String) := list? text?

/-- Null, or what a reader accepts. -/
def nullable? (read : Json → Option α) : Json → Option (Option α)
  | null => some none
  | j => (read j).map some

/-- Apply a reader to every member. -/
def readEntries (read : Json → Option α) : List (String × Json) → Option (List (String × α))
  | [] => some []
  | (k, j) :: rest =>
    match read j, readEntries read rest with
    | some a, some as => some ((k, a) :: as)
    | _, _ => none

/-- A free map; of several members with one name the last counts, but all have to be readable. -/
def dict? (read : Json → Option α) : Json → Option (Dict α)
  | obj members => (readEntries read members).map Dict.ofList
  | _ => none

/-- A map of configuration values. -/
def settings? : Json → Option Settings
  | obj members => (memberValues? members).map Dict.ofList
  | _ => none

/-- The member with a name: none when two members have it, and no value when none has. -/
def member? (members : List (String × Json)) (name : String) : Option (Option Json) :=
  match members.filter (·.1 == name) with
  | [] => some none
  | [m] => some (some m.2)
  | _ => none

/-- The members with the given names, in the order of the names. -/
def membersNamed? (members : List (String × Json)) : List String → Option (List (Option Json))
  | [] => some []
  | name :: names =>
    match member? members name, membersNamed? members names with
    | some j, some js => some (j :: js)
    | _, _ => none

/-- The fields of a structure that declares the given names in this order. -/
def fields? (names : List String) : Json → Option (List (Option Json))
  | obj members => membersNamed? members names
  | arr items =>
    if items.length ≤ names.length then
      some (items.map some ++ List.replicate (names.length - items.length) none)
    else none
  | _ => none

/-- Read a field, with a default where it is absent. -/
def fieldOr (default : α) (read : Json → Option α) : Option Json → Option α
  | none => some default
  | some j => read j

/-- Read a field that may be absent or null. -/
def optional (read : Json → Option α) : Option Json → Option (Option α) :=
  fieldOr none (nullable? read)

/-- An enumeration: its spelling, or an object with that spelling as its only name and null
beside it. -/
def enum? (ofName? : String → Option α) : Json → Option α
  | str s => ofName? s
  | obj [(s, null)] => ofName? s
  | _ => none

end Gateway.Json
