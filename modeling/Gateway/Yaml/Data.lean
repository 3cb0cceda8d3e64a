import Gateway.Value

/-!
# The data of a YAML document

What a document says, free of how it is written. It says more than a `Value` can hold: any datum
may be a key, numbers need not be finite, and a datum can have a tag. `Data.toValue?` gives the
value, if there is one.
-/

namespace Gateway.Yaml

/-- What a part of a document says. -/
inductive Data
  | null
  | bool (b : Bool)
  | num (n : Number)
  | infinity (minus : Bool)
  | notANumber
  | text (s : String)
  | sequence (items : List Data)
  | mapping (entries : List (Data × Data))
  /-- A datum with a tag of the document's own. -/
  | tagged (tag : String) (d : Data)
  deriving Inhabited

namespace Data

/-- A tag without the exclamation mark before it, if more than that is left. -/
def bareTag (tag : String) : String :=
  match tag.toList with
  | '!' :: c :: rest => String.ofList (c :: rest)
  | _ => tag

/-- Whether this is null under its tags. -/
def isNull : Data → Bool
  | null => true
  | tagged _ d => isNull d
  | _ => false

/-! ### Comparison -/

mutual

/-- Equal; the order of entries does not count. -/
def same : Data → Data → Bool
  | null, null => true
  | bool a, bool b => a == b
  | num a, num b => a.same b
  | infinity a, infinity b => a == b
  | notANumber, notANumber => true
  | text a, text b => a == b
  | sequence as, sequence bs => sameItems as bs
  | mapping as, mapping bs => as.length == bs.length && sameEntries as bs
  | tagged s a, tagged t b => bareTag s == bareTag t && same a b
  | _, _ => false

/-- Item by item equal. -/
def sameItems : List Data → List Data → Bool
  | [], [] => true
  | a :: as, b :: bs => same a b && sameItems as bs
  | _, _ => false

/-- Each entry is among the others. -/
def sameEntries : List (Data × Data) → List (Data × Data) → Bool
  | [], _ => true
  | (k, v) :: rest, others =>
    others.any (fun e => same k e.1 && same v e.2) && sameEntries rest others

end

/-- Whether no two of some keys are equal. -/
def areDistinct : List Data → Bool
  | [] => true
  | k :: rest => !rest.any (same k) && areDistinct rest

/-! ### Values -/

/-- The text of a key, for the keys that have one. -/
def keyText? : Data → Option String
  | text s => some s
  | bool b => some (if b then "true" else "false")
  | num n => some n.text
  | _ => none

mutual

/-- The value of a datum: a tag becomes the only key of a map, numbers that are not finite become
null. -/
def toValue? : Data → Option Value
  | null => some .null
  | bool b => some (.bool b)
  | num n => some (.num n)
  | infinity _ => some .null
  | notANumber => some .null
  | text s => some (.str s)
  | sequence items => (itemValues? items).map .list
  | mapping entries => (entryValues? entries).map .ofEntries
  | tagged tag d => (toValue? d).map fun v => .ofEntries [("!" ++ bareTag tag, v)]

/-- The values of items. -/
def itemValues? : List Data → Option (List Value)
  | [] => some []
  | d :: rest =>
    match toValue? d, itemValues? rest with
    | some v, some vs => some (v :: vs)
    | _, _ => none

/-- The values of entries under the texts of their keys. -/
def entryValues? : List (Data × Data) → Option (List (String × Value))
  | [] => some []
  | (k, d) :: rest =>
    match keyText? k, toValue? d, entryValues? rest with
    | some key, some v, some vs => some ((key, v) :: vs)
    | _, _, _ => none

end

end Data

end Gateway.Yaml
