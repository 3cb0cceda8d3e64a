import Gateway.Dict
import Gateway.Number

/-!
# Configuration values

The configuration of plugins, vaults, shared pieces and custom objects is a tree of unknown shape:
a `Value`. Maps keep their keys ascending, so a value has one written form (`Value.text`), and two
values are compared by `Value.same`, which differs from equality only in that it takes `0.0` and
`-0.0` for the same number.
-/

namespace Gateway

/-- A configuration value. The entries of a map have ascending keys (`Value.WellFormed`). -/
inductive Value
  | null
  | bool (b : Bool)
  | num (n : Number)
  | str (s : String)
  | list (items : List Value)
  | map (entries : List (String × Value))
  deriving Inhabited

/-- A map of configuration values. -/
abbrev Settings := Dict Value

namespace Value

/-! ### Parts -/

/-- The text of a string. -/
def asText? : Value → Option String
  | str s => some s
  | _ => none

/-- The entries of a map. -/
def asMap? : Value → Option Settings
  | map m => some m
  | _ => none

/-- Whether this is null. -/
def isNull : Value → Bool
  | null => true
  | _ => false

/-- What sort of value this is, for people. -/
def typeName : Value → String
  | null => "null"
  | bool _ => "bool"
  | num _ => "number"
  | str _ => "string"
  | list _ => "list"
  | map _ => "map"

/-- The map of a list of entries, the last of several entries with one key counting. -/
def ofEntries (entries : List (String × Value)) : Value := map (Dict.ofList entries)

/-- A list of strings. -/
def texts (ts : List String) : Value := list (ts.map str)

/-- The whole number `n`. -/
def whole (n : Int) : Value := num (.whole n)

/-! ### Well-formed values -/

mutual

/-- Every map in the tree has ascending keys. -/
def WellFormed : Value → Prop
  | list items => WellFormedItems items
  | map entries => Dict.Sorted entries ∧ WellFormedEntries entries
  | _ => True

/-- Every item is well formed. -/
def WellFormedItems : List Value → Prop
  | [] => True
  | v :: rest => WellFormed v ∧ WellFormedItems rest

/-- Every value of an entry is well formed. -/
def WellFormedEntries : List (String × Value) → Prop
  | [] => True
  | (_, v) :: rest => WellFormed v ∧ WellFormedEntries rest

end

/-! ### Comparison -/

mutual

/-- Equal, `0.0` and `-0.0` being one number. -/
def same : Value → Value → Bool
  | null, null => true
  | bool a, bool b => a == b
  | num a, num b => a.same b
  | str a, str b => a == b
  | list as, list bs => sameItems as bs
  | map as, map bs => sameEntries as bs
  | _, _ => false

/-- Item by item the same. -/
def sameItems : List Value → List Value → Bool
  | [], [] => true
  | a :: as, b :: bs => same a b && sameItems as bs
  | _, _ => false

/-- The same keys with the same values. -/
def sameEntries : List (String × Value) → List (String × Value) → Bool
  | [], [] => true
  | (j, a) :: as, (k, b) :: bs => j == k && same a b && sameEntries as bs
  | _, _ => false

end

/-- Both absent, or both there and the same. -/
def sameOption : Option Value → Option Value → Bool
  | none, none => true
  | some a, some b => same a b
  | _, _ => false

/-! ### Text -/

/-- The two lower-case hexadecimal digits of a number below 256. -/
def hexByte (n : Nat) : String :=
  String.ofList [Nat.digitChar (n / 16), Nat.digitChar (n % 16)]

/-- Four lower-case hexadecimal digits. -/
def hexUnit (n : Nat) : String := hexByte (n / 256) ++ hexByte (n % 256)

/-- A character inside quotation marks: the quotation mark, the backslash and control characters
are escaped, and nothing else. -/
def quoteChar (c : Char) : String :=
  if c = '"' then "\\\""
  else if c = '\\' then "\\\\"
  else if c.toNat = 8 then "\\b"
  else if c = '\t' then "\\t"
  else if c = '\n' then "\\n"
  else if c.toNat = 12 then "\\f"
  else if c = '\r' then "\\r"
  else if c.toNat < 32 then "\\u" ++ hexUnit c.toNat
  else c.toString

/-- A string in quotation marks; `write` says how each character appears. -/
def quoteWith (write : Char → String) (s : String) : String :=
  "\"" ++ String.join (s.toList.map write) ++ "\""

/-- A string in quotation marks. -/
def quote (s : String) : String := quoteWith quoteChar s

mutual

/-- The compact text of a value; `write` says how the characters of a string appear. -/
def textWith (write : Char → String) : Value → String
  | null => "null"
  | bool b => if b then "true" else "false"
  | num n => n.text
  | str s => quoteWith write s
  | list items => "[" ++ ",".intercalate (itemTexts write items) ++ "]"
  | map entries => "\x7b" ++ ",".intercalate (entryTexts write entries) ++ "\x7d"

/-- The texts of items. -/
def itemTexts (write : Char → String) : List Value → List String
  | [] => []
  | v :: rest => textWith write v :: itemTexts write rest

/-- The texts of entries. -/
def entryTexts (write : Char → String) : List (String × Value) → List String
  | [] => []
  | (k, v) :: rest => (quoteWith write k ++ ":" ++ textWith write v) :: entryTexts write rest

end

/-- The compact text of a value. -/
def text (v : Value) : String := textWith quoteChar v

/-- A character as `quoteChar` writes it, but in ASCII alone: other characters become `\uXXXX`, one
for each of their UTF-16 units. -/
def quoteCharAscii (c : Char) : String :=
  let n := c.toNat
  if n < 127 then quoteChar c
  else if n < 0x10000 then "\\u" ++ hexUnit n
  else
    "\\u" ++ hexUnit (0xD800 + (n - 0x10000) / 1024) ++
      "\\u" ++ hexUnit (0xDC00 + (n - 0x10000) % 1024)

/-- The compact text of a value in ASCII alone. -/
def asciiText (v : Value) : String := textWith quoteCharAscii v

end Value

end Gateway
