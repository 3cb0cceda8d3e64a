import Gateway.Value

/-!
# JSON text

`Json` is a document as written: members keep their order and may repeat a name, so that a decoder
can tell a field given twice from a field given once. `Json.read?` accepts exactly one value with
blanks around it.

Some text is well formed but stands for nothing a value can hold: a number beyond the doubles, a
string with an unpaired surrogate, a container inside more than 127 others. Such a part is read as
`Json.unreadable`. It does no harm where a decoder never looks, and makes every decoder fail that
does.
-/

namespace Gateway

/-- A JSON document as written. -/
inductive Json
  | null
  | bool (b : Bool)
  | num (n : Number)
  | str (s : String)
  | arr (items : List Json)
  | obj (members : List (String × Json))
  /-- Well-formed text that stands for no value. -/
  | unreadable
  deriving Inhabited

namespace Json

/-! ### Values -/

mutual

/-- The value of a document; of several members with one name the last counts. None when a part of
it is unreadable. -/
def toValue? : Json → Option Value
  | null => some .null
  | bool b => some (.bool b)
  | num n => some (.num n)
  | str s => some (.str s)
  | arr items => (itemValues? items).map .list
  | obj members => (memberValues? members).map .ofEntries
  | unreadable => none

/-- The values of items. -/
def itemValues? : List Json → Option (List Value)
  | [] => some []
  | j :: rest =>
    match toValue? j, itemValues? rest with
    | some v, some vs => some (v :: vs)
    | _, _ => none

/-- The values of members. -/
def memberValues? : List (String × Json) → Option (List (String × Value))
  | [] => some []
  | (k, j) :: rest =>
    match toValue? j, memberValues? rest with
    | some v, some vs => some ((k, v) :: vs)
    | _, _ => none

end

mutual

/-- The document of a value. -/
def ofValue : Value → Json
  | .null => null
  | .bool b => bool b
  | .num n => num n
  | .str s => str s
  | .list items => arr (ofItems items)
  | .map entries => obj (ofEntries entries)

/-- The documents of items. -/
def ofItems : List Value → List Json
  | [] => []
  | v :: rest => ofValue v :: ofItems rest

/-- The documents of entries. -/
def ofEntries : List (String × Value) → List (String × Json)
  | [] => []
  | (k, v) :: rest => (k, ofValue v) :: ofEntries rest

end

/-! ### Characters -/

/-- The four blanks of JSON. -/
def isBlank (c : Char) : Bool := c == ' ' || c == '\t' || c == '\n' || c == '\r'

/-- Text behind blanks. -/
def skipBlanks (cs : List Char) : List Char := cs.dropWhile isBlank

/-- The number a run of decimal digits writes. -/
def digitsValue (cs : List Char) : Nat := cs.foldl (fun n c => 10 * n + (c.toNat - 48)) 0

/-- The value of a hexadecimal digit. -/
def hexDigit? (c : Char) : Option Nat :=
  if '0' ≤ c && c ≤ '9' then some (c.toNat - 48)
  else if 'a' ≤ c && c ≤ 'f' then some (c.toNat - 87)
  else if 'A' ≤ c && c ≤ 'F' then some (c.toNat - 55)
  else none

/-- The UTF-16 unit of four hexadecimal digits. -/
def hexUnit? (a b c d : Char) : Option Nat :=
  match hexDigit? a, hexDigit? b, hexDigit? c, hexDigit? d with
  | some a, some b, some c, some d => some (((a * 16 + b) * 16 + c) * 16 + d)
  | _, _, _, _ => none

/-- The character that a one-letter escape stands for. -/
def escape? : Char → Option Char
  | '"' => some '"'
  | '\\' => some '\\'
  | '/' => some '/'
  | 'b' => some '\x08'
  | 'f' => some '\x0c'
  | 'n' => some '\n'
  | 'r' => some '\r'
  | 't' => some '\t'
  | _ => none

/-! ### Strings -/

/-- The inside of a string up to its closing quotation mark: code points, and UTF-16 units for
`\u` escapes. None when the quotation mark is missing, an escape is not one, or a control character
stands bare. -/
def stringUnits : List Char → Option (List Nat × List Char)
  | [] => none
  | '"' :: rest => some ([], rest)
  | '\\' :: 'u' :: a :: b :: c :: d :: rest =>
    match hexUnit? a b c d, stringUnits rest with
    | some n, some (units, rest) => some (n :: units, rest)
    | _, _ => none
  | '\\' :: c :: rest =>
    match escape? c, stringUnits rest with
    | some e, some (units, rest) => some (e.toNat :: units, rest)
    | _, _ => none
  | c :: rest =>
    if c.toNat < 32 || c == '\\' then none
    else (stringUnits rest).map fun (units, rest) => (c.toNat :: units, rest)

/-- Join surrogate pairs; none when a surrogate has no partner. -/
def joinUnits : List Nat → Option (List Char)
  | [] => some []
  | n :: rest =>
    if 0xD800 ≤ n && n < 0xDC00 then
      match rest with
      | m :: rest =>
        if 0xDC00 ≤ m && m < 0xE000 then
          (joinUnits rest).map (Char.ofNat (0x10000 + (n - 0xD800) * 1024 + (m - 0xDC00)) :: ·)
        else none
      | [] => none
    else if 0xDC00 ≤ n && n < 0xE000 then none
    else (joinUnits rest).map (Char.ofNat n :: ·)

/-! ### Numbers -/

/-- A fraction, if a point follows: its digits, at least one. -/
def fraction? : List Char → Option (Option (List Char) × List Char)
  | '.' :: rest =>
    let digits := rest.takeWhile Char.isDigit
    if digits.isEmpty then none else some (some digits, rest.dropWhile Char.isDigit)
  | rest => some (none, rest)

/-- A power of ten, if an exponent mark follows. -/
def power? : List Char → Option (Option Int × List Char)
  | c :: rest =>
    if c == 'e' || c == 'E' then
      let (minus, rest) := match rest with
        | '-' :: rest => (true, rest)
        | '+' :: rest => (false, rest)
        | rest => (false, rest)
      let digits := rest.takeWhile Char.isDigit
      if digits.isEmpty then none
      else
        let n : Int := digitsValue digits
        some (some (if minus then -n else n), rest.dropWhile Char.isDigit)
    else some (none, c :: rest)
  | [] => some (none, [])

/-- A number. A leading zero stands alone. -/
def number? (cs : List Char) : Option (Json × List Char) := do
  let (minus, cs) := match cs with
    | '-' :: rest => (true, rest)
    | _ => (false, cs)
  let digits := cs.takeWhile Char.isDigit
  if digits.isEmpty || (digits.head? == some '0' && digits.length > 1) then none
  else
    let (fraction, rest) ← fraction? (cs.dropWhile Char.isDigit)
    let (power, rest) ← power? rest
    let places := fraction.getD []
    let n := Number.ofDecimal? minus (digitsValue (digits ++ places)) places.length power
      fraction.isSome
    some (match n with
      | some n => num n
      | none => unreadable, rest)

/-! ### Documents -/

/-- How many containers may stand around a value. -/
def depthLimit : Nat := 127

mutual

/-- One value. `room` is how many further containers may nest; `fuel` bounds the text's length. -/
def readValue : Nat → Nat → List Char → Option (Json × List Char)
  | 0, _, _ => none
  | fuel + 1, room, cs =>
    match skipBlanks cs with
    | 'n' :: 'u' :: 'l' :: 'l' :: rest => some (null, rest)
    | 't' :: 'r' :: 'u' :: 'e' :: rest => some (bool true, rest)
    | 'f' :: 'a' :: 'l' :: 's' :: 'e' :: rest => some (bool false, rest)
    | '"' :: rest => do
      let (units, rest) ← stringUnits rest
      some (match joinUnits units with
        | some s => str (String.ofList s)
        | none => unreadable, rest)
    | '[' :: rest => do
      let (items, rest) ← match skipBlanks rest with
        | ']' :: rest => some ([], rest)
        | rest => readItems fuel (room - 1) rest
      some (if room = 0 then unreadable else arr items, rest)
    | '\x7b' :: rest => do
      let (members, rest) ← match skipBlanks rest with
        | '\x7d' :: rest => some (some [], rest)
        | rest => readMembers fuel (room - 1) rest
      some (match members with
        | some members => if room = 0 then unreadable else obj members
        | none => unreadable, rest)
    | rest => number? rest

/-- The items of an array, up to its closing bracket. -/
def readItems : Nat → Nat → List Char → Option (List Json × List Char)
  | 0, _, _ => none
  | fuel + 1, room, cs => do
    let (item, rest) ← readValue fuel room cs
    match skipBlanks rest with
    | ',' :: rest => do
      let (items, rest) ← readItems fuel room rest
      some (item :: items, rest)
    | ']' :: rest => some ([item], rest)
    | _ => none

/-- The members of an object, up to its closing brace; no list when a name is unreadable. -/
def readMembers : Nat → Nat → List Char → Option (Option (List (String × Json)) × List Char)
  | 0, _, _ => none
  | fuel + 1, room, cs =>
    match skipBlanks cs with
    | '"' :: rest => do
      let (units, rest) ← stringUnits rest
      let name := (joinUnits units).map String.ofList
      match skipBlanks rest with
      | ':' :: rest => do
        let (value, rest) ← readValue fuel room rest
        let member := name.map fun name => (name, value)
        match skipBlanks rest with
        | ',' :: rest => do
          let (members, rest) ← readMembers fuel room rest
          some ((match member, members with
            | some m, some ms => some (m :: ms)
            | _, _ => none), rest)
        | '\x7d' :: rest => some (member.map fun m => [m], rest)
        | _ => none
      | _ => none
    | _ => none

end

/-- The document that a text is, if it is one. -/
def read? (text : String) : Option Json :=
  let cs := text.toList
  match readValue (2 * cs.length + 2) depthLimit cs with
  | some (j, rest) => if (skipBlanks rest).isEmpty then some j else none
  | none => none

/-- The value that a text writes, if it writes one. -/
def readValue? (text : String) : Option Value := (read? text).bind toValue?

end Json

end Gateway
