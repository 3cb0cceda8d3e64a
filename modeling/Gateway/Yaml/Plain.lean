import Gateway.Json
import Gateway.Yaml.Data

/-!
# Plain texts

A text without quotation marks may stand for null, a truth value or a number. `Data.ofPlain?` says
for which; all others stand for themselves.
-/

namespace Gateway.Yaml

/-! ### Words -/

/-- Whether a text stands for null. -/
def isNullWord (s : String) : Bool := ["~", "null", "Null", "NULL"].contains s

/-- The truth value that a text stands for. -/
def boolWord? (s : String) : Option Bool :=
  if ["true", "True", "TRUE"].contains s then some true
  else if ["false", "False", "FALSE"].contains s then some false
  else none

/-! ### Whole numbers -/

/-- The base that a letter behind a zero stands for. -/
def base? : Char → Option Nat
  | 'x' => some 16
  | 'o' => some 8
  | 'b' => some 2
  | _ => none

/-- The number that digits write in a base of at most sixteen. -/
def digitsInBase? (base : Nat) (cs : List Char) : Option Nat :=
  if cs.isEmpty then none
  else cs.foldlM (fun n c => do
    let digit ← Json.hexDigit? c
    if digit < base then some (base * n + digit) else none) 0

/-- The number of a numeral without sign. Decimal ones have no zero in front. -/
def magnitude? : List Char → Option Nat
  | ['0'] => some 0
  | '0' :: c :: rest => (base? c).bind (digitsInBase? · rest)
  | cs => digitsInBase? 10 cs

/-- What a numeral stands for. -/
inductive Whole
  | number (n : Int)
  /-- More than a number can hold, which is an error. -/
  | tooLong
  /-- So much more that it does not count as a whole number. -/
  | huge

/-- The whole number that a text stands for. -/
def whole? (cs : List Char) : Option Whole :=
  match cs with
  | '-' :: rest => (magnitude? rest).map fun m =>
    if m ≤ Nat.pow 2 63 then .number (-m) else if m ≤ Nat.pow 2 127 then .tooLong else .huge
  | _ =>
    let rest := if cs.head? == some '+' then cs.drop 1 else cs
    (magnitude? rest).map fun m =>
      if m < Nat.pow 2 64 then .number m else if m < Nat.pow 2 128 then .tooLong else .huge

/-! ### Other numbers -/

/-- An exponent up to the end of a text. -/
def exponent? : List Char → Option Int
  | [] => some 0
  | c :: rest =>
    if c == 'e' || c == 'E' then
      let (minus, digits) := match rest with
        | '-' :: digits => (true, digits)
        | '+' :: digits => (false, digits)
        | digits => (false, digits)
      if digits.isEmpty || !digits.all Char.isDigit then none
      else
        let n : Int := Json.digitsValue digits
        some (if minus then -n else n)
    else none

/-- The number that a decimal numeral without sign stands for, unless it is too large. -/
def decimal? (minus : Bool) (cs : List Char) : Option Data := do
  let whole := cs.takeWhile Char.isDigit
  let rest := cs.dropWhile Char.isDigit
  let (places, rest) := match rest with
    | '.' :: rest => (rest.takeWhile Char.isDigit, rest.dropWhile Char.isDigit)
    | rest => ([], rest)
  let digits := whole ++ places
  if digits.isEmpty then failure
  let power ← exponent? rest
  let d ← Double.ofDecimal? minus (Json.digitsValue digits) (power - places.length)
  return .num (.double d)

/-- Whether a word is one for infinity. -/
def isInfinityWord (cs : List Char) : Bool :=
  [".inf", ".Inf", ".INF"].contains (String.ofList cs)

/-- Whether a word is one for what is no number. -/
def isNoNumberWord (cs : List Char) : Bool :=
  [".nan", ".NaN", ".NAN"].contains (String.ofList cs)

/-- The number, whole or not, that a text stands for. -/
def real? (cs : List Char) : Option Data :=
  if isNoNumberWord cs then some .notANumber
  else
    let (minus, rest) := match cs with
      | '-' :: rest => (true, rest)
      | '+' :: rest => (false, rest)
      | _ => (false, cs)
    if isInfinityWord rest then some (.infinity minus) else decimal? minus rest

/-- Whether a text has only digits behind a zero and a sign: such a text is no number. -/
def isPaddedNumeral (cs : List Char) : Bool :=
  let rest := if cs.head?.any (['-', '+'].contains ·) then cs.drop 1 else cs
  rest.length > 1 && rest.head? == some '0' && rest.all Char.isDigit

/-! ### All plain texts -/

/-- What a plain text stands for; none when it is a whole number that is too long. -/
def Data.ofPlain? (s : String) : Option Data :=
  if s.isEmpty || isNullWord s then some .null
  else match boolWord? s with
    | some b => some (.bool b)
    | none =>
      match whole? s.toList with
      | some (.number n) => some (.num (.whole n))
      | some .tooLong => none
      | _ =>
        if isPaddedNumeral s.toList then some (.text s)
        else some ((real? s.toList).getD (.text s))

/-- What a text stands for whose tag names the type; none when the tag does not fit. Under a tag
that is not known it stands for itself. -/
def Data.ofTagged? (type : String) (s : String) : Option Data :=
  if type == "bool" then (boolWord? s).map .bool
  else if type == "int" then
    match whole? s.toList with
    | some (.number n) => some (.num (.whole n))
    | _ => none
  else if type == "float" then real? s.toList
  else if type == "null" then (if isNullWord s then some .null else none)
  else some (.text s)

end Gateway.Yaml
