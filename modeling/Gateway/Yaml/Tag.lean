import Gateway.Yaml.Text
import Gateway.Yaml.Token

/-!
# Names, tags and directives in YAML

What may stand before a node: its name behind an ampersand, its tag behind an exclamation mark; and
before a document: the directives, each a line that starts with a percent sign. Octets inside a tag
can be written in hexadecimal behind a percent sign.
-/

namespace Gateway.Yaml

/-! ### Names -/

/-- Whether a name may end here. -/
def endsName (c : Cursor) : Bool :=
  c.atSpace || c.isAt fun ch => ['?', ':', ',', ']', '\x7d', '%', '@', '\x60'].contains ch

/-- A name behind its mark. -/
def readName (c : Cursor) : Option (String × Cursor) :=
  let (name, c) := c.skip.takeWhile isWord
  if name.isEmpty || !endsName c then none else some (String.ofList name, c)

/-! ### The text of a tag -/

/-- A character of a tag; between angle brackets some more are allowed. -/
def isTagChar (wide : Bool) (c : Char) : Bool :=
  isWord c || ";/?:@&=+$.!~*'()".toList.contains c || (wide && ",[]".toList.contains c)

/-- A number of octets in hexadecimal, each behind a percent sign. -/
def readOctets : Nat → Cursor → Option (List Nat × Cursor)
  | 0, c => some ([], c)
  | n + 1, c =>
    match c.rest with
    | '%' :: high :: low :: _ => do
      let octet := 16 * (← Json.hexDigit? high) + (← Json.hexDigit? low)
      let (octets, c) ← readOctets n (c.skip 3)
      some (octet :: octets, c)
    | _ => none

/-- How many octets a character has that starts with an octet. -/
def octetCount? (n : Nat) : Option Nat :=
  if n < 0x80 then some 1
  else if n < 0xC0 then none
  else if n < 0xE0 then some 2
  else if n < 0xF0 then some 3
  else if n < 0xF8 then some 4
  else none

/-- The character of octets, if they are one. -/
def charOfOctets? (octets : List Nat) : Option Char :=
  (String.fromUTF8? ⟨(octets.map Nat.toUInt8).toArray⟩).bind (·.toList.head?)

/-- A character in octets. They have the shape of a character but need not be one. -/
def readEscapedChar (c : Cursor) : Option (Option Char × Cursor) := do
  let (first, _) ← readOctets 1 c
  let count ← first.head?.bind octetCount?
  let (octets, c) ← readOctets count c
  if (octets.drop 1).all fun n => 0x80 ≤ n && n < 0xC0 then some (charOfOctets? octets, c) else none

/-- The characters of a tag. -/
def tagChars (wide : Bool) : Nat → Cursor → Option (List (Option Char) × Cursor)
  | 0, _ => none
  | fuel + 1, c => do
    if c.has '%' then
      let (ch, c) ← readEscapedChar c
      let (chs, c) ← tagChars wide fuel c
      some (ch :: chs, c)
    else if c.isAt (isTagChar wide) then
      let (chs, after) ← tagChars wide fuel c.skip
      some (c.at? 0 :: chs, after)
    else some ([], c)

/-- Stands in a tag for octets that are no character. -/
def noCharacter : Char := '\x00'

/-- The text of a tag, which ends before a null character. -/
def readTagText (wide : Bool) (c : Cursor) : Option (String × Cursor) := do
  let (chs, c) ← tagChars wide (c.rest.length + 1) c
  let text := chs.takeWhile (· != some '\x00')
  some (String.ofList (text.map (·.getD noCharacter)), c)

/-- The text of a tag, with at least one character written. -/
def readSomeTagText (wide : Bool) (c : Cursor) : Option (String × Cursor) := do
  let (text, after) ← readTagText wide c
  if after.index = c.index then none else some (text, after)

/-! ### Tags -/

/-- A handle: an exclamation mark, a word, and perhaps another one. -/
def readHandle (c : Cursor) : String × Cursor :=
  let (word, c) := c.skip.takeWhile isWord
  if c.has '!' then (String.ofList ('!' :: word ++ ['!']), c.skip)
  else (String.ofList ('!' :: word), c)

/-- Whether a handle has both exclamation marks. -/
def isClosedHandle (handle : String) : Bool :=
  handle.length > 1 && handle.toList.getLast? == some '!'

/-- A tag as its handle and the text behind it; the exclamation mark stands here. -/
def readTag (c : Cursor) : Option (Token × Cursor) := do
  if c.has '<' 1 then
    let (text, c) ← readSomeTagText true (c.skip 2)
    if c.has '>' then some (.tag "" text, c.skip) else none
  else
    let (handle, c) := readHandle c
    if isClosedHandle handle then
      let (suffix, c) ← readSomeTagText false c
      some (.tag handle suffix, c)
    else
      let (suffix, c) ← readTagText false c
      let suffix := String.ofList (handle.toList.drop 1) ++ suffix
      some (if suffix.isEmpty then .tag "" "!" else .tag "!" suffix, c)

/-! ### Directives -/

/-- A number of at most nine digits. -/
def readDigits (c : Cursor) : Option (Nat × Cursor) :=
  let (digits, c) := c.takeWhile Char.isDigit
  if digits.isEmpty || digits.length > 9 then none else some (Json.digitsValue digits, c)

/-- The version of the format: 1.1 or 1.2. -/
def readVersion (c : Cursor) : Option (Token × Cursor) := do
  let (major, c) ← readDigits c
  if !c.has '.' then failure
  let (minor, c) ← readDigits c.skip
  if major = 1 && (minor = 1 || minor = 2) then some (.version, c) else none

/-- A handle and its meaning. -/
def readMeaning (c : Cursor) : Option (Token × Cursor) := do
  if !c.has '!' then failure
  let (handle, c) := readHandle c
  if !(handle == "!" || isClosedHandle handle) || !c.atBlank then failure
  let (meaning, c) ← readSomeTagText true (c.skipWhile isBlank)
  if c.atSpace then some (.handle handle meaning, c) else none

/-- A directive; the percent sign stands here. -/
def readDirective (c : Cursor) : Option (Token × Cursor) := do
  let (name, c) := c.skip.takeWhile isWord
  if !c.atSpace then failure
  let c := c.skipWhile isBlank
  let (token, c) ←
    if name == "YAML".toList then readVersion c
    else if name == "TAG".toList then readMeaning c
    else none
  return (token, ← c.endLine?)

end Gateway.Yaml
