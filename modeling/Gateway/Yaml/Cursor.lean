/-!
# Reading a YAML text

A `Cursor` is a place in a text: what follows, and how many octets and line breaks came before.
Here are also the classes of characters that the grammar of YAML speaks of.
-/

namespace Gateway.Yaml

/-! ### Characters -/

/-- A character that may stand in a text. -/
def isAllowed (c : Char) : Bool :=
  let n := c.toNat
  n == 9 || n == 10 || n == 13 || (0x20 ≤ n && n ≤ 0x7E) || n == 0x85 ||
    (0xA0 ≤ n && n ≤ 0xFFFD) || 0x10000 ≤ n

/-- A line break. -/
def isBreak (c : Char) : Bool :=
  c == '\n' || c == '\r' || c.toNat == 0x85 || c.toNat == 0x2028 || c.toNat == 0x2029

/-- A space or a tab. -/
def isBlank (c : Char) : Bool := c == ' ' || c == '\t'

/-- A letter, a digit, a hyphen or an underscore, all of ASCII. -/
def isWord (c : Char) : Bool := c.isAlphanum || c == '-' || c == '_'

/-- The mark that may stand at the beginning of a line. -/
def byteOrderMark : Char := '\ufeff'

/-! ### Places -/

/-- A place in a text. -/
structure Cursor where
  rest : List Char
  /-- How many octets of UTF-8 came before. -/
  index : Nat := 0
  line : Nat := 0
  /-- How many characters came before on the line. -/
  column : Nat := 0
  deriving Inhabited

namespace Cursor

/-- The character a number of places ahead. -/
def at? (c : Cursor) (n : Nat) : Option Char := c.rest[n]?

/-- Whether a character stands a number of places ahead. -/
def has (c : Cursor) (ch : Char) (n : Nat := 0) : Bool := c.at? n == some ch

/-- Whether the text is over. -/
def atEnd (c : Cursor) : Bool := c.rest.isEmpty

/-- Whether a character of a class stands a number of places ahead. -/
def isAt (c : Cursor) (p : Char → Bool) (n : Nat := 0) : Bool := (c.at? n).any p

/-- Whether a line break stands here. -/
def atBreak (c : Cursor) : Bool := c.isAt isBreak

/-- Whether a space or a tab stands here. -/
def atBlank (c : Cursor) : Bool := c.isAt isBlank

/-- Whether a line break or the end stands a number of places ahead. -/
def atLineEnd (c : Cursor) (n : Nat := 0) : Bool := (c.at? n).all isBreak

/-- Whether white space or the end stands a number of places ahead. -/
def atSpace (c : Cursor) (n : Nat := 0) : Bool := (c.at? n).all fun ch => isBlank ch || isBreak ch

/-- Go on over characters that are no line breaks. -/
def skip (c : Cursor) (n : Nat := 1) : Cursor :=
  let taken := c.rest.take n
  { c with
    rest := c.rest.drop n
    index := taken.foldl (fun i ch => i + ch.utf8Size) c.index
    column := c.column + taken.length }

/-- Go on over a line break, if there is one. -/
def skipLine (c : Cursor) : Cursor :=
  match c.rest with
  | '\r' :: '\n' :: rest => ⟨rest, c.index + 2, c.line + 1, 0⟩
  | ch :: rest => if isBreak ch then ⟨rest, c.index + ch.utf8Size, c.line + 1, 0⟩ else c
  | [] => c

/-- What a line break counts as in a text: most are one and the same. -/
def lineText (c : Cursor) : List Char :=
  match c.rest with
  | ch :: _ =>
    if !isBreak ch then [] else if ch.toNat == 0x2028 || ch.toNat == 0x2029 then [ch] else ['\n']
  | [] => []

/-- The characters of a class that stand here, and the place behind them. -/
def takeWhile (c : Cursor) (p : Char → Bool) : List Char × Cursor :=
  let taken := c.rest.takeWhile p
  (taken, c.skip taken.length)

/-- The place behind the characters of a class. -/
def skipWhile (c : Cursor) (p : Char → Bool) : Cursor := (c.takeWhile p).2

/-- Go on behind the end of a line on which nothing but a comment may follow. -/
def endLine? (c : Cursor) : Option Cursor :=
  let c := c.skipWhile isBlank
  let c := if c.has '#' then c.skipWhile (!isBreak ·) else c
  if c.atLineEnd then some c.skipLine else none

/-- Whether three equal characters stand at the beginning of a line, and white space behind. -/
def atMarker (c : Cursor) (ch : Char) : Bool :=
  c.column == 0 && c.has ch 0 && c.has ch 1 && c.has ch 2 && c.atSpace 3

/-- Whether a document begins or ends here. -/
def atDocumentMarker (c : Cursor) : Bool := c.atMarker '-' || c.atMarker '.'

end Cursor

end Gateway.Yaml
