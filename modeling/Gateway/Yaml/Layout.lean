import Gateway.Yaml.Tag

/-!
# The layout of a YAML text

`Token.ofText?` takes a text apart into its tokens, from left to right. What a collection is shows
by its indentation, and that a text is a key shows only at the colon behind it. So a `Layout` keeps
the columns of the blocks that are open, and notes where a key may have begun; when a colon follows,
the tokens for the key are put in where it was noted.
-/

namespace Gateway.Yaml

/-- A place where a key may have begun. -/
structure KeyStart where
  /-- How many tokens there are before the key. -/
  before : Nat
  index : Nat
  line : Nat
  column : Nat
  /-- Nothing but a key can stand here. -/
  required : Bool

/-- How many octets may stand between the beginning of a key and its colon. -/
def KeyStart.reach : Nat := 1024

/-- Whether it is too late for a colon: a key does not leave its line and is not too long. -/
def KeyStart.isStale (k : KeyStart) (c : Cursor) : Bool :=
  k.line < c.line || k.index + reach < c.index

/-- A text taken apart up to a place. -/
structure Layout where
  /-- The rest of the text. -/
  cursor : Cursor
  /-- The tokens so far, the last one first. -/
  tokens : List Token := []
  /-- The columns of the blocks that are open, the innermost first. -/
  blocks : List Nat := []
  /-- Where a key may have begun inside the innermost bracket. -/
  keyStart : Option KeyStart := none
  /-- The same for what is around each open bracket, the innermost first. -/
  outer : List (Option KeyStart) := []
  /-- Whether a key may begin here. -/
  keyAllowed : Bool := true

namespace Layout

/-- Whether a bracket is open; then indentation has no meaning. -/
def inBrackets (l : Layout) : Bool := !l.outer.isEmpty

/-! ### Steps -/

/-- Go on to a place behind a token. -/
def emit (l : Layout) (t : Token) (c : Cursor) : Layout :=
  { l with tokens := t :: l.tokens, cursor := c }

/-- Put in a token behind the first `n`. -/
def insert (l : Layout) (n : Nat) (t : Token) : Layout :=
  let later := l.tokens.length - n
  { l with tokens := l.tokens.take later ++ t :: l.tokens.drop later }

/-- From here on a key may begin, or not. -/
def allowKey (l : Layout) (allowed : Bool) : Layout := { l with keyAllowed := allowed }

/-- No key has begun; an error where there has to be one. -/
def dropKey? (l : Layout) : Option Layout :=
  if l.keyStart.any (·.required) then none else some { l with keyStart := none }

/-- Note that a key may begin here. -/
def noteKey? (l : Layout) : Option Layout :=
  if l.keyAllowed then
    l.dropKey?.map fun l =>
      let c := l.cursor
      let required := !l.inBrackets && l.blocks.head? == some c.column
      { l with keyStart := some ⟨l.tokens.length, c.index, c.line, c.column, required⟩ }
  else some l

/-- Forget the keys for which it is too late. -/
def dropStaleKeys? (l : Layout) : Option Layout :=
  let stale (k : Option KeyStart) : Bool := k.any (·.isStale l.cursor)
  if (l.keyStart :: l.outer).any fun k => stale k && k.any (·.required) then none
  else
    let keep (k : Option KeyStart) : Option KeyStart := if stale k then none else k
    some { l with keyStart := keep l.keyStart, outer := l.outer.map keep }

/-- Open a block at a column behind the first `n` tokens, unless one is open there. -/
def openBlock (l : Layout) (column n : Nat) (kind : Collection) : Layout :=
  if l.inBrackets || l.blocks.head?.any (column ≤ ·) then l
  else { l.insert n (.blockStart kind) with blocks := column :: l.blocks }

/-- Open a block here, unless one is open here. -/
def openBlockHere (l : Layout) (kind : Collection) : Layout :=
  l.openBlock l.cursor.column l.tokens.length kind

/-- Close the blocks that do not reach a column; all without one. -/
def closeBlocks (l : Layout) (column : Option Nat) : Layout :=
  if l.inBrackets then l
  else
    let isClosed (block : Nat) : Bool := column.all (· < block)
    let closed := l.blocks.takeWhile isClosed
    { l with
      tokens := closed.map (fun _ => Token.blockEnd) ++ l.tokens
      blocks := l.blocks.dropWhile isClosed }

/-! ### Between tokens -/

/-- Go on behind white space, comments and a mark at the beginning of a line. Tabs count as
indentation there and are no white space. -/
def skipSpace : Nat → Layout → Layout
  | 0, l => l
  | fuel + 1, l =>
    let c := if l.cursor.column = 0 && l.cursor.has byteOrderMark then l.cursor.skip else l.cursor
    let tabs := l.inBrackets || !l.keyAllowed
    let c := c.skipWhile fun ch => ch == ' ' || (tabs && ch == '\t')
    let c := if c.has '#' then c.skipWhile (!isBreak ·) else c
    if c.atBreak then
      skipSpace fuel { l with cursor := c.skipLine, keyAllowed := l.keyAllowed || !l.inBrackets }
    else { l with cursor := c }

/-! ### Tokens -/

/-- A line that belongs to no block: a directive or a marker of documents. -/
def outermost? (l : Layout) (t : Token) (c : Cursor) : Option Layout :=
  (l.closeBlocks none).dropKey?.map fun l => (l.emit t c).allowKey false

/-- The rest of a text is empty. -/
def finish? (l : Layout) : Option Layout := (l.closeBlocks none).dropKey?

/-- An opening bracket. -/
def openBracket? (l : Layout) (kind : Collection) : Option Layout :=
  l.noteKey?.map fun l =>
    let l := { l with keyStart := none, outer := l.keyStart :: l.outer }
    (l.emit (.bracketOpen kind) l.cursor.skip).allowKey true

/-- A closing bracket. -/
def closeBracket? (l : Layout) (kind : Collection) : Option Layout :=
  l.dropKey?.map fun l =>
    let l := match l.outer with
      | keyStart :: outer => { l with keyStart := keyStart, outer := outer }
      | [] => l
    (l.emit (.bracketClose kind) l.cursor.skip).allowKey false

/-- A comma. -/
def comma? (l : Layout) : Option Layout :=
  l.dropKey?.map fun l => (l.emit .comma l.cursor.skip).allowKey true

/-- The hyphen before a member of a sequence. -/
def item? (l : Layout) : Option Layout := do
  if !l.inBrackets && !l.keyAllowed then failure
  let l ← (l.openBlockHere .sequence).dropKey?
  return (l.emit .item l.cursor.skip).allowKey true

/-- The question mark before a key. -/
def explicitKey? (l : Layout) : Option Layout := do
  if !l.inBrackets && !l.keyAllowed then failure
  let l ← (l.openBlockHere .mapping).dropKey?
  return (l.emit .key l.cursor.skip).allowKey !l.inBrackets

/-- The colon before a value. -/
def value? (l : Layout) : Option Layout :=
  match l.keyStart with
  | some k =>
    let l := (l.insert k.before .key).openBlock k.column k.before .mapping
    some ((({ l with keyStart := none }).emit .value l.cursor.skip).allowKey false)
  | none =>
    if !l.inBrackets && !l.keyAllowed then none
    else
      let l := l.openBlockHere .mapping
      some ((l.emit .value l.cursor.skip).allowKey !l.inBrackets)

/-- A part that can begin a key, with a reader that starts at it. -/
def keyPart? (l : Layout) (read : Cursor → Option (Token × Cursor)) : Option Layout := do
  let l ← l.noteKey?
  let (t, c) ← read l.cursor
  return (l.emit t c).allowKey false

/-- A tag, which ends at white space or a comma between brackets. -/
def tag? (l : Layout) : Option Layout := do
  let l ← l.keyPart? readTag
  if l.cursor.atSpace || (l.inBrackets && l.cursor.has ',') then some l else none

/-- A text as a block of lines. -/
def block? (l : Layout) (literal : Bool) : Option Layout := do
  let l ← l.dropKey?
  let (text, c) ← readBlock literal l.blocks.head? l.cursor
  return (l.emit (.text (String.ofList text) false) c).allowKey true

/-- A plain text. Behind one that ends on a new line a key may begin. -/
def plain? (l : Layout) : Option Layout := do
  let l ← l.noteKey?
  let (text, broken, c) ← readPlain l.inBrackets (l.blocks.head?.elim 0 (· + 1)) l.cursor
  return (l.emit (.text (String.ofList text) true) c).allowKey broken

/-- A reader of texts in quotation marks. -/
def quotedToken (single : Bool) (c : Cursor) : Option (Token × Cursor) :=
  (readQuoted single c).map fun (text, c) => (.text (String.ofList text) false, c)

/-- Whether a plain text begins here. -/
def startsPlain (l : Layout) : Bool :=
  let c := l.cursor
  (!c.atSpace && !c.isAt fun ch => "-?:,[]\x7b\x7d#&*!|>'\"%@\x60".toList.contains ch) ||
    (c.has '-' && !c.isAt isBlank 1) ||
    (!l.inBrackets && (c.has '?' || c.has ':') && !c.atSpace 1)

/-- One token. -/
def step? (l : Layout) : Option Layout :=
  let c := l.cursor
  let stands (ch : Char) : Bool := c.has ch && (l.inBrackets || c.atSpace 1)
  if c.column = 0 && c.has '%' then do
    let (t, c) ← readDirective c
    l.outermost? t c
  else if c.atMarker '-' then l.outermost? .documentStart (c.skip 3)
  else if c.atMarker '.' then l.outermost? .documentEnd (c.skip 3)
  else if c.has '[' then l.openBracket? .sequence
  else if c.has '\x7b' then l.openBracket? .mapping
  else if c.has ']' then l.closeBracket? .sequence
  else if c.has '\x7d' then l.closeBracket? .mapping
  else if c.has ',' then l.comma?
  else if c.has '-' && c.atSpace 1 then l.item?
  else if stands '?' then l.explicitKey?
  else if stands ':' then l.value?
  else if c.has '*' then l.keyPart? fun c => (readName c).map fun (n, c) => (.alias n, c)
  else if c.has '&' then l.keyPart? fun c => (readName c).map fun (n, c) => (.anchor n, c)
  else if c.has '!' then l.tag?
  else if c.has '|' && !l.inBrackets then l.block? true
  else if c.has '>' && !l.inBrackets then l.block? false
  else if c.has '\'' then l.keyPart? (quotedToken true)
  else if c.has '"' then l.keyPart? (quotedToken false)
  else if l.startsPlain then l.plain?
  else none

/-- All tokens; each takes at least one character. -/
def run? : Nat → Layout → Option Layout
  | 0, _ => none
  | fuel + 1, l => do
    let l ← (l.skipSpace (l.cursor.rest.length + 1)).dropStaleKeys?
    let l := l.closeBlocks (some l.cursor.column)
    if l.cursor.atEnd then l.finish? else run? fuel (← l.step?)

end Layout

/-- The tokens of a text. -/
def Token.ofText? (text : String) : Option (List Token) :=
  let cs := text.toList
  if cs.all isAllowed then
    (Layout.run? (cs.length + 1) { cursor := { rest := cs } }).map (·.tokens.reverse)
  else none

end Gateway.Yaml
