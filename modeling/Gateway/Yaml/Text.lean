import Gateway.Json
import Gateway.Yaml.Cursor

/-!
# Texts in YAML

The three ways to write a text: plain, in quotation marks, and as a block of lines. Each reader
starts at the text and gives what was read with the place behind it, or nothing when the text is
malformed. Line breaks inside a text are folded: one break is a space, and of several the first
does not count.
-/

namespace Gateway.Yaml

/-! ### Folding -/

/-- White space inside a text: on one line, or over several. -/
structure Gap where
  /-- A line break has been seen. -/
  broken : Bool := false
  /-- White space on one line. -/
  spaces : List Char := []
  /-- The first line break. -/
  first : List Char := []
  /-- Further line breaks. -/
  more : List Char := []

namespace Gap

/-- What white space between two words of a text counts as. -/
def text (g : Gap) : List Char :=
  if g.broken then
    if g.first.head? == some '\n' then (if g.more.isEmpty then [' '] else g.more)
    else g.first ++ g.more
  else g.spaces

/-- Take in white space. A tab where the indentation should be is an error; `indent` is the
indentation, if there has to be one. -/
def take (indent : Option Nat) : Nat → Gap → Cursor → Option (Gap × Cursor)
  | 0, _, _ => none
  | fuel + 1, g, c =>
    if c.atBlank then
      if g.broken && c.has '\t' && indent.any (c.column < ·) then none
      else if g.broken then take indent fuel g c.skip
      else take indent fuel { g with spaces := g.spaces ++ (c.rest.take 1) } c.skip
    else if c.atBreak then
      if g.broken then take indent fuel { g with more := g.more ++ c.lineText } c.skipLine
      else take indent fuel { g with broken := true, spaces := [], first := c.lineText } c.skipLine
    else some (g, c)

end Gap

/-! ### Plain texts -/

/-- The characters that have a meaning of their own inside brackets. -/
def isFlowIndicator (c : Char) : Bool :=
  c == ',' || c == '[' || c == ']' || c == '\x7b' || c == '\x7d'

/-- Whether a plain text ends here. -/
def endsPlain (flow : Bool) (c : Cursor) : Bool :=
  (c.has ':' && c.atSpace 1) || (flow && c.isAt isFlowIndicator)

/-- The characters of a plain text up to white space or its end. Inside brackets a colon has to be
told from an indicator. -/
def plainWord (flow : Bool) : Nat → Cursor → Option (List Char × Cursor)
  | 0, _ => none
  | fuel + 1, c =>
    if c.atSpace then some ([], c)
    else if flow && c.has ':' && c.isAt (fun ch => isFlowIndicator ch || ch == '?') 1 then none
    else if endsPlain flow c then some ([], c)
    else (plainWord flow fuel c.skip).map fun (cs, c') => (c.rest.take 1 ++ cs, c')

/-- The rest of a plain text behind `read`; `gap` is the white space since. Gives also whether the
text ends on a new line. -/
def plainRest (flow : Bool) (indent : Nat) : Nat → List Char → Gap → Cursor →
    Option (List Char × Bool × Cursor)
  | 0, _, _, _ => none
  | fuel + 1, read, gap, c => do
    if c.atDocumentMarker || c.has '#' then return (read, gap.broken, c)
    let (word, c) ← plainWord flow (c.rest.length + 1) c
    let (read, gap) := if word.isEmpty then (read, gap) else (read ++ gap.text ++ word, {})
    if !(c.atBlank || c.atBreak) then return (read, gap.broken, c)
    let (gap, c) ← gap.take (some indent) (c.rest.length + 1) c
    if !flow && c.column < indent then return (read, gap.broken, c)
    plainRest flow indent fuel read gap c

/-- A plain text. -/
def readPlain (flow : Bool) (indent : Nat) (c : Cursor) : Option (List Char × Bool × Cursor) :=
  plainRest flow indent (c.rest.length + 1) [] {} c

/-! ### Quoted texts -/

/-- The character of a one-letter escape. -/
def escape? : Char → Option Char
  | '0' => some '\x00'
  | 'a' => some '\x07'
  | 'b' => some '\x08'
  | 't' | '\t' => some '\t'
  | 'n' => some '\n'
  | 'v' => some '\x0b'
  | 'f' => some '\x0c'
  | 'r' => some '\r'
  | 'e' => some '\x1b'
  | ' ' => some ' '
  | '"' => some '"'
  | '/' => some '/'
  | '\\' => some '\\'
  | 'N' => some '\u0085'
  | '_' => some '\u00a0'
  | 'L' => some '\u2028'
  | 'P' => some '\u2029'
  | _ => none

/-- How many hexadecimal digits follow an escape letter. -/
def escapeDigits? : Char → Option Nat
  | 'x' => some 2
  | 'u' => some 4
  | 'U' => some 8
  | _ => none

/-- The number that hexadecimal digits write. -/
def hexValue? (cs : List Char) : Option Nat :=
  cs.foldlM (fun n c => (Json.hexDigit? c).map (16 * n + ·)) 0

/-- The character with a code, if there is one. -/
def charOfCode? (n : Nat) : Option Char :=
  if n < 0xD800 || (0xDFFF < n && n ≤ 0x10FFFF) then some (Char.ofNat n) else none

/-- An escape that starts with the backslash here. -/
def readEscape (c : Cursor) : Option (Char × Cursor) := do
  let letter ← c.at? 1
  match escape? letter with
  | some ch => some (ch, c.skip 2)
  | none =>
    let n ← escapeDigits? letter
    let digits := (c.rest.drop 2).take n
    if digits.length < n then failure
    some (← charOfCode? (← hexValue? digits), c.skip (2 + n))

/-- The characters of a quoted text up to white space, an escaped line break (which `true` stands
for) or the closing quotation mark. -/
def quotedWord (single : Bool) : Nat → Cursor → Option (List Char × Bool × Cursor)
  | 0, _ => none
  | fuel + 1, c =>
    let quote := if single then '\'' else '"'
    let more (ch : List Char) (c : Cursor) : Option (List Char × Bool × Cursor) :=
      (quotedWord single fuel c).map fun (cs, broken, c) => (ch ++ cs, broken, c)
    if c.atSpace then some ([], false, c)
    else if single && c.has '\'' && c.has '\'' 1 then more ['\''] (c.skip 2)
    else if c.has quote then some ([], false, c)
    else if !single && c.has '\\' then
      if c.isAt isBreak 1 then some ([], true, c.skip.skipLine)
      else match readEscape c with
        | some (ch, c) => more [ch] c
        | none => none
    else more (c.rest.take 1) c.skip

/-- The rest of a quoted text behind `read`. -/
def quotedRest (single : Bool) : Nat → List Char → Cursor → Option (List Char × Cursor)
  | 0, _, _ => none
  | fuel + 1, read, c => do
    if c.atDocumentMarker || c.atEnd then failure
    let (word, broken, c) ← quotedWord single (c.rest.length + 1) c
    let read := read ++ word
    if c.has (if single then '\'' else '"') then return (read, c.skip)
    let (gap, c) ← Gap.take none (c.rest.length + 1) { broken := broken } c
    quotedRest single fuel (read ++ gap.text) c

/-- A quoted text; the opening quotation mark stands here. -/
def readQuoted (single : Bool) (c : Cursor) : Option (List Char × Cursor) :=
  quotedRest single (c.rest.length + 1) [] c.skip

/-! ### Blocks -/

/-- What becomes of the line breaks at the end of a block. -/
inductive Chomp
  | strip
  | clip
  | keep
  deriving DecidableEq

/-- The head of a block: what becomes of its end, and how far it is indented. -/
structure BlockHead where
  chomp : Chomp := .clip
  indent : Option Nat := none

/-- The mark that says what becomes of the end of a block. -/
def chomp? (c : Cursor) : Option Chomp :=
  if c.has '+' then some .keep else if c.has '-' then some .strip else none

/-- The digit that says how far a block is indented; zero is an error. -/
def indentDigit? (c : Cursor) : Option (Option Nat × Cursor) :=
  match c.at? 0 with
  | some ch =>
    if ch == '0' then none
    else if ch.isDigit then some (some (ch.toNat - 48), c.skip)
    else some (none, c)
  | none => some (none, c)

/-- The head of a block up to the end of its line. -/
def readBlockHead (c : Cursor) : Option (BlockHead × Cursor) := do
  let (head, c) ← match chomp? c with
    | some chomp => do
      let (indent, c) ← indentDigit? c.skip
      pure (BlockHead.mk chomp indent, c)
    | none => do
      let (indent, c) ← indentDigit? c
      match indent, chomp? c with
      | some n, some chomp => pure (BlockHead.mk chomp (some n), c.skip)
      | _, _ => pure (BlockHead.mk .clip indent, c)
  return (head, ← c.endLine?)

/-- Indentation and empty lines: the line breaks, the greatest indentation seen, and the place
behind. Without a known indentation all spaces count. -/
def blockBreaks (indent : Option Nat) : Nat → List Char → Nat → Cursor →
    Option (List Char × Nat × Cursor)
  | 0, _, _, _ => none
  | fuel + 1, breaks, deepest, c =>
    let room := indent.map (· - c.column)
    let spaces := (c.rest.takeWhile (· == ' ')).length
    let c := c.skip (room.elim spaces (min spaces ·))
    let deepest := max deepest c.column
    if c.has '\t' && indent.all (c.column < ·) then none
    else if c.atBreak then blockBreaks indent fuel (breaks ++ c.lineText) deepest c.skipLine
    else some (breaks, deepest, c)

/-- The lines of a block behind `read`. `first` and `more` are the line breaks since, and `blank`
says whether the last line began with white space, which keeps the breaks around it. -/
def blockRest (literal : Bool) (chomp : Chomp) (indent : Nat) : Nat → List Char → List Char →
    List Char → Bool → Cursor → Option (List Char × Cursor)
  | 0, _, _, _, _, _ => none
  | fuel + 1, read, first, more, blank, c =>
    if c.column == indent && !c.atEnd then do
      let blankHere := c.atBlank
      let joint :=
        if !literal && first.head? == some '\n' && !blank && !blankHere then
          (if more.isEmpty then [' '] else [])
        else first
      let (line, c) := c.takeWhile (!isBreak ·)
      let first := c.lineText
      let read := read ++ joint ++ more ++ line
      let (more, _, c) ← blockBreaks (some indent) (c.rest.length + 1) [] 0 c.skipLine
      blockRest literal chomp indent fuel read first more blankHere c
    else
      let tail := match chomp with
        | .strip => []
        | .clip => first
        | .keep => first ++ more
      some (read ++ tail, c)

/-- A block; the mark that opens it stands here. `indent` is the indentation around it, none at the
top of a document. -/
def readBlock (literal : Bool) (outer : Option Nat) (c : Cursor) : Option (List Char × Cursor) := do
  let (head, c) ← readBlockHead c.skip
  let given := head.indent.map fun n => outer.getD 0 + n
  let (breaks, deepest, c) ← blockBreaks given (c.rest.length + 1) [] 0 c
  let least := outer.elim 1 (· + 1)
  let indent := given.getD (max deepest least)
  blockRest literal head.chomp indent (c.rest.length + 1) [] [] breaks false c

end Gateway.Yaml
