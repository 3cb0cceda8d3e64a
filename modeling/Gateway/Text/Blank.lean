/-!
# White space

The twenty-five characters with the Unicode property White_Space, and text without them at its
ends.
-/

namespace Gateway.Text

/-- The property White_Space. -/
def isBlank (c : Char) : Bool :=
  let n := c.toNat
  (9 ≤ n && n ≤ 13) || n == 0x20 || n == 0x85 || n == 0xA0 || n == 0x1680 ||
    (0x2000 ≤ n && n ≤ 0x200A) || n == 0x2028 || n == 0x2029 || n == 0x202F || n == 0x205F ||
    n == 0x3000

/-- Characters without those of a class at either end. -/
def strip (p : Char → Bool) (cs : List Char) : List Char :=
  ((cs.dropWhile p).reverse.dropWhile p).reverse

/-- Text without white space at either end. -/
def trim (s : String) : String := String.ofList (strip isBlank s.toList)

/-- Text that is white space throughout. -/
def allBlank (s : String) : Bool := s.toList.all isBlank

end Gateway.Text
