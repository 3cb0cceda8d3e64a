/-!
# Binary floating point with decimal text

A double is its 64 bits. `Double.ofDecimal?` reads the decimal `m · 10^e` to the nearest double (a
tie goes to the even neighbour); `Double.shortest` finds the fewest decimal digits that read back
to a given double, and among those the nearest to it. How the digits are laid out as text is
decided in one record, `Double.layout`.
-/

namespace Gateway

/-- A binary floating-point number of double precision, as its bits. -/
abbrev Double := UInt64

namespace Double

/-! ### Parts -/

/-- Whether the sign bit is set. -/
def negative (d : Double) : Bool := d.toNat ≥ Nat.pow 2 63

/-- The bits below the sign. -/
def unsignedBits (d : Double) : Nat := d.toNat % Nat.pow 2 63

/-- The bits of infinity: finite numbers lie below. -/
def infinityBits : Nat := 0x7FF0000000000000

/-- Both zeros. -/
def isZero (d : Double) : Bool := d.unsignedBits == 0

/-- The absolute value of a finite double is `significand · 2^binaryExponent`. -/
def significand (d : Double) : Nat :=
  if d.unsignedBits < Nat.pow 2 52 then d.unsignedBits
  else d.unsignedBits % Nat.pow 2 52 + Nat.pow 2 52

/-- The power of two beside `significand`. -/
def binaryExponent (d : Double) : Int :=
  if d.unsignedBits < Nat.pow 2 52 then -1074
  else (d.unsignedBits / Nat.pow 2 52 : Nat) - 1075

/-- Equal as numbers: the two zeros are equal. -/
def same (a b : Double) : Bool := a == b || (a.isZero && b.isZero)

/-! ### From decimal -/

/-- The quotient rounded to the nearest integer, a tie to the even one. -/
def roundDiv (num den : Nat) : Nat :=
  let q := num / den
  let twice := 2 * (num % den)
  if twice < den then q
  else if twice = den then q + q % 2
  else q + 1

/-- `num / den` divided by `2^q`, rounded to the nearest integer. -/
def scaledRound (num den : Nat) (q : Int) : Nat :=
  let power := Nat.pow 2 q.natAbs
  if q ≤ 0 then roundDiv (num * power) den else roundDiv num (den * power)

/-- `num / den` divided by `2^q`, rounded down. -/
def scaledFloor (num den : Nat) (q : Int) : Nat :=
  let power := Nat.pow 2 q.natAbs
  if q ≤ 0 then num * power / den else num / (den * power)

/-- Bits of the double nearest to `num / den`, possibly those of infinity or above. The exponent is
the one that gives a significand of 53 bits, or the smallest there is; the significand then adds
onto the exponent's field, carrying into it when it rounds up to the next power of two. -/
def nearestBits (num den : Nat) : Nat :=
  if num = 0 then 0
  else
    let guess : Int := max ((num.log2 : Int) - den.log2 - 53) (-1074)
    let q := if scaledFloor num den guess ≥ Nat.pow 2 53 then guess + 1 else guess
    (q + 1074).toNat * Nat.pow 2 52 + scaledRound num den q

/-- The double nearest to `± m · 10^e`; none when that is beyond the largest finite one. -/
def ofDecimal? (minus : Bool) (m : Nat) (e : Int) : Option Double :=
  let sign := if minus then Nat.pow 2 63 else 0
  -- The number of digits bounds the size, so a far-away exponent needs no large power.
  let size : Int := (m.log2 : Int) * 30103 / 100000 + e
  if m = 0 || size < -400 then some (UInt64.ofNat sign)
  else if size > 400 then none
  else
    let power := Nat.pow 10 e.natAbs
    let bits := if e ≥ 0 then nearestBits (m * power) 1 else nearestBits m power
    if bits < infinityBits then some (UInt64.ofNat (sign + bits)) else none

/-! ### To decimal -/

/-- A positive decimal: `digits · 10^exponent`. -/
structure Decimal where
  digits : Nat
  exponent : Int
  deriving DecidableEq, Repr

/-- `n · 10^e` as a fraction. -/
def tenPower (n : Nat) (e : Int) : Nat × Nat :=
  if e ≥ 0 then (n * Nat.pow 10 e.natAbs, 1) else (n, Nat.pow 10 e.natAbs)

/-- `n · 2^q` as a fraction. -/
def twoPower (n : Nat) (q : Int) : Nat × Nat :=
  if q ≥ 0 then (n * Nat.pow 2 q.natAbs, 1) else (n, Nat.pow 2 q.natAbs)

/-- Order of two fractions. -/
def fractionLe (a b : Nat × Nat) : Bool := a.1 * b.2 ≤ b.1 * a.2

/-- Strict order of two fractions. -/
def fractionLt (a b : Nat × Nat) : Bool := a.1 * b.2 < b.1 * a.2

/-- The ends of the interval of reals that read as the double: half-way to either neighbour. Below
a power of two the neighbour is nearer. -/
def interval (d : Double) : (Nat × Nat) × (Nat × Nat) :=
  let m := d.significand
  let q := d.binaryExponent - 2
  let low := if m = Nat.pow 2 52 && d.binaryExponent > -1074 then 4 * m - 1 else 4 * m - 2
  (twoPower low q, twoPower (4 * m + 2) q)

/-- Whether a fraction reads as the double. The ends do when the significand is even. -/
def reads (d : Double) (x : Nat × Nat) : Bool :=
  let (low, high) := d.interval
  if d.significand % 2 = 0 then fractionLe low x && fractionLe x high
  else fractionLt low x && fractionLt x high

/-- The point of the grid of multiples of `10^e` that reads as the double, if there is one. Only
the two neighbours of the double on the grid can do so first; of two the nearer is taken, and the
even one of two equally near. -/
def onGrid (d : Double) (e : Int) : Option Nat :=
  let (num, den) := twoPower d.significand d.binaryExponent
  -- the double is `num / den` and lies between `below` and `below + 1` units of the grid
  let power := Nat.pow 10 e.natAbs
  let (num, den) := if e ≥ 0 then (num, den * power) else (num * power, den)
  let below := num / den
  let twice := 2 * (num % den)
  let nearer := if twice < den || (twice = den && below % 2 = 0) then below else below + 1
  let farther := if nearer = below then below + 1 else below
  if nearer ≠ 0 && d.reads (tenPower nearer e) then some nearer
  else if farther ≠ 0 && d.reads (tenPower farther e) then some farther
  else none

/-- The exponent of the leading decimal digit, or one more. -/
def leadingExponent (d : Double) : Int :=
  ((d.significand.log2 : Int) + d.binaryExponent) * 30103 / 100000 + 1

/-- Search the grids from coarse to fine. -/
def shortestFrom (d : Double) : Nat → Int → Decimal
  | 0, e => ⟨d.significand, e⟩
  | fuel + 1, e =>
    match d.onGrid e with
    | some n => ⟨n, e⟩
    | none => shortestFrom d fuel (e - 1)

/-- The fewest digits that read back to a finite double other than zero. -/
def shortest (d : Double) : Decimal := shortestFrom d 20 (d.leadingExponent + 1)

/-! ### Layout -/

/-- How digits become text. -/
structure Layout where
  /-- The least exponent of the leading digit for which the number is written without an
  exponent. -/
  least : Int
  /-- The greatest such exponent. -/
  greatest : Int
  /-- Written behind a whole number. -/
  whole : String
  /-- Sign of an exponent that is not negative. -/
  plus : String

/-- Numbers are written without an exponent from `1e-5` up to below `1e16`, always with a point;
outside of that the exponent carries its sign. -/
def layout : Layout := ⟨-5, 15, ".0", "+"⟩

/-- Digits and the exponent of the first of them, as text. -/
def Layout.render (l : Layout) (digits : List Char) (lead : Int) : String :=
  if l.least ≤ lead && lead ≤ l.greatest then
    if lead < 0 then
      "0." ++ String.ofList (List.replicate (lead.natAbs - 1) '0' ++ digits)
    else
      let n := lead.natAbs + 1
      if digits.length ≤ n then
        String.ofList (digits ++ List.replicate (n - digits.length) '0') ++ l.whole
      else String.ofList (digits.take n) ++ "." ++ String.ofList (digits.drop n)
  else
    let fraction := digits.drop 1
    let exponent := (if lead < 0 then "-" else l.plus) ++ toString lead.natAbs
    String.ofList (digits.take 1) ++
      (if fraction.isEmpty then "" else "." ++ String.ofList fraction) ++ "e" ++ exponent

/-- Digits without trailing zeros, and how many zeros were dropped. -/
def trimZeros (digits : List Char) : List Char :=
  (digits.reverse.dropWhile (· == '0')).reverse

/-- The text of a finite double. -/
def text (d : Double) : String :=
  let sign := if d.negative then "-" else ""
  if d.isZero then sign ++ "0" ++ layout.whole
  else
    let s := d.shortest
    let digits := Nat.toDigits 10 s.digits
    sign ++ layout.render (trimZeros digits) (s.exponent + digits.length - 1)

end Double

end Gateway
