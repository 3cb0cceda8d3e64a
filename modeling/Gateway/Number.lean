import Gateway.Double

/-!
# Numbers of configuration values

A number is a whole number or a double, and the two never mix: `1` and `1.0` differ. Whole numbers
run from `-2^63` to `2^64 - 1`; a longer one is read as a double. `Number.ofDecimal?` is the rule
by which a decimal numeral becomes a number.
-/

namespace Gateway

/-- A number as a configuration value holds it. -/
inductive Number
  /-- A whole number between `Number.least` and `Number.greatest`. -/
  | whole (n : Int)
  /-- A finite double. -/
  | double (d : Double)
  deriving DecidableEq, Repr, Inhabited

namespace Number

/-- The least whole number. -/
def least : Int := -(Nat.pow 2 63 : Nat)

/-- The greatest whole number. -/
def greatest : Int := (Nat.pow 2 64 : Nat) - 1

/-- Equal as numbers of one form: the two zeros among the doubles are equal, a whole number never
equals a double. -/
def same : Number → Number → Bool
  | whole a, whole b => a == b
  | double a, double b => a.same b
  | _, _ => false

/-- The text of a number. -/
def text : Number → String
  | whole n => toString n
  | double d => d.text

/-- The whole number `± m`; minus zero and what is out of range are doubles. -/
def ofWhole? (minus : Bool) (m : Nat) : Option Number :=
  let n : Int := if minus then -m else m
  if least ≤ n && n ≤ greatest && !(minus && m = 0) then some (whole n)
  else (Double.ofDecimal? minus m 0).map double

/-- The number of a numeral with digits `m`, of which `places` stand behind the point, and a power
of ten. Without point and power it is a whole number. -/
def ofDecimal? (minus : Bool) (m places : Nat) (power : Option Int) (point : Bool) :
    Option Number :=
  if point || power.isSome then
    (Double.ofDecimal? minus m (power.getD 0 - places)).map double
  else ofWhole? minus m

end Number

end Gateway
