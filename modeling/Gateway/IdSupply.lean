import Gateway.Plan.Error

/-!
# Fresh ids

Objects that are declared without an id get a fresh one. An `IdSupply` hands out the members of a
sequence one after the other; nothing in planning depends on which sequence that is. `Planning` is
a computation that may take fresh ids and may fail, and what it has taken stays taken when it
fails.
-/

namespace Gateway

/-- A sequence of ids, of which the first ones have been taken. -/
structure IdSupply where
  /-- The sequence. -/
  issue : Nat → String
  /-- How many have been taken. -/
  taken : Nat

namespace IdSupply

/-- The next id, and what is left. -/
def take (s : IdSupply) : String × IdSupply := (s.issue s.taken, { s with taken := s.taken + 1 })

/-- Twelve lower-case hexadecimal digits, or more where twelve do not suffice. -/
def hexDigits (n : Nat) : String :=
  let digits := Nat.toDigits 16 n
  String.ofList (List.replicate (12 - digits.length) '0' ++ digits)

/-- The `n`-th numbered id: a version 4 UUID that ends in `n`. -/
def numberedId (n : Nat) : String := "00000000-0000-4000-8000-" ++ hexDigits n

/-- The numbered ids from one up. -/
def numbered : IdSupply := ⟨fun n => numberedId (n + 1), 0⟩

/-- The UUID of version 4 that holds the lowest 122 bits of a number. -/
def uuid (n : Nat) : String :=
  let group (digits low : Nat) : String :=
    String.ofList ((List.range digits).reverse.map fun i =>
      Nat.digitChar (n / Nat.pow 16 (low + i) % 16))
  let variant := "89ab".toList.getD (n / Nat.pow 16 30 % 4) '8'
  group 8 22 ++ "-" ++ group 4 18 ++ "-4" ++ group 3 15 ++ "-" ++ variant.toString ++ group 3 12 ++
    "-" ++ group 12 0

/-- The UUIDs of the numbers from a seed up. -/
def fromSeed (seed : Nat) : IdSupply := ⟨fun n => uuid (seed + n), 0⟩

instance : Inhabited IdSupply := ⟨numbered⟩

end IdSupply

/-- A computation that may take fresh ids and may fail. -/
abbrev Planning := ExceptT PlanError (StateM IdSupply)

namespace Planning

/-- A check is a step of planning that takes no id. -/
instance : MonadLift (Except PlanError) Planning := ⟨fun x => ExceptT.mk (pure x)⟩

/-- Take a fresh id. -/
def freshId : Planning String := modifyGet IdSupply.take

end Planning

end Gateway
