import Gateway.Kind
import Gateway.Text.Blank
import Gateway.Text.Quoted

/-!
# Versions of the gateway and what they can take

A `Version` is read from the text a gateway reports, of which build suffixes and further components
do not count. From it follow the `Capabilities`: which kinds of object may be sent at all.
-/

namespace Gateway

/-- The first three components of a version. -/
structure Version where
  major : Nat
  minor : Nat
  patch : Nat
  deriving DecidableEq, Repr, Inhabited

/-- Why a text is no version; both name the text. -/
inductive VersionError
  | badComponent (raw component : String)
  | empty (raw : String)
  deriving DecidableEq, Repr

/-- The text of the error. -/
def VersionError.message : VersionError → String
  | badComponent raw component =>
    "gateway version " ++ Text.quoted raw ++ ": bad " ++ component ++ " component"
  | empty raw => "gateway version " ++ Text.quoted raw ++ " is empty"

namespace Version

/-- Components are below this bound. -/
def bound : Nat := Nat.pow 2 32

/-- The text of a version. -/
def text (v : Version) : String :=
  toString v.major ++ "." ++ toString v.minor ++ "." ++ toString v.patch

/-- The part of a version's text that counts: what is left of white space at the ends, then of
leading letters `v`, up to the first hyphen or plus. -/
def core (raw : String) : List Char :=
  ((Text.strip Text.isBlank raw.toList).dropWhile (· == 'v')).takeWhile
    fun c => !(c == '-' || c == '+')

/-- Characters up to the first point, and those behind it. -/
def splitPoint (cs : List Char) : List Char × List Char :=
  (cs.takeWhile (· != '.'), (cs.dropWhile (· != '.')).drop 1)

/-- The number that a component writes: decimal digits, or nothing for zero. -/
def component? (cs : List Char) : Option Nat :=
  if cs.all Char.isDigit then
    let n := cs.foldl (fun n c => 10 * n + (c.toNat - 48)) 0
    if n < bound then some n else none
  else none

/-- Read a version. -/
def parse (raw : String) : Except VersionError Version := do
  let component (name : String) (cs : List Char) : Except VersionError Nat :=
    match component? cs with
    | some n => .ok n
    | none => .error (.badComponent raw name)
  let (first, rest) := splitPoint (core raw)
  let (second, rest) := splitPoint rest
  let (third, _) := splitPoint rest
  let major ← component "major" first
  let minor ← component "minor" second
  let patch ← component "patch" third
  if (core raw).isEmpty then .error (.empty raw) else .ok ⟨major, minor, patch⟩

/-- Not older than the first release of a minor version. -/
def atLeast (v : Version) (major minor : Nat) : Bool :=
  v.major > major || (v.major == major && v.minor ≥ minor)

end Version

/-- What a gateway can take. -/
structure Capabilities where
  partials : Bool
  /-- Plugins in the scope of a consumer-group. -/
  consumerGroupScoping : Bool
  keys : Bool
  licenses : Bool
  roles : Bool
  deriving DecidableEq, Repr

namespace Capabilities

/-- A gateway of which nothing is known is taken to support everything. -/
def all : Capabilities := ⟨true, true, true, true, true⟩

instance : Inhabited Capabilities := ⟨all⟩

/-- What a version supports; licences and roles are for the enterprise edition. -/
def ofVersion (v : Version) (enterprise : Bool) : Capabilities where
  partials := v.atLeast 3 10
  consumerGroupScoping := v.atLeast 3 4
  keys := v.atLeast 3 1
  licenses := enterprise
  roles := enterprise

/-- Whether objects of a kind may be sent. -/
def supports (c : Capabilities) : Kind → Bool
  | .partialConfig => c.partials
  | .key | .keySet => c.keys
  | .license => c.licenses
  | .role | .permission => c.roles
  | _ => true

end Capabilities

end Gateway
