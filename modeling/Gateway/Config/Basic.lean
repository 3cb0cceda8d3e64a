import Gateway.Config.Error
import Gateway.LookupTags

/-!
# The configuration of a run

A `Config` says how operations are sent, which part of the gateway a run works on, and what the
gateway is. Every setting has a default. `Config.check` refuses settings that no run can follow.
-/

namespace Gateway

/-- How operations are sent. -/
structure RunSettings where
  /-- How many calls may be in flight at a time. -/
  concurrency : Nat := 10
  dryRun : Bool := false
  continueOnError : Bool := true
  deriving DecidableEq, Repr, Inhabited

/-- Which part of the gateway a run works on, and what it may refer to outside. -/
structure SelectionSettings where
  selectTags : List String := []
  lookupTags : LookupTags := {}
  deriving DecidableEq, Repr, Inhabited

/-- What the gateway is. -/
structure GatewaySettings where
  /-- The version that the gateway reports; all is taken to be supported when it is not known. -/
  version : Option String := none
  enterprise : Bool := false
  deriving DecidableEq, Repr, Inhabited

/-- The configuration of a run. -/
structure Config where
  sync : RunSettings := {}
  selection : SelectionSettings := {}
  gateway : GatewaySettings := {}
  deriving DecidableEq, Repr, Inhabited

/-! ### Reading -/

namespace RunSettings

/-- Read the settings of sending. -/
def ofJson? (j : Json) : Option RunSettings := do
  match ← Json.fields? ["concurrency", "dry_run", "continue_on_error"] j with
  | [concurrency, dryRun, continueOnError] =>
    some {
      concurrency := ← Json.fieldOr 10 (Json.natural? (Nat.pow 2 64)) concurrency
      dryRun := ← Json.fieldOr false Json.bool? dryRun
      continueOnError := ← Json.fieldOr true Json.bool? continueOnError
    }
  | _ => none

end RunSettings

namespace SelectionSettings

/-- Read the settings of the selection. -/
def ofJson? (j : Json) : Option SelectionSettings := do
  match ← Json.fields? ["select_tags", "default_lookup_tags"] j with
  | [selectTags, lookupTags] =>
    some {
      selectTags := ← Json.fieldOr [] Json.texts? selectTags
      lookupTags := ← Json.fieldOr {} LookupTags.ofJson? lookupTags
    }
  | _ => none

end SelectionSettings

namespace GatewaySettings

/-- Read the settings of the gateway. -/
def ofJson? (j : Json) : Option GatewaySettings := do
  match ← Json.fields? ["version", "enterprise"] j with
  | [version, enterprise] =>
    some {
      version := ← Json.optional Json.text? version
      enterprise := ← Json.fieldOr false Json.bool? enterprise
    }
  | _ => none

/-- The version of the gateway, if it is known. -/
def parsedVersion (g : GatewaySettings) : Except VersionError (Option Version) :=
  g.version.mapM Version.parse

/-- What the gateway can take. -/
def capabilities (g : GatewaySettings) : Except VersionError Capabilities := do
  match ← g.parsedVersion with
  | some v => return .ofVersion v g.enterprise
  | none => return .all

end GatewaySettings

namespace Config

/-- Read a configuration. -/
def ofJson? (j : Json) : Option Config := do
  match ← Json.fields? ["sync", "selection", "gateway"] j with
  | [sync, selection, gateway] =>
    some {
      sync := ← Json.fieldOr {} RunSettings.ofJson? sync
      selection := ← Json.fieldOr {} SelectionSettings.ofJson? selection
      gateway := ← Json.fieldOr {} GatewaySettings.ofJson? gateway
    }
  | _ => none

/-! ### Checking -/

/-- Refuse settings that no run can follow. -/
def check (c : Config) : Except ConfigError Unit :=
  if c.sync.concurrency = 0 then .error .zeroConcurrency
  else if c.selection.selectTags.any Text.allBlank then .error .blankTag
  else match c.gateway.parsedVersion with
    | .ok _ => .ok ()
    | .error e => .error (.version e)

/-- The checked configuration that a document gives. -/
def ofDocument (v : Value) : Except ConfigError Config :=
  match ofJson? (.ofValue v) with
  | some c => c.check.map fun _ => c
  | none => .error .schema

/-- The written form. -/
def toValue (c : Config) : Value :=
  .ofEntries [
    ("sync", .ofEntries [("concurrency", .whole c.sync.concurrency),
      ("dry_run", .bool c.sync.dryRun), ("continue_on_error", .bool c.sync.continueOnError)]),
    ("selection", .ofEntries [("select_tags", .texts c.selection.selectTags),
      ("default_lookup_tags", c.selection.lookupTags.toValue)]),
    ("gateway", .ofEntries [("version", (c.gateway.version.map Value.str).getD .null),
      ("enterprise", .bool c.gateway.enterprise)])]

end Config

end Gateway
