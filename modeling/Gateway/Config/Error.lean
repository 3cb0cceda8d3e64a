import Gateway.Version

/-!
# Errors of the configuration

What can be wrong with the configuration of a run, and the text that says so.
-/

namespace Gateway

/-- What a configuration is loaded for. Each mode reads other keys. -/
inductive Mode
  /-- Resolve and check only. -/
  | validate
  /-- Plan, and show what would be done. -/
  | diff
  /-- Plan, and do it. -/
  | sync
  deriving DecidableEq, Repr

namespace Mode

/-- The name of a mode in reports. -/
def name : Mode → String
  | validate => "VALIDATE"
  | diff => "DIFF"
  | sync => "SYNC"

end Mode

/-- Why a configuration cannot be used. -/
inductive ConfigError
  /-- A file that cannot be read. -/
  | unreadable (path : String)
  /-- A text that is no YAML document. -/
  | invalidYaml
  /-- A YAML document with keys that no JSON document can have. -/
  | notJson
  /-- Settings of the wrong types. -/
  | schema
  /-- No operation could ever be in flight. -/
  | zeroConcurrency
  /-- A tag of the selection is blank. -/
  | blankTag
  | version (e : VersionError)
  /-- Nothing reads these keys in this mode. -/
  | unusedKeys (mode : Mode) (pointers : List String)
  deriving DecidableEq, Repr

/-- How many unused keys an error shows. -/
def ConfigError.shownKeys : Nat := 12

/-- The text of the error. -/
def ConfigError.message : ConfigError → String
  | unreadable path => "failed to read yaml path: " ++ path
  | invalidYaml => "invalid yaml"
  | notJson => "yaml->json conversion failed"
  | schema => "config does not match the sync settings schema"
  | zeroConcurrency => "CONFIG_INVALID: sync.concurrency must be at least 1"
  | blankTag => "CONFIG_INVALID: selection.select_tags must not contain empty tags"
  | version e => e.message
  | unusedKeys mode pointers =>
    "CONFIG_UNUSED_KEYS (mode=" ++ mode.name ++ "): " ++ toString pointers.length ++
      " unused config leaf key(s) detected. Remove them or check for typos. First few: " ++
      Text.quotedList (pointers.take shownKeys)

end Gateway
