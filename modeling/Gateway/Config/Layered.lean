import Gateway.Config.Basic
import Gateway.Hash.Sha256
import Gateway.Yaml

/-!
# Layers of configuration

A configuration is written in several documents, of which later ones override earlier ones key by
key (`Value.overlay`): where both hold a map, the maps are laid over each other, and otherwise the
later document decides. The written form of the outcome, and with it its hash, does not depend on
the order in which keys are written.
-/

namespace Gateway

namespace Value

mutual

/-- Lay a value over another one. -/
def overlay (base : Value) : Value → Value
  | map entries =>
    match base with
    | map m => map (overlayEntries m entries)
    | _ => map entries
  | v => v

/-- Lay entries over a map, one key at a time. -/
def overlayEntries (m : Settings) : List (String × Value) → Settings
  | [] => m
  | (k, v) :: rest =>
    overlayEntries (Dict.insert m k (overlay ((Dict.get? m k).getD .null) v)) rest

end

/-- Documents laid over each other, later ones over earlier ones, from the empty map on. -/
def overlayAll (documents : List Value) : Value := documents.foldl overlay (.map [])

end Value

namespace Config

/-- The value of a document; none when the document is null and so has nothing to say. -/
def readLayer (text : String) : Except ConfigError (Option Value) :=
  match Yaml.Data.ofText? text with
  | none => .error .invalidYaml
  | some d =>
    if d.isNull then .ok none
    else match d.toValue? with
      | some v => .ok (some v)
      | none => .error .notJson

/-- The document that the texts of several layers make up. -/
def load (texts : List String) : Except ConfigError Value :=
  (texts.mapM readLayer).map fun layers => Value.overlayAll (layers.filterMap id)

/-- The hash of a document, which is that of its written form. -/
def hash (document : Value) : String := Sha256.hex document.text

end Config

end Gateway
