import Gateway.Config.Basic
import Gateway.Selection

/-!
# Options of planning

What planning depends on besides the declarations and the state of the gateway.
-/

namespace Gateway

/-- The options of planning. By default everything is selected and supported, and nothing that is
not declared can be referred to. -/
structure Options where
  selection : Selection := .everything
  lookupTags : LookupTags := {}
  capabilities : Capabilities := .all
  deriving Inhabited

namespace Options

/-- The options that a configuration gives for a gateway with known capabilities. -/
def ofConfig (c : Config) (capabilities : Capabilities) : Options where
  selection := .ofTags c.selection.selectTags
  lookupTags := c.selection.lookupTags
  capabilities := capabilities

end Options

end Gateway
