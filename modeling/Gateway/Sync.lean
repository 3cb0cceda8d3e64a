import Gateway.Plan
import Gateway.Run.Clock

/-!
# Synchronisation

A synchronisation plans declarations against what the gateway holds and runs the plan. When no plan
can be made, nothing is sent.
-/

namespace Gateway

/-- What one synchronisation needs besides the gateway. -/
structure SyncJob where
  content : Content := {}
  options : Options := {}
  settings : RunSettings := {}
  /-- The run is cancelled before it begins. -/
  cancelled : Bool := false
  deriving Inhabited

namespace SyncJob

/-- Plan against the gateway, and run the plan. -/
def run (job : SyncJob) (cp : ControlPlane) : Planning Clock := do
  let plan ← job.content.plan cp.state job.options
  return cp.solve plan job.settings job.cancelled

end SyncJob

end Gateway
