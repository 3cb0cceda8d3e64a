import Gateway.Plan.Diff
import Gateway.Plan.Resolution

/-!
# Planning

From declarations, the state of a gateway and options to a plan, by way of the state that the
declarations ask for.
-/

namespace Gateway

/-- The plan that takes a gateway to what is declared. -/
def Content.plan (c : Content) (current : State) (o : Options) : Planning Plan := do
  let desired ← c.resolve current o
  desired.planTo current o.selection

end Gateway
