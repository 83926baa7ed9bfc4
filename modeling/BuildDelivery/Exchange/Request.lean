import BuildDelivery.Failure.Content

/-! What a client asks for: the latest build of a branch for the first of its targets that
has one, and which build the client holds already. -/

set_option autoImplicit false

namespace BuildDelivery

structure Request where
  branch : BranchId
  /-- The acceptable targets, the best first. -/
  targets : List Target
  /-- The build that the client holds, as it was sent. -/
  held? : Option BuildId
  deriving DecidableEq, Repr

namespace Request

/-- The build that the client holds. An empty name stands for none. -/
def localBuild? (request : Request) : Option BuildId :=
  request.held?.filter fun id => !id.isEmpty

/-- Accepts requests that have a branch and a target. -/
def check (request : Request) : Except RequestFault Unit :=
  if request.branch.isUnset then .error .branchMissing
  else if request.targets.isEmpty then .error .targetsMissing
  else .ok ()

end Request

end BuildDelivery
