import BuildDelivery.Failure
import BuildDelivery.Manifest.Basic

/-! Where published builds are looked up. Two questions are enough to serve clients: which build
is the latest of a channel, and what a build contains. No answer is an answer; a failure means
that the catalog could not be asked. -/

set_option autoImplicit false

namespace BuildDelivery

/-- A build and what it contains. -/
structure Published where
  build : BuildId
  manifest : Manifest
  deriving DecidableEq

/-- A catalog whose state has the type `σ` and may change while it is asked. -/
structure Catalog (σ : Type) where
  latest : Channel → σ → Except Failure (Option Published) × σ
  byId : BuildId → σ → Except Failure (Option Manifest) × σ

namespace Catalog

variable {σ : Type}

/-- The latest build of a branch on the first of the targets that has one. -/
def firstLatest (catalog : Catalog σ) (branch : BranchId) :
    List Target → σ → Except Failure (Option Published) × σ
  | [], state => (.ok none, state)
  | target :: targets, state =>
    match catalog.latest ⟨branch, target⟩ state with
    | (.ok none, state) => catalog.firstLatest branch targets state
    | answer => answer

end Catalog

end BuildDelivery
