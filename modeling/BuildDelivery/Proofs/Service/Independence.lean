import BuildDelivery.Proofs.Service.History

/-! What a service has been through does not show. Along any history every request is answered as
by a service that starts at this moment: checksums that are remembered are as good as computed
ones, and of its policy only the limit on the changes of a delta makes a difference. A policy with an
interval of zero makes a service as well, which has the usual one. -/

set_option autoImplicit false

namespace BuildDelivery

theorem Pace.ofInterval?_of_pos {interval : Nat} (positive : 0 < interval) :
    ofInterval? interval = some ⟨interval, positive⟩ := dif_pos positive

namespace Service

/-- The outcomes of the requests of a history, in order. -/
def outcomes (service : Service MemoryCatalog) : List Event → List (Except Failure (Response × Rule))
  | [] => []
  | .published change :: events => outcomes (react service (.published change)) events
  | .asked request :: events =>
    (service.resolve MemoryCatalog.lookup request).1 ::
      outcomes (react service (.asked request)) events

/-- The outcomes of the requests of a history where a new service answers each of them. -/
def freshOutcomes (policy : Policy) (catalog : MemoryCatalog) :
    List Event → List (Except Failure (Response × Rule))
  | [] => []
  | .published change :: events => freshOutcomes policy (catalog.after change) events
  | .asked request :: events =>
    ((start policy catalog).resolve MemoryCatalog.lookup request).1 ::
      freshOutcomes policy catalog events

/-- The policy of a service passes its check, and its joins have the pace that the policy says. -/
structure Configured {σ : Type} (service : Service σ) : Prop where
  checked : service.policy.check = .ok ()
  paced : Pace.ofInterval? service.policy.interval = some service.pace

theorem configured_start {σ : Type} (policy : Policy) (catalog : σ) :
    (start policy catalog).Configured :=
  ⟨policy.check_repaired, Pace.ofInterval?_of_pos policy.interval_repaired_pos⟩

variable {policy : Policy} {catalog : MemoryCatalog} {service : Service MemoryCatalog}

theorem resolve_eq_fresh (remembers : Remembers catalog service)
    (limit : service.policy.maxChanges = policy.maxChanges) (request : Request) :
    (service.resolve MemoryCatalog.lookup request).1 =
      ((start policy catalog).resolve MemoryCatalog.lookup request).1 := by
  obtain ⟨rfl, right⟩ := remembers
  have trusts : TrustsAnswers MemoryCatalog.lookup request service :=
    Remembers.trustsAnswers ⟨rfl, right⟩
  -- A new service has nothing in its memory, so that it decides by the same rules.
  have trustsFresh :
      TrustsAnswers MemoryCatalog.lookup request (start policy service.catalog) :=
    trustsAnswers_of_unlearned (.inr rfl)
  have same : service.policy.maxChanges = (start policy service.catalog).policy.maxChanges :=
    limit.trans policy.maxChanges_repaired.symm
  exact (resolve_of_decision trustsFresh ((decision_of_resolve trusts).of_limit same)).symm

theorem outcomes_of_remembers (remembers : Remembers catalog service)
    (limit : service.policy.maxChanges = policy.maxChanges) (events : List Event) :
    outcomes service events = freshOutcomes policy catalog events := by
  induction events generalizing catalog service with
  | nil => rfl
  | cons event rest step =>
    cases event with
    | published change =>
      obtain ⟨rfl, right⟩ := remembers
      have remembers : Remembers service.catalog service := ⟨rfl, right⟩
      exact step (remembers.published change) limit
    | asked request =>
      have limit' : (react service (.asked request)).policy.maxChanges = policy.maxChanges := by
        rw [(configured_asked service request).1, limit]
      rw [outcomes, freshOutcomes, resolve_eq_fresh remembers limit,
        step (remembers.asked request) limit']

/-- Along any history, the requests have the outcomes that they have if a new service answers each,
whether that keeps checksums or not and whatever its interval is, zero or not. Whatever is remembered of
a build is the checksum of the manifest that the catalog binds the build to. -/
theorem outcomes_eq_fresh (policy : Policy) (keeps : Bool) (interval : Nat) (events : List Event) :
    outcomes (start policy .empty) events =
        freshOutcomes ⟨policy.maxChanges, keeps, interval⟩ .empty events ∧
      (∀ catalog : MemoryCatalog,
        (start ⟨policy.maxChanges, keeps, interval⟩ catalog).Configured) ∧
      (run policy events).Configured ∧
      ∀ id known, (run policy events).checksums.get? id = some known →
        ∃ manifest, (run policy events).catalog.build? id = some manifest ∧
          known = manifest.checksum := by
  have limit : (start policy MemoryCatalog.empty).policy.maxChanges =
      (Policy.mk policy.maxChanges keeps interval).maxChanges := policy.maxChanges_repaired
  have configured : (run policy events).Configured := by
    obtain ⟨policies, paces⟩ := configured_run policy events
    obtain ⟨checked, paced⟩ := configured_start policy MemoryCatalog.empty
    exact ⟨policies ▸ checked, policies ▸ paces ▸ paced⟩
  exact ⟨outcomes_of_remembers (coherent_start policy).remembers limit events,
    configured_start ⟨policy.maxChanges, keeps, interval⟩, configured,
    (remembers_run policy events).right⟩

end Service

end BuildDelivery
