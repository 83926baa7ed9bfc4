import BuildDelivery.Proofs.Catalog.Memory
import BuildDelivery.Proofs.Manifest.Valid
import BuildDelivery.Proofs.Service.Resolution

/-! What happens to a service on a catalog in memory: publishers change the catalog, clients ask.
After any history the catalog holds the manifests that were published, and whatever the service
remembers of a build is the checksum of the manifest that the build is bound to. -/

set_option autoImplicit false

namespace BuildDelivery

/-- A manifest that the check accepts and whose blocks have an index each. -/
structure Manifest.Sound (manifest : Manifest) : Prop where
  checked : manifest.check = .ok ()
  addressable : manifest.Addressable

namespace Service

inductive Event where
  | published (change : MemoryCatalog.Change)
  | asked (request : Request)

/-- Publishers bind builds to sound manifests only. -/
def Event.Sound : Event → Prop
  | published change => ∀ id manifest, change.binding? = some (id, manifest) → manifest.Sound
  | asked _ => True

def react (service : Service MemoryCatalog) : Event → Service MemoryCatalog
  | .published change => { service with catalog := service.catalog.after change }
  | .asked request => (service.resolve MemoryCatalog.lookup request).2

/-- The service of a policy after a history that starts with an empty catalog. -/
def run (policy : Policy) (events : List Event) : Service MemoryCatalog :=
  events.foldl react (start policy .empty)

/-- The catalog is this one, and all that is remembered are checksums of its builds. -/
structure Remembers (catalog : MemoryCatalog) (service : Service MemoryCatalog) : Prop where
  same : service.catalog = catalog
  right : ∀ id known, service.checksums.get? id = some known →
    ∃ manifest, catalog.build? id = some manifest ∧ known = manifest.checksum

/-- The catalog holds sound manifests, and the service remembers nothing else. -/
structure Coherent (service : Service MemoryCatalog) : Prop where
  sound : ∀ id manifest, service.catalog.build? id = some manifest → manifest.Sound
  remembers : Remembers service.catalog service

theorem coherent_start (policy : Policy) : (start policy MemoryCatalog.empty).Coherent := by
  constructor
  · intro id manifest bound
    simp [start, MemoryCatalog.build?, MemoryCatalog.empty] at bound
  · refine ⟨rfl, fun id known found => ?_⟩
    simp [start, ChecksumCache.get?, ChecksumCache.empty] at found

variable {service : Service MemoryCatalog} {request : Request}

/-- What the catalog tells is bound in it. -/
theorem bound_of_tells {catalog : MemoryCatalog} {id : BuildId} {manifest : Manifest}
    (tells : Tells MemoryCatalog.lookup request catalog id manifest) :
    catalog.build? id = some manifest := by
  cases tells with
  | latest decides =>
    obtain ⟨before, target, after, -, -, found⟩ := MemoryCatalog.decides_lookup decides
    exact MemoryCatalog.bound_of_latest? found
  | held decides answer =>
    obtain rfl := MemoryCatalog.state_of_decides decides
    exact Except.ok.inj answer

theorem Remembers.trustsAnswers (remembers : Remembers service.catalog service) :
    TrustsAnswers MemoryCatalog.lookup request service := by
  intro id manifest tells keeps known found
  obtain ⟨bound, same, rfl⟩ := remembers.right id known found
  rw [bound_of_tells tells] at same
  rw [Option.some.inj same]

theorem Coherent.trustsAnswers (coherent : service.Coherent) :
    TrustsAnswers MemoryCatalog.lookup request service := coherent.remembers.trustsAnswers

/-- A request changes nothing in the catalog and adds only what is right to the memory. -/
theorem Remembers.asked {catalog : MemoryCatalog} (remembers : Remembers catalog service) (request : Request) :
    Remembers catalog (react service (.asked request)) := by
  obtain ⟨rfl, right⟩ := remembers
  -- The catalog is handed on unchanged; what is asked for is told by it and so bound in it.
  apply resolve_induction (Remembers service.catalog)
  · exact ⟨rfl, right⟩
  · intro answer next decides
    exact ⟨MemoryCatalog.state_of_decides decides, right⟩
  · intro held state cache before
    exact ⟨before.same, before.right⟩
  · intro state cache id manifest tells before
    refine ⟨before.same, fun other known found => ?_⟩
    rcases get?_checksum found with remembered | ⟨rfl, rfl⟩
    · exact before.right other known remembered
    · exact ⟨manifest, bound_of_tells tells, rfl⟩

/-- A publisher unbinds nothing, so that what is remembered stays right. -/
theorem Remembers.published (remembers : Remembers service.catalog service)
    (change : MemoryCatalog.Change) :
    Remembers (service.catalog.after change) (react service (.published change)) := by
  refine ⟨rfl, fun id known found => ?_⟩
  obtain ⟨manifest, bound, same⟩ := remembers.right id known found
  exact ⟨manifest, MemoryCatalog.bound_after change bound, same⟩

theorem Coherent.asked (coherent : service.Coherent) (request : Request) :
    (react service (.asked request)).Coherent := by
  obtain ⟨same, right⟩ := coherent.remembers.asked request
  constructor
  · rw [same]
    exact coherent.sound
  · rw [same]
    exact ⟨same, right⟩

theorem Coherent.published (coherent : service.Coherent) {change : MemoryCatalog.Change}
    (sound : (Event.published change).Sound) :
    (react service (.published change)).Coherent := by
  constructor
  · intro id manifest bound
    rcases MemoryCatalog.binding_after bound with before | binding
    · exact coherent.sound id manifest before
    · exact sound id manifest binding
  · exact coherent.remembers.published change

theorem Coherent.react (coherent : service.Coherent) {event : Event} (sound : event.Sound) :
    (react service event).Coherent := by
  cases event with
  | published change => exact coherent.published sound
  | asked request => exact coherent.asked request

theorem coherent_run (policy : Policy) {events : List Event} (sound : ∀ event ∈ events, event.Sound) :
    (run policy events).Coherent :=
  events.foldlRecOn react (coherent_start policy) fun _ coherent event member =>
    coherent.react (sound event member)

/-- Requests leave the catalog as it is. -/
theorem catalog_asked (service : Service MemoryCatalog) (request : Request) :
    (react service (.asked request)).catalog = service.catalog :=
  resolve_induction (fun next => next.catalog = service.catalog) rfl
    (fun _ _ decides => MemoryCatalog.state_of_decides decides) (fun _ _ _ same => same)
    fun _ _ _ _ _ same => same

theorem catalog_run_asked (policy : Policy) (events : List Event) (requests : List Request) :
    (run policy (events ++ requests.map .asked)).catalog = (run policy events).catalog := by
  unfold run
  rw [List.foldl_append, List.foldl_map]
  refine requests.foldlRecOn (motive := fun service : Service MemoryCatalog =>
    service.catalog = (events.foldl react (start policy .empty)).catalog) _ rfl ?_
  intro service same request _
  exact (catalog_asked service request).trans same

/-- A request leaves a service with the policy and the pace that it began with. -/
theorem configured_asked (service : Service MemoryCatalog) (request : Request) :
    (react service (.asked request)).policy = service.policy ∧
      (react service (.asked request)).pace = service.pace :=
  resolve_induction (fun next => next.policy = service.policy ∧ next.pace = service.pace) ⟨rfl, rfl⟩
    (fun _ _ _ => ⟨rfl, rfl⟩) (fun _ _ _ same => same) fun _ _ _ _ _ same => same

theorem configured_run (policy : Policy) (events : List Event) :
    (run policy events).policy = policy.repaired ∧
      (run policy events).pace = (start policy MemoryCatalog.empty).pace := by
  refine events.foldlRecOn react (motive := fun service => service.policy = policy.repaired ∧
    service.pace = (start policy MemoryCatalog.empty).pace) ⟨rfl, rfl⟩ ?_
  intro service same event _
  cases event with
  | published change => exact same
  | asked request =>
    obtain ⟨policies, paces⟩ := configured_asked service request
    exact ⟨policies.trans same.1, paces.trans same.2⟩

/-- What the repair of its policy changes does not matter for the decisions of a service. -/
theorem decision_run_iff {σ : Type} {catalog : Catalog σ} {state : σ} (policy : Policy)
    (events : List Event) (request : Request) (outcome : Except Failure (Response × Rule)) :
    Decision (run policy events).policy catalog request state outcome ↔
      Decision policy catalog request state outcome := by
  have limit : (run policy events).policy.maxChanges = policy.maxChanges := by
    rw [(configured_run policy events).1, policy.maxChanges_repaired]
  exact ⟨fun decision => decision.of_limit limit, fun decision => decision.of_limit limit.symm⟩

/-- Whatever was published, sound or not, nothing wrong is remembered of it. -/
theorem remembers_run (policy : Policy) (events : List Event) :
    Remembers (run policy events).catalog (run policy events) := by
  refine events.foldlRecOn react (motive := fun service =>
    Remembers service.catalog service) (coherent_start policy).remembers ?_
  intro service remembers event _
  cases event with
  | published change => exact remembers.published change
  | asked request =>
    have asked := remembers.asked request
    rw [asked.same]
    exact asked

/-- After any history a service decides by the rules of the policy that it was made for. -/
theorem resolve_run_iff {policy : Policy} {events : List Event} {request : Request}
    {outcome : Except Failure (Response × Rule)} :
    ((run policy events).resolve MemoryCatalog.lookup request).1 = outcome ↔
      Decision policy MemoryCatalog.lookup request (run policy events).catalog outcome := by
  have trusts : TrustsAnswers MemoryCatalog.lookup request (run policy events) :=
    (remembers_run policy events).trustsAnswers
  rw [← decision_run_iff policy events]
  constructor
  · rintro rfl
    exact decision_of_resolve trusts
  · exact resolve_of_decision trusts

end Service

end BuildDelivery
