import BuildDelivery.Proofs.Service.Sync
import Mathlib.Data.Set.Function

/-! Clients that keep up with a service. Each client asks on behalf of the build that it holds and
adopts what it can make of the answer, while publishers go on. Every client then always holds what
the catalog binds its build to, and what it makes of an answer never fails, provided that the
manifests on offer can be told apart by their checksums. -/

set_option autoImplicit false

namespace BuildDelivery

/-- A service, and the build that each of its clients holds. -/
structure Fleet where
  service : Service MemoryCatalog
  held? : Nat → Option Published

namespace Fleet

inductive Event where
  | published (change : MemoryCatalog.Change)
  | synced (client : Nat) (branch : BranchId) (targets : List Target)

/-- Publishers bind builds to sound manifests, and to these only. -/
def Event.Offers (offer : Set Manifest) : Event → Prop
  | published change =>
    ∀ id manifest, change.binding? = some (id, manifest) → manifest.Sound ∧ manifest ∈ offer
  | synced _ _ _ => True

/-- A service without builds and clients without one. -/
def start (policy : Policy) : Fleet := ⟨.start policy .empty, fun _ => none⟩

def question (fleet : Fleet) (client : Nat) (branch : BranchId) (targets : List Target) : Request :=
  ⟨branch, targets, (fleet.held? client).map Published.build⟩

/-- What a client makes of an answer on top of what it holds. -/
def rebuild (held? : Option Published) (answer : Except Failure (Response × Rule)) :
    Except Failure Published := do
  let (response, _) ← answer
  let manifest ← response.reconstruct (held?.map Published.manifest)
  return ⟨response.build, manifest⟩

/-- What the clients hold after one of them got an answer. If it can make nothing of the answer, it
keeps what it has. -/
def adopt (fleet : Fleet) (client : Nat) (answer : Except Failure (Response × Rule)) :
    Nat → Option Published :=
  match rebuild (fleet.held? client) answer with
  | .ok build => Function.update fleet.held? client (some build)
  | .error _ => fleet.held?

def react (fleet : Fleet) : Event → Fleet
  | .published change => { fleet with service := fleet.service.react (.published change) }
  | .synced client branch targets =>
    let (answer, service) := fleet.service.resolve MemoryCatalog.lookup
      (fleet.question client branch targets)
    ⟨service, fleet.adopt client answer⟩

def run (policy : Policy) (events : List Event) : Fleet := events.foldl react (start policy)

section
variable {fleet : Fleet} {client other : Nat} {answer : Except Failure (Response × Rule)}
  {build : Published}

theorem rebuild_eq_ok_iff {held? : Option Published} :
    rebuild held? answer = .ok build ↔
      ∃ response rule, answer = .ok (response, rule) ∧ build.build = response.build ∧
        response.reconstruct (held?.map Published.manifest) = .ok build.manifest := by
  unfold rebuild
  simp only [bind_eq_ok_iff, Prod.exists]
  constructor
  · rintro ⟨response, rule, answered, manifest, made, done⟩
    obtain rfl := Except.ok.inj done
    exact ⟨response, rule, answered, rfl, made⟩
  · rintro ⟨response, rule, answered, same, made⟩
    exact ⟨response, rule, answered, build.manifest, made, by rw [← same]; rfl⟩

/-- What a client holds after an answer it held before, or it is what was made of the answer. -/
theorem held_adopt (held : fleet.adopt client answer other = some build) :
    fleet.held? other = some build ∨
      other = client ∧ rebuild (fleet.held? client) answer = .ok build := by
  unfold adopt at held
  cases rebuilt : rebuild (fleet.held? client) answer with
  | error failure =>
    simp only [rebuilt] at held
    exact .inl held
  | ok adopted =>
    simp only [rebuilt, Function.update_apply] at held
    by_cases here : other = client
    · rw [if_pos here] at held
      exact .inr ⟨here, congrArg Except.ok (Option.some.inj held)⟩
    · rw [if_neg here] at held
      exact .inl held

end

/-- Every client holds what the catalog binds its build to, and all that is bound is on offer. -/
structure InStep (offer : Set Manifest) (fleet : Fleet) : Prop where
  coherent : fleet.service.Coherent
  offered : ∀ id manifest, fleet.service.catalog.build? id = some manifest → manifest ∈ offer
  held : ∀ client build, fleet.held? client = some build →
    fleet.service.catalog.build? build.build = some build.manifest

theorem inStep_start (policy : Policy) (offer : Set Manifest) : (start policy).InStep offer where
  coherent := Service.coherent_start policy
  offered id manifest bound := by
    simp [start, Service.start, MemoryCatalog.build?, MemoryCatalog.empty] at bound
  held client build held := nomatch held

variable {offer : Set Manifest} {fleet : Fleet} {client : Nat}
  {branch : BranchId} {targets : List Target}

theorem InStep.holds (inStep : fleet.InStep offer) :
    Service.Holds fleet.service.catalog (fleet.question client branch targets)
      ((fleet.held? client).map Published.manifest) := by
  intro held manifest names bound
  obtain ⟨build, holds, rfl⟩ := Option.map_eq_some_iff.mp names.1
  rw [inStep.held client build holds] at bound
  rw [holds, Option.map_some, bound]

/-- A client can make something of every answer, and it is what the catalog binds the build to. -/
theorem InStep.reconstruct (apart : offer.InjOn Manifest.checksum) (inStep : fleet.InStep offer)
    {response : Response} {rule : Rule}
    (resolved : (fleet.service.resolve MemoryCatalog.lookup
      (fleet.question client branch targets)).1 = .ok (response, rule)) :
    ∃ manifest,
      response.reconstruct ((fleet.held? client).map Published.manifest) = .ok manifest ∧
      fleet.service.catalog.build? response.build = some manifest := by
  have trusts : Service.TrustsAnswers MemoryCatalog.lookup
      (fleet.question client branch targets) fleet.service := inStep.coherent.trustsAnswers
  have decision := Service.decision_of_resolve trusts
  rw [resolved] at decision
  cases decision with
  | @answered latest next payload rule set some decides conveyance =>
    obtain rfl := MemoryCatalog.state_of_decides decides
    have bound := Service.bound_of_tells (.latest decides)
    obtain ⟨manifest, rebuilt, -, clear⟩ := Service.reconstruct_of_conveyance
      inStep.coherent.sound bound inStep.holds conveyance
    -- Manifests on offer with one checksum are the same, so that none is taken for another.
    have distinct : manifest = latest.manifest := by
      apply clear
      rintro held ⟨id, -, known, same⟩
      exact apart (inStep.offered _ _ known) (inStep.offered _ _ bound) same
    rw [distinct] at rebuilt
    exact ⟨latest.manifest, rebuilt, bound⟩

theorem InStep.published (inStep : fleet.InStep offer) {change : MemoryCatalog.Change}
    (offers : (Event.published change).Offers offer) :
    (fleet.react (.published change)).InStep offer where
  coherent := by
    have coherent : (fleet.service.react (.published change)).Coherent :=
      inStep.coherent.published fun id manifest binding => (offers id manifest binding).1
    exact coherent
  offered id manifest bound := by
    rcases MemoryCatalog.binding_after bound with before | binding
    · exact inStep.offered id manifest before
    · exact (offers id manifest binding).2
  held client build held := MemoryCatalog.bound_after change (inStep.held client build held)

theorem InStep.synced (apart : offer.InjOn Manifest.checksum) (inStep : fleet.InStep offer) :
    (fleet.react (.synced client branch targets)).InStep offer := by
  have same : (fleet.react (.synced client branch targets)).service.catalog =
      fleet.service.catalog := Service.catalog_asked fleet.service _
  constructor
  · exact inStep.coherent.asked (fleet.question client branch targets)
  · rw [same]
    exact inStep.offered
  · intro other build held
    rw [same]
    rcases held_adopt held with before | ⟨-, rebuilt⟩
    · exact inStep.held other build before
    · obtain ⟨response, rule, answered, adopted, made⟩ := rebuild_eq_ok_iff.mp rebuilt
      obtain ⟨manifest, made', bound⟩ := inStep.reconstruct apart answered
      obtain rfl := Except.ok.inj (made.symm.trans made')
      rw [adopted, bound]

theorem InStep.react (apart : offer.InjOn Manifest.checksum) (inStep : fleet.InStep offer)
    {event : Event} (offers : event.Offers offer) : (fleet.react event).InStep offer := by
  cases event with
  | published change => exact inStep.published offers
  | synced client branch targets => exact inStep.synced apart

theorem inStep_run (policy : Policy) (apart : offer.InjOn Manifest.checksum) {events : List Event}
    (offers : ∀ event ∈ events, event.Offers offer) : (run policy events).InStep offer :=
  events.foldlRecOn Fleet.react (inStep_start policy offer) fun _ inStep event member =>
    inStep.react apart (offers event member)

/-- Whatever publishers and clients do, every client holds what the catalog binds its build to, and
no client ever fails to make a manifest of an answer: it makes the one that the catalog binds the
build of the answer to. -/
theorem clients_keep_up (policy : Policy) (apart : offer.InjOn Manifest.checksum) {events : List Event}
    (offers : ∀ event ∈ events, event.Offers offer) :
    (∀ client build, (run policy events).held? client = some build →
      (run policy events).service.catalog.build? build.build = some build.manifest) ∧
    ∀ (client : Nat) (branch : BranchId) (targets : List Target) (response : Response) (rule : Rule),
      ((run policy events).service.resolve MemoryCatalog.lookup
        ((run policy events).question client branch targets)).1 = .ok (response, rule) →
      ∃ manifest,
        response.reconstruct (((run policy events).held? client).map Published.manifest) =
          .ok manifest ∧
        (run policy events).service.catalog.build? response.build = some manifest := by
  have inStep : (run policy events).InStep offer := inStep_run policy apart offers
  exact ⟨inStep.held, fun client branch targets response rule => inStep.reconstruct apart⟩

/-- The first edition is released and adopted; then the revised one takes its place. -/
def revision : List Event :=
  [.published (.publish ⟨⟨1⟩, .windowsX64⟩ ⟨[1]⟩ Manifest.firstEdition),
    .synced 0 ⟨1⟩ [.windowsX64],
    .published (.publish ⟨⟨1⟩, .windowsX64⟩ ⟨[2]⟩ Service.revisedEdition)]

/-- The holder of the first edition makes the revised one of the changes that it is sent. -/
theorem revised_keeps_up :
    Service.revisionResponse.reconstruct (some Manifest.firstEdition) =
      .ok Service.revisedEdition := by
  let editions : Set Manifest := {Manifest.firstEdition, Service.revisedEdition}
  have apart : editions.InjOn Manifest.checksum := by
    rintro left (rfl | rfl) right (rfl | rfl) same
    · rfl
    · exact absurd same Service.checksum_revised
    · exact absurd same.symm Service.checksum_revised
    · rfl
  have offers : ∀ event ∈ revision, event.Offers editions := by
    intro event member
    simp only [revision, List.mem_cons, List.not_mem_nil, or_false] at member
    rcases member with rfl | rfl | rfl
    · rintro id manifest ⟨⟩
      exact ⟨Service.sound_revision _ (.head _) _ _ rfl, .inl rfl⟩
    · trivial
    · rintro id manifest ⟨⟩
      exact ⟨Service.sound_revision _ (.tail _ (.tail _ (.head _))) _ _ rfl, .inr rfl⟩
  have holds : (run .usual revision).held? 0 = some ⟨⟨[1]⟩, Manifest.firstEdition⟩ := by
    decide +kernel
  have released : (run .usual revision).service.catalog.build? ⟨[2]⟩ =
      some Service.revisedEdition := by decide +kernel
  have asks : (run .usual revision).question 0 ⟨1⟩ [.linuxX64, .windowsX64] = Service.upgrade := by
    unfold question
    rw [holds]
    rfl
  have resolved : ((run .usual revision).service.resolve MemoryCatalog.lookup
      ((run .usual revision).question 0 ⟨1⟩ [.linuxX64, .windowsX64])).1 =
        .ok (Service.revisionResponse, .delta 1) := by
    rw [asks]
    exact Service.resolve_revision
  obtain ⟨manifest, made, bound⟩ := (clients_keep_up .usual apart offers).2 _ _ _ _ _ resolved
  rw [holds] at made
  rw [← Option.some.inj (bound.symm.trans released)]
  exact made

end Fleet

end BuildDelivery
