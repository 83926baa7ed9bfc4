import BuildDelivery.Proofs.Service.Sync

/-! A catalog that publishers change while a request is answered. Every question that the request
leads to may find another catalog. As builds stay bound, the response is still about one build,
which was the latest at the moment it was found, and the client can still make its manifest. -/

set_option autoImplicit false

namespace BuildDelivery

/-- The catalogs that are found at one moment after another. -/
abbrev Succession := Nat → MemoryCatalog

namespace Succession

/-- At first all manifests are sound, and every catalog comes from the one before by calls of
publishers that bind sound manifests. -/
structure Grows (succession : Succession) : Prop where
  first : ∀ id manifest, (succession 0).build? id = some manifest → manifest.Sound
  next : ∀ moment, ∃ changes : List MemoryCatalog.Change,
    (∀ change ∈ changes, (Service.Event.published change).Sound) ∧
      succession (moment + 1) = changes.foldl MemoryCatalog.after (succession moment)

/-- The build is bound at some moment. -/
def Binds (succession : Succession) (id : BuildId) (manifest : Manifest) : Prop :=
  ∃ moment, (succession moment).build? id = some manifest

/-- The catalog that answers every question at the next moment. -/
def lookup (succession : Succession) : Catalog Nat where
  latest channel moment := ((MemoryCatalog.lookup.latest channel (succession moment)).1, moment + 1)
  byId id moment := ((MemoryCatalog.lookup.byId id (succession moment)).1, moment + 1)

/-- The service of a policy at a moment, when it remembers these checksums. -/
def remembering (policy : Policy) (checksums : ChecksumCache) (moment : Nat) : Service Nat :=
  (Service.start policy moment).knowing moment checksums

/-- What a service remembers that was asked these requests, each of which began at a moment of its
own. -/
def learned (policy : Policy) (succession : Succession) (asked : List (Nat × Request)) :
    ChecksumCache :=
  asked.foldl (fun checksums ask =>
    ((remembering policy checksums ask.1).resolve succession.lookup ask.2).2.checksums) .empty

/-- None of these targets has a build at its moment, when they are asked for in a row. -/
def Unreleased (succession : Succession) (branch : BranchId) (targets : List Target)
    (moment : Nat) : Prop :=
  ∀ place target, targets[place]? = some target →
    (succession (moment + place)).latest? ⟨branch, target⟩ = none

variable {succession : Succession} {id : BuildId} {manifest other : Manifest}

namespace Grows

theorem bound_succ (grows : succession.Grows) (moment : Nat)
    (bound : (succession moment).build? id = some manifest) :
    (succession (moment + 1)).build? id = some manifest := by
  obtain ⟨changes, -, same⟩ := grows.next moment
  rw [same]
  exact changes.foldlRecOn MemoryCatalog.after
    (motive := fun catalog => catalog.build? id = some manifest) bound
    fun _ bound change _ => MemoryCatalog.bound_after change bound

theorem bound (grows : succession.Grows) {earlier later : Nat} (before : earlier ≤ later)
    (bound : (succession earlier).build? id = some manifest) :
    (succession later).build? id = some manifest := by
  induction later, before using Nat.le_induction with
  | base => exact bound
  | succ moment _ step => exact grows.bound_succ moment step

/-- At no two moments is a build bound to different manifests. -/
theorem unique (grows : succession.Grows) (binds : succession.Binds id manifest)
    (binds' : succession.Binds id other) : manifest = other := by
  obtain ⟨moment, bound⟩ := binds
  obtain ⟨moment', bound'⟩ := binds'
  rcases Nat.le_total moment moment' with before | after
  · exact Option.some.inj ((grows.bound before bound).symm.trans bound')
  · exact Option.some.inj (bound.symm.trans (grows.bound after bound'))

theorem sound (grows : succession.Grows) (binds : succession.Binds id manifest) :
    manifest.Sound := by
  obtain ⟨moment, bound⟩ := binds
  induction moment generalizing id manifest with
  | zero => exact grows.first id manifest bound
  | succ moment step =>
    obtain ⟨changes, sound, same⟩ := grows.next moment
    rw [same] at bound
    refine changes.foldlRecOn MemoryCatalog.after
      (motive := fun catalog => ∀ id manifest, catalog.build? id = some manifest → manifest.Sound)
      (fun _ _ => step) ?_ id manifest bound
    intro catalog sofar change member id manifest bound
    rcases MemoryCatalog.binding_after bound with before | binding
    · exact sofar id manifest before
    · exact sound change member id manifest binding

end Grows

section
variable {branch : BranchId} {targets : List Target} {moment next : Nat} {latest : Published}

theorem passesOver_lookup (passed : succession.lookup.PassesOver branch targets moment next) :
    next = moment + targets.length ∧ succession.Unreleased branch targets moment := by
  induction passed with
  | none => exact ⟨rfl, nofun⟩
  | @one target targets moment between next missing _ step =>
    obtain ⟨answer, rfl⟩ := Prod.mk.inj missing
    obtain ⟨rfl, later⟩ := step
    refine ⟨by rw [List.length_cons]; omega, fun place other found => ?_⟩
    cases place with
    | zero =>
      cases found
      exact Except.ok.inj answer
    | succ place =>
      have moments : moment + (place + 1) = moment + 1 + place := by omega
      rw [moments]
      exact later place other found

/-- The latest build that is found is that of the first target that has one at its moment. -/
theorem decides_lookup
    (decides : succession.lookup.Decides branch targets moment (.ok (some latest)) next) :
    ∃ before target after, targets = before ++ target :: after ∧
      succession.Unreleased branch before moment ∧
      (succession (moment + before.length)).latest? ⟨branch, target⟩ = some latest ∧
        next = moment + before.length + 1 := by
  cases decides with
  | @first before after target _ _ _ split passed found _ =>
    obtain ⟨rfl, missing⟩ := passesOver_lookup passed
    obtain ⟨answer, rfl⟩ := Prod.mk.inj found
    exact ⟨before, target, after, split, missing, Except.ok.inj answer, rfl⟩

end

section
variable {policy : Policy} {request : Request} {moment next : Nat} {latest : Published}

theorem binds_of_latest? {channel : Channel}
    (found : (succession moment).latest? channel = some latest) :
    succession.Binds latest.build latest.manifest :=
  ⟨moment, MemoryCatalog.bound_of_latest? found⟩

theorem binds_of_tells (tells : Service.Tells succession.lookup request moment id manifest) :
    succession.Binds id manifest := by
  cases tells with
  | latest decides =>
    obtain ⟨before, target, after, -, -, found, -⟩ := decides_lookup decides
    exact binds_of_latest? found
  | @held _ next _ _ _ answer => exact ⟨next, Except.ok.inj answer⟩

/-- Whatever is remembered of a build is the checksum of a manifest that it is bound to. -/
theorem binds_of_learned {asked : List (Nat × Request)} {known : Checksum}
    (found : (learned policy succession asked).get? id = some known) :
    ∃ manifest, succession.Binds id manifest ∧ known = manifest.checksum := by
  revert id known
  unfold learned
  refine asked.foldlRecOn _ (motive := fun checksums : ChecksumCache => ∀ {id known},
    checksums.get? id = some known →
      ∃ manifest, succession.Binds id manifest ∧ known = manifest.checksum) ?_ ?_
  · intro id known found
    simp [ChecksumCache.get?, ChecksumCache.empty] at found
  -- A request adds checksums only of builds that the catalogs tell it.
  · intro checksums right ask _ id known
    let service := remembering policy checksums ask.1
    have right : ∀ id known, service.checksums.get? id = some known →
        ∃ manifest, succession.Binds id manifest ∧ known = manifest.checksum := fun _ _ => right
    refine @Service.resolve_induction _ _ ask.2 service (fun service => ∀ id known,
      service.checksums.get? id = some known →
        ∃ manifest, succession.Binds id manifest ∧ known = manifest.checksum)
      right (fun _ _ _ => right) (fun _ _ _ before => before) ?_ id known
    intro state cache id manifest tells before other known found
    rcases Service.get?_checksum found with remembered | ⟨rfl, rfl⟩
    · exact before other known remembered
    · exact ⟨manifest, binds_of_tells tells, rfl⟩

theorem Grows.trustsAnswers (grows : succession.Grows) (asked : List (Nat × Request)) :
    Service.TrustsAnswers succession.lookup request
      (remembering policy (learned policy succession asked) moment) := by
  intro id manifest tells keeps known found
  obtain ⟨other, binds, rfl⟩ := binds_of_learned found
  rw [grows.unique binds (binds_of_tells tells)]

/-- Whenever the build of the client is bound, the response leads from its manifest to the latest
one, as long as no other manifest has the checksum of that. -/
theorem Grows.reconstruct (grows : succession.Grows) {payload : Payload} {rule : Rule}
    {held : Manifest} (binds : succession.Binds latest.build latest.manifest)
    (conveyance : Service.Conveyance policy succession.lookup request latest next
      (.ok (payload, rule)))
    (holds : request.held? = some id) (known : succession.Binds id held)
    (distinct : held.checksum = latest.manifest.checksum → held = latest.manifest) :
    (Response.mk latest.build latest.manifest.checksum payload).reconstruct (some held) =
      .ok latest.manifest := by
  cases conveyance with
  | fresh fresh => exact Response.reconstruct_of_conveyed rfl rfl
  | unknown names apart missing => exact Response.reconstruct_of_conveyed rfl rfl
  | same names =>
    obtain rfl : latest.build = id := Option.some.inj (names.1.symm.trans holds)
    rw [grows.unique known binds]
    exact Response.reconstruct_of_conveyed rfl rfl
  | @compared id' held' _ _ names apart answer comparison =>
    obtain rfl : id' = id := Option.some.inj (names.1.symm.trans holds)
    have binds' : succession.Binds id' held' := ⟨next, Except.ok.inj answer⟩
    obtain rfl : held = held' := grows.unique known binds'
    obtain ⟨manifest, rebuilt, same, different⟩ :=
      Service.reconstruct_of_comparison (grows.sound known) (grows.sound binds) comparison
    rw [rebuilt]
    by_cases content : held.checksum = latest.manifest.checksum
    · rw [same content, distinct content]
    · rw [different content]

/-- While publishers go on, a request succeeds with one build, which was the latest at the moment
of the question that found it: of this build are the id, the checksum and what is conveyed, and
from the manifest that its own build is bound to at any moment the client gets to the manifest of
this build. A request that is accepted fails only if no target had a build when it was tried. -/
theorem resolve_while_published (grows : succession.Grows) (policy : Policy)
    (asked : List (Nat × Request)) (moment : Nat) (request : Request) :
    (∀ response rule,
      ((remembering policy (learned policy succession asked) moment).resolve succession.lookup
        request).1 = .ok (response, rule) →
      ∃ before target after latest, request.targets = before ++ target :: after ∧
        succession.Unreleased request.branch before moment ∧
        (succession (moment + before.length)).latest? ⟨request.branch, target⟩ = some latest ∧
        response.build = latest.build ∧ response.checksum = latest.manifest.checksum ∧
        Service.Conveyance policy succession.lookup request latest (moment + before.length + 1)
          (.ok (response.payload, rule)) ∧
        ∀ id held, request.held? = some id → succession.Binds id held →
          (held.checksum = latest.manifest.checksum → held = latest.manifest) →
            response.reconstruct (some held) = .ok latest.manifest) ∧
    ∀ failure,
      ((remembering policy (learned policy succession asked) moment).resolve succession.lookup
        request).1 = .error failure →
      (∃ fault, request.check = .error fault ∧ failure = .request fault) ∨
        failure = .buildNotFound request.branch request.targets ∧
          succession.Unreleased request.branch request.targets moment := by
  have trusts : Service.TrustsAnswers succession.lookup request
      (remembering policy (learned policy succession asked) moment) := grows.trustsAnswers asked
  have decision := (Service.decision_of_resolve trusts).of_limit policy.maxChanges_repaired
  refine ⟨fun response rule resolved => ?_, fun failure resolved => ?_⟩
  · rw [resolved] at decision
    cases decision with
    | @answered latest next payload rule set some decides conveyance =>
      obtain ⟨before, target, after, split, missing, found, rfl⟩ := decides_lookup decides
      refine ⟨before, target, after, latest, split, missing, found, rfl, rfl, conveyance, ?_⟩
      intro id held holds known distinct
      exact grows.reconstruct (binds_of_latest? found) conveyance holds known distinct
  · rw [resolved] at decision
    cases decision with
    | branchMissing unset => exact .inl ⟨_, Request.check_of_branchMissing unset, rfl⟩
    | targetsMissing set none => exact .inl ⟨_, Request.check_of_targetsMissing set none, rfl⟩
    | nobody set some decides =>
      cases decides with
      | nobody passed => exact .inr ⟨rfl, (passesOver_lookup passed).2⟩
      | first _ _ _ found => exact absurd rfl found
    -- Catalogs in memory have no failures of their own.
    | failed set some decides =>
      cases decides with
      | first _ _ found _ => cases (Prod.mk.inj found).1
    | unheard set some decides conveyance =>
      cases conveyance with
      | failed _ _ answer => cases answer

end

/-- The catalogs of publishers that make one change at every moment, as long as there are any. -/
def following (first : MemoryCatalog) (changes : List MemoryCatalog.Change) : Succession :=
  fun moment => (changes.take moment).foldl MemoryCatalog.after first

theorem grows_following {first : MemoryCatalog} {changes : List MemoryCatalog.Change}
    (sound : ∀ id manifest, first.build? id = some manifest → manifest.Sound)
    (published : ∀ change ∈ changes, (Service.Event.published change).Sound) :
    (following first changes).Grows := by
  refine ⟨sound, fun moment => ⟨(changes.drop moment).take 1, fun change member => ?_, ?_⟩⟩
  · exact published change (List.mem_of_mem_drop (List.mem_of_mem_take member))
  · rw [following, List.take_add, List.foldl_append]
    rfl

/-- The revised edition is released while the first one is known, and taken back at once. -/
def withdrawal : Succession :=
  following .empty [.insert ⟨[1]⟩ Manifest.firstEdition,
    .publish ⟨⟨1⟩, .windowsX64⟩ ⟨[2]⟩ Service.revisedEdition,
    .setLatest ⟨⟨1⟩, .windowsX64⟩ ⟨[1]⟩]

theorem grows_withdrawal : withdrawal.Grows := by
  apply grows_following
  · intro id manifest bound
    simp [MemoryCatalog.build?, MemoryCatalog.empty] at bound
  · intro change member
    simp only [List.mem_cons, List.not_mem_nil, or_false] at member
    rcases member with rfl | rfl | rfl
    · rintro id manifest ⟨⟩
      exact Service.sound_firstEdition
    · rintro id manifest ⟨⟩
      exact Service.sound_revisedEdition
    · rintro id manifest ⟨⟩

/-- The first target is tried before the release, the second one after it, and the build of the
client is looked up after the withdrawal. -/
theorem resolve_withdrawal :
    ((remembering .usual (learned .usual withdrawal [(2, Service.upgrade)]) 1).resolve
      withdrawal.lookup Service.upgrade).1 =
        .ok (Service.revisionResponse, .delta 1) := by
  have nothing : (withdrawal 1).latest? ⟨⟨1⟩, .linuxX64⟩ = none := by decide +kernel
  have release : (withdrawal 2).latest? ⟨⟨1⟩, .windowsX64⟩ =
      some ⟨⟨[2]⟩, Service.revisedEdition⟩ := by decide +kernel
  have known : (withdrawal 3).build? ⟨[1]⟩ = some Manifest.firstEdition := by decide +kernel
  have split : Service.upgrade.targets = [.linuxX64] ++ .windowsX64 :: [] := rfl
  have decides : withdrawal.lookup.Decides Service.upgrade.branch Service.upgrade.targets 1
      (.ok (some ⟨⟨[2]⟩, Service.revisedEdition⟩)) 3 :=
    .first split (.one (Prod.ext (congrArg Except.ok nothing) rfl) .none)
      (Prod.ext (congrArg Except.ok release) rfl) nofun
  have other : (⟨[1]⟩ : BuildId) ≠ ⟨[2]⟩ := by decide
  have conveyance : Service.Conveyance .usual withdrawal.lookup Service.upgrade
      ⟨⟨[2]⟩, Service.revisedEdition⟩ 3 _ :=
    .compared ⟨rfl, by decide⟩ other (congrArg Except.ok known) Service.comparison_revised
  exact Service.resolve_of_decision (grows_withdrawal.trustsAnswers _)
    (.answered (by decide) (by decide) decides conveyance)

theorem reconstruct_while_withdrawn :
    (withdrawal 3).latest? ⟨⟨1⟩, .windowsX64⟩ = some ⟨⟨[1]⟩, Manifest.firstEdition⟩ ∧
      Service.revisionResponse.reconstruct (some Manifest.firstEdition) =
        .ok Service.revisedEdition := by
  have known : (withdrawal 3).build? ⟨[1]⟩ = some Manifest.firstEdition := by decide +kernel
  have released : (withdrawal 3).build? ⟨[2]⟩ = some Service.revisedEdition := by decide +kernel
  refine ⟨by decide +kernel, ?_⟩
  obtain ⟨answered, -⟩ := resolve_while_published grows_withdrawal .usual [(2, Service.upgrade)] 1
    Service.upgrade
  obtain ⟨before, target, after, latest, -, -, found, build, -, -, rebuilt⟩ :=
    answered _ _ resolve_withdrawal
  have binds : withdrawal.Binds ⟨[2]⟩ latest.manifest := by
    have binds := binds_of_latest? found
    rwa [← build] at binds
  have content : latest.manifest = Service.revisedEdition :=
    grows_withdrawal.unique binds ⟨3, released⟩
  rw [content] at rebuilt
  exact rebuilt ⟨[1]⟩ Manifest.firstEdition rfl ⟨3, known⟩ fun same =>
    absurd same Service.checksum_revised

end Succession

end BuildDelivery
