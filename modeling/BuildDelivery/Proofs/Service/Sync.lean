import BuildDelivery.Proofs.Delta.RoundTrip
import BuildDelivery.Proofs.Exchange.Response
import BuildDelivery.Proofs.Service.History
import BuildDelivery.Proofs.Wire.Frame

/-! From a request to the manifest in the hands of the client. The response names the latest build,
survives the wire, and together with the manifest that the client holds gives the latest manifest,
whatever happened to the service and its catalog before. -/

set_option autoImplicit false

namespace BuildDelivery

namespace Service

variable {policy : Policy} {request : Request} {catalog : MemoryCatalog} {latest : Published}

/-- The client holds what the catalog binds the build to that the request names. -/
def Holds (catalog : MemoryCatalog) (request : Request) (held? : Option Manifest) : Prop :=
  ∀ held manifest, request.Names held → catalog.build? held = some manifest →
    held? = some manifest

/-- The client's build is known and cannot be told from the latest by its checksum. -/
def Confused (catalog : MemoryCatalog) (request : Request) (latest held : Manifest) : Prop :=
  ∃ id, request.Names id ∧ catalog.build? id = some held ∧ held.checksum = latest.checksum

/-- What a client makes of a comparison with the manifest that it holds. -/
theorem reconstruct_of_comparison {held : Manifest} {payload : Payload} {rule : Rule}
    (heldSound : held.Sound) (latestSound : latest.manifest.Sound)
    (comparison : Comparison policy held latest.manifest payload rule) :
    ∃ manifest,
      (Response.mk latest.build latest.manifest.checksum payload).reconstruct (some held) =
        .ok manifest ∧
      (held.checksum = latest.manifest.checksum → manifest = held) ∧
      (held.checksum ≠ latest.manifest.checksum → manifest = latest.manifest) := by
  cases comparison with
  | sameContent content =>
    exact ⟨held, Response.reconstruct_of_conveyed rfl content, fun _ => rfl,
      fun differ => absurd content differ⟩
  | otherSize differ sizes =>
    exact ⟨latest.manifest, Response.reconstruct_of_conveyed rfl rfl,
      fun content => absurd content differ, fun _ => rfl⟩
  | changes differ sizes few =>
    have applied := Delta.apply_between_ok (Manifest.check_eq_ok_iff.mp heldSound.checked)
      heldSound.addressable (Manifest.check_eq_ok_iff.mp latestSound.checked)
      latestSound.addressable sizes
    have conveyed : (Response.mk latest.build latest.manifest.checksum
        (.delta (Delta.between held.listing latest.manifest.listing))).conveyed (some held) =
          .ok latest.manifest := by
      unfold Response.conveyed
      have same : (Delta.between held.listing latest.manifest.listing).targetChecksum =
          latest.manifest.checksum := rfl
      simp only [Checksum.verify_eq_ok_iff.mpr same, bind, Except.bind, applied]
    exact ⟨latest.manifest, Response.reconstruct_of_conveyed conveyed rfl,
      fun content => absurd content differ, fun _ => rfl⟩
  | tooMany differ sizes many =>
    exact ⟨latest.manifest, Response.reconstruct_of_conveyed rfl rfl,
      fun content => absurd content differ, fun _ => rfl⟩

theorem reconstruct_of_conveyance {payload : Payload} {rule : Rule} {held? : Option Manifest}
    (sound : ∀ id manifest, catalog.build? id = some manifest → manifest.Sound)
    (bound : catalog.build? latest.build = some latest.manifest)
    (holds : Holds catalog request held?)
    (conveyance : Conveyance policy MemoryCatalog.lookup request latest catalog
      (.ok (payload, rule))) :
    ∃ manifest,
      (Response.mk latest.build latest.manifest.checksum payload).reconstruct held? =
        .ok manifest ∧
      (∀ held, Confused catalog request latest.manifest held → manifest = held) ∧
      ((∀ held, Confused catalog request latest.manifest held → held = latest.manifest) →
        manifest = latest.manifest) := by
  cases conveyance with
  | fresh fresh =>
    refine ⟨latest.manifest, Response.reconstruct_of_conveyed rfl rfl, ?_, fun _ => rfl⟩
    rintro held ⟨id, names, -⟩
    exact absurd names (fresh id)
  | same names =>
    -- The client names the latest build, so it holds the latest manifest.
    rw [holds _ _ names bound]
    refine ⟨latest.manifest, Response.reconstruct_of_conveyed rfl rfl, ?_, fun _ => rfl⟩
    rintro held ⟨id, names', known, -⟩
    obtain rfl := names.unique names'
    exact Option.some.inj (bound.symm.trans known)
  | @unknown id names other missing =>
    refine ⟨latest.manifest, Response.reconstruct_of_conveyed rfl rfl, ?_, fun _ => rfl⟩
    rintro held ⟨id', names', known, -⟩
    obtain rfl := names.unique names'
    cases (Except.ok.inj missing).symm.trans known
  | @compared id held _ _ names other answer comparison =>
    have known : catalog.build? id = some held := Except.ok.inj answer
    rw [holds _ _ names known]
    obtain ⟨manifest, rebuilt, same, different⟩ := reconstruct_of_comparison
      (sound _ _ known) (sound _ _ bound) comparison
    refine ⟨manifest, rebuilt, ?_, fun distinct => ?_⟩
    · rintro confused ⟨id', names', known', content⟩
      obtain rfl := names.unique names'
      obtain rfl := Option.some.inj (known.symm.trans known')
      exact same content
    -- Where the checksums differ, nothing can be confused.
    · by_cases content : held.checksum = latest.manifest.checksum
      · rw [same content]
        exact distinct held ⟨id, names, known, content⟩
      · exact different content

theorem readReply_of_frame {response : Response} {frame rest : Bytes} {feed : Feed}
    (framed : (Message.latestBuild response).toFrame = .ok frame)
    (arrives : feed.bytes = frame ++ rest) (short : SystemFault) :
    Message.readReply short feed = .ok response := by
  obtain ⟨next, found, -⟩ := Message.read_of_frame framed arrives short
  unfold Message.readReply
  rw [found]
  rfl

/-- After any history of sound manifests, a response that can be sent arrives as it was sent and
gives the client the latest manifest of the first target that has one. Only where the checksums
of two manifests agree can the client be left with the manifest that it holds. -/
theorem reconstruct_of_resolve {events : List Event} (sound : ∀ event ∈ events, event.Sound)
    {response : Response} {rule : Rule}
    (resolved : ((run policy events).resolve MemoryCatalog.lookup request).1 =
      .ok (response, rule))
    {frame rest : Bytes} {feed : Feed}
    (framed : (Message.latestBuild response).toFrame = .ok frame)
    (arrives : feed.bytes = frame ++ rest) (short : SystemFault) {held? : Option Manifest}
    (holds : Holds (run policy events).catalog request held?) :
    ∃ (latest : Published) (manifest : Manifest),
      (∃ before target after, request.targets = before ++ target :: after ∧
        (∀ earlier ∈ before,
          (run policy events).catalog.latest? ⟨request.branch, earlier⟩ = none) ∧
        (run policy events).catalog.latest? ⟨request.branch, target⟩ = some latest) ∧
      response.build = latest.build ∧ response.checksum = latest.manifest.checksum ∧
      (Message.readReply short feed >>= fun received => received.reconstruct held?) =
        .ok manifest ∧
      (∀ held, Confused (run policy events).catalog request latest.manifest held →
        manifest = held) ∧
      ((∀ held, Confused (run policy events).catalog request latest.manifest held →
        held = latest.manifest) → manifest = latest.manifest) := by
  have coherent : (run policy events).Coherent := coherent_run policy sound
  cases resolve_run_iff.mp resolved with
  | @answered latest next payload rule set some decides conveyance =>
    obtain rfl := MemoryCatalog.state_of_decides decides
    have first := MemoryCatalog.decides_lookup decides
    have bound := bound_of_tells (.latest decides)
    obtain ⟨manifest, rebuilt, confused, clear⟩ :=
      reconstruct_of_conveyance coherent.sound bound holds conveyance
    refine ⟨latest, manifest, first, rfl, rfl, ?_, confused, clear⟩
    rw [readReply_of_frame framed arrives short]
    exact rebuilt

/-- The first edition with another readme. -/
def revisedEdition : Manifest := Manifest.firstEdition.setFile "readme" [.uniform 6]

/-- The first edition is released and asked for; then the revised one takes its place. -/
def revision : List Event :=
  [.published (.publish ⟨⟨1⟩, .windowsX64⟩ ⟨[1]⟩ Manifest.firstEdition),
    .asked ⟨⟨1⟩, [.windowsX64], none⟩,
    .published (.publish ⟨⟨1⟩, .windowsX64⟩ ⟨[2]⟩ revisedEdition)]

theorem sound_firstEdition : Manifest.firstEdition.Sound :=
  ⟨by decide +kernel, Manifest.addressable_firstEdition⟩

theorem sound_revisedEdition : revisedEdition.Sound :=
  ⟨by decide +kernel, Manifest.addressable_firstEdition.setFile ⟨by decide, by decide⟩⟩

theorem sound_revision : ∀ event ∈ revision, event.Sound := by
  intro event member
  simp only [revision, List.mem_cons, List.not_mem_nil, or_false] at member
  rcases member with rfl | rfl | rfl
  · rintro id manifest binding
    cases binding
    exact sound_firstEdition
  · trivial
  · rintro id manifest binding
    cases binding
    exact sound_revisedEdition

theorem between_revised :
    Delta.between Manifest.firstEdition.listing revisedEdition.listing =
      ⟨smallestBlockSize, Manifest.firstEdition.checksum, revisedEdition.checksum,
        [.modify ⟨"readme", 0⟩ (.uniform 6)]⟩ := by
  have operations :
      (Delta.between Manifest.firstEdition.listing revisedEdition.listing).operations =
        [.modify ⟨"readme", 0⟩ (.uniform 6)] := by
    rw [Delta.operations_between]
    refine Eq.trans (congrArg (List.mergeSort · Join.inOrder) ?_) (List.mergeSort_singleton _)
    decide +kernel
  change Delta.mk _ _ _
    (Delta.between Manifest.firstEdition.listing revisedEdition.listing).operations = _
  rw [operations]
  rfl

/-- The response that a holder of the first edition gets after the revision. -/
def revisionResponse : Response :=
  ⟨⟨[2]⟩, revisedEdition.checksum, .delta ⟨smallestBlockSize, Manifest.firstEdition.checksum,
    revisedEdition.checksum, [.modify ⟨"readme", 0⟩ (.uniform 6)]⟩⟩

theorem checksum_revised : Manifest.firstEdition.checksum ≠ revisedEdition.checksum := by
  decide +kernel

theorem comparison_revised :
    Comparison .usual Manifest.firstEdition revisedEdition revisionResponse.payload (.delta 1) := by
  have sizes : Manifest.firstEdition.maxBlockSize = revisedEdition.maxBlockSize := by decide +kernel
  have few : (Delta.between Manifest.firstEdition.listing revisedEdition.listing).changes ≤
      Policy.usual.maxChanges := by
    rw [between_revised]
    decide
  have changes := Comparison.changes checksum_revised sizes few
  rwa [between_revised] at changes

theorem resolve_revision :
    ((run .usual revision).resolve MemoryCatalog.lookup upgrade).1 =
      .ok (revisionResponse, .delta 1) := by
  have nothing : (run .usual revision).catalog.latest? ⟨⟨1⟩, .linuxX64⟩ = none := by decide +kernel
  have release : (run .usual revision).catalog.latest? ⟨⟨1⟩, .windowsX64⟩ =
      some ⟨⟨[2]⟩, revisedEdition⟩ := by decide +kernel
  have known : (run .usual revision).catalog.build? ⟨[1]⟩ = some Manifest.firstEdition := by
    decide +kernel
  have split : upgrade.targets = [.linuxX64] ++ .windowsX64 :: [] := rfl
  have decides : MemoryCatalog.lookup.Decides upgrade.branch upgrade.targets
      (run .usual revision).catalog (.ok (some ⟨⟨[2]⟩, revisedEdition⟩))
        (run .usual revision).catalog :=
    .first split (.one (Prod.ext (congrArg Except.ok nothing) rfl) .none)
      (Prod.ext (congrArg Except.ok release) rfl) nofun
  have other : (⟨[1]⟩ : BuildId) ≠ ⟨[2]⟩ := by decide
  have conveyance : Conveyance .usual MemoryCatalog.lookup upgrade ⟨⟨[2]⟩, revisedEdition⟩
      (run .usual revision).catalog _ :=
    .compared ⟨rfl, by decide⟩ other (congrArg Except.ok known) comparison_revised
  exact resolve_run_iff.mpr (.answered (by decide) (by decide) decides conveyance)

theorem reconstruct_of_revision :
    ∃ frame, (Message.latestBuild revisionResponse).toFrame = .ok frame ∧
      (Message.readReply .shortRead (.whole frame .closed) >>= fun received =>
        received.reconstruct (some Manifest.firstEdition)) = .ok revisedEdition := by
  have small : (Message.latestBuild revisionResponse).toBytes.length ≤ maxPayloadSize := by
    decide +kernel
  obtain ⟨frame, framed⟩ : ∃ frame, (Message.latestBuild revisionResponse).toFrame = .ok frame :=
    ⟨_, Message.toFrame_eq_ok_iff.mpr ⟨small, rfl⟩⟩
  have arrives : (Feed.whole frame .closed).bytes = frame ++ [] := rfl
  have known : (run .usual revision).catalog.build? ⟨[1]⟩ = some Manifest.firstEdition := by
    decide +kernel
  have released : (run .usual revision).catalog.build? ⟨[2]⟩ = some revisedEdition := by
    decide +kernel
  have named {id : BuildId} {held : Manifest} (names : upgrade.Names id)
      (bound : (run .usual revision).catalog.build? id = some held) :
      held = Manifest.firstEdition := by
    obtain rfl : (⟨[1]⟩ : BuildId) = id := Option.some.inj names.1
    exact Option.some.inj (bound.symm.trans known)
  have holds : Holds (run .usual revision).catalog upgrade (some Manifest.firstEdition) :=
    fun id held names bound => congrArg some (named names bound).symm
  obtain ⟨latest, manifest, ⟨before, target, after, -, -, found⟩, build, -, rebuilt, -, clear⟩ :=
    reconstruct_of_resolve sound_revision resolve_revision framed arrives .shortRead holds
  have bound := MemoryCatalog.bound_of_latest? found
  rw [← build] at bound
  have content : latest.manifest = revisedEdition := Option.some.inj (bound.symm.trans released)
  have distinct : manifest = latest.manifest := by
    apply clear
    rintro held ⟨id, names, bound, same⟩
    rw [named names bound, content] at same
    exact absurd same checksum_revised
  refine ⟨frame, framed, ?_⟩
  rw [rebuilt, distinct, content]

end Service

end BuildDelivery
