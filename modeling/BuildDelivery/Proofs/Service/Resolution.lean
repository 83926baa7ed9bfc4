import BuildDelivery.Proofs.Service.Decision

/-! A service decides by the rules as long as the checksums that it remembers are right for the
builds that the catalog tells it about. -/

set_option autoImplicit false

namespace BuildDelivery

namespace ChecksumCache

/-- If anything is remembered of a build, it is the checksum of this manifest. -/
def Truthful (cache : ChecksumCache) (id : BuildId) (manifest : Manifest) : Prop :=
  ∀ known, cache.get? id = some known → known = manifest.checksum

theorem truthful_empty (id : BuildId) (manifest : Manifest) :
    empty.Truthful id manifest := by
  intro known found
  simp [get?, empty] at found

theorem ask_of_truthful {cache : ChecksumCache} {id : BuildId} {manifest : Manifest}
    (truthful : cache.Truthful id manifest) : (cache.ask id manifest).1 = manifest.checksum := by
  unfold ask
  cases found : cache.get? id with
  | none => rfl
  | some known => exact truthful known found

/-- What is remembered after a question was remembered before or is the answer. -/
theorem get?_ask {cache : ChecksumCache} {id other : BuildId} {manifest : Manifest}
    {known : Checksum} (found : (cache.ask id manifest).2.get? other = some known) :
    cache.get? other = some known ∨ other = id ∧ known = manifest.checksum := by
  unfold ask at found
  cases before : cache.get? id with
  | some answer =>
    rw [before] at found
    exact .inl found
  | none =>
    simp only [before] at found
    by_cases same : other = id
    · subst same
      have kept : known = manifest.checksum := by simpa [get?, eq_comm] using found
      exact .inr ⟨rfl, kept⟩
    · left
      simpa [get?, Std.ExtTreeMap.getElem?_insert, Std.LawfulEqCmp.compare_eq_iff_eq,
        Ne.symm same] using found

end ChecksumCache

namespace Service

/-- A policy that keeps checksums finds nothing wrong about a build among them. -/
def Trusts (policy : Policy) (cache : ChecksumCache) (id : BuildId) (manifest : Manifest) : Prop :=
  policy.keepsChecksums → cache.Truthful id manifest

section
variable {policy : Policy} {cache : ChecksumCache} {id : BuildId} {manifest : Manifest}

theorem checksum_of_trusts (trusts : Trusts policy cache id manifest) :
    (checksum policy cache id manifest).1 = manifest.checksum := by
  unfold checksum
  by_cases keeps : policy.keepsChecksums
  · rw [if_pos keeps]
    exact ChecksumCache.ask_of_truthful (trusts keeps)
  · rw [if_neg keeps]

theorem get?_checksum {other : BuildId} {known : Checksum}
    (found : (checksum policy cache id manifest).2.get? other = some known) :
    cache.get? other = some known ∨ other = id ∧ known = manifest.checksum := by
  unfold checksum at found
  by_cases keeps : policy.keepsChecksums
  · rw [if_pos keeps] at found
    exact ChecksumCache.get?_ask found
  · rw [if_neg keeps] at found
    exact .inl found

/-- To ask for the checksum of one build makes nothing wrong about another. -/
theorem Trusts.checksum {other : BuildId} {content : Manifest}
    (trusts : Trusts policy cache other content) (apart : other ≠ id) :
    Trusts policy (checksum policy cache id manifest).2 other content := by
  intro keeps known found
  rcases get?_checksum found with before | ⟨same, -⟩
  · exact trusts keeps known before
  · exact absurd same apart

end

section
variable {σ : Type} {catalog : Catalog σ} {request : Request} {service : Service σ}

/-- A build that a request makes the catalog tell: the latest, or another by its id. -/
inductive Tells (catalog : Catalog σ) (request : Request) (state : σ) :
    BuildId → Manifest → Prop where
  | latest {latest : Published} {next : σ} :
      catalog.Decides request.branch request.targets state (.ok (some latest)) next →
        Tells catalog request state latest.build latest.manifest
  | held {latest : Published} {next : σ} {held : BuildId} {manifest : Manifest} :
      catalog.Decides request.branch request.targets state (.ok (some latest)) next →
        (catalog.byId held next).1 = .ok (some manifest) →
          Tells catalog request state held manifest

/-- Nothing is remembered wrong about the builds that a request makes the catalog tell. -/
def TrustsAnswers (catalog : Catalog σ) (request : Request) (service : Service σ) : Prop :=
  ∀ id manifest, Tells catalog request service.catalog id manifest →
    Trusts service.policy service.checksums id manifest

theorem resolve_of_refused {fault : RequestFault} (refused : request.check = .error fault) :
    (service.resolve catalog request).1 = .error (.request fault) := by
  unfold resolve
  rw [refused]

theorem resolve_of_conveyance {latest : Published} {next : σ}
    {outcome : Except Failure (Payload × Rule)} (accepted : request.check = .ok ())
    (decides : catalog.Decides request.branch request.targets service.catalog
      (.ok (some latest)) next)
    (trusts : TrustsAnswers catalog request service)
    (conveyance : Conveyance service.policy catalog request latest next outcome) :
    (service.resolve catalog request).1 = outcome.map fun conveyed =>
      (⟨latest.build, latest.manifest.checksum, conveyed.1⟩, conveyed.2) := by
  have trustsLatest := trusts latest.build latest.manifest (.latest decides)
  have checksum := checksum_of_trusts trustsLatest
  unfold resolve
  simp only [accepted, Catalog.firstLatest_eq_iff.mpr decides, checksum]
  cases conveyance with
  | fresh fresh =>
    rw [Request.localBuild?_eq_none_iff.mpr fresh]
    rfl
  | same names =>
    rw [Request.localBuild?_eq_some_iff.mpr names]
    simp only [if_true]
    rfl
  | @failed held failure names other answer =>
    have asked : catalog.byId held next = (.error failure, (catalog.byId held next).2) :=
      Prod.ext answer rfl
    rw [Request.localBuild?_eq_some_iff.mpr names]
    simp only [other, if_false]
    rw [asked]
    rfl
  | @unknown held names other answer =>
    have asked : catalog.byId held next = (.ok none, (catalog.byId held next).2) :=
      Prod.ext answer rfl
    rw [Request.localBuild?_eq_some_iff.mpr names]
    simp only [other, if_false]
    rw [asked]
    rfl
  | @compared held manifest payload rule names other answer comparison =>
    have asked : catalog.byId held next = (.ok (some manifest), (catalog.byId held next).2) :=
      Prod.ext answer rfl
    -- The latest build has just been asked for; that does not touch what is known of the held one.
    have trustsLater : Trusts service.policy
        (Service.checksum service.policy service.checksums latest.build latest.manifest).2 held
          manifest :=
      (trusts held manifest (.held decides answer)).checksum other
    rw [Request.localBuild?_eq_some_iff.mpr names]
    simp only [other, if_false]
    rw [asked]
    simp only [checksum_of_trusts trustsLater, compare_of_comparison comparison service.pace]
    rfl

/-- A service that trusts what it is told rightly does what the rules say. -/
theorem resolve_of_decision {outcome : Except Failure (Response × Rule)}
    (trusts : TrustsAnswers catalog request service)
    (decision : Decision service.policy catalog request service.catalog outcome) :
    (service.resolve catalog request).1 = outcome := by
  cases decision with
  | branchMissing unset => exact resolve_of_refused (Request.check_of_branchMissing unset)
  | targetsMissing set none => exact resolve_of_refused (Request.check_of_targetsMissing set none)
  | failed set some decides =>
    unfold resolve
    rw [Request.check_eq_ok_iff.mpr ⟨set, some⟩, Catalog.firstLatest_eq_iff.mpr decides]
  | nobody set some decides =>
    unfold resolve
    rw [Request.check_eq_ok_iff.mpr ⟨set, some⟩, Catalog.firstLatest_eq_iff.mpr decides]
  | unheard set some decides conveyance =>
    exact resolve_of_conveyance (Request.check_eq_ok_iff.mpr ⟨set, some⟩) decides trusts conveyance
  | answered set some decides conveyance =>
    exact resolve_of_conveyance (Request.check_eq_ok_iff.mpr ⟨set, some⟩) decides trusts conveyance

theorem decision_of_resolve (trusts : TrustsAnswers catalog request service) :
    Decision service.policy catalog request service.catalog
      (service.resolve catalog request).1 := by
  obtain ⟨outcome, decision⟩ := exists_decision service.policy catalog request service.catalog
  rw [resolve_of_decision trusts decision]
  exact decision

/-- What is kept by the search for the latest build, by a look at a build and by asking for the
checksum of a build that the catalog tells is kept by a request. -/
theorem resolve_induction (Kept : Service σ → Prop) (kept : Kept service)
    (searched : ∀ answer next, catalog.Decides request.branch request.targets service.catalog
      answer next → Kept (service.knowing next service.checksums))
    (looked : ∀ held state cache, Kept (service.knowing state cache) →
      Kept (service.knowing (catalog.byId held state).2 cache))
    (asked : ∀ state cache id manifest, Tells catalog request service.catalog id manifest →
      Kept (service.knowing state cache) →
        Kept (service.knowing state (checksum service.policy cache id manifest).2)) :
    Kept (service.resolve catalog request).2 := by
  unfold resolve
  cases request.check with
  | error fault => exact kept
  | ok accepted =>
    cases found : catalog.firstLatest request.branch request.targets service.catalog with
    | mk answer next =>
      have decides := Catalog.firstLatest_eq_iff.mp found
      -- One step for the search, one for each checksum and one for the look at the held build.
      have first := searched answer next decides
      rcases answer with failure | _ | latest
      · exact first
      · exact first
      · have second := asked _ _ _ _ (.latest decides) first
        simp only
        cases request.localBuild? with
        | none => exact second
        | some held =>
          by_cases same : held = latest.build
          · simp only [same, if_true]
            exact second
          · simp only [same, if_false]
            have third := looked held _ _ second
            cases known : catalog.byId held next with
            | mk answer last =>
              rw [known] at third
              rcases answer with failure | _ | manifest
              · exact third
              · exact third
              · have told : (catalog.byId held next).1 = .ok (some manifest) := by rw [known]
                exact asked _ _ _ _ (.held decides told) third

theorem trustsAnswers_of_unlearned
    (unlearned : service.policy.keepsChecksums = false ∨ service.checksums = .empty) :
    TrustsAnswers catalog request service := by
  have trusts (id : BuildId) (manifest : Manifest) :
      Trusts service.policy service.checksums id manifest := by
    intro keeps
    rcases unlearned with never | nothing
    · rw [never] at keeps
      cases keeps
    · rw [nothing]
      exact ChecksumCache.truthful_empty id manifest
  exact fun id manifest _ => trusts id manifest

/-- A service that has not learned anything yet decides on every catalog by the rules and by no
others. The number of changes that they speak of is that of the locations at which two manifests
differ. -/
theorem resolve_eq_iff_decision
    (unlearned : service.policy.keepsChecksums = false ∨ service.checksums = .empty) :
    (∀ outcome, (service.resolve catalog request).1 = outcome ↔
      Decision service.policy catalog request service.catalog outcome) ∧
    ∀ held latest : Manifest, held.Addressable → latest.Addressable →
      (Delta.between held.listing latest.listing).changes =
        {location | held.block? location ≠ latest.block? location}.ncard := by
  have trusts : TrustsAnswers catalog request service :=
    trustsAnswers_of_unlearned unlearned
  constructor
  · intro outcome
    constructor
    · rintro rfl
      exact decision_of_resolve trusts
    · exact resolve_of_decision trusts
  · intro held latest addressable addressable'
    have distinct := (Manifest.ascending_listing addressable').distinct
    simp only [← Manifest.block?_listing addressable, ← Manifest.block?_listing addressable']
    exact Join.length_operations held.listing distinct

end

/-- A catalog with one release: the second edition, for one target only. -/
def soleRelease : Catalog Unit where
  latest channel state :=
    (.ok (if channel.target = .windowsX64 then some ⟨⟨[2]⟩, Manifest.secondEdition⟩ else none), state)
  byId id state := (.ok (if id = ⟨[1]⟩ then some Manifest.firstEdition else none), state)

/-- Asks for the release as the holder of the first edition. -/
def upgrade : Request := ⟨⟨1⟩, [.linuxX64, .windowsX64], some ⟨[1]⟩⟩

theorem resolve_soleRelease :
    ((start .usual ()).resolve soleRelease upgrade).1 =
      .ok (⟨⟨[2]⟩, Manifest.secondEdition.checksum,
          .delta (Delta.between Manifest.firstEdition.listing Manifest.secondEdition.listing)⟩,
        .delta (Delta.between Manifest.firstEdition.listing
          Manifest.secondEdition.listing).changes) := by
  have content : Manifest.firstEdition.checksum ≠ Manifest.secondEdition.checksum := by
    decide +kernel
  have sizes : Manifest.firstEdition.maxBlockSize = Manifest.secondEdition.maxBlockSize := by
    decide +kernel
  have few : (Delta.between Manifest.firstEdition.listing Manifest.secondEdition.listing).changes ≤
      Policy.usual.maxChanges := by
    rw [Delta.changes_between]
    decide +kernel
  have first : soleRelease.latest ⟨⟨1⟩, .linuxX64⟩ () = (.ok none, ()) := rfl
  have second : soleRelease.latest ⟨⟨1⟩, .windowsX64⟩ () =
      (.ok (some ⟨⟨[2]⟩, Manifest.secondEdition⟩), ()) := rfl
  have known : (soleRelease.byId ⟨[1]⟩ ()).1 = .ok (some Manifest.firstEdition) := rfl
  have split : upgrade.targets = [.linuxX64] ++ .windowsX64 :: [] := rfl
  have found : soleRelease.Decides upgrade.branch upgrade.targets ()
      (.ok (some ⟨⟨[2]⟩, Manifest.secondEdition⟩)) () := .first split (.one first .none) second nofun
  have names : upgrade.Names ⟨[1]⟩ := ⟨rfl, by decide⟩
  have other : (⟨[1]⟩ : BuildId) ≠ ⟨[2]⟩ := by decide
  have comparison := Comparison.changes content sizes few
  have conveyance : Conveyance .usual soleRelease upgrade ⟨⟨[2]⟩, Manifest.secondEdition⟩ () _ :=
    .compared names other known comparison
  have decision := Decision.answered (by decide) (by decide) found conveyance
  exact ((resolve_eq_iff_decision (.inr rfl)).1 _).mpr decision

end Service

end BuildDelivery
