import BuildDelivery.Catalog.Lookup
import BuildDelivery.Delta.Join
import BuildDelivery.Exchange.Response
import BuildDelivery.Exchange.Request
import BuildDelivery.Settings

/-! Answering a client with the latest build in the cheapest way that leads there. A client that
holds the build, or another of the same content, is told so; one that holds a build of the same
block size gets the changes unless there are too many; every other client gets the manifest. -/

set_option autoImplicit false

namespace BuildDelivery

/-- Why a client got what it got. -/
inductive Rule where
  | freshInstall
  | unknownLocalBuild
  | upToDate
  | delta (changes : Nat)
  | deltaTooLarge (limit : Nat)
  | blockSizeChanged (held latest : UInt32)
  deriving DecidableEq, Repr

def Rule.label : Rule → String
  | freshInstall => "fresh-install"
  | unknownLocalBuild => "unknown-local-build"
  | upToDate => "up-to-date"
  | delta changes => s!"diff({changes})"
  | deltaTooLarge limit => s!"diff-too-large(>{limit})"
  | blockSizeChanged held latest => s!"block-size-changed({held.toNat}->{latest.toNat})"

/-- What a service works by, and what it remembers: the state of its catalog, and checksums if its
policy keeps them. -/
structure Service (σ : Type) where
  policy : Policy
  /-- The pace of its joins. -/
  pace : Pace
  catalog : σ
  checksums : ChecksumCache

namespace Service

variable {σ : Type}

/-- A new service for a policy. The usual interval stands for one of zero, which no join can have. -/
def start (policy : Policy) (catalog : σ) : Service σ where
  policy := policy.repaired
  pace := ⟨policy.repaired.interval, policy.interval_repaired_pos⟩
  catalog := catalog
  checksums := .empty

/-- The same service with other things in its memory. -/
def knowing (service : Service σ) (state : σ) (checksums : ChecksumCache) : Service σ :=
  { service with catalog := state, checksums := checksums }

/-- The checksum of a build, from memory where the policy keeps checksums. -/
def checksum (policy : Policy) (checksums : ChecksumCache) (id : BuildId) (manifest : Manifest) :
    Checksum × ChecksumCache :=
  if policy.keepsChecksums then checksums.ask id manifest else (manifest.checksum, checksums)

/-- What a client gets that holds a known build other than the latest. The join is given no flag, so
that only the limit ends it early. -/
def compare (policy : Policy) (pace : Pace) (held latest : Manifest)
    (heldChecksum latestChecksum : Checksum) : Payload × Rule :=
  if heldChecksum = latestChecksum then (.upToDate, .upToDate)
  else if held.maxBlockSize ≠ latest.maxBlockSize then
    (.manifest latest, .blockSizeChanged held.maxBlockSize latest.maxBlockSize)
  else
    match Join.operations (pace.watch none policy.maxChanges) held.listing latest.listing with
    | some operations =>
      (.delta ⟨latest.maxBlockSize, heldChecksum, latestChecksum, operations⟩,
        .delta operations.length)
    | none => (.manifest latest, .deltaTooLarge policy.maxChanges)

/-- The response to a request, and the rule behind it. -/
def resolve (catalog : Catalog σ) (request : Request) (service : Service σ) :
    Except Failure (Response × Rule) × Service σ :=
  match request.check with
  | .error fault => (.error (.request fault), service)
  | .ok () =>
    match catalog.firstLatest request.branch request.targets service.catalog with
    | (.error failure, state) => (.error failure, service.knowing state service.checksums)
    | (.ok none, state) =>
      (.error (.buildNotFound request.branch request.targets),
        service.knowing state service.checksums)
    | (.ok (some latest), state) =>
      let (checksum, checksums) :=
        Service.checksum service.policy service.checksums latest.build latest.manifest
      let respond (payload : Payload) (rule : Rule) : Except Failure (Response × Rule) :=
        .ok (⟨latest.build, checksum, payload⟩, rule)
      match request.localBuild? with
      | none => (respond (.manifest latest.manifest) .freshInstall, service.knowing state checksums)
      | some held =>
        if held = latest.build then (respond .upToDate .upToDate, service.knowing state checksums)
        else
          match catalog.byId held state with
          | (.error failure, state) => (.error failure, service.knowing state checksums)
          | (.ok none, state) =>
            (respond (.manifest latest.manifest) .unknownLocalBuild,
              service.knowing state checksums)
          | (.ok (some manifest), state) =>
            let (heldChecksum, checksums) := Service.checksum service.policy checksums held manifest
            let (payload, rule) :=
              compare service.policy service.pace manifest latest.manifest heldChecksum checksum
            (respond payload rule, service.knowing state checksums)

def answer (catalog : Catalog σ) (request : Request) :
    StateM (Service σ) (Except Failure Response) := fun service =>
  let (result, service) := service.resolve catalog request
  (result.map Prod.fst, service)

end Service

end BuildDelivery
