import BuildDelivery.Proofs.Service.Sync

/-! Asking again. A client that adopts the build of a response and asks again is told that it is up
to date, as long as nobody publishes in between. The build without a name is the exception: a
request that names it counts as one that names none, so its holder gets the manifest every time. -/

set_option autoImplicit false

namespace BuildDelivery

/-- The request of a client that has adopted a build. -/
def Request.holding (request : Request) (build : BuildId) : Request :=
  { request with held? := some build }

namespace Service

variable {policy : Policy} {request : Request} {catalog : MemoryCatalog} {latest : Published}
  {state : MemoryCatalog}

theorem conveyance_of_named (named : ¬latest.build.isEmpty) :
    Conveyance policy MemoryCatalog.lookup (request.holding latest.build) latest state
      (.ok (.upToDate, .upToDate)) :=
  .same ⟨rfl, named⟩

theorem conveyance_of_unnamed (unnamed : latest.build.isEmpty) :
    Conveyance policy MemoryCatalog.lookup (request.holding latest.build) latest state
      (.ok (.manifest latest.manifest, .freshInstall)) := by
  refine .fresh fun held names => names.2 ?_
  obtain rfl : latest.build = held := Option.some.inj names.1
  exact unnamed

/-- Whatever happened before and whoever asks in between, the second answer is that the client is up
to date, with the same build and checksum. Where the build has no name it is the manifest again. -/
theorem resolve_again {events : List Event} {response : Response} {rule : Rule}
    (resolved : ((run policy events).resolve MemoryCatalog.lookup request).1 =
      .ok (response, rule))
    (others : List Request) :
    (¬response.build.isEmpty →
      ((run policy (events ++ (request :: others).map .asked)).resolve MemoryCatalog.lookup
        (request.holding response.build)).1 =
          .ok (⟨response.build, response.checksum, .upToDate⟩, .upToDate)) ∧
    (response.build.isEmpty →
      ∃ manifest, (run policy events).catalog.build? response.build = some manifest ∧
        manifest.checksum = response.checksum ∧
        ((run policy (events ++ (request :: others).map .asked)).resolve
          MemoryCatalog.lookup (request.holding response.build)).1 =
            .ok (⟨response.build, response.checksum, .manifest manifest⟩, .freshInstall)) := by
  cases resolve_run_iff.mp resolved with
  | @answered latest next payload rule set some decides conveyance =>
    obtain rfl := MemoryCatalog.state_of_decides decides
    have bound := bound_of_tells (.latest decides)
    -- The same targets are tried on the same catalog, so the same build is found.
    have again {payload : Payload} {rule : Rule}
        (conveyance : Conveyance policy MemoryCatalog.lookup (request.holding latest.build) latest
          (run policy events).catalog (.ok (payload, rule))) :
        ((run policy (events ++ (request :: others).map .asked)).resolve
          MemoryCatalog.lookup (request.holding latest.build)).1 =
            .ok (⟨latest.build, latest.manifest.checksum, payload⟩, rule) := by
      rw [resolve_run_iff, catalog_run_asked]
      exact .answered set some decides conveyance
    constructor
    · intro named
      exact again (conveyance_of_named named)
    · intro unnamed
      exact ⟨latest.manifest, bound, rfl, again (conveyance_of_unnamed unnamed)⟩

def freshRequest : Request := ⟨⟨1⟩, [.windowsX64], none⟩

theorem resolve_again_revision :
    ((run .usual (revision ++ [upgrade, freshRequest].map .asked)).resolve
      MemoryCatalog.lookup (upgrade.holding ⟨[2]⟩)).1 =
        .ok (⟨⟨[2]⟩, revisedEdition.checksum, .upToDate⟩, .upToDate) :=
  (resolve_again resolve_revision [freshRequest]).1 (by decide)

/-- The first edition is released without a name. -/
def unnamedRelease : List Event :=
  [.published (.publish ⟨⟨1⟩, .windowsX64⟩ ⟨[]⟩ Manifest.firstEdition)]

def unnamedResponse : Response :=
  ⟨⟨[]⟩, Manifest.firstEdition.checksum, .manifest Manifest.firstEdition⟩

theorem resolve_unnamed (asked : List Request) {held? : Option BuildId}
    (fresh : ∀ held, ¬(Request.mk ⟨1⟩ [.windowsX64] held?).Names held) :
    ((run .usual (unnamedRelease ++ asked.map .asked)).resolve MemoryCatalog.lookup
      ⟨⟨1⟩, [.windowsX64], held?⟩).1 = .ok (unnamedResponse, .freshInstall) := by
  have release : (run .usual unnamedRelease).catalog.latest? ⟨⟨1⟩, .windowsX64⟩ =
      some ⟨⟨[]⟩, Manifest.firstEdition⟩ := by decide +kernel
  have first : [Target.windowsX64] = [] ++ .windowsX64 :: [] := rfl
  have decides : MemoryCatalog.lookup.Decides ⟨1⟩ [.windowsX64] (run .usual unnamedRelease).catalog
      (.ok (some ⟨⟨[]⟩, Manifest.firstEdition⟩)) (run .usual unnamedRelease).catalog :=
    .first first .none (Prod.ext (congrArg Except.ok release) rfl) nofun
  rw [resolve_run_iff, catalog_run_asked]
  have branch : (⟨1⟩ : BranchId).value ≠ 0 := by decide
  exact .answered branch (List.cons_ne_nil _ _) decides (.fresh fresh)

/-- A client that has adopted the build without a name is sent its manifest again. -/
theorem unnamed_never_upToDate :
    ((run .usual unnamedRelease).resolve MemoryCatalog.lookup freshRequest).1 =
        .ok (unnamedResponse, .freshInstall) ∧
      ((run .usual (unnamedRelease ++ [.asked freshRequest])).resolve MemoryCatalog.lookup
        (freshRequest.holding unnamedResponse.build)).1 = .ok (unnamedResponse, .freshInstall) ∧
      unnamedResponse.payload ≠ .upToDate := by
  refine ⟨resolve_unnamed [] nofun, resolve_unnamed [freshRequest] ?_, nofun⟩
  rintro held ⟨⟨⟩, named⟩
  exact named rfl

end Service

end BuildDelivery
