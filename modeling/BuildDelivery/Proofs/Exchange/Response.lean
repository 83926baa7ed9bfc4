import BuildDelivery.Proofs.Delta.Apply
import BuildDelivery.Wire.Frame

/-! What a client can rely on when it makes a manifest of a response. Every manifest has the
checksum that the response promises. One that the client held keeps the rules because it did so
before, and one that a delta made keeps them because it is built anew; but a manifest that was
sent as a whole is taken as it is. -/

set_option autoImplicit false

namespace BuildDelivery

namespace Response

variable {response : Response} {held? : Option Manifest} {result : Manifest}

theorem reconstruct_eq_ok_iff :
    response.reconstruct held? = .ok result ↔
      response.conveyed held? = .ok result ∧ result.checksum = response.checksum := by
  unfold reconstruct
  simp only [bind_eq_ok_iff]
  constructor
  · rintro ⟨manifest, conveyed, _, verified, same⟩
    obtain rfl := Except.ok.inj same
    exact ⟨conveyed, Checksum.verify_eq_ok_iff.mp verified⟩
  · rintro ⟨conveyed, checksum⟩
    exact ⟨result, conveyed, (), Checksum.verify_eq_ok_iff.mpr checksum, rfl⟩

theorem reconstruct_of_conveyed (conveyed : response.conveyed held? = .ok result)
    (checksum : result.checksum = response.checksum) : response.reconstruct held? = .ok result :=
  reconstruct_eq_ok_iff.mpr ⟨conveyed, checksum⟩

/-- The ways to a manifest: it was sent, it was held, or a delta made it of the one that was held. -/
theorem conveyed_eq_ok_iff :
    response.conveyed held? = .ok result ↔
      response.payload = .manifest result ∨
      (response.payload = .upToDate ∧ held? = some result) ∨
      ∃ delta held, response.payload = .delta delta ∧ held? = some held ∧
        delta.targetChecksum = response.checksum ∧ delta.apply held = .ok result := by
  unfold conveyed
  cases response.payload with
  | manifest sent => simp
  | upToDate =>
    cases held? with
    | none => simp
    | some held => simp
  | delta delta =>
    simp only [bind_eq_ok_iff]
    cases held? with
    | none => simp [throw, throwThe, MonadExceptOf.throw]
    | some held =>
      constructor
      · rintro ⟨_, verified, applied⟩
        exact .inr (.inr ⟨delta, held, rfl, rfl, Checksum.verify_eq_ok_iff.mp verified, applied⟩)
      · rintro (⟨⟨⟩⟩ | ⟨⟨⟩, -⟩ | ⟨_, _, ⟨⟩, ⟨⟩, promised, applied⟩)
        exact ⟨(), Checksum.verify_eq_ok_iff.mpr promised, applied⟩

/-- Whatever was received, the result has the promised checksum. It keeps the rules of manifests
exactly if a manifest that was sent as a whole keeps them, in which case it is the result. -/
theorem reconstruct_sound (trusted : ∀ held, held? = some held → held.check = .ok ())
    (rebuilt : response.reconstruct held? = .ok result) :
    result.checksum = response.checksum ∧
      (∀ sent, response.payload = .manifest sent → result = sent) ∧
      (result.check = .ok () ↔
        ∀ sent, response.payload = .manifest sent → sent.check = .ok ()) := by
  obtain ⟨conveyed, checksum⟩ := reconstruct_eq_ok_iff.mp rebuilt
  refine ⟨checksum, ?_⟩
  rcases conveyed_eq_ok_iff.mp conveyed with sent | ⟨held, rfl⟩ | ⟨delta, held, made, rfl, -, applied⟩
  · have only : ∀ other, response.payload = .manifest other → result = other := fun other same =>
      Payload.manifest.inj (sent.symm.trans same)
    refine ⟨only, fun checked other same => ?_, fun all => all result sent⟩
    rw [← only other same]
    exact checked
  · have none : ∀ sent, response.payload ≠ .manifest sent := by simp [held]
    exact ⟨fun sent same => absurd same (none sent),
      fun _ sent same => absurd same (none sent), fun _ => trusted result rfl⟩
  · have none : ∀ sent, response.payload ≠ .manifest sent := by simp [made]
    exact ⟨fun sent same => absurd same (none sent),
      fun _ sent same => absurd same (none sent),
      fun _ => Manifest.check_eq_ok_iff.mpr (Delta.valid_of_apply applied)⟩

/-- The first edition of a build with another readme. -/
def corrected : Manifest := Manifest.firstEdition.setFile "readme" [.uniform 7]

def correction : Delta where
  maxBlockSize := smallestBlockSize
  baseChecksum := Manifest.firstEdition.checksum
  targetChecksum := corrected.checksum
  operations := [.modify ⟨"readme", 0⟩ (.uniform 7)]

/-- The blocks of the corrected edition, before they are a manifest again. -/
def correctedLayout : Layout :=
  (Layout.ofListing Manifest.firstEdition.listing).put ⟨"readme", 0⟩ (.uniform 7)

theorem reconstruct_correction :
    (Response.mk ⟨[2]⟩ corrected.checksum (.delta correction)).reconstruct
        (some Manifest.firstEdition) = .ok corrected ∧
      corrected.check = .ok () := by
  have ran : (Layout.ofListing Manifest.firstEdition.listing).run correction.operations =
      .ok correctedLayout := by
    decide +kernel
  have built : correctedLayout.toManifest smallestBlockSize = .ok corrected := by decide +kernel
  have applied : correction.apply Manifest.firstEdition = .ok corrected :=
    Delta.apply_eq_ok_iff.mpr ⟨rfl, rfl, ⟨correctedLayout, ran, built⟩, rfl⟩
  have rebuilt : (Response.mk ⟨[2]⟩ corrected.checksum (.delta correction)).reconstruct
      (some Manifest.firstEdition) = .ok corrected :=
    reconstruct_of_conveyed
      (conveyed_eq_ok_iff.mpr (.inr (.inr ⟨correction, _, rfl, rfl, rfl, applied⟩))) rfl
  have trusted : ∀ held, some Manifest.firstEdition = some held → held.check = .ok () := by
    rintro held ⟨⟩
    decide +kernel
  obtain ⟨-, -, checked⟩ := reconstruct_sound trusted rebuilt
  exact ⟨rebuilt, checked.mpr nofun⟩

/-- A file above the directory that the build is installed in. -/
def escaping : Manifest :=
  (Manifest.empty smallestBlockSize).setFile "../escape" [.uniform 1]

def escapingResponse : Response := ⟨⟨[1]⟩, escaping.checksum, .manifest escaping⟩

/-- A response that arrives whole leads to a manifest that the check refuses. -/
theorem reconstruct_escaping :
    Response.ofBytes escapingResponse.toBytes = .ok escapingResponse ∧
      escapingResponse.reconstruct none = .ok escaping ∧
      escaping.check = .error (.path (.malformed "../escape")) := by
  refine ⟨?_, ?_, ?_⟩
  · decide +kernel
  · decide +kernel
  · decide +kernel

end Response

end BuildDelivery
