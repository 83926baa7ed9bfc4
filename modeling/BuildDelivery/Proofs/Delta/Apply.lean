import BuildDelivery.Proofs.Delta.Rebuild
import BuildDelivery.Proofs.Outcome

/-! What applying a delta means. The stages of an application are told apart once; everything
that an application keeps follows from them. -/

set_option autoImplicit false

namespace BuildDelivery

theorem Checksum.verify_eq_ok_iff {actual expected : Checksum} :
    actual.verify expected = .ok () ↔ actual = expected := by
  unfold verify
  split
  · next same => exact iff_of_true rfl same
  · next different => exact iff_of_false nofun different

namespace Delta

theorem apply_eq_ok_iff {delta : Delta} {base result : Manifest} :
    delta.apply base = .ok result ↔
      base.maxBlockSize = delta.maxBlockSize ∧ base.checksum = delta.baseChecksum ∧
        (∃ layout, (Layout.ofListing base.listing).run delta.operations = .ok layout ∧
          layout.toManifest delta.maxBlockSize = .ok result) ∧
        result.checksum = delta.targetChecksum := by
  unfold apply
  by_cases sizes : base.maxBlockSize = delta.maxBlockSize
  · rw [if_neg (not_not_intro sizes)]
    simp only [bind_eq_ok_iff, mapError_eq_ok_iff]
    constructor
    · rintro ⟨_, start, layout, ran, _, built, _, finish, same⟩
      obtain rfl := Except.ok.inj same
      exact ⟨sizes, Checksum.verify_eq_ok_iff.mp start, ⟨layout, ran, built⟩,
        Checksum.verify_eq_ok_iff.mp finish⟩
    · rintro ⟨-, start, ⟨layout, ran, built⟩, finish⟩
      exact ⟨(), Checksum.verify_eq_ok_iff.mpr start, layout, ran, result, built, (),
        Checksum.verify_eq_ok_iff.mpr finish, rfl⟩
  · rw [if_pos sizes]
    exact iff_of_false nofun fun stages => sizes stages.1

/-- Whatever a delta is applied to, a manifest that comes out keeps the rules. -/
theorem valid_of_apply {delta : Delta} {base result : Manifest}
    (applied : delta.apply base = .ok result) : result.Valid := by
  obtain ⟨-, -, ⟨layout, -, built⟩, -⟩ := apply_eq_ok_iff.mp applied
  exact (Layout.sound_of_toManifest built).1.1

theorem addressable_of_apply {delta : Delta} {base result : Manifest}
    (applied : delta.apply base = .ok result) : result.Addressable := by
  obtain ⟨-, -, ⟨layout, -, built⟩, -⟩ := apply_eq_ok_iff.mp applied
  exact (Layout.sound_of_toManifest built).1.2

/-- The block that a base is to have at a location: what the last operation there leaves, and
what the base has where there is none. -/
def blockAfter (delta : Delta) (base : Manifest) (location : Location) : Option Block :=
  Operation.after delta.operations location (base.block? location)

section
variable {base : Manifest} {operations : List Operation} {layout : Layout}

theorem block?_of_ran (addressable : base.Addressable)
    (ran : (Layout.ofListing base.listing).run operations = .ok layout) (location : Location) :
    layout.block? location = Operation.after operations location (base.block? location) := by
  rw [Layout.block?_of_run ran, Layout.block?_ofListing, Manifest.block?_listing addressable]

theorem mem_of_ran (addressable : base.Addressable)
    (ran : (Layout.ofListing base.listing).run operations = .ok layout) {path : String}
    (named : path ∈ layout) :
    (∃ blocks, base.file? path = some blocks) ∨
      ∃ operation ∈ operations, operation.location.path = path := by
  rcases (Layout.mem_of_run ran path).mp named with before | during
  · exact .inl (Layout.file?_of_mem_ofListing addressable before)
  · exact .inr during

end

end Delta

end BuildDelivery
