import BuildDelivery.Proofs.Delta.Bounded
import BuildDelivery.Proofs.Delta.RoundTrip
import BuildDelivery.Proofs.Delta.Untrusted

/-! No way is shorter. Whatever operations lead from one manifest to another, they name every
location about which the two disagree, since a location that none of them names keeps its block.
The delta between the manifests names these locations and no others, each of them once. Operations
that are as few have to do the same there, each being the only one at its location. -/

set_option autoImplicit false

namespace BuildDelivery

theorem Join.due?_of_fits {operation : Operation} {old? : Option Block}
    (fits : Layout.Fits operation old?) (changes : old? ≠ operation.block?) :
    due? old? operation.block? operation.location = some operation := by
  cases operation with
  | add location block =>
    obtain rfl := Option.isNone_iff_eq_none.mp fits.symm
    rfl
  | remove location =>
    obtain ⟨old, rfl⟩ := Option.ne_none_iff_exists'.mp changes
    rfl
  | modify location block =>
    cases old? with
    | none => cases fits
    | some old => exact if_neg fun same => changes (congrArg some same)

namespace Delta

variable {base target : Manifest} {delta : Delta}

/-- Where all operations name files in their own spelling, the result holds what they leave. -/
theorem block?_of_apply (checked : base.check = .ok ()) (addressable : base.Addressable)
    (normal : ∀ operation ∈ delta.operations, Path.IsNormal operation.location.path)
    (applied : delta.apply base = .ok target) (location : Location) :
    target.block? location = delta.blockAfter base location := by
  obtain ⟨-, -, ⟨layout, ran, built⟩, -⟩ := apply_eq_ok_iff.mp applied
  have apart : delta.SpellsApart base := fun operation member spelling spelled other =>
    absurd ((normal operation member).eq spelled) other
  have valid := Manifest.check_eq_ok_iff.mp checked
  have kept := (spellsApart_of_ran valid addressable ran).mpr apart
  rw [(Layout.block?_of_toManifest_iff built).mpr kept, block?_of_ran addressable ran, blockAfter]

/-- Every location about which the two disagree is named on any way from one to the other. -/
theorem locations_between_subset (checked : base.check = .ok ()) (addressable : base.Addressable)
    (normal : ∀ operation ∈ delta.operations, Path.IsNormal operation.location.path)
    (applied : delta.apply base = .ok target) :
    (between base.listing target.listing).operations.map Operation.location ⊆
      delta.operations.map Operation.location := by
  intro location member
  have differ := (mem_locations_between_iff addressable (addressable_of_apply applied)).mp member
  rw [block?_of_apply checked addressable normal applied] at differ
  refine not_not.mp fun unnamed => differ ?_
  exact (blockAfter_of_unnamed fun operation among here =>
    unnamed (List.mem_map.mpr ⟨operation, among, here⟩)).symm

/-- The only operation at a location about which the two disagree is the one of the delta between
them. -/
theorem mem_between_of_apply (checked : base.check = .ok ()) (addressable : base.Addressable)
    (normal : ∀ operation ∈ delta.operations, Path.IsNormal operation.location.path)
    (applied : delta.apply base = .ok target)
    (distinct : (delta.operations.map Operation.location).Nodup) {operation : Operation}
    (member : operation ∈ delta.operations)
    (differ : base.block? operation.location ≠ target.block? operation.location) :
    operation ∈ (between base.listing target.listing).operations := by
  obtain ⟨-, -, ⟨layout, ran, -⟩, -⟩ := apply_eq_ok_iff.mp applied
  have fits := Layout.fits_of_run distinct ran operation member
  have result := block?_of_apply checked addressable normal applied operation.location
  rw [Layout.block?_ofListing, Manifest.block?_listing addressable] at fits
  rw [blockAfter, Operation.after_of_distinct distinct member] at result
  rw [mem_between_iff addressable (addressable_of_apply applied), result]
  exact Join.due?_of_fits fits (result ▸ differ)

/-- Any operations that lead from one manifest to another and name files in their own spelling are
at least as many as those of the delta between the two; if they are as many, they are the same up
to their order. -/
theorem minimal_of_apply (checked : base.check = .ok ()) (addressable : base.Addressable)
    (normal : ∀ operation ∈ delta.operations, Path.IsNormal operation.location.path)
    (applied : delta.apply base = .ok target) :
    (between base.listing target.listing).changes ≤ delta.changes ∧
      (delta.changes = (between base.listing target.listing).changes →
        delta.operations.Perm (between base.listing target.listing).operations) := by
  have addressable' := addressable_of_apply applied
  have once := nodup_locations_between base addressable'
  have needed := once.subperm (locations_between_subset checked addressable normal applied)
  constructor
  · have lengths := needed.length_le
    rwa [List.length_map, List.length_map] at lengths
  intro few
  -- As few operations name the needed locations only, and each of them once.
  have places := needed.perm_of_length_le (by rw [List.length_map, List.length_map]; exact few.le)
  have distinct := places.nodup_iff.mp once
  have due : delta.operations ⊆ (between base.listing target.listing).operations := by
    intro operation member
    apply mem_between_of_apply checked addressable normal applied distinct member
    exact (mem_locations_between_iff addressable addressable').mp
      (places.mem_iff.mpr (List.mem_map_of_mem member))
  exact (distinct.of_map.subperm due).perm_of_length_le few.ge

/-- Another way from the first edition to the second: the files from behind, and each of them from
behind. -/
def backwards : Delta :=
  ofOperations Manifest.firstEdition.listing Manifest.secondEdition.listing
    [.remove ⟨"readme", 0⟩, .add ⟨"data/map", 0⟩ (.uniform 5), .remove ⟨"bin/tool", 1⟩,
      .modify ⟨"bin/tool", 0⟩ (.uniform 4)]

theorem perm_backwards :
    backwards.apply Manifest.firstEdition = .ok Manifest.secondEdition ∧
      backwards.operations.Perm
        (between Manifest.firstEdition.listing Manifest.secondEdition.listing).operations := by
  have checked : Manifest.firstEdition.check = .ok () := by decide +kernel
  have normal : ∀ operation ∈ backwards.operations,
      Path.normalize operation.location.path = .ok operation.location.path := by decide +kernel
  have applied : backwards.apply Manifest.firstEdition = .ok Manifest.secondEdition := by
    decide +kernel
  have few : backwards.changes =
      (between Manifest.firstEdition.listing Manifest.secondEdition.listing).changes := by
    rw [changes_between]
    decide +kernel
  exact ⟨applied, (minimal_of_apply checked Manifest.addressable_firstEdition normal applied).2 few⟩

end Delta

end BuildDelivery
