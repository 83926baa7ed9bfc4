import BuildDelivery.Proofs.Delta.Apply
import BuildDelivery.Proofs.Delta.Join

/-! The way there. Applied to the manifest that it starts from, the delta between two manifests
of one block size gives the manifest that it leads to; between manifests of different block
sizes it cannot be applied at all. -/

set_option autoImplicit false

namespace BuildDelivery

namespace Join

theorem fits_of_due? {old? new? : Option Block} {location : Location} {operation : Operation}
    (due : due? old? new? location = some operation) : Layout.Fits operation old? := by
  cases new? with
  | some block =>
    obtain ⟨rfl, rfl⟩ | ⟨old, rfl, -, rfl⟩ := change?_eq_some_iff.mp due
    · rfl
    · rfl
  | none =>
    obtain ⟨old, rfl, rfl⟩ := Option.map_eq_some_iff.mp due
    rfl

theorem block?_of_due? {old? new? : Option Block} {location : Location} {operation : Operation}
    (due : due? old? new? location = some operation) : operation.block? = new? := by
  cases new? with
  | some block =>
    obtain ⟨-, rfl⟩ | ⟨old, -, -, rfl⟩ := change?_eq_some_iff.mp due
    · rfl
    · rfl
  | none =>
    obtain ⟨old, -, rfl⟩ := Option.map_eq_some_iff.mp due
    rfl

/-- The operations between two listings leave at every location what the target has there. -/
theorem after_operations {source target : Listing} (distinct : target.Distinct)
    (location : Location) :
    Operation.after (operations silent source target).run location (source.block? location) =
      target.block? location := by
  unfold Operation.after
  cases last : Operation.lastAt? (operations silent source target).run location with
  | some operation =>
    obtain ⟨member, rfl⟩ := Operation.mem_of_lastAt? last
    exact block?_of_due? ((mem_operations_iff distinct).mp member)
  | none =>
    -- Where nothing is done, the two agree already.
    change source.block? location = target.block? location
    refine not_ne_iff.mp fun differ => ?_
    obtain ⟨operation, member, here⟩ := List.mem_map.mp ((mem_locations_iff distinct).mpr differ)
    exact Operation.lastAt?_eq_none_iff.mp last operation member here

end Join

namespace Delta

section
variable {base target : Manifest}

/-- An operation is part of the delta between two manifests exactly where it is due. -/
theorem mem_between_iff (addressable : base.Addressable) (addressable' : target.Addressable)
    {operation : Operation} :
    operation ∈ (between base.listing target.listing).operations ↔
      Join.due? (base.block? operation.location) (target.block? operation.location)
        operation.location = some operation := by
  rw [← Manifest.block?_listing addressable, ← Manifest.block?_listing addressable']
  exact Join.mem_operations_iff (Manifest.distinct_listing addressable')

/-- The delta between two manifests names the locations about which they disagree. -/
theorem mem_locations_between_iff (addressable : base.Addressable)
    (addressable' : target.Addressable) {location : Location} :
    location ∈ (between base.listing target.listing).operations.map Operation.location ↔
      base.block? location ≠ target.block? location := by
  rw [← Manifest.block?_listing addressable, ← Manifest.block?_listing addressable']
  exact Join.mem_locations_iff (Manifest.distinct_listing addressable')

theorem nodup_locations_between (base : Manifest) (addressable : target.Addressable) :
    ((between base.listing target.listing).operations.map Operation.location).Nodup :=
  Join.nodup_locations base.listing (Manifest.distinct_listing addressable)

/-- The operations between two manifests can be carried out on the first. -/
theorem run_between (base : Manifest) (addressable : target.Addressable) :
    ∃ layout, (Layout.ofListing base.listing).run (between base.listing target.listing).operations =
      .ok layout := by
  refine Layout.run_of_fits (nodup_locations_between base addressable) fun operation member => ?_
  rw [Layout.block?_ofListing]
  exact Join.fits_of_due?
    ((Join.mem_operations_iff (Manifest.distinct_listing addressable)).mp member)

theorem block?_of_run_between (addressable : base.Addressable) (addressable' : target.Addressable)
    {layout : Layout}
    (ran : (Layout.ofListing base.listing).run (between base.listing target.listing).operations =
      .ok layout) (location : Location) :
    layout.block? location = target.block? location := by
  rw [block?_of_ran addressable ran, ← Manifest.block?_listing addressable,
    ← Manifest.block?_listing addressable']
  exact Join.after_operations (Manifest.distinct_listing addressable') location

/-- All files that come up on the way are files of one of the two manifests. -/
theorem file?_of_run_between (addressable : base.Addressable) (addressable' : target.Addressable)
    {layout : Layout}
    (ran : (Layout.ofListing base.listing).run (between base.listing target.listing).operations =
      .ok layout) {path : String} (named : path ∈ layout) :
    (∃ blocks, base.file? path = some blocks) ∨ ∃ blocks, target.file? path = some blocks := by
  rcases mem_of_ran addressable ran named with before | ⟨operation, member, rfl⟩
  · exact .inl before
  · have differ := (mem_locations_between_iff addressable addressable').mp
      (List.mem_map_of_mem member)
    cases old : base.block? operation.location with
    | some block => exact .inl (Manifest.file?_of_block? old)
    | none =>
      cases new : target.block? operation.location with
      | some block => exact .inr (Manifest.file?_of_block? new)
      | none => exact absurd (old.trans new.symm) differ

/-- The layout of a valid manifest, perhaps with files that have become empty, can be rebuilt. -/
theorem placeable_of_block? (valid : target.Valid) (addressable : target.Addressable)
    {layout : Layout} (holds : ∀ location, layout.block? location = target.block? location)
    (normal : ∀ path ∈ layout, Path.IsNormal path) :
    ∀ entry ∈ layout.toList, Layout.Placeable target.maxBlockSize entry := by
  rintro ⟨path, file⟩ member
  have found := Std.ExtTreeMap.mem_toList_iff_getElem?_eq_some.mp member
  have named : path ∈ layout := Layout.mem_iff_toList.mpr ⟨file, member⟩
  have held (index : UInt32) : file[index]? = target.block? ⟨path, index⟩ := by
    rw [← holds, Layout.block?, found]
    rfl
  cases known : target.file? path with
  -- The target has no such file: all its blocks were removed on the way.
  | none =>
    obtain ⟨gapless, row⟩ := Layout.row_of_getElem? file [] (by decide) fun index => by
      rw [held, Manifest.block?, known]
      rfl
    refine ⟨gapless, ?_, path, normal path named⟩
    rw [row]
    exact ⟨by decide, fun block member => absurd member List.not_mem_nil⟩
  | some blocks =>
    have few := addressable path blocks known
    obtain ⟨gapless, row⟩ := Layout.row_of_getElem? file blocks few fun index => by
      rw [held, Manifest.block?_of_file? known]
    refine ⟨gapless, ?_, path, normal path named⟩
    rw [row]
    exact ⟨few, valid.fits path blocks known⟩

theorem apply_between_ok (valid : base.Valid) (addressable : base.Addressable)
    (valid' : target.Valid) (addressable' : target.Addressable)
    (sizes : base.maxBlockSize = target.maxBlockSize) :
    (between base.listing target.listing).apply base = .ok target := by
  obtain ⟨layout, ran⟩ := run_between base addressable'
  have holds := block?_of_run_between addressable addressable' ran
  have normal : ∀ path ∈ layout, Path.IsNormal path := by
    intro path named
    rcases file?_of_run_between addressable addressable' ran named with ⟨blocks, found⟩ | ⟨blocks, found⟩
    · exact valid.normal path blocks found
    · exact valid'.normal path blocks found
  have placeable := placeable_of_block? valid' addressable' holds normal
  have built := Layout.toManifest_eq_ok_iff.mpr ⟨valid'.blockSize, placeable, rfl⟩
  obtain ⟨⟨validResult, addressableResult⟩, size⟩ := Layout.sound_of_toManifest built
  -- All paths are in their own spelling, so none gets in the way of another.
  have apart : layout.SpellsApart := fun path named spelling spelled other =>
    absurd ((normal path named).eq spelled) other
  have same := (Layout.block?_of_toManifest_iff built).mpr apart
  have rebuilt : layout.toManifest target.maxBlockSize = .ok target := by
    rw [built]
    refine congrArg Except.ok (Manifest.eq_of_file? size fun path => ?_)
    refine Manifest.file?_eq_of_block? validResult addressableResult valid' addressable' fun index => ?_
    rw [same, holds]
  exact apply_eq_ok_iff.mpr ⟨sizes, rfl, ⟨layout, ran, rebuilt⟩, rfl⟩

/-- Nothing has to change exactly between equal manifests. -/
theorem isEmpty_between_iff (valid : base.Valid) (addressable : base.Addressable)
    (valid' : target.Valid) (addressable' : target.Addressable)
    (sizes : base.maxBlockSize = target.maxBlockSize) :
    (between base.listing target.listing).isEmpty ↔ base = target := by
  rw [isEmpty, List.isEmpty_iff]
  constructor
  · intro none
    refine Manifest.eq_of_file? sizes fun path => ?_
    refine Manifest.file?_eq_of_block? valid addressable valid' addressable' fun index => ?_
    refine not_ne_iff.mp fun differ => ?_
    have member := (mem_locations_between_iff addressable addressable').mpr differ
    rw [none] at member
    cases member
  · rintro rfl
    refine List.eq_nil_iff_forall_not_mem.mpr fun operation member => ?_
    exact (mem_locations_between_iff addressable addressable).mp (List.mem_map_of_mem member) rfl

theorem apply_of_other_size {delta : Delta} (sizes : base.maxBlockSize ≠ delta.maxBlockSize) :
    delta.apply base = .error (.delta (.blockSize delta.maxBlockSize base.maxBlockSize)) := by
  unfold apply
  rw [if_pos sizes]
  rfl

/-- The delta between two manifests turns the first into the second, file by file and without
empty files left behind, unless their block sizes differ; then it is refused. -/
theorem apply_between (checked : base.check = .ok ()) (addressable : base.Addressable)
    (checked' : target.check = .ok ()) (addressable' : target.Addressable) :
    (base.maxBlockSize = target.maxBlockSize →
      (between base.listing target.listing).apply base = .ok target) ∧
    (base.maxBlockSize ≠ target.maxBlockSize →
      (between base.listing target.listing).apply base =
        .error (.delta (.blockSize target.maxBlockSize base.maxBlockSize))) := by
  have valid := Manifest.check_eq_ok_iff.mp checked
  have valid' := Manifest.check_eq_ok_iff.mp checked'
  exact ⟨apply_between_ok valid addressable valid' addressable', fun sizes => apply_of_other_size sizes⟩

end

theorem apply_between_editions :
    (between Manifest.firstEdition.listing Manifest.secondEdition.listing).apply
      Manifest.firstEdition = .ok Manifest.secondEdition := by
  have checked : Manifest.firstEdition.check = .ok () := by decide +kernel
  have checked' : Manifest.secondEdition.check = .ok () := by decide +kernel
  have sizes : Manifest.firstEdition.maxBlockSize = Manifest.secondEdition.maxBlockSize := by
    decide +kernel
  exact (apply_between checked Manifest.addressable_firstEdition checked'
    Manifest.addressable_secondEdition).1 sizes

end Delta

end BuildDelivery
