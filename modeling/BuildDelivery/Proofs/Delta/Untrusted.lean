import BuildDelivery.Proofs.Delta.Apply

/-! Deltas from elsewhere. Whatever operations a delta has, a manifest that comes out keeps the
rules, and a file that no operation names in any spelling stays as it is. Locations are told
apart by their texts while operations are carried out and by their meanings afterwards, so the
operations are heard to the letter only if no spelling is in the way of another. -/

set_option autoImplicit false

namespace BuildDelivery

namespace Layout

/-- A file with one spelling in a layout is held as the layout has it. -/
theorem block?_of_only_spelling {layout : Layout} {max : UInt32} {result : Manifest}
    (built : layout.toManifest max = .ok result) {path : String} (normal : Path.IsNormal path)
    (only : ∀ other ∈ layout, Path.normalize other = .ok path → other = path) (index : UInt32) :
    result.block? ⟨path, index⟩ = layout.block? ⟨path, index⟩ := by
  rw [block?_of_toManifest built]
  change (lastSpelling? layout.toList path).bind _ = _
  cases last : lastSpelling? layout.toList path with
  | none =>
    symm
    apply Option.eq_none_iff_forall_ne_some.mpr
    intro block held
    obtain ⟨file, listed⟩ := mem_iff_toList.mp (mem_of_block? held)
    exact lastSpelling?_eq_none_iff.mp last _ listed normal
  | some entry =>
    obtain ⟨member, spelled⟩ := mem_of_lastSpelling? last
    have own := only entry.1 (mem_iff_toList.mpr ⟨entry.2, member⟩) spelled
    rw [Option.bind_some, own]

end Layout

namespace Delta

/-- Where an operation names a file in another spelling than its own, no block is left under
either of the two. -/
def SpellsApart (delta : Delta) (base : Manifest) : Prop :=
  ∀ operation ∈ delta.operations, ∀ spelling,
    Path.normalize operation.location.path = .ok spelling → spelling ≠ operation.location.path →
      ∀ index : UInt32, delta.blockAfter base ⟨operation.location.path, index⟩ = none ∧
        delta.blockAfter base ⟨spelling, index⟩ = none

section
variable {delta : Delta} {base result : Manifest} {layout : Layout}

theorem blockAfter_of_unnamed {location : Location}
    (unnamed : ∀ operation ∈ delta.operations, operation.location ≠ location) :
    delta.blockAfter base location = base.block? location :=
  Operation.after_of_unnamed unnamed _

theorem spellsApart_of_ran (valid : base.Valid) (addressable : base.Addressable)
    (ran : (Layout.ofListing base.listing).run delta.operations = .ok layout) :
    layout.SpellsApart ↔ delta.SpellsApart base := by
  constructor
  · intro apart operation member spelling spelled other index
    have named := (Layout.mem_of_run ran _).mpr (.inr ⟨operation, member, rfl⟩)
    unfold blockAfter
    rw [← block?_of_ran addressable ran, ← block?_of_ran addressable ran]
    exact apart _ named spelling spelled other index
  · intro apart path named spelling spelled other index
    rw [block?_of_ran addressable ran, block?_of_ran addressable ran]
    rcases mem_of_ran addressable ran named with ⟨blocks, found⟩ | ⟨operation, member, rfl⟩
    -- A path of the base is in its own spelling.
    · exact absurd ((valid.normal path blocks found).eq spelled) other
    · exact apart operation member spelling spelled other index

/-- A file that no operation names in any spelling stays as it is. -/
theorem file?_of_unnamed (valid : base.Valid) (addressable : base.Addressable)
    (ran : (Layout.ofListing base.listing).run delta.operations = .ok layout)
    (built : layout.toManifest delta.maxBlockSize = .ok result) {path : String}
    (unnamed : ∀ operation ∈ delta.operations,
      Path.normalize operation.location.path ≠ .ok path) :
    result.file? path = base.file? path := by
  obtain ⟨⟨validResult, addressableResult⟩, -⟩ := Layout.sound_of_toManifest built
  by_cases normal : Path.IsNormal path
  · apply Manifest.file?_eq_of_block? validResult addressableResult valid addressable
    intro index
    have only : ∀ other ∈ layout, Path.normalize other = .ok path → other = path := by
      intro other named spelled
      rcases mem_of_ran addressable ran named with ⟨blocks, found⟩ | ⟨operation, member, rfl⟩
      · exact ((valid.normal other blocks found).eq spelled).symm
      · exact absurd spelled (unnamed operation member)
    rw [Layout.block?_of_only_spelling built normal only, block?_of_ran addressable ran]
    apply blockAfter_of_unnamed
    intro operation member here
    exact unnamed operation member (by rw [here]; exact normal)
  · have absent {manifest : Manifest} (valid : manifest.Valid) : manifest.file? path = none := by
      apply Option.eq_none_iff_forall_ne_some.mpr
      intro blocks found
      exact normal (valid.normal path blocks found)
    rw [absent validResult, absent valid]

/-- What a successful application means: the result keeps the rules and has the promised
checksum, it is what the last operations say exactly if they spell apart, and files that are
named in no spelling are untouched in any case. -/
theorem meaning_of_apply (checked : base.check = .ok ()) (addressable : base.Addressable)
    (applied : delta.apply base = .ok result) :
    result.check = .ok () ∧ result.maxBlockSize = base.maxBlockSize ∧
      result.checksum = delta.targetChecksum ∧
      ((∀ location, result.block? location = delta.blockAfter base location) ↔
        delta.SpellsApart base) ∧
      (delta.SpellsApart base → ∀ path,
        (∀ operation ∈ delta.operations, operation.location.path ≠ path) →
          result.file? path = base.file? path) ∧
      ∀ path, (∀ operation ∈ delta.operations,
        Path.normalize operation.location.path ≠ .ok path) →
          result.file? path = base.file? path := by
  have valid := Manifest.check_eq_ok_iff.mp checked
  obtain ⟨sizes, -, ⟨layout, ran, built⟩, promised⟩ := apply_eq_ok_iff.mp applied
  obtain ⟨⟨validResult, addressableResult⟩, size⟩ := Layout.sound_of_toManifest built
  have exactly : (∀ location, result.block? location = delta.blockAfter base location) ↔
      delta.SpellsApart base := by
    rw [← spellsApart_of_ran valid addressable ran, ← Layout.block?_of_toManifest_iff built]
    apply forall_congr'
    intro location
    rw [block?_of_ran addressable ran, blockAfter]
  refine ⟨Manifest.check_eq_ok_iff.mpr validResult, size.trans sizes.symm, promised, exactly, ?_, ?_⟩
  · intro apart path unnamed
    apply Manifest.file?_eq_of_block? validResult addressableResult valid addressable
    intro index
    rw [exactly.mpr apart]
    apply blockAfter_of_unnamed
    intro operation member here
    exact unnamed operation member (congrArg Location.path here)
  · intro path unnamed
    exact file?_of_unnamed valid addressable ran built unnamed

end

/-- A build of one file. -/
def oneFile : Manifest :=
  (Manifest.empty smallestBlockSize).setFile "a/b" [Block.ofData [120]]

theorem addressable_oneFile : oneFile.Addressable :=
  (Manifest.addressable_empty smallestBlockSize).setFile ⟨by decide, by decide⟩

/-- Adds a second file. -/
def addition : Delta where
  maxBlockSize := smallestBlockSize
  baseChecksum := oneFile.checksum
  targetChecksum := (oneFile.setFile "c" [Block.ofData [121]]).checksum
  operations := [.add ⟨"c", 0⟩ (Block.ofData [121])]

theorem meaning_of_addition :
    (oneFile.setFile "c" [Block.ofData [121]]).check = .ok () ∧
      (oneFile.setFile "c" [Block.ofData [121]]).file? "a/b" = oneFile.file? "a/b" := by
  have checked : oneFile.check = .ok () := by decide +kernel
  have applied : addition.apply oneFile = .ok (oneFile.setFile "c" [Block.ofData [121]]) := by
    decide +kernel
  have elsewhere : ∀ operation ∈ addition.operations,
      Path.normalize operation.location.path ≠ .ok "a/b" := by decide +kernel
  have meaning := meaning_of_apply checked addressable_oneFile applied
  exact ⟨meaning.1, meaning.2.2.2.2.2 "a/b" elsewhere⟩

/-- Adds a block under another spelling of the file and removes it again. -/
def respelling : Delta where
  maxBlockSize := smallestBlockSize
  baseChecksum := oneFile.checksum
  targetChecksum := (Manifest.empty smallestBlockSize).checksum
  operations := [.add ⟨"a\\b", 0⟩ (Block.ofData [121]), .remove ⟨"a\\b", 0⟩]

/-- The file of the base is lost although no operation names any of its locations. -/
theorem respelling_loses_file :
    (oneFile.check = .ok () ∧ oneFile.Addressable) ∧
      respelling.apply oneFile = .ok (Manifest.empty smallestBlockSize) ∧
      (∀ operation ∈ respelling.operations, operation.location ≠ ⟨"a/b", 0⟩) ∧
      oneFile.block? ⟨"a/b", 0⟩ = some (Block.ofData [120]) ∧
      (Manifest.empty smallestBlockSize).block? ⟨"a/b", 0⟩ = none := by
  refine ⟨⟨by decide +kernel, addressable_oneFile⟩, ?_, ?_, ?_, ?_⟩
  · decide +kernel
  · decide +kernel
  · decide +kernel
  · decide +kernel

end Delta

end BuildDelivery
