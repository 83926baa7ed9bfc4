import BuildDelivery.Proofs.Delta.RoundTrip
import BuildDelivery.Proofs.Manifest.Distinct
import BuildDelivery.Proofs.Manifest.Editing
import Mathlib.Algebra.Group.Action.Defs
import Mathlib.Algebra.Order.BigOperators.Group.List
import Mathlib.Data.Finset.Card

/-! What a delta makes a client fetch. The new blocks of a delta are those of the target at the
locations that change; of several blocks with one hash the first is fetched. Additions and removals
are counted by the locations that only one of the two listings has, so the counts of a delta agree
with those of its two ends. -/

set_option autoImplicit false

namespace BuildDelivery

namespace Operation

/-- The block that an operation leaves, under its location. -/
def placed? (operation : Operation) : Option (Location × Block) :=
  operation.block?.map fun block => (operation.location, block)

theorem placed?_eq_some_iff {operation : Operation} {location : Location} {block : Block} :
    operation.placed? = some (location, block) ↔
      operation.location = location ∧ operation.block? = some block := by
  cases operation <;> simp [placed?, block?, Operation.location]

theorem map_snd_placed (operations : List Operation) :
    (operations.filterMap placed?).map Prod.snd = operations.filterMap block? := by
  rw [List.map_filterMap]
  refine List.filterMap_congr fun operation _ => ?_
  cases operation <;> rfl

theorem isRemove_iff {operation : Operation} : operation.isRemove ↔ operation.block? = none := by
  cases operation <;> simp [isRemove, block?]

/-- Every operation is of one of the three kinds. -/
theorem countP_kinds (operations : List Operation) :
    operations.countP isAdd + operations.countP isRemove + operations.countP isModify =
      operations.length := by
  induction operations with
  | nil => rfl
  | cons operation rest step =>
    simp only [List.countP_cons, List.length_cons]
    cases operation <;> simp [isAdd, isRemove, isModify] <;> omega

/-- Additions and modifications leave a block each, and removals none. -/
theorem length_filterMap_block? (operations : List Operation) :
    (operations.filterMap block?).length = operations.countP isAdd + operations.countP isModify := by
  induction operations with
  | nil => rfl
  | cons operation rest step =>
    simp only [List.filterMap_cons, List.countP_cons]
    cases operation <;> simp [isAdd, isModify, block?] <;> omega

/-- Operations at locations of their own are counted by their locations. -/
theorem countP_eq_card {operations : List Operation}
    (distinct : (operations.map location).Nodup) (kind : Operation → Bool)
    {places : Finset Location}
    (members : ∀ place, place ∈ places ↔
      ∃ operation ∈ operations, kind operation ∧ operation.location = place) :
    operations.countP kind = places.card := by
  have named : ((operations.filter kind).map location).toFinset = places := by
    ext place
    rw [List.mem_toFinset, members, List.mem_map]
    simp only [List.mem_filter, and_assoc]
  have once : ((operations.filter kind).map location).Nodup :=
    distinct.sublist (List.filter_sublist.map location)
  rw [← named, List.toFinset_card_of_nodup once, List.length_map, List.countP_eq_length_filter]

end Operation

namespace Listing

/-- The locations that a listing names. -/
def places (listing : Listing) : Finset Location := (listing.blocks.map Prod.fst).toFinset

theorem mem_places_iff {listing : Listing} {location : Location} :
    location ∈ listing.places ↔ listing.block? location ≠ none := by
  rw [places, List.mem_toFinset, ne_eq, block?_eq_none_iff, not_not]

theorem Distinct.card_places {listing : Listing} (distinct : listing.Distinct) :
    listing.places.card = listing.blocks.length := by
  rw [places, List.toFinset_card_of_nodup distinct, List.length_map]

end Listing

namespace Manifest

theorem map_snd_listing (manifest : Manifest) :
    manifest.listing.blocks.map Prod.snd = manifest.blocks := by
  rw [listing, blocks, List.map_flatMap]
  exact List.flatMap_congr fun entry _ => Layout.map_snd_locate entry.1 0 entry.2

theorem length_listing (manifest : Manifest) :
    manifest.listing.blocks.length = manifest.blockCount := by
  rw [blockCount, ← map_snd_listing, List.length_map]

end Manifest

namespace Delta

section
variable {source target : Listing} {location : Location}

theorem exists_kind_iff (distinct : target.Distinct) {kind : Operation → Bool}
    (due : Location → Prop)
    (law : ∀ operation ∈ (between source target).operations,
      kind operation ↔ due operation.location) :
    (∃ operation ∈ (between source target).operations, kind operation ∧
        operation.location = location) ↔
      source.block? location ≠ target.block? location ∧ due location := by
  rw [← Join.mem_locations_iff distinct, List.mem_map]
  constructor
  · rintro ⟨operation, member, isKind, rfl⟩
    exact ⟨⟨operation, member, rfl⟩, (law operation member).mp isKind⟩
  · rintro ⟨⟨operation, member, rfl⟩, isDue⟩
    exact ⟨operation, member, (law operation member).mpr isDue, rfl⟩

/-- There is an addition for every location that only the target has. -/
theorem adds_between (source : Listing) (distinct : target.Distinct) :
    (between source target).summary.adds = (target.places \ source.places).card := by
  refine Operation.countP_eq_card (Join.nodup_locations source distinct) _ fun place => ?_
  refine Iff.trans ?_ (exists_kind_iff distinct (fun place => source.block? place = none)
    fun operation member => ?_).symm
  · rw [Finset.mem_sdiff, Listing.mem_places_iff, Listing.mem_places_iff, not_not]
    exact and_congr_left fun absent => by rw [absent]; exact ne_comm
  · have fits := Join.fits_of_due? ((Join.mem_operations_iff distinct).mp member)
    rw [Layout.Fits] at fits
    rw [fits, Option.isNone_iff_eq_none]

/-- There is a removal for every location that only the source has. -/
theorem removes_between (source : Listing) (distinct : target.Distinct) :
    (between source target).summary.removes = (source.places \ target.places).card := by
  refine Operation.countP_eq_card (Join.nodup_locations source distinct) _ fun place => ?_
  refine Iff.trans ?_ (exists_kind_iff distinct (fun place => target.block? place = none)
    fun operation member => ?_).symm
  · rw [Finset.mem_sdiff, Listing.mem_places_iff, Listing.mem_places_iff, not_not]
    exact and_congr_left fun absent => by rw [absent]
  · rw [Operation.isRemove_iff,
      Join.block?_of_due? ((Join.mem_operations_iff distinct).mp member)]

/-- Either end has the locations of both without those that only the other has. -/
theorem count_between (distinct : source.Distinct) (distinct' : target.Distinct) :
    target.blocks.length + (between source target).summary.removes =
      source.blocks.length + (between source target).summary.adds := by
  rw [adds_between source distinct', removes_between source distinct', ← distinct.card_places,
    ← distinct'.card_places, Nat.add_comm, Finset.card_sdiff_add_card, Nat.add_comm,
    Finset.card_sdiff_add_card, Finset.union_comm]

/-- The blocks of a listing that another does not have in their places. -/
def changed (source target : Listing) : List (Location × Block) :=
  target.blocks.filter fun entry => source.block? entry.1 ≠ some entry.2

/-- The operations leave exactly the blocks of the target that the source does not have. -/
theorem placed_perm_changed (source : Listing) (distinct : target.Distinct) :
    ((between source target).operations.filterMap Operation.placed?).Perm
      (changed source target) := by
  refine (List.perm_ext_iff_of_nodup ?_ (distinct.of_map.filter _)).mpr fun entry => ?_
  · refine List.pairwise_filterMap.mpr ?_
    refine (List.pairwise_map.mp (Join.nodup_locations source distinct)).imp
      fun {left right} apart first here second there same => apart ?_
    rw [(Operation.placed?_eq_some_iff.mp here).1, (Operation.placed?_eq_some_iff.mp there).1, same]
  · obtain ⟨location, block⟩ := entry
    simp only [List.mem_filterMap, Operation.placed?_eq_some_iff, List.mem_filter,
      decide_eq_true_eq, ← distinct.block?_eq_some_iff]
    constructor
    · rintro ⟨operation, member, rfl, leaves⟩
      have new := Join.block?_of_due? ((Join.mem_operations_iff distinct).mp member)
      have differ := (Join.mem_locations_iff distinct).mp (List.mem_map_of_mem member)
      exact ⟨new.symm.trans leaves, fun same => differ (same.trans (leaves.symm.trans new))⟩
    · rintro ⟨listed, differ⟩
      rw [← listed] at differ
      obtain ⟨operation, member, rfl⟩ := List.mem_map.mp
        ((Join.mem_locations_iff distinct).mpr differ)
      have new := Join.block?_of_due? ((Join.mem_operations_iff distinct).mp member)
      exact ⟨operation, member, rfl, new.trans listed⟩

/-- The new blocks are those of the target at the locations that change. -/
theorem newBlocks_perm_changed (source : Listing) (distinct : target.Distinct) :
    (between source target).newBlocks.Perm ((changed source target).map Prod.snd) := by
  rw [newBlocks, ← Operation.map_snd_placed]
  exact (placed_perm_changed source distinct).map Prod.snd

/-- There are no more changes than the two listings have blocks. -/
theorem changes_between_le (source : Listing) (distinct : target.Distinct) :
    (between source target).changes ≤ source.blocks.length + target.blocks.length := by
  let delta := between source target
  have kinds : _ = delta.changes := Operation.countP_kinds delta.operations
  have new : delta.newBlocks.length = _ := Operation.length_filterMap_block? delta.operations
  have few : delta.newBlocks.length ≤ target.blocks.length := by
    rw [(newBlocks_perm_changed source distinct).length_eq, List.length_map]
    exact List.length_filter_le _ _
  have removed : delta.summary.removes ≤ source.blocks.length := by
    refine (removes_between source distinct).trans_le ((Finset.card_le_card Finset.sdiff_subset).trans ?_)
    exact (List.toFinset_card_le _).trans_eq (List.length_map _)
  change delta.operations.countP Operation.isRemove ≤ _ at removed
  change delta.changes ≤ _
  omega

end

section
variable {base target : Manifest}

theorem changed_listing (addressable : base.Addressable) (target : Listing) :
    changed base.listing target =
      target.blocks.filter fun entry => base.block? entry.1 ≠ some entry.2 := by
  simp only [changed, Manifest.block?_listing addressable]

theorem mem_blocks_of_mem_newBlocks (addressable : target.Addressable) {block : Block}
    (member : block ∈ (between base.listing target.listing).newBlocks) : block ∈ target.blocks := by
  have perm := newBlocks_perm_changed base.listing (Manifest.distinct_listing addressable)
  rw [← Manifest.map_snd_listing]
  exact List.map_subset Prod.snd (List.filter_subset_self _) (perm.mem_iff.mp member)

/-- A block of the target that is not new stands in the base. -/
theorem mem_blocks_or_mem_newBlocks (addressable : base.Addressable)
    (addressable' : target.Addressable) {block : Block} (member : block ∈ target.blocks) :
    block ∈ base.blocks ∨ block ∈ (between base.listing target.listing).newBlocks := by
  have perm := newBlocks_perm_changed base.listing (Manifest.distinct_listing addressable')
  rw [← Manifest.map_snd_listing, List.mem_map] at member
  obtain ⟨⟨location, block⟩, listed, rfl⟩ := member
  by_cases held : base.block? location = some block
  · rw [← Manifest.map_snd_listing]
    exact .inl (List.mem_map_of_mem ((Manifest.mem_listing_iff addressable).mpr held))
  · refine .inr (perm.mem_iff.mpr (List.mem_map.mpr ⟨(location, block), ?_, rfl⟩))
    rw [changed_listing addressable]
    exact List.mem_filter.mpr ⟨listed, decide_eq_true held⟩

/-- The bytes of the blocks of the target that the base does not have in their places. -/
def extentToFetch (base target : Manifest) : Nat :=
  extent ((target.listing.blocks.filter fun entry =>
    base.block? entry.1 ≠ some entry.2).map Prod.snd)

theorem extent_newBlocks (addressable : base.Addressable) (addressable' : target.Addressable) :
    extent (between base.listing target.listing).newBlocks = extentToFetch base target := by
  have perm := newBlocks_perm_changed base.listing (Manifest.distinct_listing addressable')
  rw [extentToFetch, ← changed_listing addressable]
  exact (perm.map fun block => block.size.toNat).sum_eq

/-- The bytes to fetch fit 64 bits, unless 2 ^ 38 locations change. -/
theorem extent_newBlocks_lt (valid : target.Valid) (addressable : target.Addressable)
    (few : (between base.listing target.listing).changes < Numeral.capacity 38) :
    extent (between base.listing target.listing).newBlocks < UInt64.size :=
  extent_lt (fun _ new => valid.size_le (mem_blocks_of_mem_newBlocks addressable new))
    ((List.length_filterMap_le _ _).trans_lt few)

/-- Fetching the listed blocks is enough for a client that has the base, and no listed block is
idle or listed twice; the list has the first block of every hash in the order of the operations.
The counts of the delta agree with each other and with those of the manifests, and the bytes are, up
to multiples of 2 ^ 64, those of the blocks of the target that the base does not have in their places. -/
theorem fetch_complete (addressable : base.Addressable) (addressable' : target.Addressable) :
    let delta := between base.listing target.listing
    (∀ block ∈ target.blocks, (∃ held ∈ base.blocks, held.hash = block.hash) ∨
      ∃ fetched ∈ delta.blocksToFetch, fetched.hash = block.hash) ∧
    (∀ block ∈ delta.blocksToFetch, block ∈ target.blocks) ∧
    (delta.blocksToFetch.map Block.hash).Nodup ∧
    (delta.blocksToFetch = (delta.newBlocks.zipIdx.filter fun entry =>
      (delta.newBlocks.take entry.2).all fun other => other.hash ≠ entry.1.hash).map Prod.fst) ∧
    delta.summary.adds + delta.summary.removes + delta.summary.modifies = delta.changes ∧
    target.blockCount + delta.summary.removes = base.blockCount + delta.summary.adds ∧
    delta.summary.blocksToFetch ≤ delta.summary.adds + delta.summary.modifies ∧
    delta.summary.bytesToFetch.toNat = extentToFetch base target % UInt64.size ∧
    (target.check = .ok () → delta.changes < Numeral.capacity 38 →
      delta.summary.bytesToFetch.toNat = extentToFetch base target) := by
  intro delta
  have distinct := Manifest.distinct_listing addressable
  have distinct' := Manifest.distinct_listing addressable'
  have kept := sublist_distinctFrom ∅ delta.newBlocks
  refine ⟨fun block member => ?_, fun block member => ?_, nodup_hash_distinctFrom ∅ delta.newBlocks,
    distinctBlocks_eq_filter delta.newBlocks, Operation.countP_kinds delta.operations, ?_, ?_, ?_, ?_⟩
  · rcases mem_blocks_or_mem_newBlocks addressable addressable' member with held | new
    · exact .inl ⟨block, held, rfl⟩
    · exact .inr (exists_mem_distinctBlocks new)
  · exact mem_blocks_of_mem_newBlocks addressable' (kept.subset member)
  · rw [← Manifest.length_listing, ← Manifest.length_listing]
    exact count_between distinct distinct'
  · exact kept.length_le.trans_eq (Operation.length_filterMap_block? delta.operations)
  · rw [← extent_newBlocks addressable addressable']
    exact toNat_totalSize delta.newBlocks
  · intro accepted few
    have valid := Manifest.check_eq_ok_iff.mp accepted
    rw [← extent_newBlocks addressable addressable']
    exact toNat_totalSize_of_lt (extent_newBlocks_lt valid addressable' few)

end

/-- The first edition with a longer tool, whose second block has grown, and with a map of blocks
that the tool has as well. -/
def thirdEdition : Manifest :=
  ((Manifest.empty smallestBlockSize).setFile "bin/tool"
    [.uniform 1, { Block.uniform 2 with size := 2 }, .uniform 4]).setFile "data/map"
    [.uniform 4, .uniform 2]

theorem addressable_thirdEdition : thirdEdition.Addressable :=
  ((Manifest.addressable_empty smallestBlockSize).setFile ⟨by decide, by decide⟩).setFile
    ⟨by decide, by decide⟩

theorem fetch_thirdEdition :
    let delta := between Manifest.firstEdition.listing thirdEdition.listing
    (∃ fetched ∈ delta.blocksToFetch, fetched.hash = (Block.uniform 4).hash) ∧
      5 + delta.summary.removes = 3 + delta.summary.adds ∧ thirdEdition.check = .ok () ∧
      delta.summary.bytesToFetch.toNat = 5 := by
  intro delta
  obtain ⟨covered, -, -, -, -, counts, -, -, bytes⟩ :=
    fetch_complete Manifest.addressable_firstEdition addressable_thirdEdition
  have unheld : ¬∃ held ∈ Manifest.firstEdition.blocks, held.hash = (Block.uniform 4).hash := by
    decide +kernel
  have blocks : thirdEdition.blockCount = 5 := by decide +kernel
  have blocks' : Manifest.firstEdition.blockCount = 3 := by decide +kernel
  have accepted : thirdEdition.check = .ok () := by decide +kernel
  rw [blocks, blocks'] at counts
  refine ⟨(covered (.uniform 4) (by decide +kernel)).resolve_left unheld, counts, accepted, ?_⟩
  have few : delta.changes < Numeral.capacity 38 :=
    (changes_between_le _ (Manifest.distinct_listing addressable_thirdEdition)).trans_lt
      (by decide +kernel)
  exact (bytes accepted few).trans (by decide +kernel)

/-- Whoever has nothing has to fetch more bytes than the summary can tell. -/
theorem fetch_of_vast_miscounted :
    (Manifest.empty largestBlockSize).check = .ok () ∧ Manifest.vast.check = .ok () ∧
      (Manifest.empty largestBlockSize).Addressable ∧ Manifest.vast.Addressable ∧
      (between (Manifest.empty largestBlockSize).listing
        Manifest.vast.listing).summary.bytesToFetch.toNat ≠
          extentToFetch (Manifest.empty largestBlockSize) Manifest.vast := by
  have all : extentToFetch (Manifest.empty largestBlockSize) Manifest.vast = Manifest.vast.extent := by
    have none (location : Location) : (Manifest.empty largestBlockSize).block? location = none := by
      rw [Manifest.block?, Manifest.file?_empty, Option.bind_none]
    rw [extentToFetch, ← Manifest.extent_blocks, ← Manifest.map_snd_listing,
      List.filter_eq_self.mpr fun entry _ => by rw [none]; rfl]
  rw [all]
  exact ⟨Manifest.check_eq_ok_iff.mpr (Manifest.valid_empty (by decide +kernel)),
    Manifest.check_eq_ok_iff.mpr Manifest.reached_vast.valid,
    Manifest.addressable_empty largestBlockSize, Manifest.reached_vast.addressable,
    Nat.ne_of_lt ((UInt64.toNat_lt _).trans_le Manifest.size_le_extent_vast)⟩

end Delta

end BuildDelivery
