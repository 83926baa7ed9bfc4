import BuildDelivery.Proofs.Installation.Scan
import BuildDelivery.Proofs.Manifest.Building

/-! Where blocks lie in their file. The offset of a block is told by its index alone, as if all blocks
before it had the largest size. So blocks that are written at their offsets never overlap, but a block
that is shorter leaves a gap behind it unless it is the last of its file. The check of a manifest from
elsewhere, the insertion of a file and the builder all take such blocks in every place; a row made of
one byte string has them at its end alone. -/

set_option autoImplicit false

namespace BuildDelivery

/-- Only the last block of a row may be shorter than the size. -/
def Filled (size : UInt32) (blocks : List Block) : Prop :=
  ∀ block ∈ blocks.dropLast, block.size = size

instance (size : UInt32) (blocks : List Block) : Decidable (Filled size blocks) :=
  inferInstanceAs (Decidable (∀ block ∈ blocks.dropLast, block.size = size))

section

variable {size : UInt32} {blocks : List Block} {block : Block} {number : Nat}

theorem extent_le_of_fits (fits : ∀ block ∈ blocks, block.fits size) :
    extent blocks ≤ blocks.length * size.toNat :=
  extent_le fun block member => (Block.fits_iff.mp (fits block member)).2

/-- Blocks that are together as large as they can be are so each. -/
theorem full_of_extent (fits : ∀ block ∈ blocks, block.fits size)
    (largest : extent blocks = blocks.length * size.toNat) :
    ∀ block ∈ blocks, block.size = size := by
  induction blocks with
  | nil => exact fun block member => nomatch member
  | cons block rest step =>
    obtain ⟨first, later⟩ := List.forall_mem_cons.mp fits
    have short := (Block.fits_iff.mp first).2
    have others := extent_le_of_fits later
    rw [extent_cons, List.length_cons, Nat.succ_mul] at largest
    exact List.forall_mem_cons.mpr
      ⟨UInt32.toNat_inj.mp (by omega), step later (by omega)⟩

theorem mem_dropLast_of_mem_take (before : number < blocks.length)
    (member : block ∈ blocks.take number) : block ∈ blocks.dropLast := by
  rw [List.dropLast_eq_take]
  exact (List.take_prefix_take_left (by omega)).subset member

theorem extent_take_of_filled (filled : Filled size blocks) (before : number < blocks.length) :
    extent (blocks.take number) = number * size.toNat := by
  rw [extent_of_full fun block member => filled block (mem_dropLast_of_mem_take before member),
    List.length_take_of_le (Nat.le_of_lt before)]

/-- The blocks of a row begin where those before them end exactly if only the last can be short. -/
theorem filled_iff_contiguous (fits : ∀ block ∈ blocks, block.fits size) :
    Filled size blocks ↔
      ∀ number < blocks.length, number * size.toNat = extent (blocks.take number) := by
  constructor
  · exact fun filled number before => (extent_take_of_filled filled before).symm
  · intro contiguous
    rcases List.eq_nil_or_concat blocks with rfl | ⟨front, last, rfl⟩
    · exact fun block member => nomatch member
    · rw [List.concat_eq_append] at *
      rw [Filled, List.dropLast_concat]
      -- The offset of the last block is as large as all blocks in front of it can be together.
      have whole := contiguous front.length (by simp)
      rw [List.take_left] at whole
      exact full_of_extent (fun block member => fits block (List.mem_append_left _ member)) whole.symm

/-- The byte with a position is in the block with a number, when that is written at its offset. -/
def Covers (size : UInt32) (blocks : List Block) (number position : Nat) : Prop :=
  ∃ block, blocks[number]? = some block ∧ number * size.toNat ≤ position ∧
    position < number * size.toNat + block.size.toNat

theorem number_of_covers {position : Nat} (fits : ∀ block ∈ blocks, block.fits size)
    (covers : Covers size blocks number position) : position / size.toNat = number := by
  obtain ⟨block, held, begun, unfinished⟩ := covers
  obtain ⟨positive, short⟩ := Block.fits_iff.mp (fits block (List.mem_of_getElem? held))
  refine Nat.div_eq_of_lt_le begun ?_
  rw [Nat.succ_mul]
  omega

theorem covers_start (fits : ∀ block ∈ blocks, block.fits size) (before : number < blocks.length) :
    Covers size blocks number (number * size.toNat) := by
  have held := List.getElem?_eq_getElem before
  have some := (Block.fits_iff.mp (fits _ (List.mem_of_getElem? held))).1
  exact ⟨_, held, Nat.le_refl _, by omega⟩

theorem covers_iff_of_filled (fits : ∀ block ∈ blocks, block.fits size) (filled : Filled size blocks)
    (position : Nat) : (∃ number, Covers size blocks number position) ↔ position < extent blocks := by
  constructor
  · rintro ⟨number, block, held, -, unfinished⟩
    have before := (List.getElem?_eq_some_iff.mp held).1
    have front := extent_take_le blocks (number + 1)
    rw [extent_take_succ held, extent_take_of_filled filled before] at front
    omega
  · intro within
    have room := Nat.lt_of_lt_of_le within (extent_le_of_fits fits)
    have positive : 0 < size.toNat := Nat.pos_of_lt_mul_left room
    have before : position / size.toNat < blocks.length := Nat.div_lt_of_lt_mul (Nat.mul_comm _ _ ▸ room)
    have held := List.getElem?_eq_getElem before
    refine ⟨position / size.toNat, _, held, Nat.div_mul_le_self _ _, ?_⟩
    have front := extent_take_succ held
    rw [extent_take_of_filled filled before] at front
    rw [← front]
    -- Only behind the last block do the blocks in front not tell where the next would begin.
    by_cases inner : position / size.toNat + 1 < blocks.length
    · rw [extent_take_of_filled filled inner]
      exact (Nat.div_lt_iff_lt_mul positive).mp (Nat.lt_succ_self _)
    · rwa [List.take_of_length_le (by omega)]

/-- Blocks that are written at their offsets make up as many bytes as they have themselves exactly if
only the last can be short. -/
theorem filled_iff_seamless (fits : ∀ block ∈ blocks, block.fits size) :
    Filled size blocks ↔
      ∀ position, (∃ number, Covers size blocks number position) ↔ position < extent blocks := by
  refine ⟨covers_iff_of_filled fits, fun seamless block member => ?_⟩
  rw [List.dropLast_eq_take] at member
  obtain ⟨number, inner, rfl⟩ := List.mem_take_iff_getElem.mp member
  have before : number < blocks.length := by omega
  have held := List.getElem?_eq_getElem before
  have short := (Block.fits_iff.mp (fits _ (List.mem_of_getElem? held))).2
  refine UInt32.toNat_inj.mp (Nat.le_antisymm short (Nat.le_of_not_lt fun shorter => ?_))
  -- The byte behind a shorter block is in no block, though a later block begins behind it.
  have later := (seamless _).mp ⟨_, covers_start fits (by omega : number + 1 < blocks.length)⟩
  rw [Nat.succ_mul] at later
  obtain ⟨other, covers⟩ := (seamless (number * size.toNat + blocks[number].size.toNat)).mpr (by omega)
  have same := number_of_covers fits covers
  rw [Nat.mul_comm, Nat.mul_add_div (by omega), Nat.div_eq_of_lt shorter, Nat.add_zero] at same
  subst same
  obtain ⟨block, held', -, unfinished⟩ := covers
  cases held.symm.trans held'
  exact Nat.lt_irrefl _ unfinished

end

/-- The row of a byte string is cut so that only its last block can be short. -/
theorem filled_row {size : UInt32} (positive : 0 < size.toNat) (data : Bytes) :
    Filled size (Block.row size data) := by
  obtain ⟨full, tail, division⟩ := Feed.exists_division positive data
  have inner : (Feed.cut size.toNat data).dropLast ⊆ full := by
    rw [division.cut_eq positive]
    split
    · rw [List.append_nil]
      exact List.dropLast_subset full
    · rw [List.dropLast_concat]
      exact List.Subset.refl full
  intro block member
  rw [Block.row, ← List.map_dropLast] at member
  obtain ⟨piece, among, rfl⟩ := List.mem_map.mp member
  rw [Block.ofData, division.full piece (inner among), UInt32.ofNat_toNat]

namespace Manifest

variable {manifest : Manifest} {path : String} {blocks : List Block}

/-- The byte of a file with a position is in the listed block at a location, when that is written at
its offset. -/
def Spans (manifest : Manifest) (location : Location) (position : Nat) : Prop :=
  ∃ block, (location, block) ∈ manifest.listing.blocks ∧
    location.offset manifest.maxBlockSize ≤ position ∧
    position < location.offset manifest.maxBlockSize + block.size.toNat

/-- Every listed block of a file begins where the blocks before it end. -/
def Contiguous (manifest : Manifest) (path : String) (blocks : List Block) : Prop :=
  ∀ index block, (⟨path, index⟩, block) ∈ manifest.listing.blocks →
    Location.offset ⟨path, index⟩ manifest.maxBlockSize = BuildDelivery.extent (blocks.take index.toNat)

/-- The listed blocks of a file leave no gaps and end with the file. -/
def Seamless (manifest : Manifest) (path : String) (blocks : List Block) : Prop :=
  ∀ position, (∃ index, manifest.Spans ⟨path, index⟩ position) ↔
    position < (BuildDelivery.totalSize blocks).toNat

theorem spans_iff (addressable : manifest.Addressable) (found : manifest.file? path = some blocks)
    (index : UInt32) (position : Nat) :
    manifest.Spans ⟨path, index⟩ position ↔
      Covers manifest.maxBlockSize blocks index.toNat position := by
  simp only [Spans, mem_listing_iff addressable, block?_of_file? found]
  rfl

/-- An index tells every block of a file apart. -/
theorem exists_index_iff (addressable : manifest.Addressable)
    (found : manifest.file? path = some blocks) (claim : Nat → Prop)
    (bounded : ∀ number, claim number → number < blocks.length) :
    (∃ index : UInt32, claim index.toNat) ↔ ∃ number, claim number := by
  refine ⟨fun ⟨index, holds⟩ => ⟨_, holds⟩, fun ⟨number, holds⟩ => ⟨UInt32.ofNat number, ?_⟩⟩
  rwa [UInt32.toNat_ofNat_of_lt' (Nat.lt_trans (bounded number holds) (addressable path blocks found))]

theorem contiguous_iff (addressable : manifest.Addressable)
    (found : manifest.file? path = some blocks) :
    manifest.Contiguous path blocks ↔ ∀ number < blocks.length,
      number * manifest.maxBlockSize.toNat = BuildDelivery.extent (blocks.take number) := by
  have few := addressable path blocks found
  simp only [Contiguous, mem_listing_iff addressable, block?_of_file? found, Location.offset]
  constructor
  · intro contiguous number before
    have here := contiguous (UInt32.ofNat number)
    rw [UInt32.toNat_ofNat_of_lt' (Nat.lt_trans before few)] at here
    exact here _ (List.getElem?_eq_getElem before)
  · intro contiguous index block held
    exact contiguous _ (List.getElem?_eq_some_iff.mp held).1

theorem seamless_iff (valid : manifest.Valid) (addressable : manifest.Addressable)
    (found : manifest.file? path = some blocks) :
    manifest.Seamless path blocks ↔ ∀ position,
      (∃ number, Covers manifest.maxBlockSize blocks number position) ↔
        position < BuildDelivery.extent blocks := by
  rw [Seamless, valid.toNat_totalSize_of_file addressable found]
  refine forall_congr' fun position => iff_congr ?_ Iff.rfl
  simp only [spans_iff addressable found]
  refine exists_index_iff addressable found (Covers _ blocks · position) ?_
  rintro number ⟨block, held, -⟩
  exact (List.getElem?_eq_some_iff.mp held).1

/-- Blocks that are written at their offsets never overlap, and none begins before those before it
end. They lie in their file without gaps exactly if only the last of them is shorter than the largest
size, which the check of a manifest does not ask for. -/
theorem layout_of_checked (accepted : manifest.check = .ok ()) (addressable : manifest.Addressable)
    (found : manifest.file? path = some blocks) :
    (∀ index index' position, manifest.Spans ⟨path, index⟩ position →
      manifest.Spans ⟨path, index'⟩ position → index = index') ∧
    (∀ index : UInt32, index.toNat < blocks.length →
      BuildDelivery.extent (blocks.take index.toNat) ≤
        Location.offset ⟨path, index⟩ manifest.maxBlockSize) ∧
    (manifest.Contiguous path blocks ↔ Filled manifest.maxBlockSize blocks) ∧
    (manifest.Seamless path blocks ↔ Filled manifest.maxBlockSize blocks) := by
  have valid := check_eq_ok_iff.mp accepted
  have fits := valid.fits path blocks found
  refine ⟨fun index index' position spans spans' => ?_, fun index before => ?_, ?_, ?_⟩
  · have here := number_of_covers fits ((spans_iff addressable found index position).mp spans)
    have here' := number_of_covers fits ((spans_iff addressable found index' position).mp spans')
    exact UInt32.toNat_inj.mp (here.symm.trans here')
  · have small := @extent_le_of_fits _ (blocks.take index.toNat) fun block member =>
      fits block (List.mem_of_mem_take member)
    rwa [List.length_take_of_le (Nat.le_of_lt before)] at small
  · rw [contiguous_iff addressable found, filled_iff_contiguous fits]
  · rw [seamless_iff valid addressable found, filled_iff_seamless fits]

/-- A row of three blocks, the last of which is shorter than the others. -/
def tiles : List Block :=
  [⟨.ofData [1], smallestBlockSize⟩, ⟨.ofData [2], smallestBlockSize⟩, ⟨.ofData [3], 5⟩]

def tiled : Manifest := (empty smallestBlockSize).setFile "a" tiles

theorem layout_of_tiled : tiled.Contiguous "a" tiles ∧ tiled.Seamless "a" tiles := by
  have accepted : tiled.check = .ok () := by decide +kernel
  have addressable : tiled.Addressable :=
    (addressable_empty smallestBlockSize).setFile ⟨by decide, by decide⟩
  have found : tiled.file? "a" = some tiles := by decide +kernel
  obtain ⟨-, -, contiguous, seamless⟩ := layout_of_checked accepted addressable found
  exact ⟨contiguous.mpr (by decide), seamless.mpr (by decide)⟩

/-- The rows of two byte strings, one behind the other. -/
def scraps : List Block := [.ofData [1], .ofData [2]]

/-- A file with a short block in front is inserted, built and checked without a fault, but the second
block does not begin where the first ends, and the bytes between them are in no block. -/
theorem scraps_leave_gap : ∃ manifest,
    (empty smallestBlockSize).insertFile "a" scraps = .ok manifest ∧
    ((ManifestBuilder.empty smallestBlockSize).after
      [⟨"a", [.feed (.whole [1] .closed), .feed (.whole [2] .closed)]⟩]).build = manifest ∧
    manifest.check = .ok () ∧ manifest.Addressable ∧ manifest.file? "a" = some scraps ∧
    ¬manifest.Contiguous "a" scraps ∧ ¬manifest.Seamless "a" scraps := by
  have addressable : ((empty smallestBlockSize).setFile "a" scraps).Addressable :=
    (addressable_empty smallestBlockSize).setFile ⟨by decide, by decide +kernel⟩
  have found : ((empty smallestBlockSize).setFile "a" scraps).file? "a" = some scraps := by
    decide +kernel
  have fits : ∀ block ∈ scraps, block.fits smallestBlockSize := by decide +kernel
  have unfilled : ¬Filled smallestBlockSize scraps := by decide +kernel
  have accepted : ((empty smallestBlockSize).setFile "a" scraps).check = .ok () := by decide +kernel
  have valid := check_eq_ok_iff.mp accepted
  refine ⟨(empty smallestBlockSize).setFile "a" scraps, by decide +kernel, by decide +kernel,
    accepted, addressable, found, fun contiguous => unfilled ?_, fun seamless => unfilled ?_⟩
  · exact (filled_iff_contiguous fits).mpr ((contiguous_iff addressable found).mp contiguous)
  · exact (filled_iff_seamless fits).mpr ((seamless_iff valid addressable found).mp seamless)

end Manifest

/-- A scan cuts every file on its own, so its blocks lie where the file has them. -/
theorem FileTree.layout_of_scan {tree : FileTree} {root path : String} {size : UInt32}
    {manifest : Manifest} {blocks : List Block} (scanned : tree.scan root size = .ok manifest)
    (found : manifest.file? path = some blocks) :
    manifest.Contiguous path blocks ∧ manifest.Seamless path blocks := by
  have reached := reached_of_scan scanned
  have fits := reached.valid.fits path blocks found
  have filled : Filled manifest.maxBlockSize blocks := by
    obtain ⟨names, content, -, -, rfl⟩ := (file?_eq_some_iff scanned).mp found
    rw [reached.maxBlockSize_eq]
    exact filled_row (toNat_pos_of_isBlockSize (located_of_scan scanned).1) content
  exact ⟨(Manifest.contiguous_iff reached.addressable found).mpr ((filled_iff_contiguous fits).mp filled),
    (Manifest.seamless_iff reached.valid reached.addressable found).mpr ((filled_iff_seamless fits).mp filled)⟩

end BuildDelivery
