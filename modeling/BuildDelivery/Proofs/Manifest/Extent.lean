import BuildDelivery.Proofs.Manifest.Valid
import Mathlib.Algebra.BigOperators.Group.List.Basic
import Mathlib.Algebra.Group.Action.Defs
import Mathlib.Algebra.Order.BigOperators.Group.List
import Mathlib.Algebra.Order.Ring.Nat
import Mathlib.Data.List.Nodup
import Mathlib.Data.List.Perm.Subperm

/-! How many bytes a row of blocks has. A manifest counts them in 64 bits and so up to multiples of
2 ^ 64; the extent is their number itself. Of a legal size it takes 2 ^ 38 blocks to tell the two apart,
so the count of a file whose blocks have an index each is exact, and that of many files need not be. -/

set_option autoImplicit false

namespace BuildDelivery

def extent (blocks : List Block) : Nat := (blocks.map fun block => block.size.toNat).sum

section

variable {size : UInt32} {blocks : List Block} {block : Block} {number : Nat}

theorem extent_cons (block : Block) (rest : List Block) :
    extent (block :: rest) = block.size.toNat + extent rest := List.sum_cons

theorem extent_append (left right : List Block) :
    extent (left ++ right) = extent left + extent right := by
  rw [extent, List.map_append, List.sum_append_nat]
  rfl

theorem extent_take_succ (held : blocks[number]? = some block) :
    extent (blocks.take (number + 1)) = extent (blocks.take number) + block.size.toNat := by
  rw [List.take_add_one, held, extent_append]
  rfl

theorem extent_take_le (blocks : List Block) (number : Nat) :
    extent (blocks.take number) ≤ extent blocks := by
  conv => rhs; rw [← List.take_append_drop number blocks, extent_append]
  exact Nat.le_add_right _ _

theorem extent_le {most : Nat} (bounded : ∀ block ∈ blocks, block.size.toNat ≤ most) :
    extent blocks ≤ blocks.length * most := by
  have total := List.sum_le_card_nsmul (blocks.map fun block => block.size.toNat) most
    (List.forall_mem_map.mpr bounded)
  rwa [List.length_map, smul_eq_mul] at total

theorem extent_of_full (full : ∀ block ∈ blocks, block.size = size) :
    extent blocks = blocks.length * size.toNat := by
  have total := List.sum_eq_card_nsmul (blocks.map fun block => block.size.toNat) size.toNat
    (List.forall_mem_map.mpr fun block member => congrArg UInt32.toNat (full block member))
  rwa [List.length_map, smul_eq_mul] at total

/-- The bytes counted in 64 bits. -/
theorem totalSize_eq_ofNat (blocks : List Block) : totalSize blocks = UInt64.ofNat (extent blocks) := by
  induction blocks with
  | nil => rfl
  | cons block rest step =>
    rw [totalSize, step, extent_cons, UInt64.ofNat_add, ← UInt32.toUInt64_toNat, UInt64.ofNat_toNat]

theorem toNat_totalSize (blocks : List Block) :
    (totalSize blocks).toNat = extent blocks % UInt64.size := by
  rw [totalSize_eq_ofNat, UInt64.toNat_ofNat']

theorem toNat_totalSize_of_lt (small : extent blocks < UInt64.size) :
    (totalSize blocks).toNat = extent blocks := by
  rw [toNat_totalSize, Nat.mod_eq_of_lt small]

/-- Fewer than 2 ^ 38 blocks of a legal size have fewer than 2 ^ 64 bytes. -/
theorem extent_lt (short : ∀ block ∈ blocks, block.size.toNat ≤ largestBlockSize.toNat)
    (few : blocks.length < Numeral.capacity 38) : extent blocks < UInt64.size := by
  have total := extent_le short
  have count : Numeral.capacity 38 = 2 ^ 38 := rfl
  have largest : largestBlockSize.toNat = 2 ^ 26 := rfl
  have bits : UInt64.size = 2 ^ 64 := rfl
  rw [largest] at total
  omega

end

namespace Manifest

variable {manifest : Manifest} {path : String} {blocks : List Block}

theorem Valid.size_le (valid : manifest.Valid) {block : Block} (member : block ∈ manifest.blocks) :
    block.size.toNat ≤ largestBlockSize.toNat := by
  obtain ⟨⟨path, row⟩, listed, among⟩ := List.mem_flatMap.mp member
  have fits := valid.fits path row (mem_toList_iff.mp listed) block among
  have legal := valid.blockSize
  simp only [isBlockSize, Bool.and_eq_true, decide_eq_true_eq] at legal
  exact (Block.fits_iff.mp fits).2.trans (UInt32.le_iff_toNat_le.mp legal.2)

/-- The bytes of a file whose blocks have an index each fit 64 bits. -/
theorem Valid.toNat_totalSize_of_file (valid : manifest.Valid) (addressable : manifest.Addressable)
    (found : manifest.file? path = some blocks) :
    (BuildDelivery.totalSize blocks).toNat = extent blocks := by
  have member (block : Block) (among : block ∈ blocks) : block ∈ manifest.blocks :=
    List.mem_flatMap.mpr ⟨(path, blocks), mem_toList_iff.mpr found, among⟩
  have few : blocks.length < Numeral.capacity 38 :=
    (addressable path blocks found).trans (by decide)
  exact toNat_totalSize_of_lt (extent_lt (fun block among => valid.size_le (member block among)) few)

/-- The bytes of all files. -/
def extent (manifest : Manifest) : Nat :=
  (manifest.files.toList.map fun entry => BuildDelivery.extent entry.2).sum

theorem extent_blocks (manifest : Manifest) :
    BuildDelivery.extent manifest.blocks = manifest.extent := by
  rw [BuildDelivery.extent, blocks, List.map_flatMap, List.flatMap_def, List.sum_flatten, List.map_map]
  rfl

/-- Files that are held under different paths are among those whose bytes are counted. -/
theorem sum_extent_le {files : List (String × List Block)} (distinct : (files.map Prod.fst).Nodup)
    (held : ∀ file ∈ files, manifest.file? file.1 = some file.2) :
    (files.map fun file => BuildDelivery.extent file.2).sum ≤ manifest.extent := by
  have among : files ⊆ manifest.files.toList := fun file member =>
    mem_toList_iff.mpr (held file member)
  obtain ⟨part, perm, sublist⟩ := List.subperm_of_subset (List.Nodup.of_map _ distinct) among
  rw [← (perm.map _).sum_eq]
  exact (sublist.map _).sum_le_sum fun _ _ => Nat.zero_le _

end Manifest

end BuildDelivery
