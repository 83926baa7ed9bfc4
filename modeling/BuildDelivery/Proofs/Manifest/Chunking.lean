import BuildDelivery.Feed
import BuildDelivery.Proofs.Manifest.Valid

/-! The blocks of a byte string. It is cut into pieces of one size, of which the last may be
shorter, and each piece is hashed. Byte strings that have the same blocks are the same, unless two of
their pieces have one hash. -/

set_option autoImplicit false

namespace BuildDelivery

/-- Rows with the same images are equal if no two of their items share an image. -/
theorem eq_of_map_eq {α β : Type} {image : α → β} {left right : List α}
    (apart : ∀ item ∈ left, ∀ other ∈ right, image item = image other → item = other)
    (same : left.map image = right.map image) : left = right := by
  induction left generalizing right with
  | nil => exact (List.map_eq_nil_iff.mp same.symm).symm
  | cons item rest step =>
    obtain ⟨other, others, rfl, first, later⟩ := List.map_eq_cons_iff.mp same.symm
    rw [apart item List.mem_cons_self other List.mem_cons_self first.symm,
      step (fun item member other member' =>
        apart item (List.mem_cons_of_mem _ member) other (List.mem_cons_of_mem _ member')) later.symm]

namespace Feed

theorem cut_nil (size : Nat) : cut size [] = [] := by
  rw [cut, if_pos (.inr rfl)]

theorem cut_of_ne_nil {size : Nat} (positive : 0 < size) {data : Bytes} (some : data ≠ []) :
    cut size data = data.take size :: cut size (data.drop size) := by
  rw [cut, if_neg (not_or.mpr ⟨Nat.ne_of_gt positive, some⟩)]

theorem cut_of_length_le {size : Nat} {data : Bytes} (some : data ≠ []) (short : data.length ≤ size) :
    cut size data = [data] := by
  have positive : 0 < size := Nat.lt_of_lt_of_le (List.length_pos_iff.mpr some) short
  rw [cut_of_ne_nil positive some, List.take_of_length_le short, List.drop_of_length_le short,
    cut_nil]

theorem length_of_mem_cut {size : Nat} {data piece : Bytes} (member : piece ∈ cut size data) :
    0 < piece.length ∧ piece.length ≤ size := by
  fun_induction cut size data with
  | case1 => cases member
  | case2 data some step =>
    obtain ⟨positive, some⟩ := not_or.mp some
    rcases List.mem_cons.mp member with rfl | later
    · have length : 0 < data.length := List.length_pos_iff.mpr some
      rw [List.length_take]
      omega
    · exact step later

end Feed

/-- The blocks of a byte string, each of at most `max` bytes. -/
def Block.row (max : UInt32) (data : Bytes) : List Block := (Feed.cut max.toNat data).map Block.ofData

theorem toNat_pos_of_isBlockSize {size : UInt32} (legal : isBlockSize size) : 0 < size.toNat := by
  simp only [isBlockSize, Bool.and_eq_true, decide_eq_true_eq] at legal
  have smallest : smallestBlockSize.toNat ≤ size.toNat := UInt32.le_iff_toNat_le.mp legal.1.2
  exact Nat.lt_of_lt_of_le (by decide) smallest

theorem toNat_lt_of_isBlockSize {size : UInt32} (legal : isBlockSize size) :
    size.toNat < Numeral.capacity 32 - 1 := by
  simp only [isBlockSize, Bool.and_eq_true, decide_eq_true_eq] at legal
  exact Nat.lt_of_le_of_lt (UInt32.le_iff_toNat_le.mp legal.2) (by decide)

namespace Block

variable {max : UInt32} {data : Bytes}

theorem row_eq_nil_iff (positive : 0 < max.toNat) : row max data = [] ↔ data = [] := by
  constructor
  · intro none
    rw [← Feed.flatten_cut positive data, List.map_eq_nil_iff.mp none]
    rfl
  · rintro rfl
    rw [row, Feed.cut_nil]
    rfl

/-- No piece is too long for its length to be told. -/
theorem toNat_size_ofData {piece : Bytes} (member : piece ∈ Feed.cut max.toNat data) :
    (ofData piece).size.toNat = piece.length := by
  obtain ⟨-, short⟩ := Feed.length_of_mem_cut member
  exact UInt32.toNat_ofNat_of_lt' (Nat.lt_of_le_of_lt short max.toNat_lt)

theorem fits_of_mem_row {block : Block} (member : block ∈ row max data) : block.fits max := by
  obtain ⟨piece, among, rfl⟩ := List.mem_map.mp member
  obtain ⟨some, short⟩ := Feed.length_of_mem_cut among
  have size := toNat_size_ofData among
  simp only [fits, ne_eq, Bool.and_eq_true, decide_eq_true_eq]
  refine ⟨fun zero => ?_, UInt32.le_iff_toNat_le.mpr (size ▸ short)⟩
  rw [zero] at size
  exact Nat.ne_of_lt some size

/-- Rows that are equal come from equal byte strings, unless two of their pieces have one hash. -/
theorem content_eq_of_row {data' : Bytes} (positive : 0 < max.toNat)
    (apart : ∀ piece ∈ Feed.cut max.toNat data, ∀ piece' ∈ Feed.cut max.toNat data',
      BlockHash.ofData piece = BlockHash.ofData piece' → piece = piece')
    (same : row max data = row max data') : data = data' := by
  have pieces : Feed.cut max.toNat data = Feed.cut max.toNat data' :=
    eq_of_map_eq (fun piece among piece' among' blocks =>
      apart piece among piece' among' (congrArg Block.hash blocks)) same
  rw [← Feed.flatten_cut positive data, pieces, Feed.flatten_cut positive]

theorem insertable_row_iff :
    Manifest.Insertable max (row max data) ↔ (row max data).length < Numeral.capacity 32 :=
  and_iff_left fun _ member => fits_of_mem_row member

end Block

end BuildDelivery
