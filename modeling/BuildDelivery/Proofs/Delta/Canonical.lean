import BuildDelivery.Proofs.Delta.Bounded
import BuildDelivery.Proofs.Text.Order

/-! The one delta between two sets of blocks. Which operations it has is told by the blocks alone,
and their order by their locations; so neither the order in which blocks are listed, nor that in
which the blocks left over are enumerated, nor the way of sorting makes a difference. -/

set_option autoImplicit false

namespace BuildDelivery

theorem Block.ne_iff {left right : Block} :
    left ≠ right ↔ left.hash ≠ right.hash ∨ left.size ≠ right.size := by
  obtain ⟨hash, size⟩ := left
  obtain ⟨hash', size'⟩ := right
  rw [ne_eq, Block.mk.injEq, not_and_or]

namespace Location

/-- Paths stand in the order of their bytes, and the blocks of a file in that of their indices. -/
def Before (left right : Location) : Prop :=
  Utf8.encode left.path < Utf8.encode right.path ∨
    left.path = right.path ∧ left.index < right.index

theorem before_of_compare {left right : Location} (before : compare left right = .lt) :
    left.Before right := by
  rcases compare_eq_lt_iff.mp before with paths | ⟨same, indices⟩
  · exact .inl (Utf8.encode_lt_encode (compareOfLessAndEq_eq_lt.mp paths))
  · exact .inr ⟨same, compareOfLessAndEq_eq_lt.mp indices⟩

end Location

namespace Listing

/-- The same blocks at the same locations, in whatever order. -/
def SameBlocks (left right : Listing) : Prop := ∀ entry, entry ∈ left.blocks ↔ entry ∈ right.blocks

variable {left right : Listing}

theorem Distinct.block?_eq_of_sameBlocks (distinct : left.Distinct) (distinct' : right.Distinct)
    (same : left.SameBlocks right) (location : Location) :
    left.block? location = right.block? location := by
  refine Option.ext fun block => ?_
  rw [distinct.block?_eq_some_iff, distinct'.block?_eq_some_iff]
  exact same (location, block)

end Listing

namespace Join

variable {old? new? : Option Block} {location : Location} {block : Block}

theorem due?_eq_add_iff :
    due? old? new? location = some (.add location block) ↔ new? = some block ∧ old? = none := by
  cases new? with
  | none => simp [due?]
  | some new =>
    cases old? with
    | none => simp [due?, change?]
    | some old => simp [due?, change?]

theorem due?_eq_remove_iff :
    due? old? new? location = some (.remove location) ↔ old? ≠ none ∧ new? = none := by
  cases new? with
  | none => simp [due?, Option.ne_none_iff_exists']
  | some new =>
    cases old? with
    | none => simp [due?, change?]
    | some old => simp [due?, change?]

theorem due?_eq_modify_iff :
    due? old? new? location = some (.modify location block) ↔
      new? = some block ∧ ∃ old, old? = some old ∧ old ≠ block := by
  cases new? with
  | none => simp [due?]
  | some new =>
    cases old? with
    | none => simp [due?, change?]
    | some old =>
      simp only [due?, change?, Option.ite_none_left_eq_some, Option.some.injEq,
        Operation.modify.injEq, true_and, exists_eq_left']
      constructor
      · rintro ⟨other, rfl⟩
        exact ⟨rfl, other⟩
      · rintro ⟨rfl, other⟩
        exact ⟨other, rfl⟩

variable {source target : Listing}

theorem sorted_operations (distinct : target.Distinct) :
    (operations silent source target).run.Pairwise fun left right => inOrder left right := by
  refine (ascending_operations source distinct).imp fun {left right} before => ?_
  exact Ordering.isLE_iff_eq_lt_or_eq_eq.mpr (.inl before)

/-- Any way of sorting the operations gives the same row, since no two of them have one location. -/
theorem eq_operations_of_perm (distinct : target.Distinct) {row : List Operation}
    (perm : row.Perm (operations silent source target).run)
    (sorted : row.Pairwise fun left right => inOrder left right) :
    row = (operations silent source target).run := by
  refine List.Perm.eq_of_pairwise (fun left right here there before after => ?_) sorted
    (sorted_operations distinct) perm
  have same : left.location = right.location :=
    Std.LawfulEqOrd.eq_of_compare (Std.OrientedCmp.isLE_antisymm before after)
  exact List.inj_on_of_nodup_map (nodup_locations source distinct) (perm.mem_iff.mp here) there same

/-- The operations between listings without repetition are told by what the listings say. -/
theorem operations_congr {source' target' : Listing} (distinct : target.Distinct)
    (distinct' : target'.Distinct) (sources : source'.block? = source.block?)
    (targets : target'.block? = target.block?) :
    (operations silent source' target').run = (operations silent source target).run := by
  refine eq_operations_of_perm distinct ?_ (sorted_operations distinct')
  have members : ∀ operation, operation ∈ (operations silent source' target').run ↔
      operation ∈ (operations silent source target).run := by
    intro operation
    rw [mem_operations_iff distinct', mem_operations_iff distinct, sources, targets]
  exact (List.perm_ext_iff_of_nodup (nodup_locations source' distinct').of_map
    (nodup_locations source distinct).of_map).mpr members

end Join

namespace Delta

variable {source target : Listing}

/-- The delta between listings without repetition. It has one operation for every location about
which they disagree, of the kind and with the block that they call for, and the operations go up by
location. Listings of the same blocks in another order have the same operations; and whatever order
the blocks left over are enumerated in and however the row is sorted, it is the same row. -/
theorem between_canonical (distinct : source.Distinct) (distinct' : target.Distinct) :
    (∀ location block, .add location block ∈ (between source target).operations ↔
      (location, block) ∈ target.blocks ∧ location ∉ source.blocks.map Prod.fst) ∧
    (∀ location, .remove location ∈ (between source target).operations ↔
      location ∈ source.blocks.map Prod.fst ∧ location ∉ target.blocks.map Prod.fst) ∧
    (∀ location block, .modify location block ∈ (between source target).operations ↔
      (location, block) ∈ target.blocks ∧ ∃ old, (location, old) ∈ source.blocks ∧
        (old.hash ≠ block.hash ∨ old.size ≠ block.size)) ∧
    ((between source target).operations.Pairwise fun left right =>
      left.location.Before right.location) ∧
    ((between source target).operations.map Operation.location).Nodup ∧
    (∀ source' target' : Listing, source'.Distinct → target'.Distinct →
      source'.SameBlocks source → target'.SameBlocks target →
        (between source' target').operations = (between source target).operations) ∧
    ∀ (left : List (Location × Block)) (row : List Operation),
      left.Perm (Join.matched source target).1.toList →
      row.Perm ((Join.matched source target).2.2.reverse ++
        left.map fun entry => .remove entry.1) →
      row.Pairwise (fun first second => Join.inOrder first second) →
        row = (between source target).operations := by
  have due (operation : Operation) : operation ∈ (between source target).operations ↔
      Join.due? (source.block? operation.location) (target.block? operation.location)
        operation.location = some operation := Join.mem_operations_iff distinct'
  refine ⟨?_, ?_, ?_, ?_, Join.nodup_locations source distinct', ?_, ?_⟩
  · intro location block
    rw [← distinct'.block?_eq_some_iff, ← Listing.block?_eq_none_iff]
    exact (due _).trans Join.due?_eq_add_iff
  · intro location
    rw [← Listing.block?_eq_none_iff, ← Listing.block?_eq_none_iff.not_left]
    exact (due _).trans Join.due?_eq_remove_iff
  · intro location block
    simp only [← distinct'.block?_eq_some_iff, ← distinct.block?_eq_some_iff, ← Block.ne_iff]
    exact (due _).trans Join.due?_eq_modify_iff
  · exact (Join.ascending_operations source distinct').imp Location.before_of_compare
  · intro source' target' apart apart' sources targets
    exact Join.operations_congr distinct' apart'
      (funext fun location => apart.block?_eq_of_sameBlocks distinct sources location)
      (funext fun location => apart'.block?_eq_of_sameBlocks distinct' targets location)
  · intro left row leftover perm sorted
    have rows := (leftover.map fun entry => Operation.remove entry.1).append_left
      (Join.matched source target).2.2.reverse
    exact Join.eq_operations_of_perm distinct'
      ((perm.trans rows).trans (List.mergeSort_perm _ Join.inOrder).symm) sorted

/-- A file with two blocks and another with one, listed from behind. -/
def shuffled : Listing where
  maxBlockSize := 16
  blocks := [(⟨"b", 0⟩, .uniform 1), (⟨"a", 1⟩, .uniform 2), (⟨"a", 0⟩, .uniform 3)]

/-- A shorter first file, a second one whose block has grown, and a third. -/
def reshuffled : Listing where
  maxBlockSize := 8
  blocks := [(⟨"c", 0⟩, .uniform 4), (⟨"a", 0⟩, .uniform 3),
    (⟨"b", 0⟩, { Block.uniform 1 with size := 2 })]

theorem canonical_of_shuffled :
    shuffled.Distinct ∧ reshuffled.Distinct ∧
      .modify ⟨"b", 0⟩ { Block.uniform 1 with size := 2 } ∈
        (between shuffled reshuffled).operations ∧
      .remove ⟨"a", 1⟩ ∈ (between shuffled reshuffled).operations ∧
      (between ⟨16, shuffled.blocks.reverse⟩ ⟨8, reshuffled.blocks.reverse⟩).operations =
        (between shuffled reshuffled).operations := by
  have distinct : shuffled.Distinct := by
    unfold Listing.Distinct
    decide +kernel
  have distinct' : reshuffled.Distinct := by
    unfold Listing.Distinct
    decide +kernel
  have reversed {listing : Listing} (apart : listing.Distinct) :
      (Listing.mk listing.maxBlockSize listing.blocks.reverse).Distinct := by
    unfold Listing.Distinct at apart ⊢
    rwa [List.map_reverse, List.nodup_reverse]
  obtain ⟨-, removed, modified, -, -, congruent, -⟩ := between_canonical distinct distinct'
  refine ⟨distinct, distinct', (modified _ _).mpr ?_, (removed _).mpr ?_, ?_⟩
  · exact ⟨by decide +kernel, .uniform 1, by decide +kernel, by decide +kernel⟩
  · exact ⟨by decide +kernel, by decide +kernel⟩
  · exact congruent _ _ (reversed distinct) (reversed distinct')
      (fun _ => List.mem_reverse) (fun _ => List.mem_reverse)

end Delta

end BuildDelivery
