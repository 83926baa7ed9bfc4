import BuildDelivery.Block
import Mathlib.Data.List.Nodup

/-! Blocks without those whose hash came before. What is kept stands at the first places of the
hashes, in the order of the row; no hash is kept twice and none is lost. -/

set_option autoImplicit false

namespace BuildDelivery

theorem BlockHash.eq_of_bytes {left right : BlockHash} (same : left.bytes = right.bytes) :
    left = right := by
  obtain ⟨bytes, length⟩ := left
  obtain ⟨bytes', length'⟩ := right
  obtain rfl : bytes = bytes' := same
  rfl

section
variable {seen : Std.ExtTreeSet Bytes} {block : Block} {blocks rest : List Block}

theorem distinctFrom_of_seen (known : block.hash.bytes ∈ seen) :
    distinctFrom seen (block :: rest) = distinctFrom seen rest := by
  rw [distinctFrom, if_pos (Std.ExtTreeSet.mem_iff_contains.mp known)]

theorem distinctFrom_of_unseen (new : block.hash.bytes ∉ seen) :
    distinctFrom seen (block :: rest) =
      block :: distinctFrom (seen.insert block.hash.bytes) rest := by
  rw [distinctFrom, if_neg (Std.ExtTreeSet.mem_iff_contains.not.mp new)]

theorem notMem_insert_hash_iff {other : Block} :
    other.hash.bytes ∉ seen.insert block.hash.bytes ↔
      block.hash ≠ other.hash ∧ other.hash.bytes ∉ seen := by
  rw [Std.ExtTreeSet.mem_insert, Std.LawfulEqCmp.compare_eq_iff_eq, not_or]
  exact and_congr_left' (not_congr ⟨BlockHash.eq_of_bytes, congrArg BlockHash.bytes⟩)

/-- The hash of an entry is neither among those seen nor that of a block in front of it. -/
def IsFirst (seen : Std.ExtTreeSet Bytes) (blocks : List Block) (entry : Block × Nat) : Prop :=
  entry.1.hash.bytes ∉ seen ∧ ∀ other ∈ blocks.take entry.2, other.hash ≠ entry.1.hash

instance (seen : Std.ExtTreeSet Bytes) (blocks : List Block) (entry : Block × Nat) :
    Decidable (IsFirst seen blocks entry) :=
  inferInstanceAs (Decidable (_ ∧ _))

theorem isFirst_cons_iff {entry : Block × Nat} :
    IsFirst seen (block :: rest) (entry.1, entry.2 + 1) ↔
      IsFirst (seen.insert block.hash.bytes) rest entry := by
  rw [IsFirst, IsFirst, notMem_insert_hash_iff, List.take_succ_cons, List.forall_mem_cons,
    ← and_assoc, and_comm (a := block.hash ≠ entry.1.hash)]

theorem isFirst_insert_of_seen (known : block.hash.bytes ∈ seen) {entry : Block × Nat} :
    IsFirst (seen.insert block.hash.bytes) rest entry ↔ IsFirst seen rest entry := by
  refine and_congr_left fun _ => notMem_insert_hash_iff.trans (and_iff_right_of_imp fun new same => ?_)
  exact new (same ▸ known)

/-- The blocks that are kept are those at the first places of their hashes, in their order. -/
theorem distinctFrom_eq_filter (seen : Std.ExtTreeSet Bytes) (blocks : List Block) :
    distinctFrom seen blocks =
      (blocks.zipIdx.filter fun entry => IsFirst seen blocks entry).map Prod.fst := by
  induction blocks generalizing seen with
  | nil => rfl
  | cons block rest step =>
    -- The places behind the front are one higher than in the rest.
    have later : (rest.zipIdx 1).filter (fun entry => IsFirst seen (block :: rest) entry) =
        (rest.zipIdx.filter fun entry => IsFirst (seen.insert block.hash.bytes) rest entry).map
          fun entry => (entry.1, entry.2 + 1) := by
      rw [List.zipIdx_succ, List.filter_map]
      exact congrArg (List.map _) (List.filter_congr fun entry _ => by
        simp only [Function.comp_apply, isFirst_cons_iff])
    have first : IsFirst seen (block :: rest) (block, 0) ↔ block.hash.bytes ∉ seen := by
      simp [IsFirst]
    by_cases known : block.hash.bytes ∈ seen
    · rw [distinctFrom_of_seen known, step, List.zipIdx_cons, List.filter_cons, later]
      simp only [isFirst_insert_of_seen known, first, known, not_true_eq_false, decide_false,
        Bool.false_eq_true, if_false, List.map_map]
      rfl
    · rw [distinctFrom_of_unseen known, step, List.zipIdx_cons, List.filter_cons, later]
      simp only [first, known, not_false_eq_true, decide_true, if_true, List.map_cons, List.map_map]
      rfl

theorem sublist_distinctFrom (seen : Std.ExtTreeSet Bytes) (blocks : List Block) :
    (distinctFrom seen blocks).Sublist blocks := by
  induction blocks generalizing seen with
  | nil => exact .slnil
  | cons block rest step =>
    by_cases known : block.hash.bytes ∈ seen
    · rw [distinctFrom_of_seen known]
      exact (step seen).cons block
    · rw [distinctFrom_of_unseen known]
      exact (step _).cons_cons block

theorem unseen_of_mem_distinctFrom (member : block ∈ distinctFrom seen blocks) :
    block.hash.bytes ∉ seen := by
  rw [distinctFrom_eq_filter, List.mem_map] at member
  obtain ⟨entry, among, rfl⟩ := member
  have first : IsFirst seen blocks entry := of_decide_eq_true (List.mem_filter.mp among).2
  exact first.1

theorem nodup_hash_distinctFrom (seen : Std.ExtTreeSet Bytes) (blocks : List Block) :
    ((distinctFrom seen blocks).map Block.hash).Nodup := by
  induction blocks generalizing seen with
  | nil => exact .nil
  | cons block rest step =>
    by_cases known : block.hash.bytes ∈ seen
    · rw [distinctFrom_of_seen known]
      exact step seen
    · rw [distinctFrom_of_unseen known, List.map_cons, List.nodup_cons]
      refine ⟨fun again => ?_, step _⟩
      obtain ⟨other, member, same⟩ := List.mem_map.mp again
      exact (notMem_insert_hash_iff.mp (unseen_of_mem_distinctFrom member)).1 same.symm

/-- Every hash that was not seen before is kept. -/
theorem exists_mem_distinctFrom (member : block ∈ blocks) (new : block.hash.bytes ∉ seen) :
    ∃ kept ∈ distinctFrom seen blocks, kept.hash = block.hash := by
  induction blocks generalizing seen with
  | nil => cases member
  | cons first rest step =>
    by_cases known : first.hash.bytes ∈ seen
    · rw [distinctFrom_of_seen known]
      rcases List.mem_cons.mp member with rfl | later
      · exact absurd known new
      · exact step later new
    · rw [distinctFrom_of_unseen known]
      by_cases same : first.hash = block.hash
      · exact ⟨first, List.mem_cons_self, same⟩
      · have later : block ∈ rest := (List.mem_cons.mp member).resolve_left fun here =>
          same (congrArg Block.hash here).symm
        obtain ⟨kept, among, here⟩ := step later (notMem_insert_hash_iff.mpr ⟨same, new⟩)
        exact ⟨kept, List.mem_cons_of_mem first among, here⟩

theorem distinctBlocks_eq_filter (blocks : List Block) :
    distinctBlocks blocks =
      (blocks.zipIdx.filter fun entry =>
        (blocks.take entry.2).all fun other => other.hash ≠ entry.1.hash).map Prod.fst := by
  rw [distinctBlocks, distinctFrom_eq_filter]
  refine congrArg (List.map _) (List.filter_congr fun entry _ => ?_)
  simp [IsFirst, List.all_eq]

theorem exists_mem_distinctBlocks (member : block ∈ blocks) :
    ∃ kept ∈ distinctBlocks blocks, kept.hash = block.hash :=
  exists_mem_distinctFrom member Std.ExtTreeSet.not_mem_empty

end

end BuildDelivery
