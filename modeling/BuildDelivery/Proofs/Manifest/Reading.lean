import BuildDelivery.Manifest.Builder
import BuildDelivery.Proofs.Manifest.Chunking

/-! The blocks that a draft takes from a feed. They are those of the bytes of the feed, wherever
its reads begin and end. A feed that is closed leaves all of them; of a feed that breaks there
are those of full size, and the bytes behind them leave nothing. -/

set_option autoImplicit false

namespace BuildDelivery

namespace Feed

/-- A byte string as consecutive pieces of `size` bytes and a tail that is too short for one. -/
structure Division (size : Nat) (data : Bytes) (full : List Bytes) (tail : Bytes) : Prop where
  whole : data = full.flatten ++ tail
  full : ∀ piece ∈ full, piece.length = size
  short : tail.length < size

namespace Division

variable {size : Nat} {data piece tail : Bytes} {full : List Bytes}

theorem cons_iff :
    Division size data (piece :: full) tail ↔
      piece.length = size ∧ data.take size = piece ∧ Division size (data.drop size) full tail := by
  constructor
  · rintro ⟨rfl, all, short⟩
    obtain ⟨rfl, all⟩ := List.forall_mem_cons.mp all
    rw [List.flatten_cons, List.append_assoc, List.take_left, List.drop_left]
    exact ⟨rfl, rfl, rfl, all, short⟩
  · rintro ⟨length, rfl, whole, all, short⟩
    refine ⟨?_, List.forall_mem_cons.mpr ⟨length, all⟩, short⟩
    rw [List.flatten_cons, List.append_assoc, ← whole, List.take_append_drop]

theorem le_length (division : Division size data (piece :: full) tail) : size ≤ data.length := by
  obtain ⟨length, rfl, -⟩ := cons_iff.mp division
  rw [← length]
  exact List.length_take_le' size data

theorem unique {tail' : Bytes} {full' : List Bytes} (left : Division size data full tail)
    (right : Division size data full' tail') : full = full' ∧ tail = tail' := by
  -- A full piece on one side needs more bytes than a tail on the other can have.
  induction full generalizing data full' with
  | nil =>
    obtain rfl : data = tail := left.whole
    cases full' with
    | nil => exact ⟨rfl, right.whole⟩
    | cons piece full' => exact absurd right.le_length (Nat.not_le_of_lt left.short)
  | cons piece full step =>
    cases full' with
    | nil =>
      obtain rfl : data = tail' := right.whole
      exact absurd left.le_length (Nat.not_le_of_lt right.short)
    | cons piece' full' =>
      obtain ⟨-, rfl, later⟩ := cons_iff.mp left
      obtain ⟨-, rfl, later'⟩ := cons_iff.mp right
      obtain ⟨rfl, rfl⟩ := step later later'
      exact ⟨rfl, rfl⟩

/-- The pieces of a byte string are the full ones and what is left, if there is anything. -/
theorem cut_eq (positive : 0 < size) (division : Division size data full tail) :
    cut size data = full ++ if tail = [] then [] else [tail] := by
  induction full generalizing data with
  | nil =>
    obtain rfl : data = tail := division.whole
    split
    · next none => rw [none, cut_nil, List.append_nil]
    · next some => exact cut_of_length_le some (Nat.le_of_lt division.short)
  | cons piece full step =>
    have some : data ≠ [] := List.length_pos_iff.mp (Nat.lt_of_lt_of_le positive division.le_length)
    obtain ⟨-, rfl, later⟩ := cons_iff.mp division
    rw [cut_of_ne_nil positive some, step later, List.cons_append]

end Division

theorem exists_division {size : Nat} (positive : 0 < size) (data : Bytes) :
    ∃ full tail, Division size data full tail := by
  fun_induction cut size data with
  | case1 data nothing =>
    obtain rfl := nothing.resolve_left (Nat.ne_of_gt positive)
    exact ⟨[], [], rfl, by simp, positive⟩
  | case2 data some step =>
    rcases Nat.lt_or_ge data.length size with short | long
    · exact ⟨[], data, rfl, by simp, short⟩
    · obtain ⟨full, tail, division⟩ := step
      exact ⟨data.take size :: full, tail,
        Division.cons_iff.mpr ⟨List.length_take_of_le long, rfl, division⟩⟩

end Feed

namespace Portion

variable {feed : Feed} {limit : Nat}

/-- A portion that can be filled, or whose feed is closed, has a hash. -/
theorem exists_hash (enough : limit ≤ feed.bytes.length ∨ feed.ending = .closed) :
    ∃ rest, Portion.hash .start ⟨feed, limit⟩ = .ok (BlockHash.ofData (feed.bytes.take limit), rest) ∧
      rest.feed.bytes = feed.bytes.drop limit ∧ rest.feed.ending = feed.ending ∧
      rest.limit = limit - feed.bytes.length := by
  cases hashed : Portion.hash .start ⟨feed, limit⟩ with
  | error fault =>
    obtain ⟨few, broken⟩ := hash_eq_error hashed
    rcases enough with many | closed
    · exact absurd many (Nat.not_le_of_lt few)
    · cases closed.symm.trans broken
  | ok found =>
    obtain ⟨hash, rest⟩ := found
    obtain ⟨rfl, back, ending, left, -⟩ := hash_eq_ok hashed
    exact ⟨rest, by rw [Hasher.finish_update_start], back, ending, left⟩

theorem hash_of_broken {fault : SystemFault} (few : feed.bytes.length < limit)
    (broken : feed.ending = .broken fault) :
    Portion.hash .start ⟨feed, limit⟩ = .error fault := by
  cases hashed : Portion.hash .start ⟨feed, limit⟩ with
  | error fault' =>
    obtain ⟨-, broken'⟩ := hash_eq_error hashed
    cases broken.symm.trans broken'
    rfl
  | ok found =>
    obtain ⟨-, -, -, -, many | closed⟩ := hash_eq_ok hashed
    · exact absurd many (Nat.not_le_of_lt few)
    · cases closed.symm.trans broken

end Portion

namespace FileDraft

/-- A draft with more blocks behind its own. -/
def extended (draft : FileDraft) (blocks : List Block) : FileDraft :=
  { draft with blocks := draft.blocks ++ blocks }

@[simp] theorem extended_nil (draft : FileDraft) : draft.extended [] = draft := by
  simp [extended]

@[simp] theorem extended_extended (draft : FileDraft) (front back : List Block) :
    (draft.extended front).extended back = draft.extended (front ++ back) := by
  simp [extended]

variable {draft : FileDraft} {feed : Feed}

theorem append_of_fits {block : Block} (fits : block.fits draft.maxBlockSize) :
    draft.append block = .ok (draft.extended [block]) := if_pos fits

/-- The block of a piece that is not empty and not too long passes the check of its size. -/
theorem append_ofData (draft : FileDraft) {piece : Bytes} (some : 0 < piece.length)
    (short : piece.length ≤ draft.maxBlockSize.toNat) :
    draft.append (Block.ofData piece) = .ok (draft.extended [Block.ofData piece]) := by
  have single : Block.row draft.maxBlockSize piece = [Block.ofData piece] := by
    rw [Block.row, Feed.cut_of_length_le (List.length_pos_iff.mp some) short]
    rfl
  exact append_of_fits
    (Block.fits_of_mem_row (single ▸ List.mem_singleton_self (Block.ofData piece)))

/-- A round that fills its portion appends one block and leaves the rest to the next. -/
theorem appendFeed_of_long (positive : 0 < draft.maxBlockSize.toNat)
    (long : draft.maxBlockSize.toNat ≤ feed.bytes.length) :
    ∃ rest : Feed, rest.bytes = feed.bytes.drop draft.maxBlockSize.toNat ∧
      rest.ending = feed.ending ∧ ∀ following total,
        (draft.extended [.ofData (feed.bytes.take draft.maxBlockSize.toNat)]).appendFeed rest =
          (following, total) →
        draft.appendFeed feed = (following, total.map (draft.maxBlockSize.toNat + ·)) := by
  obtain ⟨rest, hashed, back, ending, left⟩ := Portion.exists_hash (.inl long)
  refine ⟨rest.feed, back, ending, fun following total later => ?_⟩
  have length := List.length_take_of_le long
  have added := append_ofData draft (by rwa [length]) (Nat.le_of_eq length)
  rw [Block.ofData, length, UInt32.ofNat_toNat] at added later
  rw [appendFeed]
  split
  · next failed => cases hashed.symm.trans failed
  · next found =>
    cases hashed.symm.trans found
    simp [left, long, Nat.ne_of_gt positive, added, later]

/-- The last round of a feed that is closed appends what is left, if there is anything. -/
theorem appendFeed_of_closed (draft : FileDraft)
    (short : feed.bytes.length < draft.maxBlockSize.toNat)
    (closed : feed.ending = .closed) :
    draft.appendFeed feed =
      (draft.extended (if feed.bytes = [] then [] else [.ofData feed.bytes]),
        .ok feed.bytes.length) := by
  obtain ⟨rest, hashed, -, -, left⟩ := Portion.exists_hash (.inr closed)
  rw [List.take_of_length_le (Nat.le_of_lt short)] at hashed
  have length : draft.maxBlockSize.toNat - rest.limit = feed.bytes.length := by omega
  rw [appendFeed]
  split
  · next failed => cases hashed.symm.trans failed
  · next found =>
    cases hashed.symm.trans found
    by_cases none : feed.bytes = []
    · simp [length, none]
    · have added := append_ofData draft (List.length_pos_iff.mpr none) (Nat.le_of_lt short)
      rw [Block.ofData] at added
      simp [length, none, added, short, Block.ofData]

/-- The last round of a feed that breaks appends nothing. -/
theorem appendFeed_of_broken {fault : SystemFault}
    (short : feed.bytes.length < draft.maxBlockSize.toNat)
    (broken : feed.ending = .broken fault) :
    draft.appendFeed feed = (draft, .error (.system fault)) := by
  have failed := Portion.hash_of_broken short broken
  rw [appendFeed]
  split
  · next found =>
    cases failed.symm.trans found
    rfl
  · next found => cases failed.symm.trans found

/-- The rounds before the last append the full pieces and count their bytes. -/
theorem appendFeed_of_division {full : List Bytes} {tail : Bytes}
    (positive : 0 < draft.maxBlockSize.toNat)
    (division : Feed.Division draft.maxBlockSize.toNat feed.bytes full tail) :
    ∃ rest : Feed, rest.bytes = tail ∧ rest.ending = feed.ending ∧ ∀ following total,
      (draft.extended (full.map Block.ofData)).appendFeed rest = (following, total) →
      draft.appendFeed feed = (following, total.map (full.flatten.length + ·)) := by
  -- The first full piece is that of a round; the draft and the feed that it leaves take up the rest.
  induction full generalizing draft feed with
  | nil =>
    refine ⟨feed, division.whole, rfl, fun following total last => ?_⟩
    rw [List.map_nil, extended_nil] at last
    cases total <;> simpa [Except.map] using last
  | cons piece full step =>
    obtain ⟨next, back, ending, round⟩ := appendFeed_of_long positive division.le_length
    obtain ⟨length, rfl, later⟩ := Feed.Division.cons_iff.mp division
    rw [← back] at later
    obtain ⟨rest, left, ending', run⟩ := @step (draft.extended [.ofData _]) next positive later
    refine ⟨rest, left, ending'.trans ending, fun following total last => ?_⟩
    rw [extended_extended] at run
    rw [round following _ (run following total last), List.flatten_cons, List.length_append, length]
    cases total <;> simp [Except.map, Nat.add_assoc]

/-- The blocks of a closed feed are those of its bytes, however they arrive. -/
theorem appendFeed_closed (positive : 0 < draft.maxBlockSize.toNat)
    (closed : feed.ending = .closed) :
    draft.appendFeed feed =
      (draft.extended (Block.row draft.maxBlockSize feed.bytes), .ok feed.bytes.length) := by
  obtain ⟨full, tail, division⟩ := Feed.exists_division positive feed.bytes
  obtain ⟨rest, rfl, ending, run⟩ := appendFeed_of_division positive division
  have last := appendFeed_of_closed (draft.extended (full.map Block.ofData)) division.short
    (ending.trans closed)
  have row : Block.row draft.maxBlockSize feed.bytes =
      full.map Block.ofData ++ if rest.bytes = [] then [] else [Block.ofData rest.bytes] := by
    rw [Block.row, division.cut_eq positive, List.map_append]
    split <;> rfl
  rw [run _ _ last, extended_extended, row, division.whole, List.length_append]
  rfl

/-- What a feed leaves in a draft, at every length and however its bytes arrive: behind the blocks
that were there come those of the full pieces and, if the feed is closed, that of a shorter piece at
the end. -/
theorem appendFeed_appends (draft : FileDraft) (feed : Feed)
    (positive : 0 < draft.maxBlockSize.toNat) :
    ∃ full tail, Feed.Division draft.maxBlockSize.toNat feed.bytes full tail ∧
      (∀ piece ∈ full ++ [tail], (Block.ofData piece).hash = BlockHash.ofData piece ∧
        (Block.ofData piece).size.toNat = piece.length) ∧
      (feed.ending = .closed →
        draft.appendFeed feed =
          ({ draft with
              blocks := draft.blocks ++ full.map Block.ofData ++
                if tail = [] then [] else [Block.ofData tail] },
            .ok feed.bytes.length)) ∧
      ∀ fault, feed.ending = .broken fault →
        draft.appendFeed feed =
          ({ draft with blocks := draft.blocks ++ full.map Block.ofData }, .error (.system fault)) := by
  obtain ⟨full, tail, division⟩ := Feed.exists_division positive feed.bytes
  refine ⟨full, tail, division, fun piece member => ⟨rfl, ?_⟩, fun closed => ?_,
    fun fault broken => ?_⟩
  · have short : piece.length ≤ draft.maxBlockSize.toNat := by
      rcases List.mem_append.mp member with among | last
      · exact Nat.le_of_eq (division.full piece among)
      · rw [List.mem_singleton.mp last]
        exact Nat.le_of_lt division.short
    exact UInt32.toNat_ofNat_of_lt' (Nat.lt_of_le_of_lt short draft.maxBlockSize.toNat_lt)
  · rw [appendFeed_closed positive closed, Block.row, division.cut_eq positive, List.map_append,
      extended, ← List.append_assoc]
    split <;> rfl
  · obtain ⟨rest, rfl, ending, run⟩ := appendFeed_of_division positive division
    rw [run _ _ (appendFeed_of_broken division.short (ending.trans broken))]
    rfl

theorem appendFeed_trickle :
    FileDraft.appendFeed ⟨"story.txt", 4, [.ofData [9]]⟩
        ⟨[[1, 2, 3], [], [4, 5], [6]], .closed⟩ =
      (⟨"story.txt", 4, [.ofData [9], .ofData [1, 2, 3, 4], .ofData [5, 6]]⟩, .ok 6) ∧
    FileDraft.appendFeed ⟨"story.txt", 4, [.ofData [9]]⟩
        ⟨[[1, 2, 3], [], [4, 5], [6]], .broken .idle⟩ =
      (⟨"story.txt", 4, [.ofData [9], .ofData [1, 2, 3, 4]]⟩, .error (.system .idle)) := by
  have division : Feed.Division 4 [1, 2, 3, 4, 5, 6] [[1, 2, 3, 4]] [5, 6] :=
    ⟨rfl, by simp, by decide⟩
  constructor
  · obtain ⟨full, tail, division', -, whole, -⟩ := appendFeed_appends
      ⟨"story.txt", 4, [.ofData [9]]⟩ ⟨[[1, 2, 3], [], [4, 5], [6]], .closed⟩ (by decide)
    obtain ⟨rfl, rfl⟩ := division'.unique division
    exact whole rfl
  · obtain ⟨full, tail, division', -, -, begun⟩ := appendFeed_appends
      ⟨"story.txt", 4, [.ofData [9]]⟩ ⟨[[1, 2, 3], [], [4, 5], [6]], .broken .idle⟩ (by decide)
    obtain ⟨rfl, rfl⟩ := division'.unique division
    exact begun .idle rfl

end FileDraft

end BuildDelivery
