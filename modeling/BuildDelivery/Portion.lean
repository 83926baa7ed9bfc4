import BuildDelivery.Feed
import BuildDelivery.Identity

/-! The hash of the front of a feed. A portion ends where its limit is used up or where its feed
is closed; it is read through a buffer, and what one read leaves in there goes to the hasher
before the next. -/

set_option autoImplicit false

namespace BuildDelivery

/-- A hash in the making, told by the bytes that it was given, the last of them first. Bytes
given one after another are hashed as if they had been given at once. -/
structure Hasher where
  given : Bytes

namespace Hasher

def start : Hasher := ⟨[]⟩

def update (hasher : Hasher) (bytes : Bytes) : Hasher := ⟨bytes.reverseAux hasher.given⟩

def finish (hasher : Hasher) : BlockHash := BlockHash.ofData hasher.given.reverse

@[simp] theorem update_nil (hasher : Hasher) : hasher.update [] = hasher := rfl

@[simp] theorem update_update (hasher : Hasher) (front back : Bytes) :
    (hasher.update front).update back = hasher.update (front ++ back) := by
  simp [update, List.reverseAux_eq]

@[simp] theorem finish_update_start (bytes : Bytes) :
    (start.update bytes).finish = BlockHash.ofData bytes := by
  simp [start, update, finish, List.reverseAux_eq]

end Hasher

/-- The next bytes of a feed, at most `limit` of them. -/
structure Portion where
  feed : Feed
  limit : Nat

namespace Portion

/-- One read into a buffer of `room` bytes. A portion without bytes to go leaves its feed alone. -/
def read (portion : Portion) (room : Nat) : Except SystemFault (Bytes × Portion) :=
  if portion.limit = 0 then .ok ([], portion)
  else
    match portion.feed.read (min room portion.limit) with
    | .error fault => .error fault
    | .ok (bytes, feed) => .ok (bytes, ⟨feed, portion.limit - bytes.length⟩)

def bufferSize : Nat := 8192

variable {portion rest : Portion} {room : Nat} {fault : SystemFault}

theorem read_eq_ok {bytes : Bytes} (positive : 0 < room)
    (found : portion.read room = .ok (bytes, rest)) :
    portion.feed.bytes = bytes ++ rest.feed.bytes ∧ rest.feed.ending = portion.feed.ending ∧
      rest.limit + bytes.length = portion.limit ∧
      (bytes = [] → portion.limit = 0 ∨ portion.feed.bytes = [] ∧ portion.feed.ending = .closed) := by
  unfold read at found
  split at found
  · next exhausted =>
    cases found
    exact ⟨rfl, rfl, rfl, fun _ => .inl exhausted⟩
  · next left =>
    split at found
    · cases found
    · next bytes feed here =>
      cases found
      have space : 0 < min room portion.limit := Nat.lt_min.mpr ⟨positive, Nat.pos_of_ne_zero left⟩
      obtain ⟨front, ending, short, last⟩ := Feed.read_eq_ok space here
      refine ⟨front, ending, Nat.sub_add_cancel ?_, fun none => .inr (last none)⟩
      exact Nat.le_trans short (Nat.min_le_right room portion.limit)

theorem read_eq_error (failed : portion.read room = .error fault) :
    0 < portion.limit ∧ portion.feed.bytes = [] ∧ portion.feed.ending = .broken fault := by
  unfold read at failed
  split at failed
  · cases failed
  · next left =>
    split at failed
    · next here =>
      cases failed
      exact ⟨Nat.pos_of_ne_zero left, Feed.read_eq_error here⟩
    · cases failed

/-- Gives a hasher everything up to the end of the portion. What is left is told with the hash. -/
def hash (hasher : Hasher) (portion : Portion) : Except SystemFault (BlockHash × Portion) :=
  match _ : portion.read bufferSize with
  | .error fault => .error fault
  | .ok (bytes, rest) =>
    if bytes = [] then .ok (hasher.finish, rest) else rest.hash (hasher.update bytes)
termination_by portion.limit
decreasing_by
  obtain ⟨-, -, limit, -⟩ := read_eq_ok (by decide) ‹portion.read bufferSize = .ok (bytes, rest)›
  have some : 0 < bytes.length := List.length_pos_iff.mpr ‹_›
  omega

/-- The hash is that of all bytes of the portion, however many reads they took. -/
theorem hash_eq_ok {hasher : Hasher} {hash : BlockHash}
    (found : portion.hash hasher = .ok (hash, rest)) :
    hash = (hasher.update (portion.feed.bytes.take portion.limit)).finish ∧
      rest.feed.bytes = portion.feed.bytes.drop portion.limit ∧
      rest.feed.ending = portion.feed.ending ∧
      rest.limit = portion.limit - portion.feed.bytes.length ∧
      (portion.limit ≤ portion.feed.bytes.length ∨ portion.feed.ending = .closed) := by
  fun_induction Portion.hash hasher portion with
  | case1 => cases found
  -- An empty read is the end of the portion: its limit is used up or its feed is closed.
  | case2 hasher portion left here =>
    cases found
    obtain ⟨front, ending, limit, last⟩ := read_eq_ok (by decide) here
    rw [List.nil_append] at front
    rw [List.length_nil, Nat.add_zero] at limit
    rcases last rfl with zero | ⟨none, closed⟩
    · simp [zero, limit, front, ending]
    · simp [none, closed, limit, ending, front.symm.trans none]
  | case3 hasher portion bytes left here some step =>
    obtain ⟨front, ending, limit, -⟩ := read_eq_ok (by decide) here
    obtain ⟨rfl, back, ending', limit', last⟩ := step found
    -- What was read and what the later reads take are together the front of the feed.
    have taken : portion.feed.bytes.take portion.limit = bytes ++ left.feed.bytes.take left.limit := by
      rw [front, ← limit, Nat.add_comm, List.take_length_add_append]
    have dropped : portion.feed.bytes.drop portion.limit = left.feed.bytes.drop left.limit := by
      rw [front, ← limit, Nat.add_comm, List.drop_length_add_append]
    have length : portion.feed.bytes.length = bytes.length + left.feed.bytes.length := by
      rw [front, List.length_append]
    refine ⟨by rw [taken, Hasher.update_update], back.trans dropped.symm, ending'.trans ending, ?_, ?_⟩
    · omega
    · rw [← ending]
      exact last.imp_left fun enough => by omega

theorem hash_eq_error {hasher : Hasher} (failed : portion.hash hasher = .error fault) :
    portion.feed.bytes.length < portion.limit ∧ portion.feed.ending = .broken fault := by
  fun_induction Portion.hash hasher portion with
  | case1 hasher portion fault here =>
    cases failed
    obtain ⟨some, none, broken⟩ := read_eq_error here
    exact ⟨by rwa [none], broken⟩
  | case2 => cases failed
  | case3 hasher portion bytes left here some step =>
    obtain ⟨front, ending, limit, -⟩ := read_eq_ok (by decide) here
    obtain ⟨few, broken⟩ := step failed
    refine ⟨?_, ending.symm.trans broken⟩
    rw [front, List.length_append]
    omega

end Portion

end BuildDelivery
