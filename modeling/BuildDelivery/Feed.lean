import BuildDelivery.Failure.System
import BuildDelivery.LittleEndian

/-! Bytes that arrive in pieces. A feed hands out its pieces one after another and then
ends: it is closed, it breaks with a fault, or it stays silent. What a reader collects from
it does not depend on how the bytes were cut. -/

set_option autoImplicit false

namespace BuildDelivery

/-- What happens after the last piece. -/
inductive Ending where
  | closed
  | broken (fault : SystemFault)
  deriving DecidableEq, Repr

/-- The pieces still to come, none of them handed out yet. -/
structure Feed where
  pieces : List Bytes
  ending : Ending
  deriving DecidableEq, Repr

namespace Feed

/-- Every byte still to come. -/
def bytes (feed : Feed) : Bytes := feed.pieces.flatten

/-- A byte string cut into pieces of at most `size` bytes; there are none of no bytes. -/
def cut (size : Nat) (data : Bytes) : List Bytes :=
  if size = 0 ∨ data = [] then [] else data.take size :: cut size (data.drop size)
termination_by data.length
decreasing_by
  have : 0 < data.length := List.length_pos_iff.mpr fun none => by simp_all
  simp only [List.length_drop]
  omega

def whole (data : Bytes) (ending : Ending) : Feed := ⟨[data], ending⟩

/-- A feed in pieces of at most `size` bytes. With pieces of no bytes it ends before the first. -/
def inPieces (size : Nat) (data : Bytes) (ending : Ending) : Feed := ⟨cut size data, ending⟩

/-- What a read of at most `room` bytes gives while these pieces are to come: the front of the
first that is not empty. -/
def readFront (room : Nat) (ending : Ending) : List Bytes → Except SystemFault (Bytes × Feed)
  | [] =>
    match ending with
    | .closed => .ok ([], ⟨[], .closed⟩)
    | .broken fault => .error fault
  | [] :: pieces => readFront room ending pieces
  | piece :: pieces => .ok (piece.take room, ⟨piece.drop room :: pieces, ending⟩)

/-- One read into a buffer of `room` bytes, which need not fill it. It gives nothing only at the
end of a feed that is closed. -/
def read (feed : Feed) (room : Nat) : Except SystemFault (Bytes × Feed) :=
  readFront room feed.ending feed.pieces

/-- Bytes collected from a feed, at most `count` of them, onto those collected before, which
are kept in reverse. An empty piece tells nothing. -/
def collect (count : Nat) (taken : Bytes) : List Bytes → Bytes × List Bytes
  | [] => (taken.reverse, [])
  | piece :: pieces =>
    if piece.length < count then
      collect (count - piece.length) (piece.reverseAux taken) pieces
    else (((piece.take count).reverseAux taken).reverse, piece.drop count :: pieces)

/-- The next `count` bytes, or fewer if the feed is closed before. -/
def upTo (feed : Feed) (count : Nat) : Except SystemFault (Bytes × Feed) :=
  let (taken, pieces) := collect count [] feed.pieces
  if taken.length < count then
    match feed.ending with
    | .closed => .ok (taken, ⟨pieces, .closed⟩)
    | .broken fault => .error fault
  else .ok (taken, ⟨pieces, feed.ending⟩)

/-- Exactly the next `count` bytes; a feed that is closed before has the fault `short`. -/
def exactly (feed : Feed) (short : SystemFault) (count : Nat) :
    Except SystemFault (Vector UInt8 count × Feed) :=
  match feed.upTo count with
  | .error fault => .error fault
  | .ok (taken, rest) =>
    if whole : taken.length = count then .ok (⟨taken.toArray, whole⟩, rest) else .error short

/-- All bytes that the feed still has, provided that it is closed after them. -/
def all (feed : Feed) : Except SystemFault Bytes :=
  match feed.ending with
  | .closed => .ok feed.bytes
  | .broken fault => .error fault

theorem bytes_whole (data : Bytes) (ending : Ending) : (whole data ending).bytes = data :=
  List.append_nil data

theorem flatten_cut {size : Nat} (positive : 0 < size) (data : Bytes) :
    (cut size data).flatten = data := by
  fun_induction cut size data with
  | case1 data nothing =>
    obtain rfl := nothing.resolve_left (Nat.ne_of_gt positive)
    rfl
  | case2 data some rest => rw [List.flatten_cons, rest, List.take_append_drop]

/-- Cutting bytes into pieces loses none and keeps their order. -/
theorem bytes_inPieces {size : Nat} (positive : 0 < size) (data : Bytes) (ending : Ending) :
    (inPieces size data ending).bytes = data := flatten_cut positive data

/-- A read takes bytes off the front, and some if there are any. -/
theorem read_eq_ok {feed rest : Feed} {room : Nat} {bytes : Bytes} (positive : 0 < room)
    (found : feed.read room = .ok (bytes, rest)) :
    feed.bytes = bytes ++ rest.bytes ∧ rest.ending = feed.ending ∧ bytes.length ≤ room ∧
      (bytes = [] → feed.bytes = [] ∧ feed.ending = .closed) := by
  obtain ⟨pieces, ending⟩ := feed
  change readFront room ending pieces = .ok (bytes, rest) at found
  fun_induction readFront room ending pieces with
  | case1 closed =>
    cases found
    exact ⟨rfl, closed.symm, Nat.zero_le room, fun _ => ⟨rfl, closed⟩⟩
  | case2 => cases found
  | case3 pieces step => exact step found
  | case4 piece pieces some =>
    cases found
    refine ⟨?_, rfl, List.length_take_le room piece, fun none => ?_⟩
    · change piece ++ pieces.flatten = piece.take room ++ (piece.drop room ++ pieces.flatten)
      rw [← List.append_assoc, List.take_append_drop]
    · rcases List.take_eq_nil_iff.mp none with zero | empty
      · omega
      · exact absurd empty some

theorem read_eq_error {feed : Feed} {room : Nat} {fault : SystemFault}
    (failed : feed.read room = .error fault) :
    feed.bytes = [] ∧ feed.ending = .broken fault := by
  obtain ⟨pieces, ending⟩ := feed
  change readFront room ending pieces = .error fault at failed
  fun_induction readFront room ending pieces with
  | case1 => cases failed
  | case2 fault broken =>
    cases failed
    exact ⟨rfl, broken⟩
  | case3 pieces step => exact step failed
  | case4 => cases failed

theorem collect_eq (count : Nat) (taken : Bytes) (pieces : List Bytes) :
    (collect count taken pieces).1 = taken.reverse ++ pieces.flatten.take count ∧
      (collect count taken pieces).2.flatten = pieces.flatten.drop count := by
  fun_induction collect count taken pieces with
  | case1 => simp
  | case2 count taken piece pieces short step =>
    obtain ⟨front, back⟩ := step
    constructor
    · rw [front]
      simp [List.take_append, List.take_of_length_le (Nat.le_of_lt short)]
    · rw [back]
      simp [List.drop_append, List.drop_of_length_le (Nat.le_of_lt short)]
  | case3 count taken piece pieces long =>
    have enough : count ≤ piece.length := Nat.le_of_not_lt long
    simp [List.take_append_of_le_length enough, List.drop_append_of_le_length enough]

/-- What is taken comes off the front of the bytes, and the rest stays. -/
theorem upTo_eq_ok {feed rest : Feed} {count : Nat} {taken : Bytes}
    (read : feed.upTo count = .ok (taken, rest)) :
    taken = feed.bytes.take count ∧ rest.bytes = feed.bytes.drop count ∧
      rest.ending = feed.ending := by
  obtain ⟨front, back⟩ := collect_eq count [] feed.pieces
  simp only [upTo] at read
  split at read
  · split at read
    · next closed =>
      simp only [Except.ok.injEq, Prod.mk.injEq] at read
      obtain ⟨rfl, rfl⟩ := read
      exact ⟨by simpa [bytes] using front, back, closed.symm⟩
    · cases read
  · simp only [Except.ok.injEq, Prod.mk.injEq] at read
    obtain ⟨rfl, rfl⟩ := read
    exact ⟨by simpa [bytes] using front, back, rfl⟩

theorem exactly_eq_ok {feed rest : Feed} {short : SystemFault} {count : Nat}
    {taken : Vector UInt8 count} (read : feed.exactly short count = .ok (taken, rest)) :
    feed.bytes = taken.toList ++ rest.bytes ∧ rest.ending = feed.ending := by
  simp only [exactly] at read
  split at read
  · cases read
  · next found =>
    split at read
    · simp only [Except.ok.injEq, Prod.mk.injEq] at read
      obtain ⟨rfl, rfl⟩ := read
      obtain ⟨front, back, ending⟩ := upTo_eq_ok found
      refine ⟨?_, ending⟩
      rw [back, Vector.toList_mk, front]
      exact (List.take_append_drop _ _).symm
    · cases read

end Feed

end BuildDelivery
