import BuildDelivery.Proofs.Outcome
import BuildDelivery.Proofs.Wire.Payload
import BuildDelivery.Wire.Frame

/-! A frame gives back its message. A reader that finds the frame at the front of a feed gets the
message, however the bytes are cut into pieces, and leaves the feed behind the frame. -/

set_option autoImplicit false

namespace BuildDelivery

/-- Bytes at the front of a feed are taken as they are, and the rest stays. -/
theorem Feed.exactly_of_front {feed : Feed} {count : Nat} (short : SystemFault)
    (front : Vector UInt8 count) {rest : Bytes} (arrives : feed.bytes = front.toList ++ rest) :
    ∃ next, feed.exactly short count = .ok (front, next) ∧ next.bytes = rest ∧
      next.ending = feed.ending := by
  obtain ⟨taken, left⟩ := collect_eq count [] feed.pieces
  have size : front.toList.length = count := Vector.length_toList
  have whole : (collect count [] feed.pieces).1 = front.toList := by
    rw [taken, List.reverse_nil, List.nil_append, ← bytes, arrives]
    exact List.take_left' size
  have behind : (collect count [] feed.pieces).2.flatten = rest := by
    rw [left, ← bytes, arrives]
    exact List.drop_left' size
  refine ⟨⟨(collect count [] feed.pieces).2, feed.ending⟩, ?_, behind, rfl⟩
  -- There is enough, so the ending of the feed does not matter.
  have enough : ¬(collect count [] feed.pieces).1.length < count := by
    rw [whole, size]
    exact Nat.lt_irrefl count
  have whole_size : (collect count [] feed.pieces).1.length = count := by rw [whole, size]
  have same : (⟨(collect count [] feed.pieces).1.toArray, whole_size⟩ : Vector UInt8 count) =
      front := by
    apply Vector.toArray_inj.mp
    simp only [whole, Vector.toArray_toList]
  have found : feed.upTo count = .ok ((collect count [] feed.pieces).1,
      ⟨(collect count [] feed.pieces).2, feed.ending⟩) := if_neg enough
  unfold exactly
  rw [found, ← same]
  exact dif_pos whole_size

/-- What a reader that wants more than a feed has is told. -/
def Ending.fault (short : SystemFault) : Ending → SystemFault
  | .closed => short
  | .broken fault => fault

/-- A feed that ends too early has nothing for a reader that wants more. -/
theorem Feed.exactly_of_few {feed : Feed} {count : Nat} (short : SystemFault)
    (few : feed.bytes.length < count) :
    feed.exactly short count = .error (feed.ending.fault short) := by
  obtain ⟨taken, -⟩ := collect_eq count [] feed.pieces
  have scarce : (collect count [] feed.pieces).1.length < count := by
    rw [taken, List.reverse_nil, List.nil_append, ← bytes, List.length_take]
    omega
  unfold exactly upTo
  simp only [if_pos scarce]
  cases feed.ending with
  | closed => exact dif_neg (Nat.ne_of_lt scarce)
  | broken fault => rfl

namespace LittleEndian

/-- Four bytes written one by one spell the number. -/
theorem decode_four (number : UInt32) :
    UInt32.ofNat (decode [UInt8.ofNat number.toNat, UInt8.ofNat (number.toNat / 256),
      UInt8.ofNat (number.toNat / 65536), UInt8.ofNat (number.toNat / 16777216)]) = number := by
  have small := number.toNat_lt
  apply UInt32.toNat_inj.mp
  simp only [decode, UInt8.toNat_ofNat', UInt32.toNat_ofNat']
  omega

theorem decode_two (number : UInt16) :
    UInt16.ofNat (decode [UInt8.ofNat number.toNat, UInt8.ofNat (number.toNat / 256)]) = number := by
  have small := number.toNat_lt
  apply UInt16.toNat_inj.mp
  simp only [decode, UInt8.toNat_ofNat', UInt16.toNat_ofNat']
  omega

end LittleEndian

namespace Header

theorem exists_four (bytes : Vector UInt8 4) : ∃ a b c d, bytes = #v[a, b, c, d] := by
  obtain ⟨⟨entries⟩, size⟩ := bytes
  change entries.length = 4 at size
  obtain ⟨a, later, rfl⟩ := List.exists_cons_of_length_eq_add_one size
  obtain ⟨b, later, rfl⟩ := List.exists_cons_of_length_eq_add_one (Nat.succ.inj size)
  obtain ⟨c, later, rfl⟩ := List.exists_cons_of_length_eq_add_one
    (Nat.succ.inj (Nat.succ.inj size))
  obtain ⟨d, rfl⟩ := List.length_eq_one_iff.mp (Nat.succ.inj (Nat.succ.inj (Nat.succ.inj size)))
  exact ⟨a, b, c, d, rfl⟩

theorem encode_four (a b c d : UInt8) (length : UInt32) (kind : MessageKind) (version : UInt8)
    (flags : UInt16) :
    encode ⟨#v[a, b, c, d], length, kind, version, flags⟩ =
      #v[a, b, c, d, UInt8.ofNat length.toNat, UInt8.ofNat (length.toNat / 256),
        UInt8.ofNat (length.toNat / 65536), UInt8.ofNat (length.toNat / 16777216), kind.toByte,
        version, UInt8.ofNat flags.toNat, UInt8.ofNat (flags.toNat / 256)] := rfl

theorem decode_twelve (a b c d e f g h kind version i j : UInt8) :
    decode #v[a, b, c, d, e, f, g, h, kind, version, i, j] =
      match MessageKind.ofByte? kind with
      | none => .error (.messageKind kind)
      | some kind =>
        let header : Header := ⟨#v[a, b, c, d], UInt32.ofNat (LittleEndian.decode [e, f, g, h]),
          kind, version, UInt16.ofNat (LittleEndian.decode [i, j])⟩
        header.check.map fun _ => header := rfl

/-- A header that is written is read as it was, if it is accepted at all. -/
theorem decode_encode (header : Header) :
    decode header.encode = header.check.map fun _ => header := by
  obtain ⟨magic, length, kind, version, flags⟩ := header
  obtain ⟨a, b, c, d, rfl⟩ := exists_four magic
  rw [encode_four, decode_twelve, MessageKind.ofByte?_toByte]
  simp only [LittleEndian.decode_four, LittleEndian.decode_two]

end Header

/-- A frame as far as its header tells: twelve bytes that are accepted as a header, and as many
bytes as it announces. -/
structure Framed (frame : Bytes) (header : Header) (payload : Bytes) : Prop where
  accepted : ∃ head : Vector UInt8 12, Header.decode head = .ok header ∧
    frame = head.toList ++ payload
  announced : payload.length = header.length.toNat

namespace Message

theorem toFrame_eq_ok_iff {message : Message} {frame : Bytes} :
    message.toFrame = .ok frame ↔ message.toBytes.length ≤ maxPayloadSize ∧
      frame = (Header.ofKind message.kind (UInt32.ofNat message.toBytes.length)).encode.toList ++
        message.toBytes := by
  unfold toFrame
  simp only
  split
  · next small => simp only [Except.ok.injEq, small, true_and, eq_comm]
  · next large => simp only [reduceCtorEq, large, false_and]

theorem exists_toFrame (message : Message) (small : message.toBytes.length ≤ maxPayloadSize) :
    ∃ frame, message.toFrame = .ok frame := ⟨_, toFrame_eq_ok_iff.mpr ⟨small, rfl⟩⟩

theorem ofPayload_toBytes {message : Message} {header : Header} (kinds : message.kind = header.kind)
    (small : message.toBytes.length ≤ maxPayloadSize) :
    ofPayload header message.toBytes = .ok message := by
  have short : (Wire.message.encode message).length < LittleEndian.capacity 8 :=
    Nat.lt_of_le_of_lt small (by decide)
  have back : Wire.message.decode message.toBytes = .ok (message, []) := by
    have written := Wire.message_roundTrips.readsBack message short []
    rwa [List.append_nil] at written
  have opened : ofBytes message.toBytes = .ok message := by
    apply mapError_eq_ok_iff.mpr
    unfold Wire.Format.decodeFront
    rw [back]
    rfl
  apply bind_eq_ok_iff.mpr
  exact ⟨message, opened, if_neg (not_not_intro kinds)⟩

/-- Twelve bytes that are no header are all that is taken. -/
theorem read_of_rejected {head : Vector UInt8 12} {fault : ProtocolFault} {rest : Bytes}
    {feed : Feed} (rejected : Header.decode head = .error fault)
    (arrives : feed.bytes = head.toList ++ rest) (short : SystemFault) :
    ∃ next, read short feed = .ok (.error fault, next) ∧ next.bytes = rest ∧
      next.ending = feed.ending := by
  obtain ⟨behind, taken, left, ending⟩ := Feed.exactly_of_front short head arrives
  refine ⟨behind, ?_, left, ending⟩
  unfold read Header.read
  rw [taken]
  simp only [rejected]

/-- Where the header is accepted the whole frame is taken, whatever its payload turns out to be. -/
theorem read_of_framed {header : Header} {frame payload rest : Bytes} {feed : Feed}
    (framed : Framed frame header payload) (arrives : feed.bytes = frame ++ rest)
    (short : SystemFault) :
    ∃ next, read short feed = .ok (ofPayload header payload, next) ∧ next.bytes = rest ∧
      next.ending = feed.ending := by
  obtain ⟨⟨head, accepted, rfl⟩, announced⟩ := framed
  rw [List.append_assoc] at arrives
  obtain ⟨behind, taken, left, ending⟩ := Feed.exactly_of_front short head arrives
  -- The reader asks for as many bytes as the header announces.
  let content : Vector UInt8 header.length.toNat := ⟨payload.toArray, announced⟩
  have same : content.toList = payload := rfl
  rw [← same] at left
  obtain ⟨next, more, last, ending'⟩ := Feed.exactly_of_front short content left
  refine ⟨next, ?_, last, ending'.trans ending⟩
  unfold read Header.read
  rw [taken]
  simp only [accepted]
  rw [more]
  simp only [same]

theorem framed_of_toFrame {message : Message} {frame : Bytes}
    (framed : message.toFrame = .ok frame) :
    Framed frame (Header.ofKind message.kind (UInt32.ofNat message.toBytes.length))
      message.toBytes := by
  obtain ⟨small, rfl⟩ := toFrame_eq_ok_iff.mp framed
  have limit : maxPayloadSize = 67108864 := rfl
  -- A payload within the limit has a length that fits its four bytes.
  have size : (UInt32.ofNat message.toBytes.length).toNat = message.toBytes.length := by
    rw [UInt32.toNat_ofNat', Nat.mod_eq_of_lt (by omega)]
  refine ⟨⟨_, ?_, rfl⟩, size.symm⟩
  rw [Header.decode_encode]
  unfold Header.check Header.ofKind
  simp only [ne_eq, not_true_eq_false, if_false, size, Nat.not_lt.mpr small, Except.map]

/-- A reader that finds the frame of a message at the front of a feed gets the message and leaves
the feed behind the frame. -/
theorem read_of_frame {message : Message} {frame rest : Bytes} {feed : Feed}
    (framed : message.toFrame = .ok frame) (arrives : feed.bytes = frame ++ rest)
    (short : SystemFault) :
    ∃ next, read short feed = .ok (.ok message, next) ∧ next.bytes = rest ∧
      next.ending = feed.ending := by
  have small := (toFrame_eq_ok_iff.mp framed).1
  have opened : ofPayload (Header.ofKind message.kind (UInt32.ofNat message.toBytes.length))
      message.toBytes = .ok message := ofPayload_toBytes rfl small
  rw [← opened]
  exact read_of_framed (framed_of_toFrame framed) arrives short

end Message

end BuildDelivery
