import BuildDelivery.Proofs.Wire.Codec

/-! Finding the next frame. A reader takes a frame as a whole, whatever its payload turns out to
be, and only the header if that is rejected. What it reads afterwards depends on the bytes to come
and on how the feed ends, and neither on how the bytes are cut nor on what was read before. -/

set_option autoImplicit false

namespace BuildDelivery

namespace Feed

/-- The same bytes to come and the same ending, however the bytes are cut. -/
structure Alike (left right : Feed) : Prop where
  bytes : left.bytes = right.bytes
  ending : left.ending = right.ending

/-- The same fault, or the same value with feeds behind it that are alike. -/
inductive Agree {α : Type} : Except SystemFault (α × Feed) → Except SystemFault (α × Feed) → Prop where
  | fault (fault : SystemFault) : Agree (.error fault) (.error fault)
  | value (value : α) {left right : Feed} : Alike left right → Agree (.ok (value, left)) (.ok (value, right))

theorem Alike.exactly {left right : Feed} (alike : Alike left right) (short : SystemFault)
    (count : Nat) : Agree (left.exactly short count) (right.exactly short count) := by
  by_cases few : left.bytes.length < count
  · rw [exactly_of_few short few, exactly_of_few short (alike.bytes ▸ few), alike.ending]
    exact .fault _
  · have enough := List.length_take_of_le (Nat.le_of_not_lt few)
    let front : Vector UInt8 count := ⟨(left.bytes.take count).toArray, enough⟩
    have split : left.bytes = front.toList ++ left.bytes.drop count :=
      (List.take_append_drop count left.bytes).symm
    obtain ⟨next, taken, behind, ending⟩ := exactly_of_front short front split
    obtain ⟨next', taken', behind', ending'⟩ :=
      exactly_of_front short front (alike.bytes.symm.trans split)
    rw [taken, taken']
    exact .value front ⟨behind.trans behind'.symm, ending.trans (alike.ending.trans ending'.symm)⟩

theorem Alike.readHeader {left right : Feed} (alike : Alike left right) (short : SystemFault) :
    Agree (Header.read short left) (Header.read short right) := by
  have taken := alike.exactly short 12
  unfold Header.read
  generalize left.exactly short 12 = first at taken ⊢
  generalize right.exactly short 12 = second at taken ⊢
  cases taken with
  | fault fault => exact .fault fault
  | value bytes behind => exact .value _ behind

theorem Alike.readMessage {left right : Feed} (alike : Alike left right) (short : SystemFault) :
    Agree (Message.read short left) (Message.read short right) := by
  have judged := alike.readHeader short
  unfold Message.read
  generalize Header.read short left = first at judged ⊢
  generalize Header.read short right = second at judged ⊢
  cases judged with
  | fault fault => exact .fault fault
  | @value judged left right behind =>
    cases judged with
    | error fault => exact .value _ behind
    | ok header =>
      have taken := behind.exactly short header.length.toNat
      simp only
      generalize left.exactly short header.length.toNat = first at taken ⊢
      generalize right.exactly short header.length.toNat = second at taken ⊢
      cases taken with
      | fault fault => exact .fault fault
      | value payload last => exact .value _ last

end Feed

namespace Reader

variable {κ : Type} {read : Reader κ} {short : SystemFault} {feed : Feed}

/-- What up to `count` reads one after another give. A fault of the stream is the last of them. -/
def outcomes (read : Reader κ) : Nat → κ → Feed → List (Except SystemFault (Except ProtocolFault Message))
  | 0, _, _ => []
  | count + 1, kept, feed =>
    match read kept feed with
    | (.error fault, _) => [.error fault]
    | (.ok (judged, behind), between) => .ok judged :: outcomes read count between behind

/-- Reads on feeds that are alike give the same, whatever the readers kept. -/
theorem outcomes_of_alike (forgets : read.Forgets short) {left right : Feed}
    (alike : Feed.Alike left right) (count : Nat) (kept other : κ) :
    read.outcomes count kept left = read.outcomes count other right := by
  induction count generalizing left right kept other with
  | zero => rfl
  | succ count step =>
    have agree := alike.readMessage short
    rw [← forgets kept left, ← forgets other right] at agree
    unfold outcomes
    generalize read kept left = first at agree ⊢
    generalize read other right = second at agree ⊢
    obtain ⟨given, between⟩ := first
    obtain ⟨given', between'⟩ := second
    cases agree with
    | fault fault => rfl
    | value judged behind => exact congrArg _ (step behind between between')

/-- Whatever the reader kept, a read has this outcome, takes so many bytes and leaves these; and
the reads after it give what any reader of the kind gives where only these are to come. -/
def Resumes (read : Reader κ) (feed : Feed) (outcome : Except ProtocolFault Message) (size : Nat)
    (continuation : Bytes) : Prop :=
  ∀ kept, ∃ behind between, read kept feed = (.ok (outcome, behind), between) ∧
    behind.bytes = continuation ∧ feed.bytes.length = size + behind.bytes.length ∧
      ∀ (alone : Feed), alone.bytes = continuation → alone.ending = feed.ending →
        ∀ count other, read.outcomes count between behind = read.outcomes count other alone

theorem resumes_of_read (forgets : read.Forgets short) {outcome : Except ProtocolFault Message}
    {front continuation : Bytes} (arrives : feed.bytes = front ++ continuation)
    (found : ∃ next, Message.read short feed = .ok (outcome, next) ∧ next.bytes = continuation ∧
      next.ending = feed.ending) : read.Resumes feed outcome front.length continuation := by
  obtain ⟨next, found, left, ending⟩ := found
  intro kept
  refine ⟨next, _, Prod.ext ((forgets kept feed).trans found) rfl, left, ?_, ?_⟩
  · rw [arrives, left, List.length_append]
  · intro alone bytes ends count other
    exact outcomes_of_alike forgets ⟨left.trans bytes.symm, ending.trans ends.symm⟩ count _ other

/-- Behind a header that is accepted, a read takes the whole frame and comes to what the payload
is, be it a message, no message or one of another kind. Where the header is rejected, a read takes
only the header. Reading goes on as on the rest alone, with a buffer that is kept and without. -/
theorem resumes_behind_header (head : Vector UInt8 12) {rest : Bytes}
    (arrives : feed.bytes = head.toList ++ rest) :
    (∀ header payload continuation, Header.decode head = .ok header →
      payload.length = header.length.toNat → rest = payload ++ continuation →
        Resumes Codec.read feed (Message.ofPayload header payload) (12 + header.length.toNat)
          continuation ∧
        (plain .earlyEnd).Resumes feed (Message.ofPayload header payload)
          (12 + header.length.toNat) continuation) ∧
    (∀ fault, Header.decode head = .error fault →
      Resumes Codec.read feed (.error fault) 12 rest ∧
        (plain .earlyEnd).Resumes feed (.error fault) 12 rest) := by
  have twelve : head.toList.length = 12 := Vector.length_toList
  constructor
  · rintro header payload continuation accepted announced rfl
    rw [← List.append_assoc] at arrives
    have framed : Framed (head.toList ++ payload) header payload := ⟨⟨head, accepted, rfl⟩, announced⟩
    rw [← announced, ← twelve, ← List.length_append]
    exact ⟨resumes_of_read codec_forgets arrives (Message.read_of_framed framed arrives _),
      resumes_of_read (plain_forgets _) arrives (Message.read_of_framed framed arrives _)⟩
  · intro fault rejected
    rw [← twelve]
    exact ⟨resumes_of_read codec_forgets arrives (Message.read_of_rejected rejected arrives _),
      resumes_of_read (plain_forgets _) arrives (Message.read_of_rejected rejected arrives _)⟩

/-- The header of a ping. -/
def pingHeader : Header := .ofKind .ping 12

/-- The frame of a ping. -/
def pingFrame : Bytes := pingHeader.encode.toList ++ (Message.ping 4).toBytes

/-- A frame that announces a ping and holds a pong, and another frame behind it. -/
def mislabelled : Feed :=
  .inPieces 5 (pingHeader.encode.toList ++ ((Message.pong 3).toBytes ++ pingFrame)) .closed

/-- The header of a ping of another version. -/
def outdated : Header := { pingHeader with version := 2 }

theorem resumes_behind_faults :
    (Header.decode pingHeader.encode = .ok pingHeader ∧
      Resumes Codec.read mislabelled (.error (.kindMismatch .ping .pong)) 24 pingFrame) ∧
    Header.decode outdated.encode = .error (.version 2) ∧
      (plain .earlyEnd).Resumes (.inPieces 5 (outdated.encode.toList ++ pingFrame) .closed)
        (.error (.version 2)) 12 pingFrame := by
  have accepted : Header.decode pingHeader.encode = .ok pingHeader := by decide +kernel
  have announced : (Message.pong 3).toBytes.length = pingHeader.length.toNat := by decide +kernel
  have opened : Message.ofPayload pingHeader (Message.pong 3).toBytes =
      .error (.kindMismatch .ping .pong) := by
    decide +kernel
  have rejected : Header.decode outdated.encode = .error (.version 2) := by decide +kernel
  have arrives := Feed.bytes_inPieces (Nat.succ_pos 4)
    (pingHeader.encode.toList ++ ((Message.pong 3).toBytes ++ pingFrame)) .closed
  have arrives' := Feed.bytes_inPieces (Nat.succ_pos 4)
    (outdated.encode.toList ++ pingFrame) .closed
  have resumes := (resumes_behind_header pingHeader.encode arrives).1 pingHeader
    (Message.pong 3).toBytes pingFrame accepted announced rfl
  rw [opened] at resumes
  exact ⟨⟨accepted, resumes.1⟩, rejected,
    ((resumes_behind_header outdated.encode arrives').2 _ rejected).2⟩

end Reader

end BuildDelivery
