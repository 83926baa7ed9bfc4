import BuildDelivery.Proofs.Wire.Frame

/-! What a byte string starts with. It ends before its first frame is complete, or the first frame
is at fault, or a message is read from it. A reader on a closed feed tells these cases apart, so no
byte string falls under two of them. -/

set_option autoImplicit false

namespace BuildDelivery

/-- A byte string that ends before its first frame is complete, as the empty one does. -/
inductive CutShort (bytes : Bytes) : Prop where
  | inHeader : bytes.length < 12 → CutShort bytes
  | inPayload {head : Vector UInt8 12} {header : Header} {payload : Bytes} :
      Header.decode head = .ok header → bytes = head.toList ++ payload →
        payload.length < header.length.toNat → CutShort bytes

/-- A byte string whose first frame is at fault: it has no header, or what the header announces is
no message or one of another kind. -/
inductive Malformed (bytes : Bytes) (fault : ProtocolFault) : Prop where
  | header {head : Vector UInt8 12} {rest : Bytes} :
      Header.decode head = .error fault → bytes = head.toList ++ rest → Malformed bytes fault
  | payload {frame payload rest : Bytes} {header : Header} :
      Framed frame header payload → Message.ofPayload header payload = .error fault →
        bytes = frame ++ rest → Malformed bytes fault

/-- A frame that a message is read from. The header may have any flags, and the message need not
take up all of the payload. -/
inductive Carries (frame : Bytes) (message : Message) : Prop where
  | ofPayload {header : Header} {payload : Bytes} :
      Framed frame header payload → Message.ofPayload header payload = .ok message →
        Carries frame message

theorem cutShort_or_malformed_or_carries (bytes : Bytes) :
    CutShort bytes ∨ (∃ fault, Malformed bytes fault) ∨
      ∃ frame message rest, Carries frame message ∧ bytes = frame ++ rest := by
  by_cases few : bytes.length < 12
  · exact .inl (.inHeader few)
  have enough : (bytes.take 12).length = 12 := List.length_take_of_le (Nat.le_of_not_lt few)
  let head : Vector UInt8 12 := ⟨(bytes.take 12).toArray, enough⟩
  have split : bytes = head.toList ++ bytes.drop 12 := (List.take_append_drop 12 bytes).symm
  cases judged : Header.decode head with
  | error fault => exact .inr (.inl ⟨fault, .header judged split⟩)
  | ok header =>
    by_cases short : (bytes.drop 12).length < header.length.toNat
    · exact .inl (.inPayload judged split short)
    let payload := (bytes.drop 12).take header.length.toNat
    let rest := (bytes.drop 12).drop header.length.toNat
    have framed : Framed (head.toList ++ payload) header payload :=
      ⟨⟨head, judged, rfl⟩, List.length_take_of_le (Nat.le_of_not_lt short)⟩
    have parts : bytes = head.toList ++ payload ++ rest := by
      rw [List.append_assoc, List.take_append_drop]
      exact split
    cases opened : Message.ofPayload header payload with
    | error fault => exact .inr (.inl ⟨fault, .payload framed opened parts⟩)
    | ok message => exact .inr (.inr ⟨_, message, rest, .ofPayload framed opened, parts⟩)

theorem carries_of_toFrame {message : Message} {frame : Bytes} (framed : message.toFrame = .ok frame) :
    Carries frame message :=
  .ofPayload (Message.framed_of_toFrame framed)
    (Message.ofPayload_toBytes rfl (Message.toFrame_eq_ok_iff.mp framed).1)

theorem Carries.ne_nil {frame : Bytes} {message : Message} (carries : Carries frame message) :
    frame ≠ [] := by
  obtain ⟨⟨⟨head, -, rfl⟩, -⟩, -⟩ := carries
  intro empty
  have size := congrArg List.length empty
  simp only [List.length_append, Vector.length_toList, List.length_nil] at size
  omega

namespace Message

variable {short : SystemFault} {feed : Feed}

theorem read_of_cutShort (short : SystemFault) (closed : feed.ending = .closed)
    (cut : CutShort feed.bytes) : read short feed = .error short := by
  cases cut with
  | inHeader few =>
    unfold read Header.read
    rw [Feed.exactly_of_few short few, closed]
    rfl
  | inPayload accepted arrives few =>
    obtain ⟨behind, taken, left, ending⟩ := Feed.exactly_of_front short _ arrives
    unfold read Header.read
    rw [taken]
    simp only [accepted]
    rw [Feed.exactly_of_few short (by rwa [left]), ending.trans closed]
    rfl

theorem read_of_malformed {fault : ProtocolFault} (short : SystemFault)
    (malformed : Malformed feed.bytes fault) :
    ∃ next, read short feed = .ok (.error fault, next) := by
  cases malformed with
  | header rejected arrives =>
    obtain ⟨next, found, -⟩ := read_of_rejected rejected arrives short
    exact ⟨next, found⟩
  | payload framed opened arrives =>
    obtain ⟨next, found, -⟩ := read_of_framed framed arrives short
    rw [opened] at found
    exact ⟨next, found⟩

theorem read_of_carries {frame rest : Bytes} {message : Message} (short : SystemFault)
    (carries : Carries frame message) (arrives : feed.bytes = frame ++ rest) :
    ∃ next, read short feed = .ok (.ok message, next) ∧ next.bytes = rest ∧
      next.ending = feed.ending := by
  obtain ⟨framed, opened⟩ := carries
  rw [← opened]
  exact read_of_framed framed arrives short

end Message

variable {bytes frame rest : Bytes} {message : Message} {fault : ProtocolFault}

theorem CutShort.not_malformed (cut : CutShort bytes) : ¬Malformed bytes fault := by
  intro malformed
  -- On a closed feed of these bytes a reader would get two different things.
  rw [← Feed.bytes_whole bytes .closed] at cut malformed
  obtain ⟨next, found⟩ := Message.read_of_malformed .earlyEnd malformed
  cases (Message.read_of_cutShort .earlyEnd rfl cut).symm.trans found

theorem CutShort.not_carries (cut : CutShort bytes) (split : bytes = frame ++ rest) :
    ¬Carries frame message := by
  intro carries
  rw [← Feed.bytes_whole bytes .closed] at cut split
  obtain ⟨next, found, -⟩ := Message.read_of_carries .earlyEnd carries split
  cases (Message.read_of_cutShort .earlyEnd rfl cut).symm.trans found

theorem Malformed.not_carries (malformed : Malformed bytes fault) (split : bytes = frame ++ rest) :
    ¬Carries frame message := by
  intro carries
  rw [← Feed.bytes_whole bytes .closed] at malformed split
  obtain ⟨next, found⟩ := Message.read_of_malformed .earlyEnd malformed
  obtain ⟨next', found', -⟩ := Message.read_of_carries .earlyEnd carries split
  cases found.symm.trans found'

/-- The message at the front of a byte string is one, and so is what follows its frame. -/
theorem Carries.unique {frame' rest' : Bytes} {message' : Message} (carries : Carries frame message)
    (carries' : Carries frame' message') (same : frame ++ rest = frame' ++ rest') :
    message = message' ∧ rest = rest' := by
  obtain ⟨next, found, left, -⟩ :=
    Message.read_of_carries .earlyEnd carries (Feed.bytes_whole (frame ++ rest) .closed)
  obtain ⟨next', found', left', -⟩ :=
    Message.read_of_carries .earlyEnd carries' ((Feed.bytes_whole (frame ++ rest) .closed).trans same)
  cases found.symm.trans found'
  exact ⟨rfl, left.symm.trans left'⟩

end BuildDelivery
