import BuildDelivery.Connection
import BuildDelivery.Proofs.Outcome
import BuildDelivery.Proofs.Wire.Front

/-! What a conversation amounts to. Whoever answers questions, and however the bytes of the peer are
cut into pieces, the messages at their front are answered one after another as long as the replies
fit into frames. What the rest of the bytes is says how the conversation ends. -/

set_option autoImplicit false

namespace BuildDelivery.Connection

section Step

variable {m : Type → Type} [Monad m] (answer : Request → m (Except Failure Response)) {feed : Feed}

/-- One round of a conversation. -/
theorem serve_eq :
    serve answer feed =
      match Message.read .earlyEnd feed with
      | .error fault =>
        if fault.isEndOfStream ∨ fault = .idle then return ⟨[], .ok ()⟩
        else return ⟨[], .error (.system fault)⟩
      | .ok (.error fault, _) => return ⟨[], .error (.protocol fault)⟩
      | .ok (.ok message, rest) => do
        let reply ← message.respond answer
        match reply.toFrame with
        | .error fault => return ⟨[], .error (.protocol fault)⟩
        | .ok frame =>
          let transcript ← serve answer rest
          return { transcript with written := frame :: transcript.written } := by
  conv => lhs; unfold serve
  split
  · next ended => exact ended ▸ rfl
  · next faulty => exact faulty ▸ rfl
  · next arrived => exact arrived ▸ rfl

theorem serve_of_cutShort (closed : feed.ending = .closed) (cut : CutShort feed.bytes) :
    serve answer feed = pure ⟨[], .ok ()⟩ := by
  rw [serve_eq, Message.read_of_cutShort .earlyEnd closed cut]
  exact if_pos (.inl rfl)

theorem serve_of_malformed {fault : ProtocolFault} (malformed : Malformed feed.bytes fault) :
    serve answer feed = pure ⟨[], .error (.protocol fault)⟩ := by
  obtain ⟨next, found⟩ := Message.read_of_malformed .earlyEnd malformed
  rw [serve_eq, found]

/-- A message is answered before anything behind its frame is looked at. -/
theorem serve_of_carries {frame rest : Bytes} {message : Message} (carries : Carries frame message)
    (arrives : feed.bytes = frame ++ rest) :
    ∃ behind : Feed, behind.bytes = rest ∧ behind.ending = feed.ending ∧
      serve answer feed = (do
        let reply ← message.respond answer
        match reply.toFrame with
        | .error fault => return ⟨[], .error (.protocol fault)⟩
        | .ok sent =>
          let transcript ← serve answer behind
          return { transcript with written := sent :: transcript.written }) := by
  obtain ⟨behind, found, left, ending⟩ := Message.read_of_carries .earlyEnd carries arrives
  refine ⟨behind, left, ending, ?_⟩
  rw [serve_eq, found]

end Step

variable {σ : Type} {answer : Request → StateM σ (Except Failure Response)}

/-- Messages at the front of a byte string that are answered one after another, with the frames of
the replies, the state that the last answer leaves and the bytes behind the last message. -/
inductive Answered (answer : Request → StateM σ (Except Failure Response)) :
    σ → Bytes → List Message → List Bytes → σ → Bytes → Prop where
  | none {state : σ} {bytes : Bytes} : Answered answer state bytes [] [] state bytes
  | next {state between last : σ} {bytes frame rest left sent : Bytes} {message reply : Message}
      {messages : List Message} {written : List Bytes} :
      Carries frame message → bytes = frame ++ rest →
        (message.respond answer).run state = (reply, between) → reply.toFrame = .ok sent →
          Answered answer between rest messages written last left →
            Answered answer state bytes (message :: messages) (sent :: written) last left

/-- How a conversation ends where no further message is answered. -/
inductive Ends (answer : Request → StateM σ (Except Failure Response)) (state : σ) (bytes : Bytes) :
    Except Failure Unit → σ → Prop where
  | cutShort : CutShort bytes → Ends answer state bytes (.ok ()) state
  | malformed {fault : ProtocolFault} :
      Malformed bytes fault → Ends answer state bytes (.error (.protocol fault)) state
  /-- The reply to the next message is too long for a frame. -/
  | tooLong {last : σ} {frame rest : Bytes} {message reply : Message} {fault : ProtocolFault} :
      Carries frame message → bytes = frame ++ rest →
        (message.respond answer).run state = (reply, last) → reply.toFrame = .error fault →
          Ends answer state bytes (.error (.protocol fault)) last

variable {state last : σ} {bytes left : Bytes} {messages : List Message} {written : List Bytes}
  {outcome : Except Failure Unit} {feed : Feed}

/-- Where the conversation ends there is no next message to answer. -/
theorem Ends.not_next {between : σ} {frame rest sent : Bytes} {message reply : Message}
    (ends : Ends answer state bytes outcome last) (carries : Carries frame message)
    (split : bytes = frame ++ rest) (replied : (message.respond answer).run state = (reply, between)) :
    reply.toFrame ≠ .ok sent := by
  intro framed
  cases ends with
  | cutShort cut => exact cut.not_carries split carries
  | malformed malformed => exact malformed.not_carries split carries
  | tooLong carries' split' replied' long =>
    obtain ⟨rfl, -⟩ := carries.unique carries' (split.symm.trans split')
    cases replied.symm.trans replied'
    cases framed.symm.trans long

/-- Messages are answered until the conversation ends, which it does as bytes get fewer. -/
theorem exists_conversation (answer : Request → StateM σ (Except Failure Response)) (state : σ)
    (bytes : Bytes) :
    ∃ messages written between left outcome last,
      Answered answer state bytes messages written between left ∧
        Ends answer between left outcome last := by
  rcases cutShort_or_malformed_or_carries bytes with
    cut | ⟨fault, malformed⟩ | ⟨frame, message, rest, carries, split⟩
  · exact ⟨[], [], state, bytes, _, _, .none, .cutShort cut⟩
  · exact ⟨[], [], state, bytes, _, _, .none, .malformed malformed⟩
  cases replied : (message.respond answer).run state with
  | mk reply between =>
    cases framed : reply.toFrame with
    | error fault => exact ⟨[], [], state, bytes, _, _, .none, .tooLong carries split replied framed⟩
    | ok sent =>
      have fewer : rest.length < bytes.length := by
        have some := List.length_pos_iff.mpr carries.ne_nil
        rw [split, List.length_append]
        omega
      obtain ⟨messages, written, between, left, outcome, last, answered, ends⟩ :=
        exists_conversation answer between rest
      exact ⟨_, _, between, left, outcome, last, .next carries split replied framed answered, ends⟩
termination_by bytes.length

/-- Messages that are answered up to the end of the conversation continue all others that are
answered from the same start. -/
theorem Answered.continues {between between' : σ} {left' : Bytes} {messages' : List Message}
    {written' : List Bytes} (other : Answered answer state bytes messages' written' between' left')
    (answered : Answered answer state bytes messages written between left)
    (ends : Ends answer between left outcome last) :
    ∃ more sent, messages = messages' ++ more ∧ written = written' ++ sent ∧
      Answered answer between' left' more sent between left := by
  induction other generalizing messages written with
  | none => exact ⟨messages, written, rfl, rfl, answered⟩
  | next carries split replied framed _ step =>
    cases answered with
    | none => exact absurd framed (ends.not_next carries split replied)
    | next carries' split' replied' framed' later =>
      obtain ⟨rfl, rfl⟩ := carries.unique carries' (split.symm.trans split')
      cases replied.symm.trans replied'
      cases framed.symm.trans framed'
      obtain ⟨more, sent, rfl, rfl, rest⟩ := step later
      exact ⟨more, sent, rfl, rfl, rest⟩

section
variable {between : σ} {frame rest : Bytes} {message reply : Message}

/-- A reply that is too long for a frame ends the conversation, and nothing is sent for it. -/
theorem serve_of_tooLong {fault : ProtocolFault} (carries : Carries frame message)
    (arrives : feed.bytes = frame ++ rest)
    (replied : (message.respond answer).run state = (reply, between))
    (long : reply.toFrame = .error fault) :
    (serve answer feed).run state = (⟨[], .error (.protocol fault)⟩, between) := by
  obtain ⟨behind, -, -, same⟩ := serve_of_carries answer carries arrives
  rw [same, run_bind_of_run replied, long]
  rfl

/-- A reply that fits into a frame is sent, and the rest of the conversation follows. -/
theorem serve_of_reply {sent : Bytes} (carries : Carries frame message)
    (arrives : feed.bytes = frame ++ rest)
    (replied : (message.respond answer).run state = (reply, between))
    (framed : reply.toFrame = .ok sent) :
    ∃ behind : Feed, behind.bytes = rest ∧ behind.ending = feed.ending ∧
      ∀ transcript final, (serve answer behind).run between = (transcript, final) →
        (serve answer feed).run state =
          ({ transcript with written := sent :: transcript.written }, final) := by
  obtain ⟨behind, left, ending, same⟩ := serve_of_carries answer carries arrives
  refine ⟨behind, left, ending, fun transcript final later => ?_⟩
  rw [same, run_bind_of_run replied, framed, run_bind_of_run later]
  rfl

end

theorem serve_of_ends (closed : feed.ending = .closed)
    (ends : Ends answer state feed.bytes outcome last) :
    (serve answer feed).run state = (⟨[], outcome⟩, last) := by
  cases ends with
  | cutShort cut =>
    rw [serve_of_cutShort answer closed cut]
    rfl
  | malformed malformed =>
    rw [serve_of_malformed answer malformed]
    rfl
  | tooLong carries arrives replied long => exact serve_of_tooLong carries arrives replied long

/-- The frames of the replies are sent, and the rest of the conversation follows. -/
theorem serve_of_answered (answered : Answered answer state bytes messages written last left)
    (arrives : feed.bytes = bytes) :
    ∃ behind : Feed, behind.bytes = left ∧ behind.ending = feed.ending ∧
      ∀ transcript final, (serve answer behind).run last = (transcript, final) →
        (serve answer feed).run state =
          ({ transcript with written := written ++ transcript.written }, final) := by
  induction answered generalizing feed with
  | none => exact ⟨feed, arrives, rfl, fun _ _ served => served⟩
  | next carries split replied framed _ step =>
    obtain ⟨rest, follows, ending, first⟩ :=
      serve_of_reply carries (arrives.trans split) replied framed
    obtain ⟨behind, last, ending', served⟩ := step follows
    refine ⟨behind, last, ending'.trans ending, fun transcript final later => ?_⟩
    exact first _ _ (served transcript final later)

/-- On a stream that the peer closes, the longest row of messages at its front that can be answered
is answered, each by one frame, and nothing else is sent. The conversation ends well exactly if the
bytes behind these messages end before another frame is complete. -/
theorem serve_closed (answer : Request → StateM σ (Except Failure Response)) (state : σ)
    (closed : feed.ending = .closed) :
    ∃ messages written between left outcome last,
      Answered answer state feed.bytes messages written between left ∧
      (∀ messages' written' between' left',
        Answered answer state feed.bytes messages' written' between' left' → messages' <+: messages) ∧
      (serve answer feed).run state = (⟨written, outcome⟩, last) ∧
      Ends answer between left outcome last ∧ (outcome = .ok () ↔ CutShort left) := by
  obtain ⟨messages, written, between, left, outcome, last, answered, ends⟩ :=
    exists_conversation answer state feed.bytes
  refine ⟨messages, written, between, left, outcome, last, answered, ?_, ?_, ends, ?_⟩
  · intro messages' written' between' left' other
    obtain ⟨more, -, rfl, -⟩ := other.continues answered ends
    exact List.prefix_append messages' more
  · obtain ⟨behind, rfl, ending, served⟩ := serve_of_answered answered rfl
    rw [served _ _ (serve_of_ends (ending.trans closed) ends), List.append_nil]
  · cases ends with
    | cutShort cut => exact iff_of_true rfl cut
    | malformed malformed => exact iff_of_false nofun fun cut => cut.not_malformed malformed
    | tooLong carries split => exact iff_of_false nofun fun cut => cut.not_carries split carries

/-- Knows no build, and counts the questions. -/
def refuseAll (request : Request) : StateM Nat (Except Failure Response) := do
  modify (· + 1)
  return .error (.buildNotFound request.branch request.targets)

def question : Request := ⟨⟨7⟩, [.linuxX64], none⟩

def refusal : Message := .ofFailure (.buildNotFound question.branch question.targets)

/-- Twelve bytes that are no header. -/
def noHeader : Vector UInt8 12 := .replicate 12 0

theorem serve_noHeader :
    ∃ pinged asked ponged refused fault,
      (Message.ping 3).toFrame = .ok pinged ∧ (Message.getLatestBuild question).toFrame = .ok asked ∧
      (Message.pong 3).toFrame = .ok ponged ∧ refusal.toFrame = .ok refused ∧
      (serve refuseAll (.inPieces 7 (pinged ++ (asked ++ (noHeader.toList ++ pinged))) .closed)).run 0 =
        (⟨[ponged, refused], .error (.protocol fault)⟩, 1) := by
  obtain ⟨pinged, ping⟩ := (Message.ping 3).exists_toFrame (by decide)
  obtain ⟨asked, ask⟩ := (Message.getLatestBuild question).exists_toFrame (by decide)
  obtain ⟨ponged, pong⟩ := (Message.pong 3).exists_toFrame (by decide)
  obtain ⟨refused, refuse⟩ := refusal.exists_toFrame (by decide +kernel)
  have arrives := Feed.bytes_inPieces (Nat.succ_pos 6)
    (pinged ++ (asked ++ (noHeader.toList ++ pinged))) .closed
  have closed : (Feed.inPieces 7 (pinged ++ (asked ++ (noHeader.toList ++ pinged)))
      .closed).ending = .closed := rfl
  have malformed : Malformed (noHeader.toList ++ pinged) (.messageKind 0) := .header rfl rfl
  obtain ⟨messages, written, between, left, outcome, last, answered, -, served, ends, -⟩ :=
    serve_closed refuseAll 0 closed
  have first : Answered refuseAll 0 (Feed.inPieces 7 _ .closed).bytes
      [.ping 3, .getLatestBuild question] [ponged, refused] 1 (noHeader.toList ++ pinged) :=
    .next (carries_of_toFrame ping) arrives rfl pong
      (.next (carries_of_toFrame ask) rfl rfl refuse .none)
  obtain ⟨more, sent, rfl, rfl, rest⟩ := first.continues answered ends
  -- The third frame has no header, so that nothing more is answered.
  cases rest with
  | next carries split => exact absurd carries (malformed.not_carries split)
  | none =>
    cases ends with
    | cutShort cut => exact absurd malformed cut.not_malformed
    | malformed found => exact ⟨pinged, asked, ponged, refused, _, ping, ask, pong, refuse, served⟩
    | tooLong carries split => exact absurd carries (malformed.not_carries split)

end BuildDelivery.Connection
