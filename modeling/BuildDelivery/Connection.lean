import BuildDelivery.Wire.Frame

/-! A conversation on one connection. Every message that arrives is answered at once by one
frame; the conversation ends when the peer closes the stream or stays silent, or at the first
frame that is malformed. -/

set_option autoImplicit false

namespace BuildDelivery

/-- What a connection came to. -/
structure Transcript where
  /-- The frames that were sent, in order. -/
  written : List Bytes
  /-- The fault that ended the conversation, if one did. -/
  outcome : Except Failure Unit

namespace Connection

variable {m : Type → Type} [Monad m]

/-- Answers the messages that a peer sends until the conversation ends. -/
def serve (answer : Request → m (Except Failure Response)) (incoming : Feed) : m Transcript :=
  match _ : Message.read .earlyEnd incoming with
  | .error fault =>
    if fault.isEndOfStream ∨ fault = .idle then return ⟨[], .ok ()⟩
    else return ⟨[], .error (.system fault)⟩
  | .ok (.error fault, _) => return ⟨[], .error (.protocol fault)⟩
  | .ok (.ok message, rest) => do
    let reply ← message.respond answer
    match reply.toFrame with
    | .error fault => return ⟨[], .error (.protocol fault)⟩
    | .ok frame =>
      let transcript ← serve answer rest
      return { transcript with written := frame :: transcript.written }
termination_by incoming.bytes.length
decreasing_by exact Message.length_of_read ‹_›

end Connection

end BuildDelivery
