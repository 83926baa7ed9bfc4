import BuildDelivery.Feed
import BuildDelivery.Wire.Payload

/-! Frames: a message behind a header of twelve bytes, which says how long the message is and
of which kind. A reader that finds fault with a frame has taken the whole frame from its feed,
or only the header if that is at fault. -/

set_option autoImplicit false

namespace BuildDelivery

structure Header where
  magic : Vector UInt8 4
  /-- The number of bytes behind the header. -/
  length : UInt32
  kind : MessageKind
  version : UInt8
  flags : UInt16
  deriving DecidableEq, Repr

namespace Header

def ofKind (kind : MessageKind) (length : UInt32) : Header :=
  ⟨protocolMagic, length, kind, protocolVersion, 0⟩

def check (header : Header) : Except ProtocolFault Unit :=
  if header.magic ≠ protocolMagic then .error (.magic header.magic)
  else if header.version ≠ protocolVersion then .error (.version header.version)
  else if maxPayloadSize < header.length.toNat then .error (.announcedSize header.length.toNat)
  else .ok ()

def encode (header : Header) : Vector UInt8 12 :=
  let length := header.length.toNat
  let flags := header.flags.toNat
  header.magic ++
    #v[UInt8.ofNat length, UInt8.ofNat (length / 256), UInt8.ofNat (length / 65536),
      UInt8.ofNat (length / 16777216)] ++
    #v[header.kind.toByte, header.version] ++
    #v[UInt8.ofNat flags, UInt8.ofNat (flags / 256)]

/-- The header that twelve bytes spell; the kind is judged first. -/
def decode (bytes : Vector UInt8 12) : Except ProtocolFault Header :=
  match MessageKind.ofByte? bytes[8] with
  | none => .error (.messageKind bytes[8])
  | some kind => do
    let header : Header := {
      magic := #v[bytes[0], bytes[1], bytes[2], bytes[3]]
      length := UInt32.ofNat (LittleEndian.decode [bytes[4], bytes[5], bytes[6], bytes[7]])
      kind := kind
      version := bytes[9]
      flags := UInt16.ofNat (LittleEndian.decode [bytes[10], bytes[11]]) }
    header.check
    return header

/-- The header at the front of a feed. A fault of the header leaves the feed behind it. -/
def read (short : SystemFault) (feed : Feed) : Except SystemFault (Except ProtocolFault Header × Feed) :=
  match feed.exactly short 12 with
  | .ok (bytes, rest) => .ok (decode bytes, rest)
  | .error fault => .error fault

end Header

namespace Message

def toBytes (message : Message) : Bytes := Wire.message.encode message

def ofBytes (bytes : Bytes) : Except ProtocolFault Message :=
  (Wire.message.decodeFront bytes).mapError .message

/-- The frame of a message, unless the message is too long. -/
def toFrame (message : Message) : Except ProtocolFault Bytes :=
  let payload := message.toBytes
  let size := payload.length
  if size ≤ maxPayloadSize then
    .ok ((Header.ofKind message.kind (UInt32.ofNat size)).encode.toList ++ payload)
  else .error (.payloadSize size)

/-- The message behind a header. -/
def ofPayload (header : Header) (bytes : Bytes) : Except ProtocolFault Message := do
  let message ← ofBytes bytes
  if message.kind ≠ header.kind then throw (.kindMismatch header.kind message.kind)
  return message

/-- The message at the front of a feed, which is the feed's frame as far as its header can be
trusted; a feed that is closed within a frame has the fault `short`. -/
def read (short : SystemFault) (feed : Feed) : Except SystemFault (Except ProtocolFault Message × Feed) :=
  match Header.read short feed with
  | .error fault => .error fault
  | .ok (.error fault, rest) => .ok (.error fault, rest)
  | .ok (.ok header, rest) =>
    match rest.exactly short header.length.toNat with
    | .ok (bytes, rest) => .ok (ofPayload header bytes.toList, rest)
    | .error fault => .error fault

theorem length_of_read {short : SystemFault} {feed rest : Feed}
    {result : Except ProtocolFault Message} (found : read short feed = .ok (result, rest)) :
    rest.bytes.length < feed.bytes.length := by
  have header {result : Except ProtocolFault Header} {rest : Feed}
      (found : Header.read short feed = .ok (result, rest)) :
      rest.bytes.length < feed.bytes.length := by
    unfold Header.read at found
    split at found
    · next bytes after taken =>
      cases found
      have := (Feed.exactly_eq_ok taken).1
      simp [this]
    · cases found
  unfold read at found
  split at found
  · cases found
  · next taken =>
    cases found
    exact header taken
  · next taken =>
    split at found
    · next bytes after more =>
      cases found
      have := header taken
      have := congrArg List.length (Feed.exactly_eq_ok more).1
      simp only [List.length_append] at this
      omega
    · cases found

end Message

/-- The answer to a question, from the first frame of a feed. -/
def Message.readReply (short : SystemFault) (feed : Feed) : Except Failure Response :=
  match Message.read short feed with
  | .error fault => .error (.system fault)
  | .ok (.error fault, _) => .error (.protocol fault)
  | .ok (.ok message, _) => message.toResponse

/-- The response in bytes of its own, without a message around it. -/
def Response.toBytes (response : Response) : Bytes := Wire.response.encode response

def Response.ofBytes (bytes : Bytes) : Except ProtocolFault Response :=
  (Wire.response.decodeFront bytes).mapError .response

end BuildDelivery
