import BuildDelivery.Wire.Frame

/-! Reading frame after frame into one buffer. The buffer is kept from message to message: it is
cut off or filled up to the length that a header announces, and then the payload is written over
what it holds. -/

set_option autoImplicit false

namespace BuildDelivery

structure Codec where
  /-- What the last payload left behind. -/
  buffer : Bytes
  deriving DecidableEq, Repr

namespace Codec

def empty : Codec := ⟨[]⟩

/-- A buffer at a new length, with zeros where it was shorter. -/
def resize (buffer : Bytes) (length : Nat) : Bytes :=
  buffer.take length ++ List.replicate (length - buffer.length) 0

/-- A buffer after bytes were written over its front. -/
def overwrite (buffer bytes : Bytes) : Bytes := bytes ++ buffer.drop bytes.length

/-- As many bytes of a feed as a buffer holds, written over it. -/
def fill (short : SystemFault) (buffer : Bytes) (feed : Feed) : Except SystemFault (Bytes × Feed) :=
  match feed.exactly short buffer.length with
  | .error fault => .error fault
  | .ok (bytes, rest) => .ok (overwrite buffer bytes.toList, rest)

/-- The message at the front of a feed, which is made of the whole buffer. A stream that ends too
early leaves the buffer at the length that was announced. -/
def read (codec : Codec) (feed : Feed) :
    Except SystemFault (Except ProtocolFault Message × Feed) × Codec :=
  match Header.read .shortRead feed with
  | .error fault => (.error fault, codec)
  | .ok (.error fault, rest) => (.ok (.error fault, rest), codec)
  | .ok (.ok header, rest) =>
    let buffer := resize codec.buffer header.length.toNat
    match fill .shortRead buffer rest with
    | .error fault => (.error fault, ⟨buffer⟩)
    | .ok (buffer, rest) => (.ok (Message.ofPayload header buffer, rest), ⟨buffer⟩)

/-- Asks a question on a stream: what is sent, and the answer that the peer's bytes give. -/
def call (codec : Codec) (request : Request) (incoming : Feed) :
    Bytes × Except Failure Response × Codec :=
  match (Message.getLatestBuild request).toFrame with
  | .error fault => ([], .error (.protocol fault), codec)
  | .ok frame =>
    match codec.read incoming with
    | (.error fault, codec) => (frame, .error (.system fault), codec)
    | (.ok (.error fault, _), codec) => (frame, .error (.protocol fault), codec)
    | (.ok (.ok message, _), codec) => (frame, message.toResponse, codec)

theorem length_resize (buffer : Bytes) (length : Nat) : (resize buffer length).length = length := by
  simp only [resize, List.length_append, List.length_take, List.length_replicate]
  omega

/-- As many bytes as the buffer holds leave nothing of what it held. -/
theorem overwrite_eq {buffer bytes : Bytes} (whole : bytes.length = buffer.length) :
    overwrite buffer bytes = bytes := by
  rw [overwrite, whole, List.drop_length, List.append_nil]

theorem fill_eq {buffer : Bytes} {count : Nat} (size : buffer.length = count) (short : SystemFault)
    (feed : Feed) :
    fill short buffer feed =
      (feed.exactly short count).map fun (bytes, rest) => (bytes.toList, rest) := by
  subst size
  unfold fill
  cases feed.exactly short buffer.length with
  | error fault => rfl
  | ok taken => simp only [overwrite_eq Vector.length_toList, Except.map]

end Codec

end BuildDelivery
