import BuildDelivery.Text.Quoted
import BuildDelivery.Wire.Format
import BuildDelivery.Wire.MessageKind

/-! What is wrong with bytes that arrive: with the header of a message or with the message. -/

set_option autoImplicit false

namespace BuildDelivery

/-- The most bytes that a message may have behind its header. -/
def maxPayloadSize : Nat := 67108864

def protocolMagic : Vector UInt8 4 := #v[66, 83, 89, 78]

def protocolVersion : UInt8 := 1

/-- Bytes that break the message protocol. -/
inductive ProtocolFault where
  | messageKind (byte : UInt8)
  | magic (found : Vector UInt8 4)
  | version (found : UInt8)
  /-- A header announces more bytes than a payload may have. -/
  | announcedSize (size : Nat)
  /-- A payload has more bytes than it may have. -/
  | payloadSize (size : Nat)
  | message (fault : Wire.Fault)
  | response (fault : Wire.Fault)
  | kindMismatch (header payload : MessageKind)
  | unexpectedReply (kind : MessageKind)
  | other (text : String)
  deriving DecidableEq, Repr

def byteListText (bytes : Bytes) : String :=
  "[" ++ ", ".intercalate (bytes.map fun byte => toString byte.toNat) ++ "]"

namespace ProtocolFault

def wording : ProtocolFault → String
  | messageKind byte => "Invalid message type: 0x" ++ String.ofList (Text.hexDigits byte.toNat)
  | magic found =>
    "Invalid magic: expected " ++ byteListText protocolMagic.toList ++ ", got " ++
      byteListText found.toList
  | version found =>
    s!"Unsupported version: expected {protocolVersion.toNat}, got {found.toNat}"
  | announcedSize size => s!"Payload too large: {size} > {maxPayloadSize}"
  | payloadSize size => s!"Payload exceeds maximum size: {size} > {maxPayloadSize}"
  | message fault => "Failed to decode message: " ++ fault.message
  | response fault => "Failed to decode response: " ++ fault.message
  | kindMismatch header payload =>
    "Header type " ++ header.label ++ " does not match payload " ++ payload.label
  | unexpectedReply kind => "Unexpected reply: " ++ kind.label
  | other text => text

end ProtocolFault

end BuildDelivery
