import BuildDelivery.Wire.Frame

/-! Asking a server for the latest build. -/

set_option autoImplicit false

namespace BuildDelivery

/-- A way to peers: for an address, what the peer there sends once it was sent some bytes. -/
abbrev Network := String → Except SystemFault (Bytes → Feed)

def Network.unreachable : Network := fun _ => .error .networkUnreachable

/-- An address is a host and a port between colons, the last of which separates the two. -/
def Network.checkAddress (address : String) : Except SystemFault Unit :=
  match address.splitOn ":" with
  | [_] => .error .badAddress
  | parts =>
    match Numeral.read 10 65536 (parts.getLast?.getD "") with
    | .ok _ => .ok ()
    | .error _ => .error .badPort

def Request.fetch (request : Request) (network : Network) (address : String) :
    Except Failure Response := do
  (Network.checkAddress address).mapError .system
  let peer ← (network address).mapError .system
  let frame ← (Message.getLatestBuild request).toFrame.mapError .protocol
  Message.readReply .earlyEnd (peer frame)

end BuildDelivery
