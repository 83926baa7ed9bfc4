import BuildDelivery.Delta.Apply

/-! What a client is told: the latest build, its checksum, and as much as the client needs
in order to know the manifest. -/

set_option autoImplicit false

namespace BuildDelivery

/-- How the manifest is conveyed. -/
inductive Payload where
  /-- The client holds the manifest. -/
  | upToDate
  | manifest (manifest : Manifest)
  /-- The changes from the manifest that the client holds. -/
  | delta (delta : Delta)
  deriving DecidableEq

def Payload.label : Payload → String
  | upToDate => "up-to-date"
  | manifest _ => "manifest"
  | delta _ => "diff"

structure Response where
  build : BuildId
  checksum : Checksum
  payload : Payload
  deriving DecidableEq

namespace Response

def isUpToDate (response : Response) : Bool := response.payload matches .upToDate

/-- The manifest that the payload conveys to a client that holds `held?`. -/
def conveyed (response : Response) (held? : Option Manifest) : Except Failure Manifest :=
  match response.payload, held? with
  | .manifest manifest, _ => .ok manifest
  | .upToDate, some held => .ok held
  | .upToDate, none => .error (.request .upToDateWithoutLocal)
  | .delta delta, held? => do
    delta.targetChecksum.verify response.checksum
    match held? with
    | some held => delta.apply held
    | none => throw (.request .deltaWithoutLocal)

/-- The latest manifest, for a client that holds `held?`. It has the checksum of the response. -/
def reconstruct (response : Response) (held? : Option Manifest) : Except Failure Manifest := do
  let manifest ← response.conveyed held?
  manifest.checksum.verify response.checksum
  return manifest

end Response

end BuildDelivery
