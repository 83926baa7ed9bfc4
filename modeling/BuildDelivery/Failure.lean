import BuildDelivery.Failure.Protocol
import BuildDelivery.Failure.Storage

/-! Everything that can go wrong, by cause. Each cause has one wording; a failure also has
a code that survives the wire, and the code alone tells whether another attempt may help
and whether the thing asked for does not exist. -/

set_option autoImplicit false

namespace BuildDelivery

/-- Why an operation did not succeed. -/
inductive Failure where
  | system (fault : SystemFault)
  | request (fault : RequestFault)
  | buildNotFound (branch : BranchId) (targets : List Target)
  | store (fault : StoreFault)
  | manifest (fault : ManifestFault)
  | checksumMismatch (expected actual : Checksum)
  | delta (fault : DeltaFault)
  | interrupted
  | insufficientSpace (required available : UInt64)
  | settings (fault : SettingsFault)
  | protocol (fault : ProtocolFault)
  | internal (text : String)
  /-- A failure that a server reported. -/
  | remote (code : UInt32) (text : String)
  deriving DecidableEq, Repr

namespace Failure

def message : Failure → String
  | system fault => "I/O error: " ++ fault.message
  | request fault => "Invalid request: " ++ fault.message
  | buildNotFound branch targets =>
    "No published build for branch " ++ branch.toText ++ " on targets [" ++
      ", ".intercalate (targets.map Target.label) ++ "]"
  | store fault => "Manifest store failure: " ++ fault.message
  | manifest fault => fault.message
  | checksumMismatch expected actual =>
    "Checksum mismatch: expected " ++ expected.toText ++ ", got " ++ actual.toText
  | delta fault => "Corrupted diff: " ++ fault.message
  | interrupted => "Diff computation interrupted"
  | insufficientSpace required available =>
    s!"Insufficient disk space: {required} bytes required, {available} available"
  | settings fault => "Configuration error: " ++ fault.message
  | protocol fault => "Protocol error: " ++ fault.wording
  | internal text => "Internal error: " ++ text
  | remote code text => s!"Remote error {code.toNat}: " ++ text

def invalidRequestCode : UInt32 := 400

def notFoundCode : UInt32 := 404

def internalCode : UInt32 := 500

def unavailableCode : UInt32 := 503

/-- The code that stands for the failure on the wire. -/
def code : Failure → UInt32
  | request _ => invalidRequestCode
  | buildNotFound _ _ => notFoundCode
  | system _ | store _ => unavailableCode
  | remote code _ => code
  | _ => internalCode

/-- Another attempt may succeed. -/
def isRetryable : Failure → Bool
  | system _ | store _ => true
  | remote code _ => code == unavailableCode
  | _ => false

def isNotFound : Failure → Bool
  | buildNotFound _ _ => true
  | remote code _ => code == notFoundCode
  | _ => false

end Failure

namespace BuildId

def read (text : String) : Except Failure BuildId :=
  (ofHex text).mapError fun fault => .request (.buildId text fault)

end BuildId

namespace BlockHash

def read (text : String) : Except Failure BlockHash :=
  (ofHex text).mapError fun fault => .request (.blockHash text fault)

end BlockHash

namespace Target

def read (text : String) : Except Failure Target :=
  match ofSpelling? text with
  | some target => .ok target
  | none => .error (.request (.target text))

end Target

namespace Checksum

def read (text : String) : Except Failure Checksum :=
  ((Numeral.read 16 (Numeral.capacity 64) text).map fun value => Checksum.mk (UInt64.ofNat value)).mapError
    fun fault => .request (.checksum text fault)

def verify (actual expected : Checksum) : Except Failure Unit :=
  if actual = expected then .ok () else .error (.checksumMismatch expected actual)

end Checksum

end BuildDelivery
