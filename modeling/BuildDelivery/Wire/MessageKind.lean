/-! The kinds of messages and the byte that announces each in a frame header. -/

set_option autoImplicit false

namespace BuildDelivery

inductive MessageKind where
  | getLatestBuild
  | latestBuild
  | error
  | ping
  | pong
  deriving DecidableEq, Repr

namespace MessageKind

def toByte : MessageKind → UInt8
  | getLatestBuild => 1
  | latestBuild => 2
  | error => 3
  | ping => 4
  | pong => 5

def ofByte? : UInt8 → Option MessageKind
  | 1 => some getLatestBuild
  | 2 => some latestBuild
  | 3 => some error
  | 4 => some ping
  | 5 => some pong
  | _ => none

def label : MessageKind → String
  | getLatestBuild => "GetLatestBuild"
  | latestBuild => "LatestBuild"
  | error => "Error"
  | ping => "Ping"
  | pong => "Pong"

theorem ofByte?_toByte (kind : MessageKind) : ofByte? kind.toByte = some kind := by
  cases kind <;> rfl

theorem toByte_of_ofByte? {byte : UInt8} {kind : MessageKind} (known : ofByte? byte = some kind) :
    kind.toByte = byte := by
  unfold ofByte? at known
  split at known <;> cases known <;> rfl

end MessageKind

end BuildDelivery
