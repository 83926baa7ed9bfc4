import BuildDelivery.Failure.Content
import BuildDelivery.Failure.System
import BuildDelivery.Wire.Format

/-! What goes wrong with files that are kept: the builds of a store and the settings of a server. -/

set_option autoImplicit false

namespace BuildDelivery

/-- Files of a store that cannot be used. -/
inductive LoadFault where
  | system (fault : SystemFault)
  | wire (fault : Wire.Fault)
  | manifest (fault : ManifestFault)
  | request (fault : RequestFault)
  /-- The text breaks the syntax of its tables or holds values of the wrong kind. -/
  | tables
  deriving DecidableEq, Repr

def LoadFault.message : LoadFault → String
  | system fault => fault.message
  | wire fault => fault.message
  | manifest fault => fault.message
  | request fault => "Invalid request: " ++ fault.message
  | tables => "TOML parse error"

/-- Stores that cannot answer or do not accept a build. -/
inductive StoreFault where
  | differentContent (id : BuildId)
  | unknownBuild (id : BuildId)
  | notADirectory (path : String)
  | unreadable (path : String) (fault : LoadFault)
  | manifestMissing (channel : Channel) (id : BuildId)
  | other (text : String)
  deriving DecidableEq, Repr

def StoreFault.message : StoreFault → String
  | differentContent id => "build " ++ id.toHex ++ " is already published with different content"
  | unknownBuild id => "unknown build " ++ id.toHex
  | notADirectory path => path ++ " is not a directory"
  | unreadable path fault => path ++ ": " ++ fault.message
  | manifestMissing channel id =>
    "release " ++ channel.branch.toText ++ "/" ++ channel.target.name ++ " names build " ++
      id.toHex ++ " but its manifest is missing"
  | other text => text

/-- Settings that cannot be read, written or used. -/
inductive SettingsFault where
  | zeroInterval
  | zeroConnections
  | listenAddress (text : String)
  | unreadable (path : String) (fault : SystemFault)
  /-- The text breaks the syntax of its tables or holds values of the wrong kind. -/
  | tables
  | outOfRange
  | other (text : String)
  deriving DecidableEq, Repr

def SettingsFault.message : SettingsFault → String
  | zeroInterval => "diff_check_interval must be non-zero"
  | zeroConnections => "server.max_connections must be non-zero"
  | listenAddress text =>
    "invalid server.listen_addr " ++ Text.quote text ++ ": invalid socket address syntax"
  | unreadable path fault => "failed to read " ++ path ++ ": " ++ fault.message
  | tables => "TOML parse error"
  | outOfRange => "out-of-range value for u64 type"
  | other text => text

end BuildDelivery
