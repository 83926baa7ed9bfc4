import BuildDelivery.Address
import BuildDelivery.Delta.Join
import BuildDelivery.Failure.Storage
import BuildDelivery.Toml.Reader
import BuildDelivery.Toml.Writer

/-! The settings of a server. They stand in three sections of a document; whatever is not given
has its usual value. -/

set_option autoImplicit false

namespace BuildDelivery

/-- How questions are answered. -/
structure Policy where
  /-- The most changes that a delta may have to be sent instead of the manifest. -/
  maxChanges : Nat
  /-- Whether checksums are kept. -/
  keepsChecksums : Bool
  /-- The blocks between two looks at a request to stop. -/
  interval : Nat
  deriving DecidableEq, Repr

namespace Policy

def usual : Policy := ⟨2048, true, Delta.defaultInterval⟩

def check (policy : Policy) : Except SettingsFault Unit :=
  if policy.interval = 0 then .error .zeroInterval else .ok ()

/-- The same policy, with the usual interval for one of zero. -/
def repaired (policy : Policy) : Policy :=
  if policy.interval = 0 then { policy with interval := usual.interval } else policy

theorem interval_repaired_pos (policy : Policy) : 0 < policy.repaired.interval := by
  unfold repaired
  split
  · exact Nat.zero_lt_succ _
  · next some => exact Nat.pos_of_ne_zero some

theorem maxChanges_repaired (policy : Policy) : policy.repaired.maxChanges = policy.maxChanges := by
  unfold repaired
  split
  · rfl
  · rfl

theorem check_repaired (policy : Policy) : policy.repaired.check = .ok () :=
  if_neg (Nat.ne_of_gt policy.interval_repaired_pos)

end Policy

/-- Where a server listens and what it serves. -/
structure ServerSettings where
  listenAddress : String
  storeRoot : String
  maxConnections : Nat
  /-- The seconds that a connection may stay silent; zero means for ever. -/
  idleSeconds : Nat
  deriving DecidableEq, Repr

def ServerSettings.usual : ServerSettings := ⟨"127.0.0.1:47200", "./builds", 256, 300⟩

structure Settings where
  policy : Policy
  server : ServerSettings
  logFilter : String
  deriving DecidableEq, Repr

namespace Settings

def usual : Settings := ⟨.usual, .usual, "info"⟩

def address (settings : Settings) : Except SettingsFault Address :=
  match Address.read settings.server.listenAddress with
  | some address => .ok address
  | none => .error (.listenAddress settings.server.listenAddress)

def idleLimit? (settings : Settings) : Option Nat :=
  if settings.server.idleSeconds = 0 then none else some settings.server.idleSeconds

/-- Accepts settings that a server can work with, or tells the first that is wrong. -/
def check (settings : Settings) : Except SettingsFault Unit := do
  settings.policy.check
  let _ ← settings.address
  if settings.server.maxConnections = 0 then throw .zeroConnections

/-- A way to look up the settings of a section by place and name. In a table a setting has a
name, in an array it has a place; a point in time has neither. -/
def section? : Option Toml.Value → Option (Nat → String → Option Toml.Value)
  | none | some (.moment _) => some fun _ _ => none
  | some (.table _ entries) => some fun _ name => Toml.Entries.get? entries name
  | some (.array _ elements) => some fun place _ => elements[place]?
  | some _ => none

def naturalOf? : Toml.Value → Option Nat
  | .integer number => if 0 ≤ number then some number.toNat else none
  | _ => none

def textOf? : Toml.Value → Option String
  | .text content => some content
  | _ => none

def booleanOf? : Toml.Value → Option Bool
  | .boolean truth => some truth
  | _ => none

/-- The value of a setting, or the usual one where it is not given. -/
def setting {α : Type} (read : Toml.Value → Option α) (usual : α) : Option Toml.Value → Option α
  | none => some usual
  | some value => read value

/-- The settings in the entries of a document. Entries of other names do not matter. -/
def ofEntries (entries : Toml.Entries) : Option Settings := do
  let service ← section? (entries.get? "service")
  let maxChanges ← setting naturalOf? Policy.usual.maxChanges (service 0 "diff_change_threshold")
  let keepsChecksums ← setting booleanOf? Policy.usual.keepsChecksums (service 1 "cache_checksums")
  let interval ← setting naturalOf? Policy.usual.interval (service 2 "diff_check_interval")
  let server ← section? (entries.get? "server")
  let usual := ServerSettings.usual
  let listenAddress ← setting textOf? usual.listenAddress (server 0 "listen_addr")
  let storeRoot ← setting textOf? usual.storeRoot (server 1 "store_root")
  let maxConnections ← setting naturalOf? usual.maxConnections (server 2 "max_connections")
  let idleSeconds ← setting naturalOf? usual.idleSeconds (server 3 "read_timeout_secs")
  let logging ← section? (entries.get? "logging")
  let logFilter ← setting textOf? Settings.usual.logFilter (logging 0 "filter")
  return ⟨⟨maxChanges, keepsChecksums, interval⟩,
    ⟨listenAddress, storeRoot, maxConnections, idleSeconds⟩, logFilter⟩

/-- The settings in a document, provided that a server can work with them. -/
def ofText (document : String) : Except SettingsFault Settings :=
  match (Toml.read document).bind ofEntries with
  | none => .error .tables
  | some settings => do
    settings.check
    return settings

/-- The settings as a document. A number needs to be one that documents can hold. -/
def toText (settings : Settings) : Except SettingsFault String :=
  let numbers := [settings.policy.maxChanges, settings.policy.interval,
    settings.server.maxConnections, settings.server.idleSeconds]
  if numbers.any (Toml.integerBound ≤ ·) then .error .outOfRange
  else
    let line (name value : String) := name ++ " = " ++ value ++ "\n"
    .ok ("[service]\n" ++
      line "diff_change_threshold" (toString settings.policy.maxChanges) ++
      line "cache_checksums" (toString settings.policy.keepsChecksums) ++
      line "diff_check_interval" (toString settings.policy.interval) ++
      "\n[server]\n" ++
      line "listen_addr" (Toml.writeText settings.server.listenAddress) ++
      line "store_root" (Toml.writeText settings.server.storeRoot) ++
      line "max_connections" (toString settings.server.maxConnections) ++
      line "read_timeout_secs" (toString settings.server.idleSeconds) ++
      "\n[logging]\n" ++
      line "filter" (Toml.writeText settings.logFilter))

end Settings

end BuildDelivery
