import BuildDelivery.Catalog.Lookup

/-! A catalog in memory. An id stays with the manifest that it was first given, and only builds
that are known can become the latest of a channel. -/

set_option autoImplicit false

namespace BuildDelivery

structure MemoryCatalog where
  builds : Std.ExtTreeMap BuildId Manifest
  current : Std.ExtTreeMap Channel BuildId
  deriving DecidableEq

namespace MemoryCatalog

def empty : MemoryCatalog := ⟨∅, ∅⟩

def buildCount (catalog : MemoryCatalog) : Nat := catalog.builds.size

def build? (catalog : MemoryCatalog) (id : BuildId) : Option Manifest := catalog.builds[id]?

def latest? (catalog : MemoryCatalog) (channel : Channel) : Option Published := do
  let id ← catalog.current[channel]?
  let manifest ← catalog.build? id
  return ⟨id, manifest⟩

/-- Binds an id to a manifest. To bind it to the same manifest again changes nothing. -/
def insert (catalog : MemoryCatalog) (id : BuildId) (manifest : Manifest) :
    Except StoreFault MemoryCatalog :=
  match catalog.build? id with
  | some known => if known = manifest then .ok catalog else .error (.differentContent id)
  | none => .ok { catalog with builds := catalog.builds.insert id manifest }

/-- Makes a known build the latest of a channel. -/
def setLatest (catalog : MemoryCatalog) (channel : Channel) (id : BuildId) :
    Except StoreFault MemoryCatalog :=
  match catalog.build? id with
  | some _ => .ok { catalog with current := catalog.current.insert channel id }
  | none => .error (.unknownBuild id)

/-- Binds an id to a manifest and then makes it the latest of a channel. -/
def publish (catalog : MemoryCatalog) (channel : Channel) (id : BuildId) (manifest : Manifest) :
    Except StoreFault MemoryCatalog := do
  let catalog ← catalog.insert id manifest
  catalog.setLatest channel id

def lookup : Catalog MemoryCatalog where
  latest channel catalog := (.ok (catalog.latest? channel), catalog)
  byId id catalog := (.ok (catalog.build? id), catalog)

end MemoryCatalog

end BuildDelivery
