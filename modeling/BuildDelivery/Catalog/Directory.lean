import BuildDelivery.Catalog.Lookup
import BuildDelivery.Toml.Reader
import BuildDelivery.Wire.Payload

/-! A catalog in a directory that a publisher writes. A document lists the latest build of every
channel and is read anew for every question; of two entries for one channel the later counts.
The manifest of each build is a file of its own, which is read until it was once found valid. -/

set_option autoImplicit false

namespace BuildDelivery

/-- Files as they are at one moment. -/
structure Disk where
  isDirectory : String → Bool
  read : String → Except SystemFault Bytes

def Disk.readText (disk : Disk) (path : String) : Except SystemFault String :=
  match disk.read path with
  | .error fault => .error fault
  | .ok bytes => (Utf8.decode bytes).mapError fun _ => .notText

/-- An entry of the list of latest builds; its build is still to be read. -/
structure Release where
  channel : Channel
  build : String
  deriving DecidableEq, Repr

namespace Release

/-- A target, by its name or as the only key of a table that says nothing about it. -/
def targetOf? (value : Toml.Value) : Option Target :=
  let named (name : String) (content : Toml.Value) : Option Target :=
    match content with
    | .table _ [] | .array _ [] => Target.ofName? name
    | _ => none
  match value with
  | .text name => Target.ofName? name
  | .table _ [(name, content)] => named name content
  | _ => none

/-- A part of an entry, by its name or by its place. -/
def part? (value : Toml.Value) (place : Nat) (name : String) : Option Toml.Value :=
  match value with
  | .table _ entries => Toml.Entries.get? entries name
  | .array _ elements => elements[place]?
  | _ => none

def ofValue? (value : Toml.Value) : Option Release :=
  match part? value 0 "branch", (part? value 1 "target").bind targetOf?, part? value 2 "build" with
  | some (.integer number), some target, some (.text build) =>
    if 0 ≤ number then some ⟨⟨⟨UInt64.ofNat number.toNat⟩, target⟩, build⟩ else none
  | _, _, _ => none

def listOf? (document : String) : Option (List Release) := do
  let entries ← Toml.read document
  match entries.get? "release" with
  | none => some []
  | some (.array _ elements) => elements.mapM ofValue?
  | some _ => none

end Release

/-- A directory of builds, and the manifests that were found valid in it so far. -/
structure DirectoryCatalog where
  root : String
  loaded : Std.ExtTreeMap BuildId Manifest
  deriving DecidableEq

namespace DirectoryCatalog

/-- The longest build id, in bytes, that has a file. -/
def maxIdLength : Nat := 64

def ofRoot (disk : Disk) (root : String) : Except StoreFault DirectoryCatalog :=
  if disk.isDirectory root then .ok ⟨root, ∅⟩ else .error (.notADirectory root)

def releasesPath (catalog : DirectoryCatalog) : String := Path.join catalog.root "releases.toml"

def manifestPath (catalog : DirectoryCatalog) (id : BuildId) : String :=
  Path.join (Path.join catalog.root "builds") (id.toHex ++ ".manifest")

/-- The entries of the list of latest builds. Without a list there are none. -/
def releases (catalog : DirectoryCatalog) (disk : Disk) : Except StoreFault (List Release) :=
  match disk.readText catalog.releasesPath with
  | .error .notFound => .ok []
  | .error fault => .error (.unreadable catalog.releasesPath (.system fault))
  | .ok document =>
    match Release.listOf? document with
    | some releases => .ok releases
    | none => .error (.unreadable catalog.releasesPath .tables)

def readManifest (bytes : Bytes) : Except LoadFault Manifest := do
  let manifest ← (Manifest.ofBytes bytes).mapError .wire
  manifest.check.mapError .manifest
  return manifest

/-- The manifest in the file of a build. -/
def load (catalog : DirectoryCatalog) (disk : Disk) (id : BuildId) :
    Except StoreFault (Option Manifest) :=
  let path := catalog.manifestPath id
  match disk.read path with
  | .error .notFound => .ok none
  | .error fault => .error (.unreadable path (.system fault))
  | .ok bytes => (readManifest bytes).map some |>.mapError (.unreadable path)

/-- The manifest of a build. Ids without a file are unknown. -/
def byId (catalog : DirectoryCatalog) (disk : Disk) (id : BuildId) :
    Except StoreFault (Option Manifest) × DirectoryCatalog :=
  if id.isEmpty ∨ maxIdLength < id.bytes.length then (.ok none, catalog)
  else
    match catalog.loaded[id]? with
    | some manifest => (.ok (some manifest), catalog)
    | none =>
      match catalog.load disk id with
      | .ok (some manifest) =>
        (.ok (some manifest), { catalog with loaded := catalog.loaded.insert id manifest })
      | answer => (answer, catalog)

def latest (catalog : DirectoryCatalog) (disk : Disk) (channel : Channel) :
    Except StoreFault (Option Published) × DirectoryCatalog :=
  match catalog.releases disk with
  | .error fault => (.error fault, catalog)
  | .ok releases =>
    match releases.reverse.find? (·.channel = channel) with
    | none => (.ok none, catalog)
    | some release =>
      match BuildId.ofHex release.build with
      | .error fault =>
        (.error (.unreadable catalog.releasesPath (.request (.buildId release.build fault))), catalog)
      | .ok id =>
        match catalog.byId disk id with
        | (.ok (some manifest), catalog) => (.ok (some ⟨id, manifest⟩), catalog)
        | (.ok none, catalog) => (.error (.manifestMissing channel id), catalog)
        | (.error fault, catalog) => (.error fault, catalog)

/-- The catalog as it answers clients while the files are as on `disk`. -/
def lookup (disk : Disk) : Catalog DirectoryCatalog where
  latest channel catalog :=
    let (answer, catalog) := catalog.latest disk channel
    (answer.mapError .store, catalog)
  byId id catalog :=
    let (answer, catalog) := catalog.byId disk id
    (answer.mapError .store, catalog)

end DirectoryCatalog

end BuildDelivery
