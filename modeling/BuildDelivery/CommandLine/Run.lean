import BuildDelivery.Client
import BuildDelivery.CommandLine.Arguments
import BuildDelivery.Installation
import BuildDelivery.Settings

/-! What the commands do: they read and write files, may ask a server, and print what they found.
A command that fails has printed what it found before. -/

set_option autoImplicit false

namespace BuildDelivery.CommandLine

/-- Why a command failed. -/
inductive Complaint where
  | failure (failure : Failure)
  | system (fault : SystemFault)
  | wire (fault : Wire.Fault)
  | manifest (fault : ManifestFault)
  | differs (blocks : Nat)
  deriving DecidableEq, Repr

def Complaint.message : Complaint → String
  | failure cause => cause.message
  | system fault => fault.message
  | wire fault => fault.message
  | manifest fault => fault.message
  | differs blocks => s!"installation differs in {blocks} blocks"

/-- The files as they are by now, and everything printed so far. -/
structure Session where
  files : FileTree
  printed : String

abbrev Work (α : Type) := ExceptT Complaint (StateM Session) α

namespace Work

variable {α : Type}

def ofFailure : Except Failure α → Work α
  | .ok value => pure value
  | .error cause => throw (.failure cause)

def ofSystem : Except SystemFault α → Work α
  | .ok value => pure value
  | .error fault => throw (.system fault)

def printLine (line : String) : Work Unit :=
  modify fun session => { session with printed := session.printed ++ line ++ "\n" }

def files : Work FileTree := return (← get).files

def write (path : String) (content : Bytes) : Work Unit := do
  let files ← ofSystem ((← files).write path content)
  modify fun session => { session with files := files }

def readManifest (path : String) : Work Manifest := do
  let bytes ← ofSystem ((← files).read path)
  match Manifest.ofBytes bytes with
  | .error fault => throw (.wire fault)
  | .ok manifest =>
    match manifest.check with
    | .error fault => throw (.manifest fault)
    | .ok () => return manifest

end Work

open Work

def printSummary (delta : Delta) : Work Unit := do
  let summary := delta.summary
  printLine (s!"{summary.changes} changes: {summary.adds} added, " ++
    s!"{summary.removes} removed, {summary.modifies} modified")
  printLine (s!"To fetch: {summary.bytesToFetch} bytes in {summary.blocksToFetch} unique blocks " ++
    s!"({delta.wireSize} bytes on the wire)")

def runScan (directory : String) (output? : Option String) (blockSize : UInt32) : Work Unit := do
  let output := output?.getD (Path.withExtension directory "manifest")
  let manifest ← ofFailure ((← files).scan directory blockSize)
  write output manifest.toBytes
  printLine ("Generated manifest: " ++ output ++ s!" ({manifest.fileCount} files, " ++
    s!"{manifest.blockCount} blocks, {manifest.totalSize} bytes, checksum " ++
    manifest.checksum.toText ++ ")")

def runChecksum (path : String) : Work Unit := do
  let manifest ← readManifest path
  printLine manifest.checksum.toText

def runDiff (old new : String) (output? : Option String) : Work Unit := do
  let old ← readManifest old
  let new ← readManifest new
  let delta := Delta.between old.listing new.listing
  printSummary delta
  match output? with
  | none => return
  | some output =>
    write output (Wire.delta.encode delta)
    printLine ("Wrote diff: " ++ output)

/-- What a change says about an installation, in eight letters or blanks. -/
def changeLabel : Operation → String
  | .add _ _ => "missing "
  | .remove _ => "extra   "
  | .modify _ _ => "changed "

def listedChanges : Nat := 20

def runVerify (path directory : String) : Work Unit := do
  let manifest ← readManifest path
  let delta ← ofFailure (manifest.verify (← files) directory)
  if delta.isEmpty then printLine "Installation verified"
  else
    printSummary delta
    (delta.operations.take listedChanges).forM fun operation =>
      printLine ("  " ++ changeLabel operation ++ " " ++ operation.location.toText)
    throw (.differs delta.changes)

def runPreallocate (path directory : String) : Work Unit := do
  let manifest ← readManifest path
  let required ← ofFailure (manifest.spaceRequired (← files) directory)
  let (files, outcome) := manifest.preallocate directory none (← files)
  modify fun session => { session with files := files }
  ofFailure outcome
  printLine (s!"Preallocated {manifest.fileCount} files in " ++ directory ++
    s!" ({required} new bytes)")

def runFetch (network : Network) (address : String) (request : Request)
    (local? output? : Option String) : Work Unit := do
  let response ← ofFailure (request.fetch network address)
  printLine ("Latest build: " ++ response.build.toHex ++ " (checksum " ++
    response.checksum.toText ++ ", " ++ response.payload.label ++ ")")
  match response.payload with
  | .delta delta => printSummary delta
  | _ => pure ()
  match output? with
  | none => return
  | some output =>
    let held? ← match local? with
      | none => pure none
      | some path => some <$> readManifest path
    let latest ← ofFailure (response.reconstruct held?)
    write output latest.toBytes
    printLine ("Wrote manifest: " ++ output ++
      s!" ({latest.fileCount} files, {latest.blockCount} blocks)")

def loadSettings (disk : Disk) (path : String) : Except SettingsFault Settings :=
  match disk.readText path with
  | .error fault => .error (.unreadable path fault)
  | .ok document => Settings.ofText document

/-- Everything that a server checks before it listens; here it finds no network to listen on. -/
def runServe (settings? listen? store? : Option String) : Work Unit := do
  let disk := (← files).disk
  let given ← match settings? with
    | none => pure Settings.usual
    | some path => ofFailure ((loadSettings disk path).mapError .settings)
  let server := { given.server with
    listenAddress := listen?.getD given.server.listenAddress
    storeRoot := store?.getD given.server.storeRoot }
  let settings := { given with server := server }
  ofFailure (settings.check.mapError .settings)
  let _ ← ofFailure ((DirectoryCatalog.ofRoot disk settings.server.storeRoot).mapError .store)
  throw (.system .networkUnreachable)

def run (network : Network) : Command → Work Unit
  | .serve settings? listen? store? => runServe settings? listen? store?
  | .scan directory output? blockSize => runScan directory output? blockSize
  | .checksum manifest => runChecksum manifest
  | .diff old new output? => runDiff old new output?
  | .verify manifest directory => runVerify manifest directory
  | .preallocate manifest directory => runPreallocate manifest directory
  | .fetch address request local? output? => runFetch network address request local? output?

/-- The paths at which a command reads or writes. Where a server's settings name the directory
of its builds, they have to be among the files. -/
def Command.paths (files : FileTree) : Command → List String
  | .serve settings? _ store? =>
    let given := match settings?.map (loadSettings files.disk) with
      | some (.ok settings) => settings
      | _ => Settings.usual
    settings?.toList ++ [store?.getD given.server.storeRoot]
  | .scan directory output? _ => [directory, output?.getD (Path.withExtension directory "manifest")]
  | .checksum manifest => [manifest]
  | .diff old new output? => old :: new :: output?.toList
  | .verify manifest directory => [manifest, directory]
  | .preallocate manifest directory => [manifest, directory]
  | .fetch _ _ local? output? => local?.toList ++ output?.toList

/-- What a run of the program leaves behind. -/
structure Outcome where
  files : FileTree
  status : Nat
  printed : String
  complaint : String

def usage : String :=
  "Usage: buildsync <serve|scan|checksum|diff|verify|preallocate|fetch> [arguments]\n"

def execute (network : Network) (files : FileTree) (arguments : List String) : Outcome :=
  match Invocation.ofArguments arguments with
  | .misuse => ⟨files, 2, "", usage⟩
  | .help => ⟨files, 0, usage, ""⟩
  | .version => ⟨files, 0, "buildsync 0.1.0\n", ""⟩
  | .command command =>
    match (run network command).run.run ⟨files, ""⟩ with
    | (.ok (), session) => ⟨session.files, 0, session.printed, ""⟩
    | (.error complaint, session) =>
      ⟨session.files, 1, session.printed, "Error: " ++ complaint.message ++ "\n"⟩

end BuildDelivery.CommandLine
