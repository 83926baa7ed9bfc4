import BuildDelivery.Delta.Join
import BuildDelivery.FileTree
import BuildDelivery.Manifest.Builder

/-! Installed builds: describing what is in a directory, comparing it with a manifest, and
making room for the files of a manifest. -/

set_option autoImplicit false

namespace BuildDelivery

namespace FileTree

/-- The files at or below a path, each under its path from there. -/
def filesBelow (tree : FileTree) (root : String) : Except Failure (List (String × Bytes)) :=
  match tree.inspect root with
  | .ok (.file content) => .ok [("", content)]
  | .ok .directory =>
    ((tree.below root).mapError fun fault => .system (.walking root fault)).map fun found =>
      found.filterMap fun (names, entry) =>
        match entry with
        | .file content => some ("/".intercalate names, content)
        | .directory => none
  | .error fault => .error (.system (.walking root fault))

/-- Adds the blocks of files to a manifest, one file after another. Each is read into a draft first. -/
def describe (manifest : Manifest) : List (String × Bytes) → Except Failure Manifest
  | [] => .ok manifest
  | (path, content) :: rest =>
    match FileDraft.appendFeed ⟨path, manifest.maxBlockSize, []⟩ (.whole content .closed) with
    | (_, .error failure) => .error failure
    | (draft, .ok _) =>
      match manifest.insertFile draft.path draft.blocks with
      | .ok manifest => describe manifest rest
      | .error fault => .error (.manifest fault)

def scan (tree : FileTree) (root : String) (maxBlockSize : UInt32) : Except Failure Manifest := do
  (checkBlockSize maxBlockSize).mapError .manifest
  let files ← tree.filesBelow root
  describe (Manifest.empty maxBlockSize) files

/-- The bytes by which files have to grow to their lengths, counted in 64 bits. A file that is not
there has none. -/
def growth (tree : FileTree) : List (String × UInt64) → Except SystemFault UInt64
  | [] => .ok 0
  | (path, size) :: rest => do
    let present ← match tree.inspect path with
      | .ok (.file content) => .ok content.length
      | .ok .directory | .error .notFound => .ok 0
      | .error fault => .error fault
    let more ← tree.growth rest
    return UInt64.ofNat (size.toNat - present) + more

/-- Makes the directory that a file is in and gives the file a length. -/
def makeFile (tree : FileTree) (path : String) (size : UInt64) : FileTree × Except SystemFault Unit :=
  match tree.makeDirectory ((Path.parent? path).getD "") with
  | (tree, .error fault) => (tree, .error fault)
  | (tree, .ok ()) =>
    match tree.resize path size.toNat with
    | .error fault => (tree, .error fault)
    | .ok tree => (tree, .ok ())

/-- Gives files their lengths, one after another. What was done stays, also behind a fault. -/
def makeFiles : FileTree → List (String × UInt64) → FileTree × Except SystemFault Unit
  | tree, [] => (tree, .ok ())
  | tree, (path, size) :: rest =>
    match tree.makeFile path size with
    | (tree, .error fault) => (tree, .error fault)
    | (tree, .ok ()) => makeFiles tree rest

end FileTree

namespace Manifest

/-- What has to change in a directory for it to hold the manifest. -/
def verify (manifest : Manifest) (tree : FileTree) (root : String) : Except Failure Delta := do
  let installed ← tree.scan root manifest.maxBlockSize
  return Delta.between installed.listing manifest.listing

/-- The files of the manifest below a directory, with their lengths. -/
def lengthsBelow (manifest : Manifest) (root : String) : List (String × UInt64) :=
  manifest.files.toList.map fun (path, blocks) =>
    (Path.join root path, BuildDelivery.totalSize blocks)

/-- The bytes that the files of the manifest need below a directory beyond what is there. -/
def spaceRequired (manifest : Manifest) (tree : FileTree) (root : String) :
    Except Failure UInt64 :=
  (tree.growth (manifest.lengthsBelow root)).mapError .system

/-- Gives every file of the manifest its length below a directory, provided that the bytes that
are available are enough. -/
def preallocateWithin (manifest : Manifest) (root : String) (available? : Option UInt64)
    (tree : FileTree) : FileTree × Except Failure Unit :=
  match manifest.spaceRequired tree root with
  | .error failure => (tree, .error failure)
  | .ok required =>
    match available?.filter (· < required) with
    | some available => (tree, .error (.insufficientSpace required available))
    | none =>
      let (tree, outcome) := tree.makeFiles (manifest.lengthsBelow root)
      (tree, outcome.mapError .system)

/-- Makes a directory and gives every file of the manifest its length in it. -/
def preallocate (manifest : Manifest) (root : String) (available? : Option UInt64)
    (tree : FileTree) : FileTree × Except Failure Unit :=
  match tree.makeDirectory root with
  | (tree, .error fault) => (tree, .error (.system fault))
  | (tree, .ok ()) => manifest.preallocateWithin root available? tree

end Manifest

end BuildDelivery
