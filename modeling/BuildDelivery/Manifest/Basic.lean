import BuildDelivery.Path
import Std.Data.ExtTreeMap

/-! Manifests: the row of blocks of every file of a build, by path. Two manifests with the
same block size and the same files are equal, however they came to be.

`Valid` says what a manifest keeps while it is edited: a legal block size, paths in their one
spelling, no file without blocks and no block that is empty or too large. -/

set_option autoImplicit false

namespace BuildDelivery

/-- The block layout of a complete build. -/
structure Manifest where
  maxBlockSize : UInt32
  files : Std.ExtTreeMap String (List Block)
  deriving DecidableEq

/-- Block sizes that a manifest may have: the powers of two from four KiB to 64 MiB. -/
def isBlockSize (size : UInt32) : Bool :=
  Numeral.capacity size.toNat.log2 == size.toNat && smallestBlockSize ≤ size && size ≤ largestBlockSize

/-- Accepts the block sizes that a manifest may have. -/
def checkBlockSize (size : UInt32) : Except ManifestFault Unit :=
  if isBlockSize size then .ok () else .error (.blockSize size)

def Block.fits (block : Block) (max : UInt32) : Bool := block.size ≠ 0 && block.size ≤ max

def checkBlocks (path : String) (max : UInt32) : List Block → Except ManifestFault Unit
  | [] => .ok ()
  | block :: rest =>
    if block.fits max then checkBlocks path max rest else .error (.block path block.size max)

/-- A row of blocks under their locations, the first of which has the index `start`. -/
def locate (path : String) (start : Nat) : List Block → List (Location × Block)
  | [] => []
  | block :: rest => (⟨path, UInt32.ofNat start⟩, block) :: locate path (start + 1) rest

namespace Manifest

def empty (maxBlockSize : UInt32) : Manifest := ⟨maxBlockSize, ∅⟩

/-- A manifest without files for blocks of a legal size. -/
def create (maxBlockSize : UInt32) : Except ManifestFault Manifest := do
  checkBlockSize maxBlockSize
  return empty maxBlockSize

def file? (manifest : Manifest) (path : String) : Option (List Block) := manifest.files[path]?

/-- The blocks of all files, file by file in the order of their paths. -/
def blocks (manifest : Manifest) : List Block := manifest.files.toList.flatMap Prod.snd

def fileCount (manifest : Manifest) : Nat := manifest.files.size

def blockCount (manifest : Manifest) : Nat := manifest.blocks.length

def isEmpty (manifest : Manifest) : Bool := manifest.files.isEmpty

def fileSize? (manifest : Manifest) (path : String) : Option UInt64 :=
  (manifest.file? path).map BuildDelivery.totalSize

def totalSize (manifest : Manifest) : UInt64 := BuildDelivery.totalSize manifest.blocks

/-- What a client without any block has to fetch: the first block of every hash. -/
def uniqueBlocks (manifest : Manifest) : List Block := distinctBlocks manifest.blocks

/-- Every block under its location, by path and then by index. -/
def listing (manifest : Manifest) : Listing :=
  ⟨manifest.maxBlockSize, manifest.files.toList.flatMap fun entry => locate entry.1 0 entry.2⟩

/-- Sets the blocks of a file; a file without blocks is no file. -/
def setFile (manifest : Manifest) (path : String) (blocks : List Block) : Manifest :=
  ⟨manifest.maxBlockSize,
    if blocks = [] then manifest.files.erase path else manifest.files.insert path blocks⟩

/-- Sets the blocks of the file that a path means. -/
def insertFile (manifest : Manifest) (path : String) (blocks : List Block) :
    Except ManifestFault Manifest := do
  let path ← Path.normalize path
  if blocks = [] then return manifest.setFile path []
  if Numeral.capacity 32 ≤ blocks.length then throw (.path (.tooManyBlocks path))
  checkBlocks path manifest.maxBlockSize blocks
  return manifest.setFile path blocks

/-- Removes the file with exactly this path. -/
def removeFile (manifest : Manifest) (path : String) : Manifest :=
  ⟨manifest.maxBlockSize, manifest.files.erase path⟩

/-- Accepts a file that a manifest from elsewhere lists. -/
def checkFile (max : UInt32) (path : String) (blocks : List Block) :
    Except ManifestFault Unit := do
  let spelling ← Path.normalize path
  if spelling ≠ path then throw (.path (.malformed path))
  if blocks = [] then throw (.path (.withoutBlocks path))
  checkBlocks path max blocks

/-- Accepts a row of files, up to the first that breaks a rule. -/
def checkFiles (max : UInt32) : List (String × List Block) → Except ManifestFault Unit
  | [] => .ok ()
  | (path, blocks) :: rest => do
    checkFile max path blocks
    checkFiles max rest

/-- Accepts a manifest from elsewhere, or tells the first rule that it breaks. -/
def check (manifest : Manifest) : Except ManifestFault Unit := do
  checkBlockSize manifest.maxBlockSize
  checkFiles manifest.maxBlockSize manifest.files.toList

/-- What every manifest keeps that is made from the empty one by inserting and removing files. -/
structure Valid (manifest : Manifest) : Prop where
  blockSize : isBlockSize manifest.maxBlockSize
  normal : ∀ (path : String) (blocks : List Block),
    manifest.file? path = some blocks → Path.IsNormal path
  nonempty : ∀ (path : String) (blocks : List Block),
    manifest.file? path = some blocks → blocks ≠ []
  fits : ∀ (path : String) (blocks : List Block), manifest.file? path = some blocks →
    ∀ block ∈ blocks, block.fits manifest.maxBlockSize

theorem eq_of_file? {left right : Manifest} (sizes : left.maxBlockSize = right.maxBlockSize)
    (same : ∀ path, left.file? path = right.file? path) : left = right := by
  obtain ⟨size, files⟩ := left
  obtain ⟨size', files'⟩ := right
  obtain rfl : size = size' := sizes
  obtain rfl : files = files' := Std.ExtTreeMap.ext_getElem? fun path => same path
  rfl

theorem file?_setFile (manifest : Manifest) (path other : String) (blocks : List Block) :
    (manifest.setFile path blocks).file? other =
      if other = path then if blocks = [] then none else some blocks
      else manifest.file? other := by
  have apart (different : ¬other = path) : compare path other ≠ .eq := fun same =>
    different (Std.LawfulEqOrd.eq_of_compare same).symm
  unfold setFile file?
  split
  · by_cases here : other = path
    · simp [here]
    · simp [here, Std.ExtTreeMap.getElem?_erase, apart here]
  · by_cases here : other = path
    · simp [here]
    · simp [here, Std.ExtTreeMap.getElem?_insert, apart here]

end Manifest

end BuildDelivery
