import BuildDelivery.Failure
import BuildDelivery.Manifest.Basic
import BuildDelivery.Portion

/-! Building a manifest file by file. Blocks are appended to a draft of a file, one at a
time or as many as a feed holds; drafts that stay empty leave no trace in the manifest. -/

set_option autoImplicit false

namespace BuildDelivery

/-- A file whose blocks are being collected. -/
structure FileDraft where
  path : String
  maxBlockSize : UInt32
  blocks : List Block
  deriving DecidableEq, Repr

namespace FileDraft

def append (draft : FileDraft) (block : Block) : Except ManifestFault FileDraft :=
  if block.fits draft.maxBlockSize then
    .ok { draft with blocks := draft.blocks ++ [block] }
  else .error (.block draft.path block.size draft.maxBlockSize)

/-- Appends the block of some data. The size of data beyond all sizes counts as the largest. -/
def appendData (draft : FileDraft) (data : Bytes) : Except ManifestFault (Block × FileDraft) := do
  let block : Block := ⟨BlockHash.ofData data, UInt32.ofNat (min data.length (Numeral.capacity 32 - 1))⟩
  let draft ← draft.append block
  return (block, draft)

/-- Appends the blocks of a feed and tells how many bytes are in them. Each block is hashed as it
is read, from a portion of its own; a portion that is not used up is the last. What was appended
before a fault stays. -/
def appendFeed (draft : FileDraft) (feed : Feed) : FileDraft × Except Failure Nat :=
  let size := draft.maxBlockSize.toNat
  match _ : Portion.hash .start ⟨feed, size⟩ with
  | .error fault => (draft, .error (.system fault))
  | .ok (hash, rest) =>
    let length := size - rest.limit
    if length = 0 then (draft, .ok 0)
    else
      match draft.append ⟨hash, UInt32.ofNat length⟩ with
      | .error fault => (draft, .error (.manifest fault))
      | .ok draft =>
        if length < size then (draft, .ok length)
        else
          let (draft, total) := draft.appendFeed rest.feed
          (draft, total.map (length + ·))
termination_by feed.bytes.length
decreasing_by
  obtain ⟨-, back, -, limit, -⟩ :=
    Portion.hash_eq_ok ‹Portion.hash .start ⟨feed, size⟩ = .ok (hash, rest)›
  dsimp only at back limit
  rw [back, List.length_drop]
  omega

end FileDraft

/-- A manifest whose files are being collected. -/
structure ManifestBuilder where
  maxBlockSize : UInt32
  drafts : Std.ExtTreeMap String (List Block)

namespace ManifestBuilder

def empty (maxBlockSize : UInt32) : ManifestBuilder := ⟨maxBlockSize, ∅⟩

/-- A builder for manifests with blocks of a legal size. -/
def create (maxBlockSize : UInt32) : Except ManifestFault ManifestBuilder := do
  checkBlockSize maxBlockSize
  return empty maxBlockSize

/-- The draft of the file that a path means, as far as it has come. -/
def file (builder : ManifestBuilder) (path : String) : Except ManifestFault FileDraft := do
  let path ← Path.normalize path
  return ⟨path, builder.maxBlockSize, builder.drafts.getD path []⟩

def put (builder : ManifestBuilder) (draft : FileDraft) : ManifestBuilder :=
  ⟨builder.maxBlockSize, builder.drafts.insert draft.path draft.blocks⟩

/-- The manifest of the files that have blocks. -/
def build (builder : ManifestBuilder) : Manifest :=
  ⟨builder.maxBlockSize, builder.drafts.filter fun _ blocks => blocks ≠ []⟩

end ManifestBuilder

end BuildDelivery
