import BuildDelivery.Delta.Basic
import BuildDelivery.Failure

/-! Applying a delta. The base must be the manifest that the delta was made for and the result
must be the one it was made to reach; in between, every operation must fit the blocks that it
meets and leave no file with a gap. -/

set_option autoImplicit false

namespace BuildDelivery

/-- Blocks by file and index, while a delta is under way. -/
abbrev Layout := Std.ExtTreeMap String (Std.ExtTreeMap UInt32 Block)

namespace Layout

def block? (layout : Layout) (location : Location) : Option Block :=
  layout[location.path]?.bind fun file => file[location.index]?

def put (layout : Layout) (location : Location) (block : Block) : Layout :=
  layout.insert location.path ((layout.getD location.path ∅).insert location.index block)

/-- Removes the block at a location. Its file stays, with or without blocks. -/
def drop (layout : Layout) (location : Location) : Layout :=
  layout.insert location.path ((layout.getD location.path ∅).erase location.index)

def ofListing (listing : Listing) : Layout :=
  listing.blocks.foldl (fun layout entry => layout.put entry.1 entry.2) ∅

def step (layout : Layout) (operation : Operation) : Except DeltaFault Layout :=
  match operation, layout.block? operation.location with
  | .add location block, none => .ok (layout.put location block)
  | .add location _, some _ => .error (.addOfExisting location)
  | .modify location block, some _ => .ok (layout.put location block)
  | .modify location _, none => .error (.modifyOfMissing location)
  | .remove location, some _ => .ok (layout.drop location)
  | .remove location, none => .error (.removeOfMissing location)

def run (layout : Layout) : List Operation → Except DeltaFault Layout
  | [] => .ok layout
  | operation :: rest =>
    match layout.step operation with
    | .ok next => next.run rest
    | .error fault => .error fault

def isContiguous (start : Nat) : List UInt32 → Bool
  | [] => true
  | index :: rest => index.toNat == start && isContiguous (start + 1) rest

def row (file : Std.ExtTreeMap UInt32 Block) : List Block := file.toList.map Prod.snd

def insertFiles (manifest : Manifest) :
    List (String × Std.ExtTreeMap UInt32 Block) → Except Failure Manifest
  | [] => .ok manifest
  | (path, file) :: rest =>
    if isContiguous 0 file.keys then
      match manifest.insertFile path (row file) with
      | .ok next => insertFiles next rest
      | .error fault => .error (.manifest fault)
    else .error (.delta (.gap path))

def toManifest (layout : Layout) (maxBlockSize : UInt32) : Except Failure Manifest :=
  match Manifest.create maxBlockSize with
  | .ok manifest => insertFiles manifest layout.toList
  | .error fault => .error (.manifest fault)

end Layout

namespace Delta

/-- The manifest that a delta makes of a base. -/
def apply (delta : Delta) (base : Manifest) : Except Failure Manifest := do
  if base.maxBlockSize ≠ delta.maxBlockSize then
    throw (.delta (.blockSize delta.maxBlockSize base.maxBlockSize))
  base.checksum.verify delta.baseChecksum
  let layout ← ((Layout.ofListing base.listing).run delta.operations).mapError .delta
  let result ← layout.toManifest delta.maxBlockSize
  result.checksum.verify delta.targetChecksum
  return result

end Delta

end BuildDelivery
