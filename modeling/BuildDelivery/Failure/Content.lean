import BuildDelivery.Block

/-! What is wrong with data: with requests, with manifests and with deltas. -/

set_option autoImplicit false

namespace BuildDelivery

/-- The smallest size that the blocks of a manifest may be given. -/
def smallestBlockSize : UInt32 := 4096

/-- The largest size that the blocks of a manifest may be given. -/
def largestBlockSize : UInt32 := 67108864

/-- Requests, and texts in them, that have no meaning. -/
inductive RequestFault where
  | branchMissing
  | targetsMissing
  | buildId (text : String) (fault : Hex.Fault)
  | blockHash (text : String) (fault : Hex.Fault)
  | checksum (text : String) (fault : Numeral.Fault)
  | target (text : String)
  | upToDateWithoutLocal
  | deltaWithoutLocal
  | other (text : String)
  deriving DecidableEq, Repr

def RequestFault.message : RequestFault → String
  | branchMissing => "branch_id is required"
  | targetsMissing => "at least one target is required"
  | buildId text fault => "invalid build id " ++ Text.quote text ++ ": " ++ fault.message
  | blockHash text fault => "invalid block hash " ++ Text.quote text ++ ": " ++ fault.message
  | checksum text fault => "invalid checksum " ++ Text.quote text ++ ": " ++ fault.message
  | target text => "unknown target: " ++ text
  | upToDateWithoutLocal => "up-to-date response needs the local manifest"
  | deltaWithoutLocal => "diff response needs the local manifest"
  | other text => text

/-- Files that cannot stand in a manifest. -/
inductive PathFault where
  | malformed (path : String)
  | withoutBlocks (path : String)
  | tooManyBlocks (path : String)
  deriving DecidableEq, Repr

def PathFault.subject : PathFault → String
  | malformed path => path
  | withoutBlocks path => path ++ " has no blocks"
  | tooManyBlocks path => path ++ " has too many blocks"

/-- Broken rules of manifests. -/
inductive ManifestFault where
  | blockSize (size : UInt32)
  | block (file : String) (size max : UInt32)
  | path (fault : PathFault)
  deriving DecidableEq, Repr

def ManifestFault.message : ManifestFault → String
  | blockSize size =>
    s!"Invalid block size: {size.toNat} (must be power of 2, {smallestBlockSize.toNat}-{largestBlockSize.toNat})"
  | block file size max =>
    s!"Invalid block in {file}: size {size.toNat} (must be 1-{max.toNat})"
  | path fault => "Invalid path: " ++ Text.quote fault.subject

/-- Deltas that do not fit the manifest they are applied to. -/
inductive DeltaFault where
  | blockSize (delta base : UInt32)
  | addOfExisting (location : Location)
  | modifyOfMissing (location : Location)
  | removeOfMissing (location : Location)
  | gap (path : String)
  | other (text : String)
  deriving DecidableEq, Repr

def DeltaFault.message : DeltaFault → String
  | blockSize delta base =>
    s!"block size {delta.toNat} does not match base block size {base.toNat}"
  | addOfExisting location => "add of existing block at " ++ location.toText
  | modifyOfMissing location => "modify of missing block at " ++ location.toText
  | removeOfMissing location => "remove of missing block at " ++ location.toText
  | gap path => path ++ " has a gap in its blocks"
  | other text => text

end BuildDelivery
