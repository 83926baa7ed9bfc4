import BuildDelivery.Fingerprint

/-! Deltas: what has to change, block by block, to turn one manifest into another. -/

set_option autoImplicit false

namespace BuildDelivery

/-- A change of one block. -/
inductive Operation where
  | add (location : Location) (block : Block)
  | remove (location : Location)
  | modify (location : Location) (block : Block)
  deriving DecidableEq, Repr

namespace Operation

def location : Operation → Location
  | add location _ | remove location | modify location _ => location

def block? : Operation → Option Block
  | add _ block | modify _ block => some block
  | remove _ => none

def isAdd : Operation → Bool
  | add _ _ => true
  | _ => false

def isRemove : Operation → Bool
  | remove _ => true
  | _ => false

def isModify : Operation → Bool
  | modify _ _ => true
  | _ => false

end Operation

/-- A row of changes together with the checksums of what it starts from and what it leads to. -/
structure Delta where
  maxBlockSize : UInt32
  baseChecksum : Checksum
  targetChecksum : Checksum
  operations : List Operation
  deriving DecidableEq, Repr

/-- A delta in numbers. -/
structure DeltaSummary where
  adds : Nat
  removes : Nat
  modifies : Nat
  bytesToFetch : UInt64
  blocksToFetch : Nat
  deriving DecidableEq, Repr

def DeltaSummary.changes (summary : DeltaSummary) : Nat :=
  summary.adds + summary.removes + summary.modifies

namespace Delta

def changes (delta : Delta) : Nat := delta.operations.length

def isEmpty (delta : Delta) : Bool := delta.operations.isEmpty

def newBlocks (delta : Delta) : List Block := delta.operations.filterMap Operation.block?

/-- The new blocks without those whose hash came before. -/
def blocksToFetch (delta : Delta) : List Block := distinctBlocks delta.newBlocks

def bytesToFetch (delta : Delta) : UInt64 := totalSize delta.newBlocks

def summary (delta : Delta) : DeltaSummary where
  adds := delta.operations.countP Operation.isAdd
  removes := delta.operations.countP Operation.isRemove
  modifies := delta.operations.countP Operation.isModify
  bytesToFetch := delta.bytesToFetch
  blocksToFetch := delta.blocksToFetch.length

end Delta

end BuildDelivery
