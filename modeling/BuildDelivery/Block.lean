import BuildDelivery.Identity
import Std.Data.ExtTreeSet

/-! Blocks and where they lie. A file is a row of blocks; a listing names every block of
a build by its file and its place in the file. -/

set_option autoImplicit false

namespace BuildDelivery

/-- What is known of a piece of a file: the hash of its bytes and their number. -/
structure Block where
  hash : BlockHash
  size : UInt32
  deriving DecidableEq, Repr

def Block.ofData (data : Bytes) : Block := ⟨BlockHash.ofData data, UInt32.ofNat data.length⟩

/-- The bytes of all blocks, counted in 64 bits. -/
def totalSize : List Block → UInt64
  | [] => 0
  | block :: rest => block.size.toUInt64 + totalSize rest

/-- The blocks whose hash is neither among those seen nor that of a block before them. -/
def distinctFrom (seen : Std.ExtTreeSet Bytes) : List Block → List Block
  | [] => []
  | block :: rest =>
    if seen.contains block.hash.bytes then distinctFrom seen rest
    else block :: distinctFrom (seen.insert block.hash.bytes) rest

def distinctBlocks (blocks : List Block) : List Block := distinctFrom ∅ blocks

/-- The place of a block: a file and an index into its blocks. -/
structure Location where
  path : String
  index : UInt32
  deriving DecidableEq, Repr

namespace Location

def toText (location : Location) : String := location.path ++ "#" ++ toString location.index.toNat

/-- The first byte of the block within its file. -/
def offset (location : Location) (maxBlockSize : UInt32) : Nat :=
  location.index.toNat * maxBlockSize.toNat

end Location

/-- Locations are ordered by path, byte by byte, and then by index. -/
instance : Ord Location := ⟨compareLex (compareOn Location.path) (compareOn Location.index)⟩

instance : Std.TransOrd Location :=
  inferInstanceAs (Std.TransCmp (compareLex (compareOn Location.path) (compareOn Location.index)))

instance : Std.LawfulEqOrd Location where
  eq_of_compare {left right} same := by
    obtain ⟨path, index⟩ := left
    obtain ⟨path', index'⟩ := right
    have parts := compareLex_eq_eq.mp same
    have paths : path = path' := Std.LawfulEqOrd.eq_of_compare parts.1
    have indices : index = index' := Std.LawfulEqOrd.eq_of_compare parts.2
    rw [paths, indices]

/-- Anything that lists blocks: every block under its location, and the bound on their size. -/
structure Listing where
  maxBlockSize : UInt32
  blocks : List (Location × Block)
  deriving DecidableEq, Repr

end BuildDelivery
