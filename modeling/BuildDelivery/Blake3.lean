import BuildDelivery.LittleEndian

/-! The BLAKE3 digest of a byte string. Input is cut into chunks of 1024 bytes,
each chunk into blocks of 64; the chunk results are the leaves of a binary tree
in which every left subtree is complete. The digest is 32 bytes long. -/

set_option autoImplicit false

namespace BuildDelivery.Blake3

/-- Four words that the mixing step treats side by side. -/
structure Row where
  first : UInt32
  second : UInt32
  third : UInt32
  fourth : UInt32
  deriving DecidableEq, Repr

namespace Row

@[inline] def zipWith (combine : UInt32 → UInt32 → UInt32) (left right : Row) : Row :=
  ⟨combine left.first right.first, combine left.second right.second,
    combine left.third right.third, combine left.fourth right.fourth⟩

instance : Add Row := ⟨zipWith (· + ·)⟩

instance : XorOp Row := ⟨zipWith (· ^^^ ·)⟩

/-- Every word rotated right by the same number of bits. -/
@[inline] def rotateRight (row : Row) (count : UInt32) : Row :=
  let turn (word : UInt32) : UInt32 := (word >>> count) ||| (word <<< (32 - count))
  ⟨turn row.first, turn row.second, turn row.third, turn row.fourth⟩

/-- The words moved one place to the left, the first word to the end. -/
@[inline] def shift (row : Row) : Row :=
  ⟨row.second, row.third, row.fourth, row.first⟩

def toList (row : Row) : List UInt32 :=
  [row.first, row.second, row.third, row.fourth]

end Row

/-- The sixteen words of one block. -/
structure Block where
  w0 : UInt32
  w1 : UInt32
  w2 : UInt32
  w3 : UInt32
  w4 : UInt32
  w5 : UInt32
  w6 : UInt32
  w7 : UInt32
  w8 : UInt32
  w9 : UInt32
  w10 : UInt32
  w11 : UInt32
  w12 : UInt32
  w13 : UInt32
  w14 : UInt32
  w15 : UInt32
  deriving DecidableEq, Repr

namespace Block

/-- The order in which the next round meets the words of a block. -/
def permute (block : Block) : Block :=
  ⟨block.w2, block.w6, block.w3, block.w10, block.w7, block.w0, block.w4, block.w13,
    block.w1, block.w11, block.w12, block.w5, block.w9, block.w14, block.w15, block.w8⟩

/-- The block that starts at an offset; bytes past the end count as zero. -/
def ofData (input : ByteArray) (offset : Nat) : Block :=
  let byte (position : Nat) : UInt32 :=
    if bound : position < input.size then input[position].toUInt32 else 0
  let word (place : Nat) : UInt32 :=
    let position := offset + 4 * place
    byte position ||| (byte (position + 1) <<< 8) |||
      (byte (position + 2) <<< 16) ||| (byte (position + 3) <<< 24)
  ⟨word 0, word 1, word 2, word 3, word 4, word 5, word 6, word 7,
    word 8, word 9, word 10, word 11, word 12, word 13, word 14, word 15⟩

end Block

/-- Eight words passed from one compression to the next. -/
structure ChainingValue where
  upper : Row
  lower : Row
  deriving DecidableEq, Repr

def initialization : ChainingValue :=
  ⟨⟨0x6a09e667, 0xbb67ae85, 0x3c6ef372, 0xa54ff53a⟩,
    ⟨0x510e527f, 0x9b05688c, 0x1f83d9ab, 0x5be0cd19⟩⟩

/-- The sixteen words under compression, as four rows. -/
structure State where
  a : Row
  b : Row
  c : Row
  d : Row
  deriving DecidableEq, Repr

namespace State

/-- The quarter step on all four columns at once. -/
@[inline] def mix (state : State) (x y : Row) : State :=
  let a := state.a + state.b + x
  let d := (state.d ^^^ a).rotateRight 16
  let c := state.c + d
  let b := (state.b ^^^ c).rotateRight 12
  let a := a + b + y
  let d := (d ^^^ a).rotateRight 8
  let c := c + d
  let b := (b ^^^ c).rotateRight 7
  ⟨a, b, c, d⟩

/-- Columns are mixed first, then diagonals. -/
def round (state : State) (block : Block) : State :=
  let columns := state.mix ⟨block.w0, block.w2, block.w4, block.w6⟩
    ⟨block.w1, block.w3, block.w5, block.w7⟩
  let slanted : State :=
    ⟨columns.a, columns.b.shift, columns.c.shift.shift, columns.d.shift.shift.shift⟩
  let diagonals := slanted.mix ⟨block.w8, block.w10, block.w12, block.w14⟩
    ⟨block.w9, block.w11, block.w13, block.w15⟩
  ⟨diagonals.a, diagonals.b.shift.shift.shift, diagonals.c.shift.shift, diagonals.d.shift⟩

def rounds : Nat → State → Block → State
  | 0, state, _ => state
  | count + 1, state, block => rounds count (state.round block) block.permute

end State

/-- A compression that has been prepared but not yet run, because only the root
of the tree is compressed with the root flag. -/
structure Node where
  chaining : ChainingValue
  block : Block
  counter : UInt64
  length : UInt32
  flags : UInt32
  deriving DecidableEq, Repr

def chunkStart : UInt32 := 1
def chunkEnd : UInt32 := 2
def parentFlag : UInt32 := 4
def rootFlag : UInt32 := 8

namespace Node

/-- The first eight words of the compression. -/
def compress (node : Node) (extra : UInt32) : ChainingValue :=
  let start : State :=
    ⟨node.chaining.upper, node.chaining.lower, initialization.upper,
      ⟨node.counter.toUInt32, (node.counter >>> 32).toUInt32, node.length, node.flags ||| extra⟩⟩
  let final := start.rounds 7 node.block
  ⟨final.a ^^^ final.c, final.b ^^^ final.d⟩

def chainingValue (node : Node) : ChainingValue := node.compress 0

/-- The node above two neighbours. -/
def parent (left right : Node) : Node :=
  let l := left.chainingValue
  let r := right.chainingValue
  ⟨initialization,
    ⟨l.upper.first, l.upper.second, l.upper.third, l.upper.fourth,
      l.lower.first, l.lower.second, l.lower.third, l.lower.fourth,
      r.upper.first, r.upper.second, r.upper.third, r.upper.fourth,
      r.lower.first, r.lower.second, r.lower.third, r.lower.fourth⟩,
    0, 64, parentFlag⟩

end Node

/-- The node of one chunk: `remaining` full blocks are absorbed, then the last
block, which may be short or empty, is left for the caller to compress. -/
def absorb (input : ByteArray) (counter : UInt64) (stop : Nat) :
    Nat → Nat → ChainingValue → UInt32 → Node
  | 0, offset, chaining, start =>
    ⟨chaining, Block.ofData input offset, counter, UInt32.ofNat (stop - offset), start ||| chunkEnd⟩
  | remaining + 1, offset, chaining, start =>
    let full : Node := ⟨chaining, Block.ofData input offset, counter, 64, start⟩
    absorb input counter stop remaining (offset + 64) full.chainingValue 0

def chunkNode (input : ByteArray) (place : Nat) : Node :=
  let offset := 1024 * place
  let stop := min input.size (offset + 1024)
  absorb input (UInt64.ofNat place) stop ((stop - offset - 1) / 64) offset initialization chunkStart

/-- One level of the tree: neighbours are joined and an odd last node moves up. -/
def joinPairs : List Node → List Node
  | left :: right :: rest => Node.parent left right :: joinPairs rest
  | short => short

theorem length_joinPairs_le (nodes : List Node) : (joinPairs nodes).length ≤ nodes.length := by
  fun_induction joinPairs nodes with
  | case1 left right rest step =>
    simp only [List.length_cons]
    omega
  | case2 short => exact Nat.le_refl _

/-- The root above a first node and its right neighbours. -/
def root (first : Node) (others : List Node) : Node :=
  match others with
  | [] => first
  | second :: rest => root (Node.parent first second) (joinPairs rest)
termination_by others.length
decreasing_by
  have bound := length_joinPairs_le rest
  simp only [List.length_cons]
  omega

/-- The 32-byte digest of a byte string. -/
def digest (input : Bytes) : Bytes :=
  let data : ByteArray := ⟨input.toArray⟩
  let others := (List.range ((data.size - 1) / 1024)).map fun place => chunkNode data (place + 1)
  let words := (root (chunkNode data 0) others).compress rootFlag
  (words.upper.toList ++ words.lower.toList).flatMap fun word => LittleEndian.encode 4 word.toNat

theorem length_digest (input : Bytes) : (digest input).length = 32 := by
  simp [digest, Row.toList]

end BuildDelivery.Blake3
