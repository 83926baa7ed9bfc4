import BuildDelivery.Text.Utf8

/-! Binary formats. A format writes values as bytes, counts these bytes without writing them, and
reads a value back from the front of a byte string, handing on what follows it. Numbers are
little-endian and of fixed width, lengths take eight bytes, the variant of a choice takes four. -/

set_option autoImplicit false

namespace BuildDelivery.Wire

/-- Why bytes do not start with the written form of a value. -/
inductive Fault where
  | unexpectedEnd
  /-- A text is shorter than the length in front of it. -/
  | shortText
  | text (fault : Utf8.Fault)
  | variant (found count : Nat)
  | option (found : Nat)
  deriving DecidableEq, Repr

def Fault.message : Fault → String
  | .unexpectedEnd => "io error: unexpected end of file"
  | .shortText => "io error: "
  | .text fault => "string is not valid utf8: " ++ fault.message
  | .variant found count =>
    s!"invalid value: integer `{found}`, expected variant index 0 <= i < {count}"
  | .option found => s!"tag for enum is not valid, found {found}"

/-- A way to write values as bytes and to read them back. -/
structure Format (α : Type) where
  encode : α → Bytes
  /-- Counts the bytes of the written form. -/
  size : α → Nat
  decode : Bytes → Except Fault (α × Bytes)

namespace Format

variable {α β : Type}

/-- The first `count` bytes and the bytes after them. -/
def splitOff (count : Nat) (bytes : Bytes) : Option ({ front : Bytes // front.length = count } × Bytes) :=
  let front := bytes.take count
  if whole : front.length = count then some (⟨front, whole⟩, bytes.drop count) else none

theorem splitOff_append {count : Nat} (front rest : Bytes) (size : front.length = count) :
    splitOff count (front ++ rest) = some (⟨front, size⟩, rest) := by
  subst size
  simp [splitOff]

theorem append_of_splitOff {count : Nat} {bytes rest : Bytes}
    {front : { front : Bytes // front.length = count }}
    (split : splitOff count bytes = some (front, rest)) : bytes = front.val ++ rest := by
  unfold splitOff at split
  simp only at split
  split at split
  · cases split
    exact (List.take_append_drop count bytes).symm
  · cases split

def via (format : Format α) (read : α → β) (write : β → α) : Format β where
  encode value := format.encode (write value)
  size value := format.size (write value)
  decode bytes := (format.decode bytes).map fun (value, rest) => (read value, rest)

/-- A byte string of known length, as it is. -/
def fixed (count : Nat) : Format { bytes : Bytes // bytes.length = count } where
  encode bytes := bytes.val
  size _ := count
  decode bytes := match splitOff count bytes with
    | some result => .ok result
    | none => .error .unexpectedEnd

def number (width : Nat) : Format Nat where
  encode value := LittleEndian.encode width value
  size _ := width
  decode bytes := (fixed width).decode bytes |>.map fun (front, rest) =>
    (LittleEndian.decode front.val, rest)

def uint32 : Format UInt32 := (number 4).via UInt32.ofNat UInt32.toNat

def uint64 : Format UInt64 := (number 8).via UInt64.ofNat UInt64.toNat

def pair (first : Format α) (second : Format β) : Format (α × β) where
  encode value := first.encode value.1 ++ second.encode value.2
  size value := first.size value.1 + second.size value.2
  decode bytes := do
    let (left, rest) ← first.decode bytes
    let (right, rest) ← second.decode rest
    return ((left, right), rest)

def octets : Format Bytes where
  encode bytes := (number 8).encode bytes.length ++ bytes
  size bytes := (number 8).size bytes.length + bytes.length
  decode bytes := do
    let (length, rest) ← (number 8).decode bytes
    match splitOff length rest with
    | some (front, rest) => return (front.val, rest)
    | none => throw .unexpectedEnd

def text : Format String where
  encode value := (number 8).encode value.utf8ByteSize ++ Utf8.encode value
  size value := (number 8).size value.utf8ByteSize + value.utf8ByteSize
  decode bytes := do
    let (length, rest) ← (number 8).decode bytes
    match splitOff length rest with
    | none => throw .shortText
    | some (front, rest) =>
      match Utf8.decode front.val with
      | .ok value => return (value, rest)
      | .error fault => throw (.text fault)

/-- Reads `count` values in a row onto those read before, which are kept in reverse. -/
def readMany (format : Format α) : Nat → List α → Bytes → Except Fault (List α × Bytes)
  | 0, values, bytes => .ok (values.reverse, bytes)
  | count + 1, values, bytes =>
    match format.decode bytes with
    | .ok (value, rest) => readMany format count (value :: values) rest
    | .error fault => .error fault

def list (format : Format α) : Format (List α) where
  encode values := (number 8).encode values.length ++ values.flatMap format.encode
  size values :=
    values.foldl (fun size value => size + format.size value) ((number 8).size values.length)
  decode bytes := do
    let (count, rest) ← (number 8).decode bytes
    readMany format count [] rest

/-- A value that may be absent, behind a byte that says whether it is there. -/
def option (format : Format α) : Format (Option α) where
  encode
    | none => [0]
    | some value => 1 :: format.encode value
  size
    | none => 1
    | some value => 1 + format.size value
  decode
    | [] => .error .unexpectedEnd
    | 0 :: rest => .ok (none, rest)
    | 1 :: rest => (format.decode rest).map fun (value, rest) => (some value, rest)
    | tag :: _ => .error (.option tag.toNat)

def encodeVariant (tag : Nat) (content : Bytes) : Bytes := (number 4).encode tag ++ content

/-- The bytes of a variant whose content takes `content` bytes. -/
def sizeVariant (tag content : Nat) : Nat := (number 4).size tag + content

/-- Reads the number of a variant and goes on with the reader that stands at this place. -/
def decodeVariant (readers : List (Bytes → Except Fault (α × Bytes))) (bytes : Bytes) : Except Fault (α × Bytes) := do
  let (tag, rest) ← (number 4).decode bytes
  match readers[tag]? with
  | some reader => reader rest
  | none => throw (.variant tag readers.length)

/-- The reader of one variant, whose content another format reads. -/
def reader (format : Format α) (build : α → β) (bytes : Bytes) : Except Fault (β × Bytes) :=
  (format.decode bytes).map fun (value, rest) => (build value, rest)

/-- The value at the front of a byte string; what follows it does not matter. -/
def decodeFront (format : Format α) (bytes : Bytes) : Except Fault α :=
  (format.decode bytes).map Prod.fst

end Format

end BuildDelivery.Wire
