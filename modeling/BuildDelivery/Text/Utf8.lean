import BuildDelivery.LittleEndian

/-! UTF-8 text as bytes. Reading fails at the first byte sequence that is no character,
and the fault tells a sequence that is wrong from one that only stops early. -/

set_option autoImplicit false

namespace BuildDelivery.Utf8

/-- Where a byte string stops being UTF-8. -/
inductive Fault where
  /-- The bytes from `position` on start with `length` bytes that no character starts with. -/
  | invalid (position length : Nat)
  /-- The bytes from `position` on are the start of a character and nothing more. -/
  | incomplete (position : Nat)
  deriving DecidableEq, Repr

def Fault.message : Fault → String
  | .invalid position length => s!"invalid utf-8 sequence of {length} bytes from index {position}"
  | .incomplete position => s!"incomplete utf-8 byte sequence from index {position}"

/-- What a lead byte asks for: how many bytes follow, and the range of the first of them. -/
def continuation (lead : UInt8) : Option (Nat × UInt8 × UInt8) :=
  if 0xc2 ≤ lead ∧ lead ≤ 0xdf then some (1, 0x80, 0xbf)
  else if lead = 0xe0 then some (2, 0xa0, 0xbf)
  else if lead = 0xed then some (2, 0x80, 0x9f)
  else if 0xe1 ≤ lead ∧ lead ≤ 0xef then some (2, 0x80, 0xbf)
  else if lead = 0xf0 then some (3, 0x90, 0xbf)
  else if 0xf1 ≤ lead ∧ lead ≤ 0xf3 then some (3, 0x80, 0xbf)
  else if lead = 0xf4 then some (3, 0x80, 0x8f)
  else none

/-- The first fault, for bytes that start at `position`; `pending` is the character being
read: its position, the bytes read of it, the bytes still owed and the range of the next. -/
def scan (position : Nat) (pending : Option (Nat × Nat × Nat × UInt8 × UInt8)) :
    Bytes → Option Fault
  | [] => pending.map fun (start, _) => .incomplete start
  | byte :: rest =>
    match pending with
    | none =>
      if byte < 0x80 then scan (position + 1) none rest
      else match continuation byte with
        | none => some (.invalid position 1)
        | some (owed, low, high) => scan (position + 1) (some (position, 1, owed, low, high)) rest
    | some (start, taken, owed, low, high) =>
      if low ≤ byte ∧ byte ≤ high then
        if owed ≤ 1 then scan (position + 1) none rest
        else scan (position + 1) (some (start, taken + 1, owed - 1, 0x80, 0xbf)) rest
      else some (.invalid start taken)

def encode (text : String) : Bytes := text.toByteArray.data.toList

/-- The text that bytes spell, or the first fault in them. -/
def decode (bytes : Bytes) : Except Fault String :=
  match String.fromUTF8? ⟨bytes.toArray⟩ with
  | some text => .ok text
  | none => .error ((scan 0 none bytes).getD (.incomplete bytes.length))

theorem length_encode (text : String) : (encode text).length = text.utf8ByteSize := rfl

theorem encode_injective {left right : String} (same : encode left = encode right) :
    left = right := by
  apply String.toByteArray_inj.mp
  apply ByteArray.ext
  exact Array.toList_inj.mp same

theorem decode_encode (text : String) : decode (encode text) = .ok text := by
  have whole : (⟨(encode text).toArray⟩ : ByteArray) = text.toByteArray := by simp [encode]
  simp [decode, whole, String.fromUTF8?, String.fromUTF8, text.isValidUTF8]

theorem encode_of_decode {bytes : Bytes} {text : String} (read : decode bytes = .ok text) :
    encode text = bytes := by
  unfold decode at read
  split at read
  · next found =>
    cases read
    simp only [String.fromUTF8?] at found
    split at found
    · cases found
      simp [encode, String.fromUTF8]
    · cases found
  · cases read

end BuildDelivery.Utf8
