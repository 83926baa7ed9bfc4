/-! Byte strings and the little-endian form of numbers. Writing a number in a
width that holds it and reading it back gives the number, and every byte string
is the written form of the number it spells. -/

set_option autoImplicit false

namespace BuildDelivery

abbrev Bytes := List UInt8

namespace LittleEndian

/-- The low `width` bytes of a number, least significant first. -/
def encode : Nat → Nat → Bytes
  | 0, _ => []
  | width + 1, number => UInt8.ofNat number :: encode width (number / 256)

/-- The number that a byte string spells, least significant byte first. -/
def decode : Bytes → Nat
  | [] => 0
  | byte :: rest => byte.toNat + 256 * decode rest

/-- How many numbers fit into a width. -/
def capacity : Nat → Nat
  | 0 => 1
  | width + 1 => 256 * capacity width

@[simp] theorem length_encode (width number : Nat) : (encode width number).length = width := by
  induction width generalizing number <;> simp [encode, *]

theorem decode_lt (bytes : Bytes) : decode bytes < capacity bytes.length := by
  induction bytes with
  | nil => simp [decode, capacity]
  | cons byte rest bound =>
    have small := byte.toNat_lt
    simp only [decode, List.length_cons, capacity]
    omega

theorem decode_encode {width number : Nat} (fits : number < capacity width) :
    decode (encode width number) = number := by
  induction width generalizing number with
  | zero =>
    simp only [capacity] at fits
    simp only [encode, decode]
    omega
  | succ width step =>
    have small : number / 256 < capacity width := by
      simp only [capacity] at fits
      omega
    simp only [encode, decode, UInt8.toNat_ofNat', step small]
    omega

theorem encode_decode (bytes : Bytes) : encode bytes.length (decode bytes) = bytes := by
  induction bytes with
  | nil => rfl
  | cons byte rest step =>
    have small := byte.toNat_lt
    have quotient : (byte.toNat + 256 * decode rest) / 256 = decode rest := by omega
    have head : UInt8.ofNat (byte.toNat + 256 * decode rest) = byte := by
      apply UInt8.toNat_inj.mp
      simp only [UInt8.toNat_ofNat']
      omega
    simp only [List.length_cons, encode, decode, quotient, head, step]

end LittleEndian

end BuildDelivery
