import BuildDelivery.Text.Numeral
import BuildDelivery.Text.Quoted
import BuildDelivery.Text.Utf8

/-! Hexadecimal text of byte strings: two digits a byte, the high half first, written in
lower case and read in either. -/

set_option autoImplicit false

namespace BuildDelivery.Hex

/-- Why a text is not the hexadecimal form of a byte string. -/
inductive Fault where
  | oddLength
  | wrongLength
  /-- The byte at `position` of the text is no digit. -/
  | badDigit (byte : UInt8) (position : Nat)
  deriving DecidableEq, Repr

def Fault.message : Fault → String
  | .oddLength => "Odd number of digits"
  | .wrongLength => "Invalid string length"
  | .badDigit byte position =>
    s!"Invalid character {Text.quoteChar (Char.ofNat byte.toNat)} at position {position}"

def digitValue (byte : UInt8) : Option Nat := Numeral.digitValue 16 (Char.ofNat byte.toNat)

def encode (bytes : Bytes) : String :=
  String.ofList (bytes.flatMap fun byte => Numeral.padded 16 2 byte.toNat)

/-- Reads an even number of digits, of which the first stands at `position`. -/
def readPairs (position : Nat) : Bytes → Except Fault Bytes
  | high :: low :: rest =>
    match digitValue high, digitValue low with
    | none, _ => .error (.badDigit high position)
    | some _, none => .error (.badDigit low (position + 1))
    | some upper, some lower => do
      let bytes ← readPairs (position + 2) rest
      return UInt8.ofNat (16 * upper + lower) :: bytes
  | [_] => .error .oddLength
  | [] => .ok []

/-- The bytes that a text of digits spells; the length is judged before the digits. -/
def decode (text : String) : Except Fault Bytes :=
  let digits := Utf8.encode text
  if digits.length % 2 = 1 then .error .oddLength else readPairs 0 digits

/-- As `decode`, for a byte string whose length is known beforehand. -/
def decodeExactly (count : Nat) (text : String) : Except Fault Bytes :=
  let digits := Utf8.encode text
  if digits.length % 2 = 1 then .error .oddLength
  else if digits.length ≠ 2 * count then .error .wrongLength
  else readPairs 0 digits

theorem length_of_readPairs {position : Nat} {digits bytes : Bytes}
    (read : readPairs position digits = .ok bytes) : digits.length = 2 * bytes.length := by
  fun_induction readPairs position digits generalizing bytes with
  | case1 => cases read
  | case2 => cases read
  | case3 position high low rest upper lower upperRead lowerRead step =>
    cases found : readPairs (position + 2) rest with
    | error fault => simp [found, bind, Except.bind] at read
    | ok tail =>
      simp only [found, bind, Except.bind, pure, Except.pure, Except.ok.injEq] at read
      subst read
      have := step found
      simp only [List.length_cons]
      omega
  | case4 => cases read
  | case5 => cases read; rfl

theorem length_of_decodeExactly {count : Nat} {text : String} {bytes : Bytes}
    (read : decodeExactly count text = .ok bytes) : bytes.length = count := by
  simp only [decodeExactly] at read
  split at read
  · cases read
  · split at read
    · cases read
    · have := length_of_readPairs read
      omega

end BuildDelivery.Hex
