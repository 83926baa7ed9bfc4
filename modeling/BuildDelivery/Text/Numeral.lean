/-! Unsigned numbers as text in a base of at most sixteen. A numeral may carry a plus sign
and leading zeros; the first character that is no digit, or makes the number too large,
decides the fault. -/

set_option autoImplicit false

namespace BuildDelivery.Numeral

/-- How many numbers have at most so many binary digits. -/
def capacity (bits : Nat) : Nat := Nat.pow 2 bits

/-- Why a text is not an unsigned number below the limit. -/
inductive Fault where
  | empty
  | badDigit
  | tooLarge
  deriving DecidableEq, Repr

def Fault.message : Fault → String
  | .empty => "cannot parse integer from empty string"
  | .badDigit => "invalid digit found in string"
  | .tooLarge => "number too large to fit in target type"

def digitValue (base : Nat) (character : Char) : Option Nat :=
  let code := character.toNat
  let value? :=
    if 48 ≤ code ∧ code ≤ 57 then some (code - 48)
    else if 97 ≤ code ∧ code ≤ 102 then some (code - 87)
    else if 65 ≤ code ∧ code ≤ 70 then some (code - 55)
    else none
  value?.filter (· < base)

/-- Reads digits onto the number that the digits before them spell. -/
def readDigits (base limit number : Nat) : List Char → Except Fault Nat
  | [] => .ok number
  | character :: rest =>
    match digitValue base character with
    | none => .error .badDigit
    | some value =>
      let next := number * base + value
      if next < limit then readDigits base limit next rest else .error .tooLarge

def read (base limit : Nat) (text : String) : Except Fault Nat :=
  match text.toList with
  | [] => .error .empty
  | ['+'] => .error .badDigit
  | '+' :: digits => readDigits base limit 0 digits
  | digits => readDigits base limit 0 digits

def digit (value : Nat) : Char :=
  if value < 10 then Char.ofNat (48 + value) else Char.ofNat (87 + value)

/-- The low digits of a number, exactly `width` of them, the most significant first. -/
def padded (base : Nat) : Nat → Nat → List Char
  | 0, _ => []
  | width + 1, number => padded base width (number / base) ++ [digit (number % base)]

end BuildDelivery.Numeral
