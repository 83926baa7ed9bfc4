import BuildDelivery.Text.Combining

/-! Quoted text for messages: the quotes, backslashes and characters that cannot be
seen are escaped, everything else stands for itself. -/

set_option autoImplicit false

namespace BuildDelivery.Text

/-- Lowercase hexadecimal digits without leading zeros. -/
def hexDigits (number : Nat) : List Char := Nat.toDigits 16 number

/-- The quoted form of one character between delimiters of the given kind. -/
def escape (delimiter character : Char) : List Char :=
  if character = '\x00' then ['\\', '0']
  else if character = '\t' then ['\\', 't']
  else if character = '\n' then ['\\', 'n']
  else if character = '\r' then ['\\', 'r']
  else if character = '\\' ∨ character = delimiter then ['\\', character]
  else if combining character ∨ unprintable character then
    ['\\', 'u', '\x7b'] ++ hexDigits character.toNat ++ ['\x7d']
  else [character]

def quote (text : String) : String :=
  String.ofList ('"' :: text.toList.flatMap (escape '"') ++ ['"'])

def quoteChar (character : Char) : String :=
  String.ofList ('\'' :: escape '\'' character ++ ['\''])

end BuildDelivery.Text
