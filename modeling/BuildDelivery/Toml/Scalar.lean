import BuildDelivery.Text.Numeral
import BuildDelivery.Toml.Value

/-! The numbers, truth values and points in time of TOML. Each is a word without blanks, except
that a blank may stand between a date and its time. -/

set_option autoImplicit false

namespace BuildDelivery.Toml

def isWordCharacter (character : Char) : Bool :=
  character.isAlphanum || "_+-.:".toList.contains character

/-- Digits, between which single underscores may stand. -/
def digits (base : Nat) : List Char → Option (List Char)
  | [] => none
  | [character] => if (Numeral.digitValue base character).isSome then some [character] else none
  | character :: '_' :: rest =>
    if (Numeral.digitValue base character).isSome then (digits base rest).map (character :: ·)
    else none
  | character :: rest =>
    if (Numeral.digitValue base character).isSome then (digits base rest).map (character :: ·)
    else none

def magnitude (base : Nat) (spelling : List Char) : Nat :=
  spelling.foldl (fun number character =>
    number * base + (Numeral.digitValue base character).getD 0) 0

/-- A sign, if one stands in front: whether it is a minus, and what follows. -/
def splitSign : List Char → Bool × List Char
  | '-' :: rest => (true, rest)
  | '+' :: rest => (false, rest)
  | rest => (false, rest)

def plainDigits : List Char → Option (List Char)
  | ['0'] => some ['0']
  | '0' :: _ => none
  | spelling => digits 10 spelling

/-- What integers stay below; their sign and their digits take 64 bits together. -/
def integerBound : Nat := Numeral.capacity 63

/-- An integer, in decimal digits with a sign or in digits of another base. -/
def readInteger (word : List Char) : Option Int :=
  let small (base : Nat) (spelling : List Char) : Option Int := do
    let number := magnitude base (← digits base spelling)
    if number < integerBound then some number else none
  match word with
  | '0' :: 'x' :: spelling => small 16 spelling
  | '0' :: 'o' :: spelling => small 8 spelling
  | '0' :: 'b' :: spelling => small 2 spelling
  | _ => do
    let (negative, spelling) := splitSign word
    let number := magnitude 10 (← plainDigits spelling)
    if negative then if number ≤ integerBound then some (-number) else none
    else if number < integerBound then some number else none

/-- Whether `number * 10 ^ exponent` is so large that no finite number of double precision is
nearest to it. -/
def overflows (number : Nat) (exponent : Int) : Bool :=
  let length := (Nat.toDigits 10 number).length
  let bound := (Numeral.capacity 54 - 1) * Numeral.capacity 970
  if number = 0 then false
  else if 400 < length + exponent then true
  else if length + exponent < 300 then false
  else if 0 ≤ exponent then bound ≤ number * Nat.pow 10 exponent.toNat
  else bound * Nat.pow 10 (-exponent).toNat ≤ number

/-- Numbers with a fraction or an exponent, and the words for what is no such number. -/
def isReal (word : List Char) : Bool :=
  let (negative, spelling) := splitSign word
  if spelling = "inf".toList ∨ spelling = "nan".toList then true
  else
    let isExponentMark (character : Char) : Bool := character == 'e' || character == 'E'
    let (mantissa, tail) := spelling.span fun character => !isExponentMark character
    let (whole, point) := mantissa.span (· != '.')
    let exponent? : Option Int := match tail with
      | [] => some 0
      | _ :: marked =>
        let (below, spelling) := splitSign marked
        (digits 10 spelling).map fun spelling =>
          if below then -(magnitude 10 spelling : Int) else magnitude 10 spelling
    let fraction? : Option (List Char) := match point with
      | [] => some []
      | _ :: spelling => digits 10 spelling
    match plainDigits whole, fraction?, exponent? with
    | some whole, some fraction, some exponent =>
      (point ≠ [] || tail ≠ []) &&
        (negative || !overflows (magnitude 10 (whole ++ fraction)) (exponent - fraction.length))
    | _, _, _ => false

/-- A number of exactly `width` digits within bounds. -/
def field (width low high : Nat) (word : List Char) : Option (Nat × List Char) :=
  let front := word.take width
  if front.length = width ∧ front.all Char.isDigit then
    let number := magnitude 10 front
    if low ≤ number ∧ number ≤ high then some (number, word.drop width) else none
  else none

/-- The rest behind a character that has to stand there. -/
def expect (character : Char) : List Char → Option (List Char)
  | [] => none
  | first :: rest => if first = character then some rest else none

def daysOf (year month : Nat) : Nat :=
  if month = 2 then
    if year % 4 = 0 ∧ (year % 100 ≠ 0 ∨ year % 400 = 0) then 29 else 28
  else if month = 4 ∨ month = 6 ∨ month = 9 ∨ month = 11 then 30
  else 31

def dropDate (word : List Char) : Option (List Char) := do
  let (year, word) ← field 4 0 9999 word
  let (month, word) ← field 2 1 12 (← expect '-' word)
  let (_, word) ← field 2 1 (daysOf year month) (← expect '-' word)
  return word

/-- The rest behind a time of day, of which the last minute may have a second more. -/
def dropTime (word : List Char) : Option (List Char) := do
  let (_, word) ← field 2 0 23 word
  let (_, word) ← field 2 0 59 (← expect ':' word)
  let (_, word) ← field 2 0 60 (← expect ':' word)
  match word with
  | '.' :: fraction =>
    if (fraction.takeWhile Char.isDigit).isEmpty then none
    else some (fraction.dropWhile Char.isDigit)
  | _ => some word

/-- A distance from universal time, or nothing. -/
def isOffset (word : List Char) : Bool :=
  match word with
  | [] | ['Z'] | ['z'] => true
  | sign :: rest =>
    (sign == '+' || sign == '-') &&
      (do
        let (_, rest) ← field 2 0 23 rest
        let (_, rest) ← field 2 0 59 (← expect ':' rest)
        return rest.isEmpty : Option Bool) == some true

/-- A time of day with an optional distance from universal time. -/
def isZonedTime (word : List Char) : Bool := (dropTime word).any isOffset

def isMoment (word : List Char) : Bool :=
  match dropDate word with
  | some [] => true
  | some (mark :: time) => (mark == 'T' || mark == 't') && isZonedTime time
  | none => (dropTime word).any List.isEmpty

/-- The value that starts with a word, and what follows it. -/
def readWord (input : List Char) : Option (Value × List Char) :=
  let (word, rest) := input.span isWordCharacter
  let spelling := String.ofList word
  if spelling = "true" then some (.boolean true, rest)
  else if spelling = "false" then some (.boolean false, rest)
  else if dropDate word = some [] then
    match rest with
    | ' ' :: behind =>
      let (time, after) := behind.span isWordCharacter
      if isZonedTime time then some (.moment (spelling ++ " " ++ String.ofList time), after)
      else some (.moment spelling, rest)
    | _ => some (.moment spelling, rest)
  else if isMoment word then some (.moment spelling, rest)
  else if isReal word then some (.real spelling, rest)
  else (readInteger word).map fun number => (.integer number, rest)

end BuildDelivery.Toml
