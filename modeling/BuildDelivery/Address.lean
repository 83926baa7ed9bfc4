import BuildDelivery.Text.Quoted
import BuildDelivery.Text.Numeral

/-! Socket addresses: a host of the fourth or sixth version of the internet protocol, and a
port. Every address is written in one way; of the zeros in a host of the sixth version the
first longest row is left out. -/

set_option autoImplicit false

namespace BuildDelivery

inductive Host where
  | v4 (octets : Vector Nat 4)
  | v6 (segments : List Nat) (scope : Nat)
  deriving DecidableEq, Repr

structure Address where
  host : Host
  port : Nat
  deriving DecidableEq, Repr

namespace Address

/-- The number below `limit` at the front of a text, in at most `width?` digits. -/
def readNumber (base limit : Nat) (width? : Option Nat) (leadingZeros : Bool) (input : List Char) :
    Option (Nat × List Char) :=
  let (spelling, rest) := input.span fun character => (Numeral.digitValue base character).isSome
  let number := spelling.foldl (fun number character =>
    min limit (number * base + (Numeral.digitValue base character).getD 0)) 0
  if spelling = [] ∨ limit ≤ number ∨ width?.any (· < spelling.length) then none
  else if ¬leadingZeros ∧ spelling.head? = some '0' ∧ 1 < spelling.length then none
  else some (number, rest)

def expect (character : Char) : List Char → Option (List Char)
  | [] => none
  | first :: rest => if first = character then some rest else none

def readOctet : List Char → Option (Nat × List Char) := readNumber 10 256 (some 3) false

/-- Four octets between points. -/
def readV4 (input : List Char) : Option (Vector Nat 4 × List Char) := do
  let (a, rest) ← readOctet input
  let (b, rest) ← readOctet (← expect '.' rest)
  let (c, rest) ← readOctet (← expect '.' rest)
  let (d, rest) ← readOctet (← expect '.' rest)
  return (#v[a, b, c, d], rest)

/-- At most `room` segments between colons, the first behind a colon too unless it is the very
first. The last two may be written as four octets, which is told. -/
def readSegments (first : Bool) : Nat → List Char → List Nat × Bool × List Char
  | 0, input => ([], false, input)
  | room + 1, input =>
    let start? := if first then some input else expect ':' input
    match start? with
    | none => ([], false, input)
    | some start =>
      match (if room = 0 then none else readV4 start) with
      | some (octets, rest) =>
        ([octets[0] * 256 + octets[1], octets[2] * 256 + octets[3]], true, rest)
      | none =>
        match readNumber 16 65536 (some 4) true start with
        | none => ([], false, input)
        | some (segment, rest) =>
          let (segments, octets, rest) := readSegments false room rest
          (segment :: segments, octets, rest)

/-- Eight segments, or fewer around two colons that stand for at least one zero. -/
def readV6 (input : List Char) : Option (List Nat × List Char) :=
  let (front, octets, rest) := readSegments true 8 input
  if front.length = 8 then some (front, rest)
  else if octets then none
  else do
    let rest ← expect ':' (← expect ':' rest)
    let (back, _, rest) := readSegments true (7 - front.length) rest
    return (front ++ List.replicate (8 - front.length - back.length) 0 ++ back, rest)

def readPort (input : List Char) : Option (Nat × List Char) := do
  readNumber 10 65536 none true (← expect ':' input)

def read (text : String) : Option Address :=
  let v4 : Option Address := do
    let (octets, rest) ← readV4 text.toList
    let (port, rest) ← readPort rest
    if rest = [] then some ⟨.v4 octets, port⟩ else none
  let v6 : Option Address := do
    let (segments, rest) ← readV6 (← expect '[' text.toList)
    let (scope, rest) ← match rest with
      | '%' :: rest => readNumber 10 (Numeral.capacity 32) none true rest
      | rest => some (0, rest)
    let (port, rest) ← readPort (← expect ']' rest)
    if rest = [] then some ⟨.v6 segments scope, port⟩ else none
  v4.orElse fun _ => v6

/-- Where the first longest row of zeros starts, and its length. -/
def longestZeros (position : Nat) (current best : Nat × Nat) : List Nat → Nat × Nat
  | [] => if best.2 < current.2 then current else best
  | segment :: rest =>
    if segment = 0 then
      let current := if current.2 = 0 then (position, 1) else (current.1, current.2 + 1)
      longestZeros (position + 1) current (if best.2 < current.2 then current else best) rest
    else longestZeros (position + 1) (0, 0) best rest

def octetsText (octets : List Nat) : String := ".".intercalate (octets.map toString)

def segmentsText (segments : List Nat) : String :=
  ":".intercalate (segments.map fun segment => String.ofList (Text.hexDigits segment))

def v6Text (segments : List Nat) : String :=
  match segments with
  | [0, 0, 0, 0, 0, 0xffff, high, low] =>
    "::ffff:" ++ octetsText [high / 256, high % 256, low / 256, low % 256]
  | _ =>
    let (start, length) := longestZeros 0 (0, 0) (0, 0) segments
    if 1 < length then
      segmentsText (segments.take start) ++ "::" ++ segmentsText (segments.drop (start + length))
    else segmentsText segments

def toText (address : Address) : String :=
  match address.host with
  | .v4 octets => octetsText octets.toList ++ ":" ++ toString address.port
  | .v6 segments scope =>
    let zone := if scope = 0 then "" else "%" ++ toString scope
    "[" ++ v6Text segments ++ zone ++ "]:" ++ toString address.port

end Address

end BuildDelivery
