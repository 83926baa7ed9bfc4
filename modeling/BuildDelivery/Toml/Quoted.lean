import BuildDelivery.Text.Numeral

/-! The quoted texts of TOML: in double quotes with escapes or in apostrophes without, on one
line or, in three quotes, on several. -/

set_option autoImplicit false

namespace BuildDelivery.Toml

def isBlank (character : Char) : Bool := character == ' ' || character == '\t'

def skipBlanks (input : List Char) : List Char := input.dropWhile isBlank

def isVisible (character : Char) : Bool :=
  character == '\t' || (32 ≤ character.toNat && character.toNat != 127)

def skipMargin : List Char → List Char
  | '\n' :: rest => skipMargin rest
  | '\r' :: '\n' :: rest => skipMargin rest
  | character :: rest => if isBlank character then skipMargin rest else character :: rest
  | [] => []

/-- The character that a backslash and a letter stand for. -/
def escapeOf? : Char → Option Char
  | 'b' => some '\x08'
  | 't' => some '\t'
  | 'n' => some '\n'
  | 'f' => some '\x0c'
  | 'r' => some '\r'
  | '"' => some '"'
  | '\\' => some '\\'
  | _ => none

/-- The character whose number is written in exactly `width` hexadecimal digits. -/
def readCode (width : Nat) (input : List Char) : Option (List Char × List Char) := do
  let values ← (input.take width).mapM (Numeral.digitValue 16)
  let number := values.foldl (fun number value => number * 16 + value) 0
  if values.length = width ∧ number.isValidChar then
    return ([Char.ofNat number], input.drop width)
  else none

/-- What is meant by the input behind a backslash. At the end of a line, where there may be
more lines, a backslash joins the line to the next text. -/
def readEscape (multiline : Bool) : List Char → Option (List Char × List Char)
  | [] => none
  | 'u' :: rest => readCode 4 rest
  | 'U' :: rest => readCode 8 rest
  | character :: rest =>
    match escapeOf? character with
    | some meant => some ([meant], rest)
    | none =>
      if multiline then
        match skipBlanks (character :: rest) with
        | '\n' :: rest => some ([], skipMargin rest)
        | '\r' :: '\n' :: rest => some ([], skipMargin rest)
        | _ => none
      else none

/-- The text up to the closing mark, and what follows it; `room` bounds the characters of the
input. A text of several lines ends with three marks, before which two more may stand. -/
def readBody (mark : Char) (escapes multiline : Bool) : Nat → List Char → Option (List Char × List Char)
  | 0, _ => none
  | room + 1, input =>
    let go (front : List Char) (rest : List Char) : Option (List Char × List Char) :=
      (readBody mark escapes multiline room rest).map fun (text, rest) => (front ++ text, rest)
    let marks := if multiline then (input.takeWhile (· == mark)).length else 0
    match input with
    | [] => none
    | '\n' :: rest => if multiline then go ['\n'] rest else none
    | '\r' :: '\n' :: rest => if multiline then go ['\n'] rest else none
    | character :: rest =>
      if 3 ≤ marks then
        let kept := min marks 5 - 3
        some (List.replicate kept mark, input.drop (kept + 3))
      else if character = mark ∧ ¬multiline then some ([], rest)
      else if character = '\\' ∧ escapes then do
        let (meant, rest) ← readEscape multiline rest
        go meant rest
      else if isVisible character then go [character] rest
      else none

/-- Removes the line end that directly follows opening marks. -/
def dropFirstLine : List Char → List Char
  | '\n' :: rest => rest
  | '\r' :: '\n' :: rest => rest
  | rest => rest

def readMarked (mark : Char) (escapes multiline : Bool) (input : List Char) :
    Option (String × List Char) :=
  (readBody mark escapes multiline (input.length + 1) input).map fun (text, rest) =>
    (String.ofList text, rest)

def readQuoted : List Char → Option (String × List Char)
  | '"' :: rest => readMarked '"' true false rest
  | '\'' :: rest => readMarked '\'' false false rest
  | _ => none

def readText : List Char → Option (String × List Char)
  | '"' :: '"' :: '"' :: rest => readMarked '"' true true (dropFirstLine rest)
  | '\'' :: '\'' :: '\'' :: rest => readMarked '\'' false true (dropFirstLine rest)
  | input => readQuoted input

end BuildDelivery.Toml
