import BuildDelivery.Text.Numeral
import BuildDelivery.Text.Quoted

/-! Writing texts and numbers as TOML does: a text takes the first form of quotes in which
nothing of it has to be escaped. -/

set_option autoImplicit false

namespace BuildDelivery.Toml

/-- Characters that no form of text may hold as they are. -/
def needsCode (character : Char) : Bool :=
  (character.toNat < 32 && character != '\t' && character != '\n') || character.toNat == 127

/-- The length of the longest row of a character in a text that starts behind `row` of it. -/
def longestRow (mark : Char) (row : Nat) : List Char → Nat
  | [] => row
  | character :: rest =>
    if character = mark then longestRow mark (row + 1) rest
    else max row (longestRow mark 0 rest)

/-- The escaped form of a character other than a quote. -/
def escapeCode (multiline : Bool) (character : Char) : List Char :=
  if character = '\x08' then ['\\', 'b']
  else if character = '\t' then ['\\', 't']
  else if character = '\n' then if multiline then ['\n'] else ['\\', 'n']
  else if character = '\x0c' then ['\\', 'f']
  else if character = '\r' then ['\\', 'r']
  else if character = '\\' then ['\\', '\\']
  else if character.toNat < 32 ∨ character.toNat = 127 then
    ['\\', 'u'] ++ (Numeral.padded 16 4 character.toNat).map Char.toUpper
  else [character]

/-- The escaped form of a text, behind `row` quotes. A quote is escaped where there are already
`allowed` of them in a row. -/
def escapeText (multiline : Bool) (allowed row : Nat) : List Char → List Char
  | [] => []
  | '"' :: rest =>
    if allowed ≤ row then '\\' :: '"' :: escapeText multiline allowed 0 rest
    else '"' :: escapeText multiline allowed (row + 1) rest
  | character :: rest => escapeCode multiline character ++ escapeText multiline allowed 0 rest

def writeText (text : String) : String :=
  let characters := text.toList
  let coded := characters.any needsCode
  let backslash := characters.contains '\\'
  let newline := characters.contains '\n'
  let quotes := longestRow '"' 0 characters
  let apostrophes := longestRow '\'' 0 characters
  let firstLine := if newline then "\n" else ""
  let basic := "\"" ++ String.ofList (escapeText false 0 0 characters) ++ "\""
  let multilineBasic :=
    "\"\"\"" ++ firstLine ++ String.ofList (escapeText true 2 0 characters) ++ "\"\"\""
  if ¬coded ∧ ¬backslash ∧ quotes = 0 ∧ ¬newline then basic
  else if ¬coded ∧ apostrophes = 0 ∧ ¬newline then "'" ++ text ++ "'"
  else if ¬coded ∧ ¬backslash ∧ quotes ≤ 2 then multilineBasic
  else if ¬coded ∧ apostrophes ≤ 2 then "'''" ++ firstLine ++ text ++ "'''"
  else if newline then multilineBasic
  else basic

end BuildDelivery.Toml
