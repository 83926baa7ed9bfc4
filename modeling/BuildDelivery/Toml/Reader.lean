import BuildDelivery.Toml.Quoted
import BuildDelivery.Toml.Scalar

/-! Reading TOML documents. A document that breaks the syntax, gives a key two values or nests
too deeply has no value. -/

set_option autoImplicit false

namespace BuildDelivery.Toml

/-- The rest of a line behind its last value: blanks, a comment and the end of the line or of
the document. -/
def lineEnd (input : List Char) : Option (List Char) :=
  let rest := match skipBlanks input with
    | '#' :: comment => comment.dropWhile isVisible
    | rest => rest
  match rest with
  | [] => some []
  | '\n' :: rest => some rest
  | '\r' :: '\n' :: rest => some rest
  | _ => none

/-- Skips blanks, comments and line ends, as they may stand between the elements of an array. -/
def skipLines (inComment : Bool) : List Char → List Char
  | [] => []
  | '\n' :: rest => skipLines false rest
  | '\r' :: '\n' :: rest => skipLines false rest
  | character :: rest =>
    if inComment then if isVisible character then skipLines true rest else character :: rest
    else if isBlank character then skipLines false rest
    else if character = '#' then skipLines true rest
    else character :: rest

/-- The largest depth of arrays and inline tables, and the largest number of parts of a key. -/
def maxDepth : Nat := 79

def isBareCharacter (character : Char) : Bool :=
  character.isAlphanum || character == '_' || character == '-'

def readPart (input : List Char) : Option (String × List Char) :=
  match input with
  | '"' :: _ | '\'' :: _ => readQuoted input
  | _ =>
    let (bare, rest) := input.span isBareCharacter
    if bare = [] then none else some (String.ofList bare, rest)

/-- The parts of a key between dots, with the blanks around them; `room` bounds their number. -/
def readKey : Nat → List Char → Option (List String × List Char)
  | 0, _ => none
  | room + 1, input => do
    let (part, rest) ← readPart (skipBlanks input)
    match skipBlanks rest with
    | '.' :: rest =>
      let (parts, rest) ← readKey room rest
      return (part :: parts, rest)
    | rest => return ([part], rest)

section Composite

variable (readValue : List Char → Option (Value × List Char))

/-- The elements of an array and what follows its closing bracket; `room` bounds their number. -/
def readElements : Nat → List Char → Option (List Value × List Char)
  | 0, _ => none
  | room + 1, input =>
    match skipLines false input with
    | ']' :: rest => some ([], rest)
    | input => do
      let (value, rest) ← readValue input
      match skipLines false rest with
      | ',' :: rest =>
        let (values, rest) ← readElements room rest
        return (value :: values, rest)
      | ']' :: rest => return ([value], rest)
      | _ => none

def readPair (input : List Char) : Option (List String × Value × List Char) := do
  let (key, rest) ← readKey maxDepth input
  let (value, rest) ← readValue (skipBlanks (← expect '=' rest))
  return (key, value, rest)

/-- The pairs of an inline table, added to those before, and what follows its closing brace;
`room` bounds their number. -/
def readPairs : Nat → Entries → List Char → Option (Entries × List Char)
  | 0, _, _ => none
  | room + 1, entries, input => do
    let (key, value, rest) ← readPair readValue input
    let entries ← entries.add key value .inline
    match skipBlanks rest with
    | ',' :: rest => readPairs room entries rest
    | '\x7d' :: rest => return (entries, rest)
    | _ => none

end Composite

/-- A value and what follows it; `room` bounds the depth of arrays and inline tables. -/
def readValue : Nat → List Char → Option (Value × List Char)
  | room, '[' :: rest =>
    match room with
    | 0 => none
    | room + 1 =>
      (readElements (readValue room) (rest.length + 1) rest).map fun (values, rest) =>
        (.array false values, rest)
  | room, '\x7b' :: rest =>
    match room with
    | 0 => none
    | room + 1 =>
      match skipBlanks rest with
      | '\x7d' :: rest => some (.table .inline [], rest)
      | rest =>
        (readPairs (readValue room) (rest.length + 1) [] rest).map fun (entries, rest) =>
          (.table .inline entries, rest)
  | _, '"' :: rest => (readText ('"' :: rest)).map fun (text, rest) => (.text text, rest)
  | _, '\'' :: rest => (readText ('\'' :: rest)).map fun (text, rest) => (.text text, rest)
  | _, input => readWord input

/-- A document as far as it was read: all entries, and the path of the table that the last
header opened. -/
structure Draft where
  entries : Entries
  path : List String

/-- Reads a line that is not empty, which may go on over several lines inside a value. -/
def readLine (draft : Draft) (input : List Char) : Option (Draft × List Char) :=
  match input with
  | '[' :: '[' :: rest => do
    let (path, rest) ← readKey maxDepth rest
    let rest ← lineEnd (← expect ']' (← expect ']' rest))
    return (⟨← draft.entries.openElement path, path⟩, rest)
  | '[' :: rest => do
    let (path, rest) ← readKey maxDepth rest
    let rest ← lineEnd (← expect ']' rest)
    return (⟨← draft.entries.openTable path, path⟩, rest)
  | _ => do
    let (key, value, rest) ← readPair (readValue maxDepth) input
    let rest ← lineEnd rest
    let entries ← draft.entries.within false (Entries.add key value) draft.path .header
    return ({ draft with entries := entries }, rest)

/-- Reads the lines of a document, of which there are at most `room`. -/
def readLines : Nat → Draft → List Char → Option Entries
  | 0, _, _ => none
  | room + 1, draft, input =>
    match lineEnd input with
    | some [] => some draft.entries
    | some rest => readLines room draft rest
    | none => do
      let (draft, rest) ← readLine draft (skipBlanks input)
      readLines room draft rest

/-- The entries of a document. A byte order mark in front does not count. -/
def read (document : String) : Option Entries :=
  let input := match document.toList with
    | '\ufeff' :: rest => rest
    | input => input
  readLines (input.length + 1) ⟨[], []⟩ input

end BuildDelivery.Toml
