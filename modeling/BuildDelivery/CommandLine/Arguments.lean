import BuildDelivery.Exchange.Request

/-! The arguments of the command line. An option has a long name and most have a letter; its
value stands in the same word or in the next. Whatever does not fit is misuse. -/

set_option autoImplicit false

namespace BuildDelivery.CommandLine

inductive Command where
  | serve (settings? listen? store? : Option String)
  | scan (directory : String) (output? : Option String) (blockSize : UInt32)
  | checksum (manifest : String)
  | diff (old new : String) (output? : Option String)
  | verify (manifest directory : String)
  | preallocate (manifest directory : String)
  | fetch (address : String) (request : Request) (local? output? : Option String)
  deriving DecidableEq, Repr

/-- What the arguments ask for. -/
inductive Invocation where
  | command (command : Command)
  | version
  | help
  | misuse
  deriving DecidableEq, Repr

/-- An option: its long name, and its letter if it has one. -/
structure Flag where
  name : String
  letter? : Option Char

/-- Words by their roles: options with their values, and all other words. -/
structure Words where
  options : List (String × String)
  others : List String

namespace Words

def empty : Words := ⟨[], []⟩

def withOption (words : Words) (name value : String) : Words :=
  { words with options := (name, value) :: words.options }

def withOther (words : Words) (word : String) : Words :=
  { words with others := word :: words.others }

/-- A word that can be a value or stand for itself. -/
def isPlain (word : String) : Bool := !word.startsWith "-" || word == "-"

/-- The option that a word names, and the value in the same word. -/
def flagOf? (flags : List Flag) (word : String) : Option (String × Option String) :=
  match word.toList with
  | '-' :: '-' :: spelling =>
    let (name, tail) := spelling.span (· != '=')
    (flags.find? (·.name == String.ofList name)).map fun flag =>
      (flag.name, if tail = [] then none else some (String.ofList (tail.drop 1)))
  | '-' :: letter :: tail =>
    (flags.find? (·.letter? == some letter)).map fun flag =>
      let value := match tail with
        | '=' :: value => value
        | value => value
      (flag.name, if tail = [] then none else some (String.ofList value))
  | _ => none

/-- The roles of words. Two hyphens end the options. -/
def sort (flags : List Flag) : List String → Option Words
  | [] => some empty
  | word :: rest =>
    if word = "--" then some ⟨[], rest⟩
    else if isPlain word then (sort flags rest).map (·.withOther word)
    else
      match flagOf? flags word with
      | none => none
      | some (name, some value) => (sort flags rest).map (·.withOption name value)
      | some (name, none) =>
        match rest with
        | [] => none
        | value :: rest =>
          if isPlain value then (sort flags rest).map (·.withOption name value) else none

def values (words : Words) (name : String) : List String :=
  (words.options.filter (·.1 == name)).map Prod.snd

def once? (words : Words) (name : String) : Option (Option String) :=
  match words.values name with
  | [] => some none
  | [value] => some (some value)
  | _ => none

def path? (word : String) : Option String := if word = "" then none else some word

def pathOnce? (words : Words) (name : String) : Option (Option String) := do
  match ← words.once? name with
  | none => return none
  | some value => return some (← path? value)

end Words

def defaultBlockSize : UInt32 := 1048576

def defaultAddress : String := "127.0.0.1:47200"

/-- A number of 32 bits. Zero may have a minus sign. -/
def number32? (word : String) : Option UInt32 :=
  let read (word : String) (limit : Nat) : Option Nat :=
    match Numeral.read 10 limit word with
    | .ok number => some number
    | .error _ => none
  match word.toList with
  | '-' :: '+' :: _ => none
  | '-' :: digits => (read (String.ofList digits) 1).map UInt32.ofNat
  | _ => (read word (Numeral.capacity 32)).map UInt32.ofNat

def number64? (word : String) : Option UInt64 :=
  match Numeral.read 10 (Numeral.capacity 64) word with
  | .ok number => some (UInt64.ofNat number)
  | .error _ => none

def flag (letter : Char) (name : String) : Flag := ⟨name, some letter⟩

def long (name : String) : Flag := ⟨name, none⟩

def serve? (rest : List String) : Option Command := do
  let words ← Words.sort [flag 'c' "config", flag 'l' "listen", flag 's' "store"] rest
  match words.others with
  | [] => return .serve (← words.pathOnce? "config") (← words.once? "listen") (← words.pathOnce? "store")
  | _ => none

def scan? (rest : List String) : Option Command := do
  let words ← Words.sort [flag 'o' "output", flag 'b' "block-size"] rest
  match words.others with
  | [directory] =>
    let size ← match ← words.once? "block-size" with
      | none => some defaultBlockSize
      | some word => number32? word
    return .scan (← Words.path? directory) (← words.pathOnce? "output") size
  | _ => none

def checksum? (rest : List String) : Option Command := do
  match (← Words.sort [] rest).others with
  | [manifest] => return .checksum (← Words.path? manifest)
  | _ => none

def diff? (rest : List String) : Option Command := do
  let words ← Words.sort [flag 'o' "output"] rest
  match words.others with
  | [old, new] => return .diff (← Words.path? old) (← Words.path? new) (← words.pathOnce? "output")
  | _ => none

def pair? (build : String → String → Command) (rest : List String) : Option Command := do
  match (← Words.sort [] rest).others with
  | [first, second] => return build (← Words.path? first) (← Words.path? second)
  | _ => none

/-- A manifest of the local build has no use where the local build is not named. -/
def fetch? (rest : List String) : Option Command := do
  let words ← Words.sort [flag 'a' "addr", flag 'b' "branch", flag 't' "target",
    long "local-build", long "local-manifest", flag 'o' "output"] rest
  match words.others, words.values "target" with
  | [], [] => none
  | [], names =>
    let address := (← words.once? "addr").getD defaultAddress
    let branch ← (← words.once? "branch").bind number64?
    let targets ← names.mapM Target.ofSpelling?
    let held? ← match ← words.once? "local-build" with
      | none => some none
      | some text =>
        match BuildId.ofHex text with
        | .ok id => some (some id)
        | .error _ => none
    let manifest? ← words.pathOnce? "local-manifest"
    let output? ← words.pathOnce? "output"
    if manifest?.isSome ∧ held?.isNone then none
    else return .fetch address ⟨⟨branch⟩, targets, held?⟩ manifest? output?
  | _, _ => none

/-- The command of a name, as far as its words allow. -/
def command? (name : String) (rest : List String) : Option Command :=
  match name with
  | "serve" => serve? rest
  | "scan" => scan? rest
  | "checksum" => checksum? rest
  | "diff" => diff? rest
  | "verify" => pair? .verify rest
  | "preallocate" => pair? .preallocate rest
  | "fetch" => fetch? rest
  | _ => none

def Invocation.ofArguments : List String → Invocation
  | [] => .misuse
  | name :: rest =>
    if name = "--version" ∨ name = "-V" then .version
    else if name = "--help" ∨ name = "-h" ∨ name = "help" then .help
    else
      match command? name rest with
      | some understood => .command understood
      | none => .misuse

end BuildDelivery.CommandLine
