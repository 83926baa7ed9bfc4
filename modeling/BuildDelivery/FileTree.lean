import BuildDelivery.Catalog.Directory

/-! Files and directories, and what paths mean among them. A path is followed name by name, and
everything on the way has to be a directory; two points lead back to where the name before led
from. -/

set_option autoImplicit false

namespace BuildDelivery

inductive Entry where
  | file (content : Bytes)
  | directory
  deriving DecidableEq, Repr

/-- Everything below a root directory, by the names on the way to it, and the directory that
paths start from. -/
structure FileTree where
  entries : Std.ExtTreeMap (List String) Entry
  workingDirectory : List String
  deriving DecidableEq

namespace FileTree

def empty : FileTree := ⟨∅, []⟩

/-- What is at a place. The root is always there. -/
def entry? (tree : FileTree) (place : List String) : Option Entry :=
  if place = [] then some .directory else tree.entries[place]?

def set (tree : FileTree) (place : List String) (entry : Entry) : FileTree :=
  { tree with entries := tree.entries.insert place entry }

def maxNameLength : Nat := 255

def maxPathLength : Nat := 4095

/-- Paths that cannot be followed, whatever is there. -/
def checkPath (path : String) : Except SystemFault Unit :=
  if path.toList.contains '\x00' then .error .nulInName
  else if maxPathLength < path.utf8ByteSize then .error .nameTooLong
  else .ok ()

/-- Where a path starts. -/
def start (tree : FileTree) (path : String) : List String :=
  if path.startsWith "/" then [] else tree.workingDirectory

/-- The place that names lead to. Everything before the last of them is a directory. -/
def follow (tree : FileTree) (place : List String) : List String → Except SystemFault (List String)
  | [] => .ok place
  | name :: names =>
    match tree.entry? place with
    | none => .error .notFound
    | some (.file _) => .error .notADirectory
    | some .directory =>
      if Path.isIdle name then tree.follow place names
      else if name = ".." then tree.follow place.dropLast names
      else if maxNameLength < name.utf8ByteSize then .error .nameTooLong
      else tree.follow (place ++ [name]) names

/-- The place that a path leads to, where something may be or not. -/
def locate (tree : FileTree) (path : String) : Except SystemFault (List String) := do
  checkPath path
  if path = "" then throw .notFound
  tree.follow (tree.start path) (Path.components path)

def inspect (tree : FileTree) (path : String) : Except SystemFault Entry := do
  match tree.entry? (← tree.locate path) with
  | some entry => return entry
  | none => throw .notFound

def isDirectory (tree : FileTree) (path : String) : Bool :=
  match tree.inspect path with
  | .ok .directory => true
  | _ => false

def read (tree : FileTree) (path : String) : Except SystemFault Bytes := do
  match ← tree.inspect path with
  | .file content => return content
  | .directory => throw .isADirectory

def disk (tree : FileTree) : Disk := ⟨tree.isDirectory, tree.read⟩

def trimSlashes (path : String) : String :=
  String.ofList (path.toList.reverse.dropWhile (· == '/')).reverse

/-- The place of a file that is there or can be made, and its content so far. A path that ends
in a slash never names a file. -/
def openFile (tree : FileTree) (path : String) : Except SystemFault (List String × Bytes) := do
  let trimmed := trimSlashes path
  let closed := path.endsWith "/" && trimmed != ""
  let place ← tree.locate (if closed then trimmed else path)
  if closed then throw .isADirectory
  match tree.entry? place with
  | some (.file content) => return (place, content)
  | some .directory => throw .isADirectory
  | none => return (place, [])

def write (tree : FileTree) (path : String) (content : Bytes) : Except SystemFault FileTree := do
  let (place, _) ← tree.openFile path
  return tree.set place (.file content)

/-- Gives a file a length: it is cut or goes on with zeros. -/
def resize (tree : FileTree) (path : String) (size : Nat) : Except SystemFault FileTree := do
  let (place, content) ← tree.openFile path
  return tree.set place (.file (content.take size ++ List.replicate (size - content.length) 0))

/-- Makes the directories on the way that are missing. A directory whose name only points follow
has to be there. What was made stays, also behind a fault. -/
def makeWay (tree : FileTree) (place : List String) : List String → FileTree × Except SystemFault Unit
  | [] => (tree, .ok ())
  | name :: names =>
    if Path.isIdle name then tree.makeWay place names
    else if name = ".." then tree.makeWay place.dropLast names
    else if maxNameLength < name.utf8ByteSize then (tree, .error .nameTooLong)
    else
      let next := place ++ [name]
      match tree.entry? next with
      | some .directory => tree.makeWay next names
      | none =>
        if names.contains "." && names.all Path.isIdle then (tree, .error .notFound)
        else (tree.set next .directory).makeWay next names
      | some (.file _) =>
        (tree, .error (if names.all (· == "") then .alreadyExists else .notADirectory))

def makeDirectory (tree : FileTree) (path : String) : FileTree × Except SystemFault Unit :=
  match checkPath path with
  | .error fault => (tree, .error fault)
  | .ok () => tree.makeWay (tree.start path) (Path.components path)

/-- Removes what is at a path and everything below it. A directory that a point names cannot go
itself, only what is below it; one that two points name stays because the way to it goes first. -/
def remove (tree : FileTree) (path : String) : FileTree × Except SystemFault Unit :=
  match tree.inspect path, tree.locate path with
  | .ok _, .ok place =>
    let emptied := { tree with
      entries := tree.entries.filter fun other _ => !(place.isPrefixOf other && other != place) }
    match (Path.components path).reverse.dropWhile (· == "") with
    | "." :: _ => (emptied, .error .invalidArgument)
    | ".." :: _ => (emptied, .ok ())
    | _ => ({ emptied with entries := emptied.entries.erase place }, .ok ())
  | .error fault, _ | _, .error fault => (tree, .error fault)

/-- Everything below a directory, by the names on the way from there, each directory before
what is in it and otherwise in the order of the names. -/
def below (tree : FileTree) (path : String) : Except SystemFault (List (List String × Entry)) := do
  let place ← tree.locate path
  match tree.entry? place with
  | none => throw .notFound
  | some (.file _) => throw .notADirectory
  | some .directory =>
    return tree.entries.toList.filterMap fun (other, entry) =>
      if place.isPrefixOf other ∧ other ≠ place then some (other.drop place.length, entry) else none

end FileTree

end BuildDelivery
