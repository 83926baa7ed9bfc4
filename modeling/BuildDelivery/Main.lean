import BuildDelivery.CommandLine.Run

/-! The program. It takes a picture of the files that its command is about, runs the command on
the picture, and then makes the files what they are in the picture. It knows of no network. -/

set_option autoImplicit false

namespace BuildDelivery.Program

def pathOf (place : List String) : String := "/" ++ "/".intercalate place

/-- Adds a place and everything below it to a picture. -/
partial def addBelow (picture : FileTree) (place : List String) : IO FileTree := do
  let path := (← IO.currentDir) / pathOf place
  if ← path.isDir then
    let mut picture := picture.set place .directory
    for entry in ← path.readDir do
      picture ← addBelow picture (place ++ [entry.fileName])
    return picture
  else if ← path.pathExists then
    return picture.set place (.file (← IO.FS.readBinFile path).toList)
  else return picture

/-- Adds the way from a place along names to a picture, and everything at the end of it. -/
def addWay (picture : FileTree) (place : List String) : List String → IO FileTree
  | [] => addBelow picture place
  | name :: names => do
    let path := (← IO.currentDir) / pathOf place
    if ← path.isDir then
      let next := if Path.isIdle name then place
        else if name = ".." then place.dropLast else place ++ [name]
      addWay (picture.set place .directory) next names
    else addBelow picture place

def addAll (picture : FileTree) (paths : List String) : IO FileTree :=
  paths.foldlM (fun picture path => do
    let way := Path.components path
    if path.startsWith "/" then addWay picture [] way
    else addWay picture [] (picture.workingDirectory ++ way)) picture

/-- Makes the files what they are in a picture, where they are not known to be so. -/
def bringAbout (known picture : FileTree) : IO Unit :=
  picture.entries.toList.forM fun (place, entry) => do
    if known.entry? place = some entry then return
    match entry with
    | .directory => IO.FS.createDirAll (pathOf place)
    | .file content => IO.FS.writeBinFile (pathOf place) ⟨content.toArray⟩

/-- The files that matter for what the arguments ask. -/
def takePicture (arguments : List String) : IO FileTree := do
  let here := Path.components (← IO.currentDir).toString |>.filter (!Path.isIdle ·)
  let empty : FileTree := { FileTree.empty with workingDirectory := here }
  match CommandLine.Invocation.ofArguments arguments with
  | .command command =>
    let picture ← addAll empty (command.paths empty)
    addAll picture (command.paths picture)
  | _ => return empty

end BuildDelivery.Program

open BuildDelivery in
def main (arguments : List String) : IO UInt32 := do
  let before ← Program.takePicture arguments
  let outcome := CommandLine.execute Network.unreachable before arguments
  Program.bringAbout before outcome.files
  IO.print outcome.printed
  IO.eprint outcome.complaint
  return UInt32.ofNat outcome.status
