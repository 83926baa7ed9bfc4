import BuildDelivery.Failure.Content

/-! Paths of files within a build. A path is written with slashes, names a place strictly
below the directory it starts from, and passes through no directory twice: no component is
empty, the directory itself or its parent. -/

set_option autoImplicit false

namespace BuildDelivery.Path

/-- Both separators that systems use become the slash. -/
def unifySeparator (character : Char) : Char := if character = '\\' then '/' else character

/-- The pieces of a path between its slashes; there is always one more than there are slashes. -/
def split : List Char → List (List Char)
  | [] => [[]]
  | '/' :: rest => [] :: split rest
  | character :: rest =>
    match split rest with
    | [] => [[character]]
    | first :: others => (character :: first) :: others

/-- A name that some file below a directory can have. -/
def isProper (component : List Char) : Bool :=
  component ≠ [] && component ≠ ['.'] && component ≠ ['.', '.']

/-- The one spelling of a path, unless the path could leave its directory or names nothing. -/
def normalize (path : String) : Except ManifestFault String :=
  let characters := path.toList.map unifySeparator
  if '\x00' ∉ characters ∧ (split characters).all isProper then .ok (String.ofList characters)
  else .error (.path (.malformed path))

def components (path : String) : List String := (split path.toList).map String.ofList

/-- A name that leads nowhere else. -/
def isIdle (name : String) : Bool := name == "" || name == "."

/-- The path without its last name, and none if it has no name. Names that lead nowhere else do
not count, except a point in front of a path that does not begin at the root. -/
def parent? (path : String) : Option String :=
  match (components path).reverse.dropWhile isIdle with
  | [] => if path.startsWith "." then some "" else none
  | _ :: before =>
    match before.dropWhile isIdle with
    | [] => some (if path.startsWith "/" then "/" else if before = [] then "" else ".")
    | way => some ("/".intercalate way.reverse)

/-- A path already in its one spelling. -/
def IsNormal (path : String) : Prop := normalize path = .ok path

/-- The path of a place below a directory. Behind an empty path it is the place itself. -/
def join (directory place : String) : String :=
  if place.startsWith "/" ∨ directory = "" then place
  else if directory.endsWith "/" then directory ++ place
  else directory ++ "/" ++ place

/-- A name without what follows its last point, unless nothing else is left. -/
def stem (name : String) : String :=
  match (name.toList.reverse.dropWhile (· != '.')) with
  | [] | ['.'] => name
  | _ :: front => String.ofList front.reverse

/-- A path whose last name has another extension. A path that ends in no name stays. -/
def withExtension (path extension : String) : String :=
  match (components path).reverse.dropWhile isIdle with
  | [] => path
  | name :: before =>
    if name = ".." then path
    else "/".intercalate (before.reverse ++ [stem name ++ "." ++ extension])

end BuildDelivery.Path
