/-! Values of TOML documents. Tables remember how they came to be, because that decides
whether a later line of the document may still add to them. -/

set_option autoImplicit false

namespace BuildDelivery.Toml

/-- How a table came to be. -/
inductive Origin where
  /-- Written in braces, and complete. -/
  | inline
  /-- Opened by its own header. -/
  | header
  /-- Named on the way to another table's header. -/
  | implied
  /-- Named on the way to the last part of a dotted key. -/
  | dotted
  deriving DecidableEq, Repr

/-- Numbers with a fraction and points in time keep their spelling; no rule here needs more. -/
inductive Value where
  | text (content : String)
  | integer (number : Int)
  | real (spelling : String)
  | boolean (truth : Bool)
  | moment (spelling : String)
  /-- An array, which further headers may extend if headers made it. -/
  | array (growing : Bool) (elements : List Value)
  | table (origin : Origin) (entries : List (String × Value))

/-- The entries of a table, in the order of the document. No key stands twice. -/
abbrev Entries := List (String × Value)

namespace Entries

def get? (entries : Entries) (key : String) : Option Value := entries.lookup key

/-- Gives a key a value, in its old place if it has one. -/
def set (key : String) (value : Value) : Entries → Entries
  | [] => [(key, value)]
  | (other, old) :: rest =>
    if other = key then (key, value) :: rest else (other, old) :: set key value rest

/-- Changes the table at the end of a path and makes the tables that are missing on the way.
The path of a dotted key leads only through tables that no header and no braces opened. -/
def within (dotted : Bool) (change : Origin → Entries → Option Entries) :
    List String → Origin → Entries → Option Entries
  | [], origin, entries => change origin entries
  | key :: path, _, entries =>
    match entries.get? key with
    | none => do
      let made := if dotted then Origin.dotted else .implied
      let inner ← within dotted change path made []
      return entries.set key (.table made inner)
    | some (.table .inline _) => none
    | some (.table .header inner) =>
      if dotted then none
      else (within dotted change path .header inner).map fun inner =>
        entries.set key (.table .header inner)
    | some (.table origin inner) =>
      (within dotted change path origin inner).map fun inner =>
        entries.set key (.table origin inner)
    | some (.array true elements) =>
      match elements.getLast? with
      | some (.table origin inner) =>
        (within dotted change path origin inner).map fun inner =>
          entries.set key (.array true (elements.dropLast ++ [.table origin inner]))
      | _ => none
    | some _ => none

/-- Adds a value under a key that is not there yet. Behind a dotted path the table must be one
that dotted keys made. -/
def add (path : List String) (value : Value) (origin : Origin) (entries : Entries) :
    Option Entries :=
  match path.getLast? with
  | none => none
  | some key =>
    let way := path.dropLast
    within true (fun origin inner =>
      if way ≠ [] ∧ origin ≠ .dotted then none
      else if (inner.get? key).isSome then none
      else some (inner ++ [(key, value)])) way origin entries

/-- Opens the table that a header names: a new one, or one that only other headers implied. -/
def openTable (path : List String) (entries : Entries) : Option Entries :=
  match path.getLast? with
  | none => none
  | some key =>
    within false (fun _ inner =>
      match inner.get? key with
      | none => some (inner.set key (.table .header []))
      | some (.table .implied content) => some (inner.set key (.table .header content))
      | some _ => none) path.dropLast .header entries

/-- Appends a table to the array of tables that a header names. -/
def openElement (path : List String) (entries : Entries) : Option Entries :=
  match path.getLast? with
  | none => none
  | some key =>
    within false (fun _ inner =>
      match inner.get? key with
      | none => some (inner.set key (.array true [.table .header []]))
      | some (.array true elements) =>
        some (inner.set key (.array true (elements ++ [.table .header []])))
      | some _ => none) path.dropLast .header entries

end Entries

end BuildDelivery.Toml
