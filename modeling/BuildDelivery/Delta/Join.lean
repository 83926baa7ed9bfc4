import BuildDelivery.Delta.Basic
import BuildDelivery.Failure

/-! The delta between two listings, found by joining them on the locations of their blocks.
The join reports to an observer before every block that it looks at and after every change
that it finds. What the observer may do about it makes three deltas of one join: always the
whole delta, the delta unless it has too many changes, or the delta unless someone asked to
stop. -/

set_option autoImplicit false

namespace BuildDelivery

namespace Join

/-- Who watches a join. -/
structure Observer (m : Type → Type) where
  /-- The join is about to look at the block with this number in its listing. -/
  visit : Nat → m Unit
  /-- The join knows of this many changes by now. -/
  changed : Nat → m Unit

variable {m : Type → Type} [Monad m]

/-- The blocks of a listing by location. Of two blocks with one location the later counts. -/
@[specialize] def gather (observer : Observer m) (number : Nat) (known : Std.ExtTreeMap Location Block) :
    List (Location × Block) → m (Std.ExtTreeMap Location Block)
  | [] => pure known
  | (location, block) :: rest => do
    observer.visit number
    gather observer (number + 1) (known.insert location block) rest

/-- What has to be done at a location that holds `old?`, for it to hold a block. -/
def change? (old? : Option Block) (location : Location) (block : Block) : Option Operation :=
  match old? with
  | none => some (.add location block)
  | some old => if old = block then none else some (.modify location block)

/-- Matches the blocks of the target against those of the source. Every block of the source
can be matched once; the changes are kept in reverse, and `count` is their number. -/
@[specialize] def matchUp (observer : Observer m) (number : Nat) (remaining : Std.ExtTreeMap Location Block)
    (count : Nat) (found : List Operation) :
    List (Location × Block) → m (Std.ExtTreeMap Location Block × Nat × List Operation)
  | [] => pure (remaining, count, found)
  | (location, block) :: rest => do
    observer.visit number
    let old? := remaining[location]?
    let remaining := remaining.erase location
    match change? old? location block with
    | none => matchUp observer (number + 1) remaining count found rest
    | some operation => do
      observer.changed (count + 1)
      matchUp observer (number + 1) remaining (count + 1) (operation :: found) rest

def inOrder (left right : Operation) : Bool := (compare left.location right.location).isLE

/-- All changes from one listing to another, by location. -/
@[specialize] def operations (observer : Observer m) (source target : Listing) : m (List Operation) := do
  let known ← gather observer 0 ∅ source.blocks
  let (remaining, count, found) ← matchUp observer 0 known 0 [] target.blocks
  observer.changed (count + remaining.size)
  let removes := remaining.toList.map fun entry => .remove entry.1
  return (found.reverse ++ removes).mergeSort inOrder

def silent : Observer Id := ⟨fun _ => pure (), fun _ => pure ()⟩

/-- Gives up at the first change beyond the limit. -/
def atMost (limit : Nat) : Observer Option :=
  ⟨fun _ => some (), fun count => if limit < count then none else some ()⟩

/-- Reads a flag before every block whose number is a multiple of the interval, and gives up when
it is set. A reading knows the number of the block and may leave something behind. -/
def whileClear {σ : Type} (interval : Nat) (read : Nat → StateM σ Bool) :
    Observer (ExceptT Failure (StateM σ)) where
  visit number := do
    if number % interval = 0 then
      if ← read number then throw .interrupted
  changed _ := pure ()

end Join

/-- How often a join looks at a request to stop: before every block whose number is a multiple of the
interval. -/
structure Pace where
  interval : Nat
  positive : 0 < interval
  deriving DecidableEq, Repr

namespace Pace

/-- The pace of an interval. There is none of zero. -/
def ofInterval? (interval : Nat) : Option Pace :=
  if positive : 0 < interval then some ⟨interval, positive⟩ else none

/-- Gives up at the first change beyond the limit, and where a flag that was given is looked at and
set. Without a flag there is nothing to look at. -/
def watch (pace : Pace) (flag? : Option Bool) (limit : Nat) : Join.Observer Option where
  visit number := if flag? = some true ∧ number % pace.interval = 0 then none else some ()
  changed := (Join.atMost limit).changed

theorem watch_none (pace : Pace) (limit : Nat) : pace.watch none limit = Join.atMost limit := by
  unfold watch Join.atMost
  simp

end Pace

namespace Join

/-- The next reading of a flag. The state counts how often it was read. -/
def nextReading (flag : Nat → Bool) : StateM Nat Bool := do
  let taken ← get
  set (taken + 1)
  return flag taken

end Join

namespace Delta

/-- The delta that has the given operations and leads from one listing to another. -/
def ofOperations (source target : Listing) (operations : List Operation) : Delta where
  maxBlockSize := target.maxBlockSize
  baseChecksum := source.checksum
  targetChecksum := target.checksum
  operations := operations

/-- The delta from one listing to another. -/
def between (source target : Listing) : Delta :=
  ofOperations source target (Join.operations Join.silent source target).run

/-- The operations from one listing to another, unless there are more than `limit`. -/
def operationsAtMost (limit : Nat) (source target : Listing) : Option (List Operation) :=
  Join.operations (Join.atMost limit) source target

/-- What comes of looking for a delta with a limit on its changes. -/
inductive Bounded where
  | complete (delta : Delta)
  /-- There are more changes than the limit. -/
  | limitExceeded (limit : Nat)
  deriving DecidableEq, Repr

/-- The delta from one listing to another, unless it has more than `limit` changes. -/
def betweenAtMost (limit : Nat) (source target : Listing) : Bounded :=
  match operationsAtMost limit source target with
  | some operations => .complete (ofOperations source target operations)
  | none => .limitExceeded limit

/-- How many blocks are looked at between two readings of the flag, unless told otherwise. -/
def defaultInterval : Nat := 4096

/-- The delta from one listing to another, unless the flag is found set on the way; `flag n`
is what the reading with number `n` gives. -/
def betweenWhileClear (interval : Nat) (flag : Nat → Bool) (source target : Listing) :
    Except Failure Delta :=
  let observer := Join.whileClear interval fun _ => Join.nextReading flag
  ((Join.operations observer source target).run.run 0).1.map (ofOperations source target)

end Delta

end BuildDelivery
