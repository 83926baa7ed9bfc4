import BuildDelivery.Delta.Join
import BuildDelivery.Proofs.Delta.Apply

/-! The order of operations. An operation touches one location, so two operations at different
locations can change places: each fits before the other exactly if it fits behind it, and both
orders leave the same files, also those without blocks. Hence a row of operations that names no
location twice can be carried out in any order. -/

set_option autoImplicit false

namespace BuildDelivery

namespace Layout

/-- A layout is known from its files and their blocks. A file without blocks counts. -/
theorem eq_of_block? {left right : Layout} (files : ∀ path, path ∈ left ↔ path ∈ right)
    (blocks : ∀ location, left.block? location = right.block? location) : left = right := by
  refine Std.ExtTreeMap.ext_getElem? fun path => ?_
  have named := files path
  rw [Std.ExtTreeMap.mem_iff_isSome_getElem?, Std.ExtTreeMap.mem_iff_isSome_getElem?] at named
  cases first : left[path]? with
  | none =>
    cases second : right[path]? with
    | none => rfl
    | some file => simp [first, second] at named
  | some file =>
    cases second : right[path]? with
    | none => simp [first, second] at named
    | some other =>
      refine congrArg some (Std.ExtTreeMap.ext_getElem? fun index => ?_)
      simpa only [block?, first, second, Option.bind_some] using blocks ⟨path, index⟩

variable {layout final : Layout} {first second : Operation}

/-- Operations at different locations leave the same layout in either order, whatever their kinds
and also where both touch one file. -/
theorem carry_comm (layout : Layout) (apart : first.location ≠ second.location) :
    (layout.carry first).carry second = (layout.carry second).carry first := by
  apply eq_of_block?
  · intro path
    simp only [mem_carry]
    exact or_left_comm
  · intro location
    simp only [block?_carry]
    by_cases here : first.location = location
    · have elsewhere : second.location ≠ location := fun same => apart (here.trans same.symm)
      simp only [here, elsewhere, if_true, if_false]
    · simp only [here, if_false]

/-- Whether an operation fits does not depend on what is done at another location before it. -/
theorem fits_carry_iff (layout : Layout) (apart : first.location ≠ second.location) :
    Fits second ((layout.carry first).block? second.location) ↔
      Fits second (layout.block? second.location) := by
  rw [block?_carry, if_neg apart]

theorem run_swap (apart : first.location ≠ second.location) (rest : List Operation) :
    layout.run (first :: second :: rest) = .ok final ↔
      layout.run (second :: first :: rest) = .ok final := by
  simp only [run_cons_eq_ok_iff, fits_carry_iff layout apart, fits_carry_iff layout apart.symm,
    carry_comm layout apart]
  exact and_left_comm

/-- Operations at locations of their own can be carried out in any order. -/
theorem run_perm {operations others : List Operation} (perm : operations.Perm others)
    (distinct : (operations.map Operation.location).Nodup) :
    layout.run operations = .ok final ↔ layout.run others = .ok final := by
  induction perm generalizing layout with
  | nil => rfl
  | cons operation perm step =>
    rw [List.map_cons, List.nodup_cons] at distinct
    rw [run_cons_eq_ok_iff, run_cons_eq_ok_iff, step distinct.2]
  | swap first second rest =>
    refine run_swap (fun same => ?_) rest
    rw [List.map_cons, List.map_cons, same] at distinct
    exact (List.nodup_cons.mp distinct).1 List.mem_cons_self
  | trans perm perm' step step' =>
    exact (step distinct).trans (step' ((perm.map Operation.location).nodup_iff.mp distinct))

/-- At one location the order counts: what is added there cannot have been removed before. -/
theorem run_remove_of_run_add {location : Location} {block : Block} {other : Layout}
    (done : layout.run [.add location block, .remove location] = .ok final) :
    layout.run [.remove location, .add location block] ≠ .ok other := by
  intro swapped
  have absent : true = (layout.block? location).isNone := (run_cons_eq_ok_iff.mp done).1
  have present : false = (layout.block? location).isNone := (run_cons_eq_ok_iff.mp swapped).1
  cases absent.trans present.symm

end Layout

namespace Delta

/-- A delta that names no location twice leads from a base to the same manifest in whatever order
its operations stand, and to none in one order if to none in another. -/
theorem apply_perm {delta : Delta} {operations : List Operation}
    (distinct : (delta.operations.map Operation.location).Nodup)
    (perm : operations.Perm delta.operations) (base result : Manifest) :
    { delta with operations := operations }.apply base = .ok result ↔
      delta.apply base = .ok result := by
  have runs (layout : Layout) :
      (Layout.ofListing base.listing).run operations = .ok layout ↔
        (Layout.ofListing base.listing).run delta.operations = .ok layout :=
    (Layout.run_perm perm.symm distinct).symm
  simp only [apply_eq_ok_iff, runs]

/-- A tool of two blocks. -/
def unmoved : Manifest :=
  (Manifest.empty smallestBlockSize).setFile "bin/tool" [.uniform 1, .uniform 2]

/-- The tool under another path. -/
def moved : Manifest :=
  (Manifest.empty smallestBlockSize).setFile "opt/tool" [.uniform 1, .uniform 2]

/-- Moves the tool block by block, from the back: in between the old file is without blocks and
the new one has a gap. -/
def move : Delta :=
  ofOperations unmoved.listing moved.listing
    [.remove ⟨"bin/tool", 1⟩, .add ⟨"opt/tool", 1⟩ (.uniform 2), .remove ⟨"bin/tool", 0⟩,
      .add ⟨"opt/tool", 0⟩ (.uniform 1)]

/-- The same operations, block by block from the front and the new file first. -/
def moveForwards : List Operation :=
  [.add ⟨"opt/tool", 0⟩ (.uniform 1), .add ⟨"opt/tool", 1⟩ (.uniform 2),
    .remove ⟨"bin/tool", 0⟩, .remove ⟨"bin/tool", 1⟩]

theorem apply_moveForwards :
    (move.operations.map Operation.location).Nodup ∧ moveForwards.Perm move.operations ∧
      { move with operations := moveForwards }.apply unmoved = .ok moved := by
  have distinct : (move.operations.map Operation.location).Nodup := by decide +kernel
  have perm : moveForwards.Perm move.operations := by decide +kernel
  have applied : move.apply unmoved = .ok moved := by decide +kernel
  exact ⟨distinct, perm, (apply_perm distinct perm unmoved moved).mpr applied⟩

end Delta

end BuildDelivery
