import BuildDelivery.Delta.Join
import BuildDelivery.Proofs.Manifest.Listing
import Mathlib.Data.Set.Card

/-! What a join finds. Between two listings that name no location twice there is one operation
for every location about which they disagree, and none elsewhere; the operations go up by
location. A watched join that is allowed to finish finds the same as an unwatched one. -/

set_option autoImplicit false

namespace BuildDelivery

namespace Join

/-- What is due at a location that holds `old?` and is to hold `new?`. -/
def due? (old? new? : Option Block) (location : Location) : Option Operation :=
  match new? with
  | some block => change? old? location block
  | none => old?.map fun _ => .remove location

theorem change?_eq_some_iff {old? : Option Block} {location : Location} {block : Block}
    {operation : Operation} :
    change? old? location block = some operation ↔
      old? = none ∧ operation = .add location block ∨
        ∃ old, old? = some old ∧ old ≠ block ∧ operation = .modify location block := by
  cases old? with
  | none => simp [change?, eq_comm]
  | some old =>
    by_cases same : old = block
    · simp [change?, same]
    · simp only [change?, same, if_false, Option.some.injEq, reduceCtorEq, false_and, false_or,
        exists_eq_left', ne_eq, not_false_eq_true, true_and]
      exact eq_comm

theorem location_of_change? {old? : Option Block} {location : Location} {block : Block}
    {operation : Operation} (found : change? old? location block = some operation) :
    operation.location = location := by
  obtain ⟨-, rfl⟩ | ⟨old, -, -, rfl⟩ := change?_eq_some_iff.mp found
  · rfl
  · rfl

theorem location_of_due? {old? new? : Option Block} {location : Location}
    {operation : Operation} (found : due? old? new? location = some operation) :
    operation.location = location := by
  cases new? with
  | some block => exact location_of_change? found
  | none =>
    obtain ⟨old, -, rfl⟩ := Option.map_eq_some_iff.mp found
    rfl

/-- Something is due exactly where the old and the new differ. -/
theorem due?_eq_none_iff (location : Location) {old? new? : Option Block} :
    due? old? new? location = none ↔ old? = new? := by
  cases new? with
  | none => simp [due?]
  | some block =>
    cases old? with
    | none => simp [due?, change?]
    | some old => simp [due?, change?]

theorem getElem?_gather (number : Nat) (known : Std.ExtTreeMap Location Block)
    (size : UInt32) (blocks : List (Location × Block)) (location : Location) :
    (gather silent number known blocks).run[location]? =
      ((Listing.mk size blocks).block? location).or known[location]? := by
  induction blocks generalizing number known with
  | nil => rfl
  | cons entry rest step =>
    obtain ⟨place, block⟩ := entry
    change (gather silent (number + 1) (known.insert place block) rest).run[location]? = _
    rw [step, Listing.block?_cons, Option.or_assoc, Std.ExtTreeMap.getElem?_insert]
    simp only [Std.LawfulEqCmp.compare_eq_iff_eq]
    by_cases here : place = location
    · simp [here]
    · simp [here]

theorem getElem?_erase (known : Std.ExtTreeMap Location Block) (place location : Location) :
    (known.erase place)[location]? = if place = location then none else known[location]? := by
  rw [Std.ExtTreeMap.getElem?_erase]
  simp only [Std.LawfulEqCmp.compare_eq_iff_eq]

/-- The additions and modifications that lead from known blocks to those of a target. -/
def changes (known : Std.ExtTreeMap Location Block) (blocks : List (Location × Block)) :
    List Operation :=
  blocks.filterMap fun entry => change? known[entry.1]? entry.1 entry.2

theorem changes_erase (known : Std.ExtTreeMap Location Block) {location : Location}
    {blocks : List (Location × Block)} (absent : location ∉ blocks.map Prod.fst) :
    changes (known.erase location) blocks = changes known blocks := by
  refine List.filterMap_congr fun entry member => ?_
  have elsewhere : location ≠ entry.1 := fun same =>
    absent (List.mem_map.mpr ⟨entry, member, same.symm⟩)
  rw [getElem?_erase, if_neg elsewhere]

section
variable {m : Type → Type} [Monad m] {location : Location} {block : Block}
  {remaining : Std.ExtTreeMap Location Block}

theorem matchUp_unchanged (due : change? remaining[location]? location block = none)
    (observer : Observer m) (number count : Nat) (found : List Operation)
    (rest : List (Location × Block)) :
    matchUp observer number remaining count found ((location, block) :: rest) = (do
      observer.visit number
      matchUp observer (number + 1) (remaining.erase location) count found rest) := by
  simp only [matchUp, due]

theorem matchUp_changed {operation : Operation}
    (due : change? remaining[location]? location block = some operation)
    (observer : Observer m) (number count : Nat) (found : List Operation)
    (rest : List (Location × Block)) :
    matchUp observer number remaining count found ((location, block) :: rest) = (do
      observer.visit number
      observer.changed (count + 1)
      matchUp observer (number + 1) (remaining.erase location) (count + 1) (operation :: found)
        rest) := by
  simp only [matchUp, due]

end

/-- Matching up forgets the locations of the target and collects its changes. -/
theorem matchUp_silent (number : Nat) (remaining : Std.ExtTreeMap Location Block) (count : Nat)
    (found : List Operation) (blocks : List (Location × Block))
    (distinct : (blocks.map Prod.fst).Nodup) :
    (matchUp silent number remaining count found blocks).run =
      ((blocks.map Prod.fst).foldl Std.ExtTreeMap.erase remaining,
        count + (changes remaining blocks).length,
        (changes remaining blocks).reverse ++ found) := by
  induction blocks generalizing number remaining count found with
  | nil => rfl
  | cons entry rest step =>
    obtain ⟨location, block⟩ := entry
    rw [List.map_cons, List.nodup_cons] at distinct
    -- The location does not come again, so what is forgotten here is not missed later.
    have later := changes_erase remaining distinct.1
    cases due : change? remaining[location]? location block with
    | none =>
      have here : changes remaining ((location, block) :: rest) = changes remaining rest := by
        simp [changes, due]
      rw [matchUp_unchanged due, List.map_cons, List.foldl_cons, here, ← later]
      exact step (number + 1) (remaining.erase location) count found distinct.2
    | some operation =>
      have here : changes remaining ((location, block) :: rest) =
          operation :: changes remaining rest := by
        simp [changes, due]
      have sum : count + (operation :: changes remaining rest).length =
          count + 1 + (changes remaining rest).length := by
        rw [List.length_cons]
        omega
      rw [matchUp_changed due, List.map_cons, List.foldl_cons, here, sum, List.reverse_cons,
        List.append_assoc, List.singleton_append, ← later]
      exact step (number + 1) (remaining.erase location) (count + 1) (operation :: found) distinct.2

theorem getElem?_foldl_erase (known : Std.ExtTreeMap Location Block) (places : List Location)
    (location : Location) :
    (places.foldl Std.ExtTreeMap.erase known)[location]? =
      if location ∈ places then none else known[location]? := by
  induction places generalizing known with
  | nil => simp
  | cons place rest step =>
    rw [List.foldl_cons, step, getElem?_erase]
    by_cases here : place = location
    · simp [here]
    · simp [List.mem_cons, Ne.symm here, here]

/-- The removals of all blocks that are left. -/
def removals (remaining : Std.ExtTreeMap Location Block) : List Operation :=
  remaining.toList.map fun entry => .remove entry.1

/-- What is left of a source and what was found, once all blocks of a target are matched up. -/
def matched (source target : Listing) : Std.ExtTreeMap Location Block × Nat × List Operation :=
  (matchUp silent 0 (gather silent 0 ∅ source.blocks).run 0 [] target.blocks).run

/-- The operations are the changes found while matching up and the removals of what is left, by
location. -/
theorem run_operations (source target : Listing) :
    (operations silent source target).run =
      ((matched source target).2.2.reverse ++
        removals (matched source target).1).mergeSort inOrder := rfl

theorem operations_silent (source : Listing) {target : Listing} (distinct : target.Distinct) :
    ∃ known : Std.ExtTreeMap Location Block,
      (∀ location : Location, known[location]? = source.block? location) ∧
      (operations silent source target).run =
        (changes known target.blocks ++
          removals ((target.blocks.map Prod.fst).foldl Std.ExtTreeMap.erase known)).mergeSort
            inOrder := by
  refine ⟨(gather silent 0 ∅ source.blocks).run, fun location => ?_, ?_⟩
  · rw [getElem?_gather 0 ∅ source.maxBlockSize]
    simp
  · have found := matchUp_silent 0 (gather silent 0 ∅ source.blocks).run 0 [] target.blocks distinct
    rw [run_operations, matched, found, List.append_nil, List.reverse_reverse]

theorem mem_changes_iff {target : Listing} (distinct : target.Distinct)
    {known : Std.ExtTreeMap Location Block} {operation : Operation} :
    operation ∈ changes known target.blocks ↔
      ∃ block, target.block? operation.location = some block ∧
        change? known[operation.location]? operation.location block = some operation := by
  constructor
  · intro member
    obtain ⟨⟨location, block⟩, listed, due⟩ := List.mem_filterMap.mp member
    rw [location_of_change? due]
    exact ⟨block, distinct.block?_eq_some_iff.mpr listed, due⟩
  · rintro ⟨block, counts, due⟩
    exact List.mem_filterMap.mpr ⟨(operation.location, block), Listing.mem_of_block? counts, due⟩

theorem mem_removals_iff {target : Listing} {known : Std.ExtTreeMap Location Block}
    {operation : Operation} :
    operation ∈ removals ((target.blocks.map Prod.fst).foldl Std.ExtTreeMap.erase known) ↔
      target.block? operation.location = none ∧
        ∃ old, known[operation.location]? = some old ∧ .remove operation.location = operation := by
  rw [Listing.block?_eq_none_iff]
  constructor
  · intro member
    obtain ⟨⟨location, old⟩, left, rfl⟩ := List.mem_map.mp member
    rw [Std.ExtTreeMap.mem_toList_iff_getElem?_eq_some, getElem?_foldl_erase] at left
    split at left
    · cases left
    · next absent => exact ⟨absent, old, left, rfl⟩
  · rintro ⟨absent, old, held, removal⟩
    refine List.mem_map.mpr ⟨(operation.location, old), ?_, removal⟩
    rw [Std.ExtTreeMap.mem_toList_iff_getElem?_eq_some, getElem?_foldl_erase, if_neg absent]
    exact held

/-- Between listings without repetition an operation is found exactly where it is due. -/
theorem mem_operations_iff {source target : Listing} (distinct : target.Distinct)
    {operation : Operation} :
    operation ∈ (operations silent source target).run ↔
      due? (source.block? operation.location) (target.block? operation.location)
        operation.location = some operation := by
  obtain ⟨known, holds, found⟩ := operations_silent source distinct
  rw [found, List.mem_mergeSort, List.mem_append, mem_changes_iff distinct, mem_removals_iff, holds]
  -- Only one of the two can be, depending on whether the target has a block here.
  cases new : target.block? operation.location with
  | some block => simp [due?]
  | none => simp [due?, Option.map_eq_some_iff]

theorem inOrder_trans (first second third : Operation) (before : inOrder first second)
    (after : inOrder second third) : inOrder first third :=
  Std.TransCmp.isLE_trans before after

theorem inOrder_total (left right : Operation) : inOrder left right || inOrder right left := by
  cases forward : compare left.location right.location with
  | lt => simp [inOrder, forward]
  | eq => simp [inOrder, forward]
  | gt => simp [inOrder, Std.OrientedCmp.lt_of_gt forward]

/-- Between listings without repetition no location has two operations. -/
theorem nodup_locations (source : Listing) {target : Listing} (distinct : target.Distinct) :
    ((operations silent source target).run.map Operation.location).Nodup := by
  obtain ⟨known, holds, found⟩ := operations_silent source distinct
  rw [found, ((List.mergeSort_perm _ inOrder).map Operation.location).nodup_iff, List.map_append,
    List.nodup_append]
  refine ⟨?_, ?_, ?_⟩
  -- The changes lie at locations of the target, of which none is listed twice.
  · refine List.pairwise_map.mpr (List.pairwise_filterMap.mpr ?_)
    refine (List.pairwise_map.mp distinct).imp fun {left right} apart operation first other second => ?_
    rw [location_of_change? first, location_of_change? second]
    exact apart
  -- The removals lie at the keys of a map.
  · rw [removals, List.map_map, List.nodup_iff_pairwise_ne]
    refine List.pairwise_map.mpr (Std.ExtTreeMap.distinct_keys_toList.imp fun {left right} apart same => ?_)
    exact apart (Std.LawfulEqOrd.compare_eq_iff_eq.mpr same)
  · intro place changed other removed same
    subst same
    -- What is changed is listed in the target, and what is removed is not.
    obtain ⟨operation, member, rfl⟩ := List.mem_map.mp changed
    obtain ⟨removal, left, here⟩ := List.mem_map.mp removed
    obtain ⟨block, counts, -⟩ := (mem_changes_iff distinct).mp member
    obtain ⟨absent, -⟩ := mem_removals_iff.mp left
    rw [here, counts] at absent
    cases absent

/-- The operations between listings without repetition go up by location. -/
theorem ascending_operations (source : Listing) {target : Listing} (distinct : target.Distinct) :
    (operations silent source target).run.Pairwise fun left right =>
      compare left.location right.location = .lt := by
  obtain ⟨known, -, found⟩ := operations_silent source distinct
  have sorted := List.pairwise_mergeSort inOrder_trans inOrder_total
    (changes known target.blocks ++
      removals ((target.blocks.map Prod.fst).foldl Std.ExtTreeMap.erase known))
  rw [← found] at sorted
  have apart := List.pairwise_map.mp (nodup_locations source distinct)
  refine (sorted.and apart).imp fun {left right} both => ?_
  -- Sorting leaves neighbours that may be equal, and none are.
  obtain before | same := Ordering.isLE_iff_eq_lt_or_eq_eq.mp both.1
  · exact before
  · exact absurd (Std.LawfulEqOrd.eq_of_compare same) both.2

/-- The locations of the operations are those about which the listings disagree. -/
theorem mem_locations_iff {source target : Listing} (distinct : target.Distinct)
    {location : Location} :
    location ∈ (operations silent source target).run.map Operation.location ↔
      source.block? location ≠ target.block? location := by
  simp only [List.mem_map, mem_operations_iff distinct]
  constructor
  · rintro ⟨operation, due, rfl⟩ agree
    rw [(due?_eq_none_iff _).mpr agree] at due
    cases due
  · intro differ
    obtain ⟨operation, due⟩ := Option.ne_none_iff_exists'.mp ((due?_eq_none_iff _).not.mpr differ)
    have here := location_of_due? due
    exact ⟨operation, by rw [here]; exact due, here⟩

/-- There are as many operations as locations about which the listings disagree. -/
theorem length_operations (source : Listing) {target : Listing} (distinct : target.Distinct) :
    (operations silent source target).run.length =
      {location | source.block? location ≠ target.block? location}.ncard := by
  have same : {location | source.block? location ≠ target.block? location} =
      ((operations silent source target).run.map Operation.location).toFinset := by
    ext location
    rw [Set.mem_ofPred_eq, List.coe_toFinset, Set.mem_ofPred_eq, mem_locations_iff distinct]
  rw [same, Set.ncard_coe_finset, List.toFinset_card_of_nodup (nodup_locations source distinct),
    List.length_map]

end Join

end BuildDelivery
