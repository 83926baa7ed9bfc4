import BuildDelivery.Proofs.Delta.Join

/-! Deltas with a bound. A join that gives up at the first change beyond a limit gives up exactly
when the whole delta has more changes than that; otherwise it finds the whole delta. This holds
of any two listings, also of those that name a location twice. -/

set_option autoImplicit false

namespace BuildDelivery

namespace Join

theorem gather_atMost (limit number : Nat) (known : Std.ExtTreeMap Location Block)
    (blocks : List (Location × Block)) :
    gather (atMost limit) number known blocks = some (gather silent number known blocks).run := by
  induction blocks generalizing number known with
  | nil => rfl
  | cons entry rest step => exact step (number + 1) (known.insert entry.1 entry.2)

theorem le_matchUp (number : Nat) (remaining : Std.ExtTreeMap Location Block) (count : Nat)
    (found : List Operation) (blocks : List (Location × Block)) :
    count ≤ (matchUp silent number remaining count found blocks).run.2.1 := by
  induction blocks generalizing number remaining count found with
  | nil => exact Nat.le_refl count
  | cons entry rest step =>
    obtain ⟨location, block⟩ := entry
    cases due : change? remaining[location]? location block with
    | none =>
      rw [matchUp_unchanged due]
      exact step (number + 1) (remaining.erase location) count found
    | some operation =>
      rw [matchUp_changed due]
      exact Nat.le_of_succ_le
        (step (number + 1) (remaining.erase location) (count + 1) (operation :: found))

theorem length_matchUp (number : Nat) (remaining : Std.ExtTreeMap Location Block) (count : Nat)
    (found : List Operation) (blocks : List (Location × Block)) (counted : found.length = count) :
    (matchUp silent number remaining count found blocks).run.2.2.length =
      (matchUp silent number remaining count found blocks).run.2.1 := by
  induction blocks generalizing number remaining count found with
  | nil => exact counted
  | cons entry rest step =>
    obtain ⟨location, block⟩ := entry
    cases due : change? remaining[location]? location block with
    | none =>
      rw [matchUp_unchanged due]
      exact step (number + 1) (remaining.erase location) count found counted
    | some operation =>
      rw [matchUp_changed due]
      exact step (number + 1) (remaining.erase location) (count + 1) (operation :: found)
        (congrArg Nat.succ counted)

-- The count only grows. So a join that is within its limit in the end was never beyond it.
theorem matchUp_atMost (limit number : Nat) (remaining : Std.ExtTreeMap Location Block)
    (count : Nat) (found : List Operation) (blocks : List (Location × Block))
    (within : count ≤ limit) :
    matchUp (atMost limit) number remaining count found blocks =
      if limit < (matchUp silent number remaining count found blocks).run.2.1 then none
      else some (matchUp silent number remaining count found blocks).run := by
  induction blocks generalizing number remaining count found with
  | nil => exact (if_neg (Nat.not_lt.mpr within)).symm
  | cons entry rest step =>
    obtain ⟨location, block⟩ := entry
    cases due : change? remaining[location]? location block with
    | none =>
      rw [matchUp_unchanged due, matchUp_unchanged due]
      exact step (number + 1) (remaining.erase location) count found within
    | some operation =>
      rw [matchUp_changed due, matchUp_changed due]
      by_cases beyond : limit < count + 1
      -- Beyond the limit the watched join stops here, and the count of the other only grows.
      · have more := le_matchUp (number + 1) (remaining.erase location) (count + 1)
          (operation :: found) rest
        refine Eq.trans ?_ (if_pos (Nat.lt_of_lt_of_le beyond more)).symm
        simp [atMost, beyond]
      · have goes : (atMost limit).changed (count + 1) = some () := if_neg beyond
        refine Eq.trans ?_ (step (number + 1) (remaining.erase location) (count + 1)
          (operation :: found) (Nat.le_of_not_lt beyond))
        simp [atMost, beyond]

end Join

namespace Delta

theorem operations_between (source target : Listing) :
    (between source target).operations =
      ((Join.matched source target).2.2.reverse ++
        Join.removals (Join.matched source target).1).mergeSort Join.inOrder :=
  Join.run_operations source target

theorem changes_between (source target : Listing) :
    (between source target).changes =
      (Join.matched source target).2.1 + (Join.matched source target).1.size := by
  have counted := Join.length_matchUp 0 (Join.gather Join.silent 0 ∅ source.blocks).run 0 []
    target.blocks rfl
  rw [changes, operations_between, List.length_mergeSort, List.length_append, List.length_reverse,
    Join.removals, List.length_map, Std.ExtTreeMap.length_toList]
  exact congrArg (· + _) counted

/-- The bounded join agrees with the whole delta. -/
theorem operationsAtMost_eq (limit : Nat) (source target : Listing) :
    operationsAtMost limit source target =
      if limit < (between source target).changes then none
      else some (between source target).operations := by
  let matched := Join.matched source target
  rw [changes_between, operations_between]
  unfold operationsAtMost Join.operations
  rw [Join.gather_atMost, Option.bind_eq_bind, Option.bind_some, Option.bind_eq_bind,
    Join.matchUp_atMost limit 0 _ 0 [] target.blocks (Nat.zero_le limit)]
  -- The limit can be passed while matching up, by the removals at the end, or not at all.
  by_cases early : limit < matched.2.1
  · rw [if_pos (Nat.lt_add_right matched.1.size early)]
    exact congrArg (Option.bind · _) (if_pos early)
  · refine (congrArg (Option.bind · _) (if_neg early)).trans ?_
    rw [Option.bind_some]
    by_cases late : limit < matched.2.1 + matched.1.size
    · rw [if_pos late]
      exact congrArg (Option.bind · _) (if_pos late)
    · rw [if_neg late]
      exact congrArg (Option.bind · _) (if_neg late)

/-- Between any two listings, with whatever order and repetitions, a limit that the whole delta
keeps does not change it, and any lower limit is exceeded. -/
theorem betweenAtMost_eq (limit : Nat) (source target : Listing) :
    betweenAtMost limit source target =
      if (between source target).changes ≤ limit then .complete (between source target)
      else .limitExceeded limit := by
  rw [betweenAtMost, operationsAtMost_eq]
  by_cases within : (between source target).changes ≤ limit
  · rw [if_pos within, if_neg (Nat.not_lt.mpr within)]
    rfl
  · rw [if_neg within, if_pos (Nat.lt_of_not_le within)]

end Delta

end BuildDelivery
