import BuildDelivery.Proofs.Delta.Bounded
import BuildDelivery.Proofs.Outcome

/-! Deltas that can be called off. A join looks at every block of its source and then at every block
of its target, and does nothing else that an observer would notice who does not care for changes.
So a flag is read at the first block of each listing and from there on at regular intervals; the
first reading that finds it set ends the join, and otherwise the delta is the whole one. -/

set_option autoImplicit false

namespace BuildDelivery

namespace Join

section
variable {m : Type → Type} [Monad m] [LawfulMonad m]

theorem gather_eq_visits (observer : Observer m) (number : Nat)
    (known : Std.ExtTreeMap Location Block) (blocks : List (Location × Block)) :
    gather observer number known blocks = (do
      (List.range' number blocks.length).forM observer.visit
      pure (gather silent number known blocks).run) := by
  induction blocks generalizing number known with
  | nil => simp [gather]
  | cons entry rest step =>
    have later := step (number + 1) (known.insert entry.1 entry.2)
    rw [List.length_cons, List.range'_succ, List.forM_eq_forM, List.forM_cons, bind_assoc]
    exact congrArg (observer.visit number >>= ·) (funext fun _ => later)

theorem matchUp_eq_visits {observer : Observer m} (quiet : ∀ count, observer.changed count = pure ())
    (number : Nat) (remaining : Std.ExtTreeMap Location Block) (count : Nat)
    (found : List Operation) (blocks : List (Location × Block)) :
    matchUp observer number remaining count found blocks = (do
      (List.range' number blocks.length).forM observer.visit
      pure (matchUp silent number remaining count found blocks).run) := by
  induction blocks generalizing number remaining count found with
  | nil => simp [matchUp]
  | cons entry rest step =>
    obtain ⟨location, block⟩ := entry
    rw [List.length_cons, List.range'_succ, List.forM_eq_forM, List.forM_cons, bind_assoc]
    cases due : change? remaining[location]? location block with
    | none =>
      have later := step (number + 1) (remaining.erase location) count found
      rw [matchUp_unchanged due, matchUp_unchanged due]
      exact congrArg (observer.visit number >>= ·) (funext fun _ => later)
    | some operation =>
      have later := step (number + 1) (remaining.erase location) (count + 1) (operation :: found)
      rw [matchUp_changed due, matchUp_changed due]
      simp only [quiet, pure_bind]
      exact congrArg (observer.visit number >>= ·) (funext fun _ => later)

/-- To an observer who does nothing about changes, a join is a look at each block of the source and
then at each of the target. -/
theorem operations_eq_visits {observer : Observer m}
    (quiet : ∀ count, observer.changed count = pure ()) (source target : Listing) :
    operations observer source target = (do
      (List.range source.blocks.length).forM observer.visit
      (List.range target.blocks.length).forM observer.visit
      pure (operations silent source target).run) := by
  unfold operations
  rw [gather_eq_visits observer]
  simp only [matchUp_eq_visits quiet, quiet, bind_assoc, pure_bind, ← List.range_eq_range']
  rfl

end

/-- The blocks of a listing before which the flag is read: the first, and from there on every block
an interval behind the last of them. -/
def checkpoints (interval count : Nat) : List Nat :=
  List.range' 0 ((count + interval - 1) / interval) interval

theorem checkpoints_succ {interval : Nat} (positive : 0 < interval) (count : Nat) :
    checkpoints interval (count + 1) =
      checkpoints interval count ++ [count].filter (· % interval = 0) := by
  have before : count + 1 + interval - 1 = count + interval - 1 + 1 := by omega
  have here : count + interval - 1 + 1 = count + interval := by omega
  rw [checkpoints, before, Nat.succ_div, here]
  simp only [Nat.dvd_add_self_right]
  by_cases due : interval ∣ count
  · obtain ⟨rounds, rfl⟩ := due
    have done : (interval * rounds + interval - 1) / interval = rounds := by
      rw [Nat.add_sub_assoc positive, Nat.mul_add_div positive, Nat.div_eq_of_lt (by omega),
        Nat.add_zero]
    rw [if_pos (Nat.dvd_mul_right interval rounds), List.range'_concat, checkpoints, done]
    simp
  · have off : count % interval ≠ 0 := fun zero => due (Nat.dvd_of_mod_eq_zero zero)
    rw [if_neg due, Nat.add_zero, checkpoints]
    simp [off]

theorem filter_range_eq_checkpoints {interval : Nat} (positive : 0 < interval) (count : Nat) :
    (List.range count).filter (· % interval = 0) = checkpoints interval count := by
  induction count with
  | zero =>
    rw [checkpoints, Nat.zero_add, Nat.div_eq_of_lt (by omega)]
    rfl
  | succ count step => rw [List.range_succ, List.filter_append, step, checkpoints_succ positive]

theorem getElem?_checkpoints_iff {interval : Nat} (positive : 0 < interval) {count place number : Nat} :
    (checkpoints interval count)[place]? = some number ↔
      number = interval * place ∧ number < count := by
  have within : place < (count + interval - 1) / interval ↔ interval * place < count := by
    rw [Nat.lt_div_iff_mul_lt positive, Nat.mul_comm place]
    omega
  by_cases inside : place < (count + interval - 1) / interval
  · rw [checkpoints, List.getElem?_range' inside, Nat.zero_add, Option.some.injEq]
    constructor
    · rintro rfl
      exact ⟨rfl, within.mp inside⟩
    · rintro ⟨rfl, -⟩
      rfl
  · rw [checkpoints, List.getElem?_eq_none (by rw [List.length_range']; omega)]
    refine iff_of_false nofun ?_
    rintro ⟨rfl, small⟩
    exact inside (within.mpr small)

section
variable {σ : Type} {interval : Nat} {read : Nat → StateM σ Bool}

theorem run_visit_whileClear (number : Nat) :
    ((whileClear interval read).visit number).run =
      if number % interval = 0 then (do
        let found ← read number
        pure (if found then .error .interrupted else .ok ()))
      else pure (.ok ()) := by
  by_cases due : number % interval = 0
  · simp only [whileClear, due, if_true]
    refine (ExceptT.run_bind_lift (read number) _).trans ?_
    refine congrArg (read number >>= ·) (funext fun found => ?_)
    cases found with
    | false => rfl
    | true => rfl
  · simp only [whileClear, due, if_false]
    rfl

theorem run_forM_visit (numbers : List Nat) :
    (numbers.forM (whileClear interval read).visit).run = (do
      let found ← (numbers.filter (· % interval = 0)).anyM read
      pure (if found then .error .interrupted else .ok ())) := by
  induction numbers with
  | nil => rfl
  | cons number rest step =>
    rw [List.forM_eq_forM] at step
    rw [List.forM_eq_forM, List.forM_cons, ExceptT.run_bind, run_visit_whileClear]
    by_cases due : number % interval = 0
    · simp only [due, if_true, List.filter_cons_of_pos, decide_true, List.anyM, bind_assoc]
      refine congrArg (read number >>= ·) (funext fun found => ?_)
      cases found with
      | false => simpa using step
      | true => rfl
    · simp [due, step]

/-- A watched join reads the flag at the checkpoints of the source and then at those of the target,
until it finds it set. If it never does, it finds what an unwatched join finds. -/
theorem run_operations_whileClear (positive : 0 < interval) (source target : Listing) :
    (operations (whileClear interval read) source target).run = (do
      let found ← (checkpoints interval source.blocks.length ++
        checkpoints interval target.blocks.length).anyM read
      pure (if found then .error .interrupted else .ok (operations silent source target).run)) := by
  have quiet (count : Nat) : (whileClear interval read).changed count = pure () := rfl
  have run := @run_forM_visit σ interval read
    (List.range source.blocks.length ++ List.range target.blocks.length)
  rw [List.filter_append, filter_range_eq_checkpoints positive, filter_range_eq_checkpoints positive,
    List.forM_eq_forM, List.forM_append] at run
  rw [operations_eq_visits quiet, ← bind_assoc, List.forM_eq_forM, ExceptT.run_bind, run, bind_assoc]
  refine congrArg (_ >>= ·) (funext fun found => ?_)
  cases found with
  | false => rfl
  | true => rfl

end

/-- A reading of a flag that is written down, behind the readings before it. -/
def noteReading (flag : Nat → Bool) (number : Nat) : StateM (List Nat) Bool := do
  let taken ← get
  set (taken ++ [number])
  return flag taken.length

theorem run_anyM_nextReading (flag : Nat → Bool) (numbers : List Nat) (taken : Nat) :
    ((numbers.anyM fun _ => nextReading flag).run taken).1 =
      (List.range' taken numbers.length).any flag := by
  induction numbers generalizing taken with
  | nil => rfl
  | cons number rest step =>
    have first : (nextReading flag).run taken = (flag taken, taken + 1) := rfl
    -- A set flag ends the row on both sides; a clear one leaves the rest of it.
    rw [List.length_cons, List.range'_succ, List.any_cons, ← step, List.anyM, run_bind_of_run first]
    cases flag taken with
    | false => rfl
    | true => rfl

theorem run_anyM_noteReading (flag : Nat → Bool) (numbers taken : List Nat) :
    (numbers.anyM (noteReading flag)).run taken =
      ((List.range' taken.length numbers.length).any flag,
        taken ++ numbers.take ((List.range' taken.length numbers.length).findIdx flag + 1)) := by
  induction numbers generalizing taken with
  | nil => exact congrArg (Prod.mk false) (List.append_nil taken).symm
  | cons number rest step =>
    have first : (noteReading flag number).run taken = (flag taken.length, taken ++ [number]) := rfl
    rw [List.length_cons, List.range'_succ, List.any_cons, List.findIdx_cons, List.take_succ_cons,
      List.anyM, run_bind_of_run first]
    cases flag taken.length with
    | false =>
      have later := step (taken ++ [number])
      rw [List.length_append, List.length_singleton, List.append_assoc] at later
      exact later
    | true => rfl

end Join

namespace Delta

/-- The delta from one listing to another, unless the flag is found set on the way, and the numbers
of the blocks before which it was read, in the order of the readings. -/
def betweenNoted (interval : Nat) (flag : Nat → Bool) (source target : Listing) :
    Except Failure Delta × List Nat :=
  let observer := Join.whileClear interval (Join.noteReading flag)
  let (outcome, taken) := (Join.operations observer source target).run.run []
  (outcome.map (ofOperations source target), taken)

/-- All blocks before which a flag is read that stays clear. -/
def checkpoints (interval : Nat) (source target : Listing) : List Nat :=
  Join.checkpoints interval source.blocks.length ++ Join.checkpoints interval target.blocks.length

variable {interval : Nat}

theorem betweenWhileClear_eq (positive : 0 < interval) (flag : Nat → Bool)
    (source target : Listing) :
    betweenWhileClear interval flag source target =
      if (List.range (checkpoints interval source target).length).any flag then .error .interrupted
      else .ok (between source target) := by
  have run := @Join.run_operations_whileClear Nat interval (fun _ => Join.nextReading flag) positive
    source target
  rw [← checkpoints] at run
  have found := Join.run_anyM_nextReading flag (checkpoints interval source target) 0
  cases ran : ((checkpoints interval source target).anyM fun _ => Join.nextReading flag).run 0 with
  | mk set taken =>
    rw [ran] at found
    rw [List.range_eq_range', ← found]
    simp only [betweenWhileClear, run, run_bind_of_run ran]
    cases set with
    | false => rfl
    | true => rfl

theorem betweenWhileClear_eq_error_iff (positive : 0 < interval) (flag : Nat → Bool)
    (source target : Listing) :
    betweenWhileClear interval flag source target = .error .interrupted ↔
      (List.range (checkpoints interval source target).length).any flag := by
  rw [betweenWhileClear_eq positive]
  split
  · next found => exact iff_of_true rfl found
  · next clear => exact iff_of_false nofun clear

theorem betweenWhileClear_eq_ok (positive : 0 < interval) {flag : Nat → Bool} {source target : Listing}
    (clear : ¬(List.range (checkpoints interval source target).length).any flag) :
    betweenWhileClear interval flag source target = .ok (between source target) := by
  rw [betweenWhileClear_eq positive, if_neg clear]

/-- Writing the readings down changes nothing about them. -/
theorem betweenNoted_eq (positive : 0 < interval) (flag : Nat → Bool) (source target : Listing) :
    betweenNoted interval flag source target =
      (betweenWhileClear interval flag source target, (checkpoints interval source target).take
        ((List.range (checkpoints interval source target).length).findIdx flag + 1)) := by
  have noted := Join.run_anyM_noteReading flag (checkpoints interval source target) []
  rw [List.length_nil, ← List.range_eq_range', List.nil_append] at noted
  have run := @Join.run_operations_whileClear (List Nat) interval (Join.noteReading flag) positive
    source target
  rw [← checkpoints] at run
  rw [betweenWhileClear_eq positive]
  simp only [betweenNoted, run, run_bind_of_run noted]
  cases (List.range (checkpoints interval source target).length).any flag with
  | false => rfl
  | true => rfl

theorem checkpoints_eq_nil_iff (positive : 0 < interval) {source target : Listing} :
    checkpoints interval source target = [] ↔ source.blocks = [] ∧ target.blocks = [] := by
  have none (count : Nat) : Join.checkpoints interval count = [] ↔ count = 0 := by
    rw [← Join.filter_range_eq_checkpoints positive]
    cases count with
    | zero => simp
    | succ count => simp [List.range_succ_eq_map]
  rw [checkpoints, List.append_eq_nil_iff, none, none, List.length_eq_zero_iff,
    List.length_eq_zero_iff]

/-- A row of readings that goes up to the first that finds the flag set holds one that does, if the
flag is set at any checkpoint. -/
theorem any_iff_found_set (flag : Nat → Bool) (places : List Nat) :
    (List.range places.length).any flag ↔
      ∃ reading < (places.take ((List.range places.length).findIdx flag + 1)).length,
        flag reading = true := by
  rw [List.length_take]
  constructor
  · intro found
    have first := List.findIdx_lt_length.mpr (List.any_eq_true.mp found)
    refine ⟨_, Nat.lt_min.mpr ⟨Nat.lt_succ_self _, ?_⟩, ?_⟩
    · rwa [List.length_range] at first
    · have set := List.findIdx_getElem (w := first)
      rwa [List.getElem_range] at set
  · rintro ⟨reading, taken, set⟩
    exact List.any_eq_true.mpr ⟨reading, List.mem_range.mpr (Nat.lt_min.mp taken).2, set⟩

theorem operations_between_empty {source target : Listing} (none : source.blocks = [])
    (none' : target.blocks = []) : (between source target).operations = [] := by
  have nothing : Join.matched source target = (∅, 0, []) := by
    rw [Join.matched, none, none']
    rfl
  rw [operations_between, nothing, Join.removals, Std.ExtTreeMap.toList_eq_nil_iff.mpr rfl]
  exact List.mergeSort_nil

/-- When a delta is called off: exactly if one of the readings that were taken found the flag set.
The readings are taken at the checkpoints up to the first at which the flag is set, those of the
source before those of the target; a listing has one at its first block and from there on one at
every block that is an interval behind the last. -/
theorem interrupted_iff_found_set (positive : 0 < interval) (source target : Listing) :
    (∀ flag, (∀ reading, flag reading = false) →
      betweenWhileClear interval flag source target = .ok (between source target)) ∧
    (∀ flag, (∀ reading, flag reading = true) →
      (betweenWhileClear interval flag source target = .error .interrupted ↔
        source.blocks ≠ [] ∨ target.blocks ≠ []) ∧
      (source.blocks = [] → target.blocks = [] →
        betweenWhileClear interval flag source target = .ok (between source target) ∧
          (between source target).operations = [])) ∧
    (∀ flag, ∃ taken,
      betweenNoted interval flag source target =
        (betweenWhileClear interval flag source target, taken) ∧
      taken = (checkpoints interval source target).take
        ((List.range (checkpoints interval source target).length).findIdx flag + 1) ∧
      (betweenWhileClear interval flag source target = .error .interrupted ↔
        ∃ reading < taken.length, flag reading = true) ∧
      (betweenWhileClear interval flag source target ≠ .error .interrupted →
        betweenWhileClear interval flag source target = .ok (between source target))) ∧
    ∀ count place number, (Join.checkpoints interval count)[place]? = some number ↔
      number = interval * place ∧ number < count := by
  have interrupted (flag : Nat → Bool) :=
    betweenWhileClear_eq_error_iff positive flag source target
  refine ⟨fun flag clear => ?_, fun flag set => ⟨?_, fun none none' => ⟨?_, ?_⟩⟩,
    fun flag => ⟨_, betweenNoted_eq positive flag source target, rfl, ?_, fun finished => ?_⟩,
    fun _ _ _ => Join.getElem?_checkpoints_iff positive⟩
  · refine betweenWhileClear_eq_ok positive ?_
    simp [clear]
  · rw [interrupted, List.any_eq_true, ← not_and_or, ← checkpoints_eq_nil_iff positive]
    refine Iff.trans ?_ List.length_pos_iff
    constructor
    · rintro ⟨reading, member, -⟩
      exact Nat.zero_lt_of_lt (List.mem_range.mp member)
    · intro some
      exact ⟨0, List.mem_range.mpr some, set 0⟩
  · refine betweenWhileClear_eq_ok positive ?_
    rw [(checkpoints_eq_nil_iff positive).mpr ⟨none, none'⟩]
    nofun
  · exact operations_between_empty none none'
  · rw [interrupted, any_iff_found_set]
  · exact betweenWhileClear_eq_ok positive (mt (interrupted flag).mpr finished)

open Manifest in
/-- A flag that the second reading finds set, and one that only a fourth would find set. -/
theorem interrupted_firstEdition :
    betweenNoted 2 (· == 1) firstEdition.listing secondEdition.listing =
      (.error .interrupted, [0, 2]) ∧
    betweenNoted 2 (· == 3) firstEdition.listing secondEdition.listing =
      (.ok (between firstEdition.listing secondEdition.listing), [0, 2, 0]) := by
  obtain ⟨-, -, taken, -⟩ :=
    interrupted_iff_found_set (by decide : 0 < 2) firstEdition.listing secondEdition.listing
  have places : checkpoints 2 firstEdition.listing secondEdition.listing = [0, 2, 0] := by
    decide +kernel
  rw [places] at taken
  obtain ⟨_, noted, rfl, exactly, -⟩ := taken (· == 1)
  obtain ⟨_, noted', rfl, exactly', finished⟩ := taken (· == 3)
  rw [noted, noted', exactly.mpr (by decide), finished (mt exactly'.mp (by decide))]
  exact ⟨rfl, rfl⟩

end Delta

end BuildDelivery
