import BuildDelivery.Failure
import Mathlib.Algebra.Group.Action.Defs
import Mathlib.Algebra.Order.BigOperators.Group.List
import Mathlib.Algebra.Ring.Nat
import Mathlib.Data.String.Basic

/-! How long the text of a failure is. A failure that lists the targets of a request names each of
them by a label, which takes at most three times the bytes of the target in the request. -/

set_option autoImplicit false

namespace BuildDelivery

/-- Texts put together, with a separator before each but the first. -/
theorem utf8ByteSize_intercalate_cons (separator text : String) (texts : List String) :
    (separator.intercalate (text :: texts)).utf8ByteSize = text.utf8ByteSize +
      (texts.map fun next => separator.utf8ByteSize + next.utf8ByteSize).sum := by
  induction texts generalizing text with
  | nil => rw [String.intercalate_singleton, List.map_nil, List.sum_nil, Nat.add_zero]
  | cons next rest step =>
    rw [String.intercalate_cons_cons, String.utf8ByteSize_append, String.utf8ByteSize_append,
      step next, List.map_cons, List.sum_cons]
    omega

theorem utf8ByteSize_intercalate_le {texts : List String} {width : Nat}
    (short : ∀ text ∈ texts, text.utf8ByteSize ≤ width) (separator : String) :
    (separator.intercalate texts).utf8ByteSize ≤
      texts.length * (separator.utf8ByteSize + width) := by
  cases texts with
  | nil =>
    rw [String.intercalate_nil, List.length_nil, Nat.zero_mul]
    exact Nat.le_refl 0
  | cons text rest =>
    obtain ⟨first, others⟩ := List.forall_mem_cons.mp short
    have later : ∀ size ∈ rest.map fun next => separator.utf8ByteSize + next.utf8ByteSize,
        size ≤ separator.utf8ByteSize + width :=
      List.forall_mem_map.mpr fun next member => Nat.add_le_add_left (others next member) _
    have sum := List.sum_le_card_nsmul _ _ later
    rw [List.length_map, smul_eq_mul] at sum
    rw [utf8ByteSize_intercalate_cons, List.length_cons, Nat.succ_mul]
    omega

theorem utf8Size_of_isDigit {character : Char} (digit : character.isDigit) :
    character.utf8Size = 1 := by
  obtain ⟨-, below⟩ : 48 ≤ character.val ∧ character.val ≤ 57 := by simpa [Char.isDigit] using digit
  exact Char.utf8Size_eq_one_iff.mpr (UInt32.le_trans below (by decide))

theorem utf8Len_of_digits {characters : List Char}
    (digits : ∀ character ∈ characters, character.isDigit) :
    String.utf8Len characters = characters.length := by
  induction characters with
  | nil => rfl
  | cons character rest step =>
    obtain ⟨first, others⟩ := List.forall_mem_cons.mp digits
    rw [String.utf8Len_cons, step others, utf8Size_of_isDigit first, List.length_cons]

/-- The numeral of a number in one byte for each digit. -/
theorem utf8ByteSize_toString_le {number count : Nat} (positive : 0 < count)
    (fits : number < 10 ^ count) : (toString number).utf8ByteSize ≤ count := by
  have digits : ∀ character ∈ Nat.toDigits 10 number, character.isDigit := fun _ member =>
    Nat.isDigit_of_mem_toDigits (by decide) (by decide) member
  change (String.ofList (Nat.toDigits 10 number)).utf8ByteSize ≤ count
  rw [String.utf8ByteSize_ofList, utf8Len_of_digits digits]
  exact (Nat.length_toDigits_le_iff (by decide) positive).mpr fits

theorem BranchId.utf8ByteSize_toText_le (branch : BranchId) : branch.toText.utf8ByteSize ≤ 20 :=
  utf8ByteSize_toString_le (by decide) (Nat.lt_trans branch.value.toNat_lt (by decide))

theorem Target.utf8ByteSize_label_le (target : Target) : target.label.utf8ByteSize ≤ 10 := by
  cases target <;> decide

namespace Failure

theorem utf8ByteSize_buildNotFound (branch : BranchId) (targets : List Target) :
    (buildNotFound branch targets).message.utf8ByteSize = 44 + branch.toText.utf8ByteSize +
      (", ".intercalate (targets.map Target.label)).utf8ByteSize := by
  have start : "No published build for branch ".utf8ByteSize = 30 := by decide
  have middle : " on targets [".utf8ByteSize = 13 := by decide
  have last : "]".utf8ByteSize = 1 := by decide
  change ("No published build for branch " ++ branch.toText ++ " on targets [" ++
    ", ".intercalate (targets.map Target.label) ++ "]").utf8ByteSize = _
  simp only [String.utf8ByteSize_append, start, middle, last]
  omega

theorem utf8ByteSize_buildNotFound_le (branch : BranchId) (targets : List Target) :
    (buildNotFound branch targets).message.utf8ByteSize ≤ 64 + 12 * targets.length := by
  have short : ∀ text ∈ targets.map Target.label, text.utf8ByteSize ≤ 10 :=
    List.forall_mem_map.mpr fun target _ => target.utf8ByteSize_label_le
  have labels := utf8ByteSize_intercalate_le short ", "
  have separator : ", ".utf8ByteSize = 2 := by decide
  have number := branch.utf8ByteSize_toText_le
  rw [List.length_map, separator] at labels
  rw [utf8ByteSize_buildNotFound]
  omega

end Failure

end BuildDelivery
