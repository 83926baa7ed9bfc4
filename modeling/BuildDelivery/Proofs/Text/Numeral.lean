import BuildDelivery.Text.Numeral
import Mathlib.Algebra.Ring.Nat

/-! Digits and numerals of fixed width. A digit that is written is read as its value, a digit that is
read is written in lower case, and the numeral of a number is read as the number, unless it is too
short for it. -/

set_option autoImplicit false

namespace BuildDelivery.Numeral

variable {base limit value : Nat} {character : Char}

theorem toNat_ofNat_of_lt {code : Nat} (small : code < 0xd800) : (Char.ofNat code).toNat = code := by
  rw [Char.ofNat, dif_pos (.inl small)]
  rfl

theorem toNat_digit (small : value < 16) :
    (digit value).toNat = if value < 10 then 48 + value else 87 + value := by
  unfold digit
  split <;> exact toNat_ofNat_of_lt (by omega)

/-- The codes of the digits, by their values. -/
theorem digitValue_eq_some_iff : digitValue base character = some value ↔ value < base ∧
    (value < 10 ∧ character.toNat = 48 + value ∨
      10 ≤ value ∧ value < 16 ∧ (character.toNat = 87 + value ∨ character.toNat = 55 + value)) := by
  unfold digitValue
  rw [Option.filter_eq_some_iff]
  simp only [decide_eq_true_eq]
  split
  · simp only [Option.some.injEq]
    omega
  · split
    · simp only [Option.some.injEq]
      omega
    · split
      · simp only [Option.some.injEq]
        omega
      · simp only [reduceCtorEq, false_and, false_iff]
        omega

theorem digitValue_digit (few : base ≤ 16) (small : value < base) :
    digitValue base (digit value) = some value := by
  rw [digitValue_eq_some_iff, toNat_digit (Nat.lt_of_lt_of_le small few)]
  split <;> omega

theorem toNat_toLower (character : Char) : character.toLower.toNat =
    if 65 ≤ character.toNat ∧ character.toNat ≤ 90 then character.toNat + 32 else character.toNat := by
  unfold Char.toLower
  have range : (character.val ≥ 'A'.val ∧ character.val ≤ 'Z'.val) ↔
      (65 ≤ character.toNat ∧ character.toNat ≤ 90) :=
    and_congr UInt32.le_iff_toNat_le UInt32.le_iff_toNat_le
  by_cases upper : character.val ≥ 'A'.val ∧ character.val ≤ 'Z'.val
  · rw [dif_pos upper, if_pos (range.mp upper)]
    have bound := (range.mp upper).2
    change (character.val + 32).toNat = character.val.toNat + 32
    change character.val.toNat ≤ 90 at bound
    rw [UInt32.toNat_add]
    exact Nat.mod_eq_of_lt (Nat.lt_of_le_of_lt (Nat.add_le_add_right bound 32) (by decide))
  · rw [dif_neg upper, if_neg (mt range.mpr upper)]

/-- Writing the value of a digit gives the digit in lower case. -/
theorem digit_of_digitValue (read : digitValue base character = some value) :
    digit value = character.toLower := by
  obtain ⟨-, range⟩ := digitValue_eq_some_iff.mp read
  have small : value < 16 := by omega
  rw [← Char.toNat_inj, toNat_digit small, toNat_toLower]
  split <;> split <;> omega

@[simp] theorem length_padded (base width number : Nat) : (padded base width number).length = width := by
  induction width generalizing number with
  | zero => rfl
  | succ width step => rw [padded, List.length_append, step, List.length_singleton]

theorem exists_digit_of_mem_padded {width number : Nat} (positive : 0 < base)
    (member : character ∈ padded base width number) : ∃ value < base, character = digit value := by
  induction width generalizing number with
  | zero => cases member
  | succ width step =>
    rcases List.mem_append.mp member with front | last
    · exact step front
    · exact ⟨number % base, Nat.mod_lt number positive, List.mem_singleton.mp last⟩

/-- The digits of a numeral go onto the number before them, as long as there is room for it. -/
theorem readDigits_padded (positive : 0 < base) (few : base ≤ 16) {before width number : Nat}
    (fits : before * base ^ width + number % base ^ width < limit) (rest : List Char) :
    readDigits base limit before (padded base width number ++ rest) =
      readDigits base limit (before * base ^ width + number % base ^ width) rest := by
  induction width generalizing number rest with
  | zero => simp [padded, Nat.mod_one]
  | succ width step =>
    -- All digits but the last spell the number without its last digit.
    have split : before * base ^ (width + 1) + number % base ^ (width + 1) =
        (before * base ^ width + number / base % base ^ width) * base + number % base := by
      rw [Nat.pow_succ', Nat.mod_mul, Nat.add_mul]
      ac_rfl
    rw [split] at fits ⊢
    have front : before * base ^ width + number / base % base ^ width < limit :=
      Nat.lt_of_le_of_lt (Nat.le_trans (Nat.le_mul_of_pos_right _ positive) (Nat.le_add_right _ _)) fits
    rw [padded, List.append_assoc, step front, List.singleton_append, readDigits,
      digitValue_digit few (Nat.mod_lt number positive)]
    exact if_pos fits

theorem read_ofList {digits : List Char} (some : digits ≠ []) (plain : '+' ∉ digits) :
    read base limit (String.ofList digits) = readDigits base limit 0 digits := by
  unfold read
  rw [String.toList_ofList]
  split
  · exact absurd rfl some
  · exact absurd List.mem_cons_self plain
  · exact absurd List.mem_cons_self plain
  · rfl

theorem digit_ne_plus (small : value < 16) : digit value ≠ '+' := by
  intro same
  have code := toNat_digit small
  rw [same] at code
  change 43 = _ at code
  split at code <;> omega

/-- A number that a width and a limit have room for is read from its numeral. -/
theorem read_padded (positive : 0 < base) (few : base ≤ 16) {width number : Nat} (some : 0 < width)
    (short : number < base ^ width) (fits : number < limit) :
    read base limit (String.ofList (padded base width number)) = .ok number := by
  have digits : padded base width number ≠ [] :=
    List.ne_nil_of_length_pos (by rwa [length_padded])
  have plain : '+' ∉ padded base width number := by
    intro member
    obtain ⟨value, small, same⟩ := exists_digit_of_mem_padded positive member
    exact digit_ne_plus (Nat.lt_of_lt_of_le small few) same.symm
  have value : 0 * base ^ width + number % base ^ width = number := by
    rw [Nat.zero_mul, Nat.zero_add, Nat.mod_eq_of_lt short]
  have read := readDigits_padded positive few (by rwa [value]) []
  rw [value, List.append_nil] at read
  rw [read_ofList digits plain, read]
  rfl

end BuildDelivery.Numeral
