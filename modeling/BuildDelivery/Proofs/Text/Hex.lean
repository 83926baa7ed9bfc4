import BuildDelivery.Proofs.Outcome
import BuildDelivery.Proofs.Text.Numeral
import BuildDelivery.Proofs.Text.Order
import BuildDelivery.Text.Hex

/-! Hexadecimal text. Every byte string has one text, of two digits for each byte, and is read from it;
a text can be read if it consists of an even number of digits in any case, and then what is read has
the same text in lower case. All of this follows from what a text has to be for bytes to be read from
it: its characters are digits and their values are the halves of the bytes. -/

set_option autoImplicit false

namespace BuildDelivery

namespace Utf8

theorem utf8EncodeChar_of_lt {character : Char} (ascii : character.toNat < 128) :
    String.utf8EncodeChar character = [UInt8.ofNat character.toNat] := by
  have alone : trail character.val.toNat = 0 := if_pos (Nat.le_of_lt_succ ascii)
  rw [utf8EncodeChar_eq, lead, alone, Nat.pow_zero, Nat.div_one]
  rfl

/-- ASCII text takes a byte for each character. -/
theorem encode_of_ascii {text : String} (ascii : ∀ character ∈ text.toList, character.toNat < 128) :
    encode text = text.toList.map fun character => UInt8.ofNat character.toNat := by
  rw [encode_eq_flatMap, List.map_eq_flatMap, List.flatMap_def, List.flatMap_def]
  exact congrArg List.flatten
    (List.map_congr_left fun character member => utf8EncodeChar_of_lt (ascii character member))

/-- Bytes below 128 are the codes of the characters that they spell. -/
theorem toList_of_ascii {text : String} (ascii : ∀ byte ∈ encode text, byte.toNat < 128) :
    text.toList = (encode text).map fun byte => Char.ofNat byte.toNat := by
  let characters := (encode text).map fun byte => Char.ofNat byte.toNat
  have code : ∀ byte ∈ encode text, (Char.ofNat byte.toNat).toNat = byte.toNat := fun byte member =>
    Numeral.toNat_ofNat_of_lt (Nat.lt_trans byte.toNat_lt (by decide))
  have small : ∀ character ∈ (String.ofList characters).toList, character.toNat < 128 := by
    rw [String.toList_ofList]
    refine List.forall_mem_map.mpr fun byte member => ?_
    rw [code byte member]
    exact ascii byte member
  -- The characters with these codes have the same bytes, so they are those of the text.
  have written : encode (String.ofList characters) = encode text := by
    rw [encode_of_ascii small, String.toList_ofList, List.map_map]
    refine (List.map_congr_left fun byte member => ?_).trans (List.map_id _)
    exact (congrArg UInt8.ofNat (code byte member)).trans UInt8.ofNat_toNat
  exact (congrArg String.toList (encode_injective written)).symm.trans String.toList_ofList

end Utf8

namespace Hex

variable {text : String} {bytes : Bytes}

/-- A digit, in any case. -/
def IsDigit (character : Char) : Prop :=
  ('0' ≤ character ∧ character ≤ '9') ∨ ('a' ≤ character ∧ character ≤ 'f') ∨
    ('A' ≤ character ∧ character ≤ 'F')

instance : DecidablePred IsDigit := fun _ => inferInstanceAs (Decidable (_ ∨ _ ∨ _))

theorem isDigit_iff {character : Char} :
    IsDigit character ↔ ∃ value, Numeral.digitValue 16 character = some value := by
  have range (low high : Char) : (low ≤ character ∧ character ≤ high) ↔
      (low.toNat ≤ character.toNat ∧ character.toNat ≤ high.toNat) :=
    and_congr UInt32.le_iff_toNat_le UInt32.le_iff_toNat_le
  simp only [IsDigit, range, Numeral.digitValue_eq_some_iff, Char.reduceToNat]
  constructor
  · rintro (digit | lower | upper)
    · exact ⟨character.toNat - 48, by omega⟩
    · exact ⟨character.toNat - 87, by omega⟩
    · exact ⟨character.toNat - 55, by omega⟩
  · rintro ⟨value, small, range⟩
    omega

/-- The values of the digits of a byte string, the high half of each byte first. -/
def halves (bytes : Bytes) : List Nat := bytes.flatMap fun byte => [byte.toNat / 16, byte.toNat % 16]

theorem halves_cons (byte : UInt8) (bytes : Bytes) :
    halves (byte :: bytes) = byte.toNat / 16 :: byte.toNat % 16 :: halves bytes := rfl

theorem length_halves (bytes : Bytes) : (halves bytes).length = 2 * bytes.length := by
  induction bytes with
  | nil => rfl
  | cons byte rest step =>
    rw [halves_cons, List.length_cons, List.length_cons, step, List.length_cons]
    omega

theorem lt_of_mem_halves {value : Nat} (member : value ∈ halves bytes) : value < 16 := by
  obtain ⟨byte, -, half⟩ := List.mem_flatMap.mp member
  have small := byte.toNat_lt
  simp only [List.mem_cons, List.not_mem_nil, or_false] at half
  omega

theorem eq_of_halves_iff {byte : UInt8} {upper lower : Nat} (high : upper < 16) (low : lower < 16) :
    UInt8.ofNat (16 * upper + lower) = byte ↔ upper = byte.toNat / 16 ∧ lower = byte.toNat % 16 := by
  have small := byte.toNat_lt
  rw [← UInt8.toNat_inj, UInt8.toNat_ofNat']
  omega

/-- An even number of values below sixteen are the halves of bytes. -/
theorem exists_halves : ∀ {values : List Nat}, values.length % 2 = 0 → (∀ value ∈ values, value < 16) →
    ∃ bytes, halves bytes = values
  | [], _, _ => ⟨[], rfl⟩
  | [_], odd, _ => absurd odd (by simp)
  | upper :: lower :: rest, even, small => by
    obtain ⟨high, low, others⟩ : upper < 16 ∧ lower < 16 ∧ ∀ value ∈ rest, value < 16 := by
      simpa using small
    have fewer : rest.length % 2 = 0 := by
      simp only [List.length_cons] at even
      omega
    obtain ⟨bytes, rfl⟩ := exists_halves fewer others
    obtain ⟨first, second⟩ := (eq_of_halves_iff high low).mp rfl
    exact ⟨UInt8.ofNat (16 * upper + lower) :: bytes, by rw [halves_cons, ← first, ← second]⟩

theorem encode_eq (bytes : Bytes) : encode bytes = String.ofList ((halves bytes).map Numeral.digit) := by
  have pair (byte : UInt8) : Numeral.padded 16 2 byte.toNat =
      [byte.toNat / 16, byte.toNat % 16].map Numeral.digit := by
    have small := byte.toNat_lt
    have high : byte.toNat / 16 % 16 = byte.toNat / 16 := by omega
    simp only [Numeral.padded, high, List.nil_append, List.singleton_append, List.map_cons, List.map_nil]
  simp only [encode, pair, halves, List.map_flatMap]

theorem digitValue_lt {byte : UInt8} {value : Nat} (read : digitValue byte = some value) : value < 16 :=
  (Numeral.digitValue_eq_some_iff.mp read).1

theorem exists_of_map_eq {α β : Type} {read : α → Option β} {row : List α} {values : List β}
    (same : row.map read = values.map some) : ∀ item ∈ row, ∃ value, read item = some value := by
  intro item member
  have found : read item ∈ values.map some := same ▸ List.mem_map_of_mem member
  obtain ⟨value, -, same⟩ := List.mem_map.mp found
  exact ⟨value, same.symm⟩

/-- Bytes are read from digits exactly if these are worth their halves. -/
theorem readPairs_eq_ok_iff {position : Nat} {digits : Bytes} :
    readPairs position digits = .ok bytes ↔ digits.map digitValue = (halves bytes).map some := by
  fun_induction readPairs position digits generalizing bytes with
  | case1 position high low rest bad =>
    refine iff_of_false (by rintro ⟨⟩) fun same => ?_
    obtain ⟨value, read⟩ := exists_of_map_eq same high List.mem_cons_self
    cases bad.symm.trans read
  | case2 position high low rest upper bad _ =>
    refine iff_of_false (by rintro ⟨⟩) fun same => ?_
    obtain ⟨value, read⟩ := exists_of_map_eq same low (List.mem_cons_of_mem high List.mem_cons_self)
    cases bad.symm.trans read
  | case3 position high low rest upper lower lowerRead upperRead step =>
    rw [bind_eq_ok_iff]
    cases bytes with
    | nil => exact iff_of_false (by rintro ⟨_, _, ⟨⟩⟩) (by rintro ⟨⟩)
    | cons byte others =>
      simp only [step, halves_cons, List.map_cons, List.cons.injEq, upperRead, lowerRead, Option.some.injEq]
      -- The values of the two digits are the halves of one byte only.
      rw [← and_assoc, ← eq_of_halves_iff (digitValue_lt upperRead) (digitValue_lt lowerRead)]
      constructor
      · rintro ⟨tail, same, read⟩
        obtain ⟨rfl, rfl⟩ := List.cons.inj (Except.ok.inj read)
        exact ⟨rfl, same⟩
      · rintro ⟨rfl, same⟩
        exact ⟨others, same, rfl⟩
  | case4 position digit =>
    refine iff_of_false (by rintro ⟨⟩) fun same => ?_
    have count := congrArg List.length same
    rw [List.length_map, List.length_map, length_halves, List.length_singleton] at count
    omega
  | case5 =>
    cases bytes with
    | nil => exact iff_of_true rfl rfl
    | cons byte others => exact iff_of_false (by rintro ⟨⟩) (by rintro ⟨⟩)

/-- A text whose digits, in any case, are worth the halves of the bytes. -/
def Spells (text : String) (bytes : Bytes) : Prop :=
  text.toList.map (Numeral.digitValue 16) = (halves bytes).map some

theorem toNat_lt_of_digitValue {base value : Nat} {character : Char}
    (read : Numeral.digitValue base character = some value) : character.toNat < 128 := by
  obtain ⟨-, range⟩ := Numeral.digitValue_eq_some_iff.mp read
  omega

/-- Digits are ASCII, so it is the same to read them as bytes or as characters. -/
theorem spells_iff : Spells text bytes ↔ (Utf8.encode text).map digitValue = (halves bytes).map some := by
  constructor
  · intro spells
    have ascii : ∀ character ∈ text.toList, character.toNat < 128 := fun character member =>
      have ⟨_, read⟩ := exists_of_map_eq spells character member
      toNat_lt_of_digitValue read
    rw [Utf8.encode_of_ascii ascii, List.map_map, ← spells]
    refine List.map_congr_left fun character member => ?_
    have code : (UInt8.ofNat character.toNat).toNat = character.toNat :=
      UInt8.toNat_ofNat_of_lt' (Nat.lt_trans (ascii character member) (by decide))
    rw [Function.comp_apply, digitValue, code, Char.ofNat_toNat]
  · intro same
    have ascii : ∀ byte ∈ Utf8.encode text, byte.toNat < 128 := fun byte member => by
      obtain ⟨value, read⟩ := exists_of_map_eq same byte member
      rw [← Numeral.toNat_ofNat_of_lt (Nat.lt_trans byte.toNat_lt (by decide))]
      exact toNat_lt_of_digitValue read
    rw [Spells, Utf8.toList_of_ascii ascii, List.map_map]
    exact same

theorem Spells.length (spells : Spells text bytes) : text.length = 2 * bytes.length := by
  have count := congrArg List.length spells
  rwa [List.length_map, List.length_map, length_halves, String.length_toList] at count

theorem Spells.length_encode (spells : Spells text bytes) :
    (Utf8.encode text).length = 2 * bytes.length := by
  have count := congrArg List.length (spells_iff.mp spells)
  rwa [List.length_map, List.length_map, length_halves] at count

theorem decode_eq_ok_iff : decode text = .ok bytes ↔ Spells text bytes := by
  unfold decode
  simp only
  split
  · next odd =>
    refine iff_of_false nofun fun spells => ?_
    rw [spells.length_encode] at odd
    omega
  · rw [readPairs_eq_ok_iff, spells_iff]

theorem decodeExactly_eq_ok_iff {count : Nat} :
    decodeExactly count text = .ok bytes ↔ Spells text bytes ∧ bytes.length = count := by
  unfold decodeExactly
  simp only
  split
  · next odd =>
    refine iff_of_false nofun fun ⟨spells, _⟩ => ?_
    rw [spells.length_encode] at odd
    omega
  · split
    · next other =>
      refine iff_of_false nofun fun ⟨spells, size⟩ => other ?_
      rw [spells.length_encode, size]
    · next same =>
      rw [readPairs_eq_ok_iff, ← spells_iff]
      refine (and_iff_left_of_imp fun spells => ?_).symm
      have := spells.length_encode
      omega

/-- Bytes are read from the text that is written for them. -/
theorem spells_encode (bytes : Bytes) : Spells (encode bytes) bytes := by
  rw [Spells, encode_eq, String.toList_ofList, List.map_map]
  exact List.map_congr_left fun value member =>
    Numeral.digitValue_digit (Nat.le_refl 16) (lt_of_mem_halves member)

/-- What is written for the bytes of a text is the text in lower case. -/
theorem Spells.encode_eq (spells : Spells text bytes) : encode bytes = text.toLower := by
  have lowered : (text.toList.map Char.toLower).map some = ((halves bytes).map Numeral.digit).map some := by
    calc
      (text.toList.map Char.toLower).map some =
          text.toList.map fun character => (Numeral.digitValue 16 character).map Numeral.digit := by
        rw [List.map_map]
        refine List.map_congr_left fun character member => ?_
        obtain ⟨value, read⟩ := exists_of_map_eq spells character member
        rw [read, Option.map_some, Numeral.digit_of_digitValue read]
        rfl
      _ = ((halves bytes).map some).map (Option.map Numeral.digit) := by
        rw [← spells, List.map_map]
        rfl
      _ = ((halves bytes).map Numeral.digit).map some := by
        rw [List.map_map, List.map_map]
        rfl
  have digits := (List.map_inj_right fun _ _ => Option.some.inj).mp lowered
  rw [Hex.encode_eq, ← digits, ← String.toList_map, String.ofList_toList]
  rfl

/-- The texts that spell bytes, by their characters alone. -/
theorem exists_spells_iff : (∃ bytes, Spells text bytes) ↔
    text.length % 2 = 0 ∧ ∀ character ∈ text.toList, IsDigit character := by
  constructor
  · rintro ⟨bytes, spells⟩
    refine ⟨by rw [spells.length, Nat.mul_mod_right], fun character member => ?_⟩
    exact isDigit_iff.mpr (exists_of_map_eq spells character member)
  · rintro ⟨even, digits⟩
    let worth (character : Char) : Nat := (Numeral.digitValue 16 character).getD 0
    have read : ∀ character ∈ text.toList, Numeral.digitValue 16 character = some (worth character) := by
      intro character member
      obtain ⟨value, read⟩ := isDigit_iff.mp (digits character member)
      simp only [worth, read, Option.getD_some]
    have small : ∀ value ∈ text.toList.map worth, value < 16 := List.forall_mem_map.mpr
      fun character member => (Numeral.digitValue_eq_some_iff.mp (read character member)).1
    obtain ⟨bytes, same⟩ := exists_halves (by rwa [List.length_map, String.length_toList]) small
    exact ⟨bytes, by rw [Spells, same, List.map_map]; exact List.map_congr_left read⟩

end Hex

end BuildDelivery
