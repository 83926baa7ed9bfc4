import BuildDelivery.Text.Utf8
import Mathlib.Algebra.Ring.Nat

/-! The order of texts. Texts are ordered character by character, and their UTF-8 bytes byte by
byte; the two orders agree. A character is spelled by a lead byte, which tells how many bytes
follow, and by six bits in each of these; so a smaller character has a smaller lead byte, or the
same one and then smaller bits. -/

set_option autoImplicit false

namespace BuildDelivery.Utf8

/-- How many bytes follow the lead byte of a character with this code. -/
def trail (code : Nat) : Nat :=
  if code ≤ 0x7f then 0 else if code ≤ 0x7ff then 1 else if code ≤ 0xffff then 2 else 3

/-- What tells a lead byte with so many bytes behind it from all others. -/
def mark : Nat → Nat
  | 0 => 0
  | 1 => 0xc0
  | 2 => 0xe0
  | _ => 0xf0

/-- The last bytes of a character, with six bits of its code in each. -/
def following : Nat → Nat → Bytes
  | 0, _ => []
  | count + 1, code => UInt8.ofNat (code / 64 ^ count % 64 + 0x80) :: following count code

def lead (code : Nat) : Nat := code / 64 ^ trail code + mark (trail code)

theorem val_lt (character : Char) : character.val.toNat < 0x110000 := by
  rcases character.valid with low | high
  · exact Nat.lt_trans low (by decide)
  · exact high.2

theorem utf8EncodeChar_eq (character : Char) :
    String.utf8EncodeChar character =
      UInt8.ofNat (lead character.val.toNat) ::
        following (trail character.val.toNat) character.val.toNat := by
  have small := val_lt character
  unfold String.utf8EncodeChar lead
  simp only
  generalize character.val.toNat = code at small ⊢
  by_cases one : code ≤ 0x7f
  · simp [trail, one, mark, following]
  by_cases two : code ≤ 0x7ff
  · have bits : code / 64 % 32 = code / 64 := Nat.mod_eq_of_lt (by omega)
    simp [trail, one, two, mark, following, bits]
  by_cases three : code ≤ 0xffff
  · have bits : code / 4096 % 16 = code / 4096 := Nat.mod_eq_of_lt (by omega)
    simp [trail, one, two, three, mark, following, bits]
  · have bits : code / 262144 % 8 = code / 262144 := Nat.mod_eq_of_lt (by omega)
    simp [trail, one, two, three, mark, following, bits]

/-- The codes with so many bytes behind the lead byte. -/
theorem trail_cases (code : Nat) :
    (trail code = 0 ∧ code < 0x80) ∨ (trail code = 1 ∧ 0x80 ≤ code ∧ code < 0x800) ∨
      (trail code = 2 ∧ 0x800 ≤ code ∧ code < 0x10000) ∨ (trail code = 3 ∧ 0x10000 ≤ code) := by
  unfold trail
  split
  · omega
  · split
    · omega
    · split
      · omega
      · omega

/-- More bytes behind it make a lead byte larger. -/
theorem lead_lt_of_trail {code code' : Nat} (before : code < code')
    (more : trail code ≠ trail code') : lead code < lead code' := by
  unfold lead
  rcases trail_cases code with ⟨count, range⟩ | ⟨count, range⟩ | ⟨count, range⟩ | ⟨count, range⟩ <;>
    rcases trail_cases code' with
      ⟨count', range'⟩ | ⟨count', range'⟩ | ⟨count', range'⟩ | ⟨count', range'⟩ <;>
      rw [count, count'] at more ⊢ <;> simp only [mark, Nat.reducePow, Nat.div_one] <;> omega

/-- The smaller of two codes has a smaller lead byte, or the same one with as many bytes behind. -/
theorem lead_lt_or {code code' : Nat} (before : code < code') :
    lead code < lead code' ∨ lead code = lead code' ∧ trail code = trail code' ∧
      code / 64 ^ trail code = code' / 64 ^ trail code := by
  by_cases count : trail code = trail code'
  · have bits : code / 64 ^ trail code ≤ code' / 64 ^ trail code :=
      Nat.div_le_div_right (Nat.le_of_lt before)
    unfold lead
    rw [← count]
    rcases Nat.lt_or_eq_of_le bits with smaller | same
    · exact .inl (Nat.add_lt_add_right smaller _)
    · exact .inr ⟨by rw [same], rfl, same⟩
  · exact .inl (lead_lt_of_trail before count)

theorem following_append_lt {count code code' : Nat} (before : code < code')
    (same : code / 64 ^ count = code' / 64 ^ count) (behind behind' : Bytes) :
    following count code ++ behind < following count code' ++ behind' := by
  induction count with
  | zero =>
    rw [Nat.pow_zero, Nat.div_one, Nat.div_one] at same
    exact absurd same (Nat.ne_of_lt before)
  | succ count step =>
    rw [following, following, List.cons_append, List.cons_append, List.cons_lt_cons_iff]
    by_cases later : code / 64 ^ count = code' / 64 ^ count
    · exact .inr ⟨by rw [later], step later⟩
    · refine .inl ?_
      have smaller : code / 64 ^ count ≤ code' / 64 ^ count := Nat.div_le_div_right (Nat.le_of_lt before)
      rw [Nat.pow_succ, ← Nat.div_div_eq_div_mul, ← Nat.div_div_eq_div_mul] at same
      rw [UInt8.lt_iff_toNat_lt, UInt8.toNat_ofNat', UInt8.toNat_ofNat']
      omega

theorem lead_lt {code : Nat} (small : code < 0x110000) : lead code < 256 := by
  unfold lead
  rcases trail_cases code with ⟨count, range⟩ | ⟨count, range⟩ | ⟨count, range⟩ | ⟨count, range⟩ <;>
    rw [count] <;> simp only [mark, Nat.reducePow, Nat.div_one] <;> omega

/-- The bytes of the smaller character are smaller, whatever follows them. -/
theorem utf8EncodeChar_append_lt {left right : Char} (before : left < right)
    (behind behind' : Bytes) :
    String.utf8EncodeChar left ++ behind < String.utf8EncodeChar right ++ behind' := by
  have codes : left.val.toNat < right.val.toNat := UInt32.lt_iff_toNat_lt.mp before
  rw [utf8EncodeChar_eq, utf8EncodeChar_eq, List.cons_append, List.cons_append,
    List.cons_lt_cons_iff]
  rcases lead_lt_or codes with smaller | ⟨same, count, bits⟩
  · refine .inl ?_
    rw [UInt8.lt_iff_toNat_lt, UInt8.toNat_ofNat_of_lt' (lead_lt (val_lt left)),
      UInt8.toNat_ofNat_of_lt' (lead_lt (val_lt right))]
    exact smaller
  · refine .inr ⟨congrArg UInt8.ofNat same, ?_⟩
    rw [← count]
    exact following_append_lt codes bits behind behind'

theorem flatMap_utf8EncodeChar_lt {left right : List Char} (before : left < right) :
    left.flatMap String.utf8EncodeChar < right.flatMap String.utf8EncodeChar := by
  induction before with
  | @nil character rest =>
    rw [List.flatMap_nil, List.flatMap_cons, utf8EncodeChar_eq]
    exact List.nil_lt_cons _ _
  | @cons character rest rest' later step =>
    rw [List.flatMap_cons, List.flatMap_cons]
    exact List.append_left_lt step
  | rel first => exact utf8EncodeChar_append_lt first _ _

theorem encode_eq_flatMap (text : String) :
    encode text = text.toList.flatMap String.utf8EncodeChar := by
  rw [encode, ← String.utf8Encode_toList, List.utf8Encode, List.toList_data_toByteArray]

/-- The smaller text has the smaller bytes. -/
theorem encode_lt_encode {left right : String} (before : left < right) : encode left < encode right := by
  rw [encode_eq_flatMap, encode_eq_flatMap]
  exact flatMap_utf8EncodeChar_lt before

end BuildDelivery.Utf8
