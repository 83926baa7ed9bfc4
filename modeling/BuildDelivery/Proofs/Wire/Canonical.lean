import BuildDelivery.Proofs.Outcome
import BuildDelivery.Proofs.Wire.Format

/-! What a reader accepts. A canonical format reads a value only from the value's own written form,
so no bytes but these and what follows them spell the value. Whatever was read is read back from
its written form, of any length: its numbers and lengths fit the bytes that they would be written
in because they came from there. Every way to put formats together keeps this, and a format that
accepts more forms of a value than it writes still tells which they are. -/

set_option autoImplicit false

namespace BuildDelivery.Wire.Format

variable {α β : Type}

/-- Whatever is read is read back, and it stood in front of the bytes in one of its forms. -/
def Accepts (format : Format α) (forms : α → Bytes → Prop) : Prop :=
  ∀ ⦃bytes value rest⦄, format.decode bytes = .ok (value, rest) →
    format.ReadsBack value ∧ ∃ form, forms value form ∧ bytes = form ++ rest

/-- The only form of a value is the one that it is written in. -/
abbrev Canonical (format : Format α) : Prop :=
  format.Accepts fun value form => form = format.encode value

section
variable {format : Format α} {forms : α → Bytes → Prop}

theorem Accepts.mono (accepts : format.Accepts forms) {others : α → Bytes → Prop}
    (more : ∀ value form, forms value form → others value form) : format.Accepts others := by
  intro bytes value rest read
  obtain ⟨back, form, spelled, split⟩ := accepts read
  exact ⟨back, form, more value form spelled, split⟩

theorem Canonical.eq_append (canonical : format.Canonical) {bytes rest : Bytes} {value : α}
    (read : format.decode bytes = .ok (value, rest)) : bytes = format.encode value ++ rest := by
  obtain ⟨-, _, rfl, split⟩ := canonical read
  exact split

theorem decodeFront_eq_ok_iff {bytes : Bytes} {value : α} :
    format.decodeFront bytes = .ok value ↔ ∃ rest, format.decode bytes = .ok (value, rest) := by
  simp only [decodeFront, map_eq_ok_iff, Prod.exists, exists_and_right, exists_eq_right]

theorem ReadsBack.decodeFront {value : α} (back : format.ReadsBack value) (rest : Bytes) :
    format.decodeFront (format.encode value ++ rest) = .ok value :=
  decodeFront_eq_ok_iff.mpr ⟨rest, back rest⟩

/-- The values of another type, each of which is written as a value of the format. -/
theorem via_accepts (accepts : format.Accepts forms) {read : α → β} {write : β → α}
    (inverse : ∀ raw form, forms raw form → write (read raw) = raw) :
    (format.via read write).Accepts fun value form => forms (write value) form := by
  intro bytes value rest decoded
  obtain ⟨⟨raw, behind⟩, found, same⟩ := map_eq_ok_iff.mp decoded
  cases same
  obtain ⟨back, form, spelled, split⟩ := accepts found
  have again := inverse raw form spelled
  refine ⟨readsBack_via (again.symm ▸ back) (congrArg read again), form, ?_, split⟩
  simp only [again]
  exact spelled

theorem via_canonical (canonical : format.Canonical) {read : α → β} {write : β → α}
    (inverse : ∀ raw, write (read raw) = raw) : (format.via read write).Canonical :=
  via_accepts canonical fun raw _ _ => inverse raw

end

theorem fixed_canonical (count : Nat) : (fixed count).Canonical := by
  intro bytes value rest read
  simp only [fixed] at read
  split at read
  · next found =>
    cases read
    exact ⟨readsBack_fixed _, _, rfl, append_of_splitOff found⟩
  · cases read

theorem number_accepts (width : Nat) :
    (number width).Accepts fun value form =>
      value < LittleEndian.capacity width ∧ form = (number width).encode value := by
  intro bytes value rest read
  obtain ⟨⟨⟨front, size⟩, behind⟩, taken, same⟩ := map_eq_ok_iff.mp read
  cases same
  have fits : LittleEndian.decode front < LittleEndian.capacity width :=
    size ▸ LittleEndian.decode_lt front
  have spelled : front = LittleEndian.encode width (LittleEndian.decode front) := by
    rw [← size, LittleEndian.encode_decode]
  exact ⟨readsBack_number fits, front, ⟨fits, spelled⟩, (fixed_canonical width).eq_append taken⟩

theorem uint32_canonical : uint32.Canonical := by
  refine (via_accepts (number_accepts 4) ?_).mono fun value form spelled => spelled.2
  rintro raw form ⟨fits, -⟩
  exact UInt32.toNat_ofNat_of_lt fits

theorem uint64_canonical : uint64.Canonical := by
  refine (via_accepts (number_accepts 8) ?_).mono fun value form spelled => spelled.2
  rintro raw form ⟨fits, -⟩
  exact UInt64.toNat_ofNat_of_lt fits

theorem pair_accepts {first : Format α} {second : Format β} {forms : α → Bytes → Prop}
    {others : β → Bytes → Prop} (left : first.Accepts forms) (right : second.Accepts others) :
    (pair first second).Accepts fun value form =>
      ∃ before behind, forms value.1 before ∧ others value.2 behind ∧ form = before ++ behind := by
  intro bytes value rest read
  simp only [pair, bind_eq_ok_iff] at read
  obtain ⟨⟨a, between⟩, found, ⟨b, last⟩, more, same⟩ := read
  cases same
  obtain ⟨backLeft, before, spelled, rfl⟩ := left found
  obtain ⟨backRight, behind, spelled', rfl⟩ := right more
  exact ⟨readsBack_pair backLeft backRight, before ++ behind, ⟨before, behind, spelled, spelled', rfl⟩,
    (List.append_assoc before behind last).symm⟩

theorem pair_canonical {first : Format α} {second : Format β} (left : first.Canonical)
    (right : second.Canonical) : (pair first second).Canonical := by
  refine (pair_accepts left right).mono ?_
  rintro ⟨a, b⟩ form ⟨_, _, rfl, rfl, rfl⟩
  rfl

theorem octets_canonical : octets.Canonical := by
  intro bytes value rest read
  simp only [octets, bind_eq_ok_iff] at read
  obtain ⟨⟨length, behind⟩, counted, read⟩ := read
  obtain ⟨-, _, ⟨fits, rfl⟩, rfl⟩ := number_accepts 8 counted
  dsimp only at read
  split at read
  · next front last found =>
    cases read
    have size := front.property
    have split := append_of_splitOff found
    refine ⟨readsBack_octets (size.symm ▸ fits), _, rfl, ?_⟩
    simp only [octets, size, split, List.append_assoc]
  · cases read

theorem text_canonical : text.Canonical := by
  intro bytes value rest read
  simp only [text, bind_eq_ok_iff] at read
  obtain ⟨⟨length, behind⟩, counted, read⟩ := read
  obtain ⟨-, _, ⟨fits, rfl⟩, rfl⟩ := number_accepts 8 counted
  dsimp only at read
  split at read
  · cases read
  · next front last found =>
    split at read
    · next spelled =>
      cases read
      -- The bytes of the text are the bytes that were counted.
      have written := Utf8.encode_of_decode spelled
      have size : value.utf8ByteSize = length := by
        rw [← Utf8.length_encode, written, front.property]
      have split := append_of_splitOff found
      refine ⟨readsBack_text (size ▸ fits), _, rfl, ?_⟩
      simp only [text, size, split, written, List.append_assoc]
    · cases read

theorem readMany_accepts {format : Format α} (element : format.Canonical) {count : Nat}
    {before values : List α} {bytes rest : Bytes}
    (read : readMany format count before bytes = .ok (values, rest)) :
    ∃ later, values = before.reverse ++ later ∧ later.length = count ∧
      bytes = later.flatMap format.encode ++ rest ∧ ∀ value ∈ later, format.ReadsBack value := by
  induction count generalizing before bytes with
  | zero =>
    cases read
    exact ⟨[], (List.append_nil _).symm, rfl, rfl, nofun⟩
  | succ count step =>
    simp only [readMany] at read
    split at read
    · next value behind found =>
      obtain ⟨back, _, rfl, rfl⟩ := element found
      obtain ⟨later, rfl, size, rfl, others⟩ := step read
      refine ⟨value :: later, ?_, congrArg (· + 1) size, ?_, List.forall_mem_cons.mpr ⟨back, others⟩⟩
      · rw [List.reverse_cons, List.append_assoc]
        rfl
      · rw [List.flatMap_cons, List.append_assoc]
    · cases read

theorem list_accepts {format : Format α} (element : format.Canonical) :
    (list format).Accepts fun values form =>
      (values.length < LittleEndian.capacity 8 ∧ ∀ value ∈ values, format.ReadsBack value) ∧
        form = (list format).encode values := by
  intro bytes values rest read
  simp only [list, bind_eq_ok_iff] at read
  obtain ⟨⟨count, behind⟩, counted, read⟩ := read
  obtain ⟨-, _, ⟨fits, rfl⟩, rfl⟩ := number_accepts 8 counted
  obtain ⟨later, rfl, rfl, rfl, each⟩ := readMany_accepts element read
  exact ⟨readsBack_list each fits, _, ⟨⟨fits, each⟩, rfl⟩, (List.append_assoc _ _ rest).symm⟩

theorem list_canonical {format : Format α} (element : format.Canonical) :
    (list format).Canonical :=
  (list_accepts element).mono fun _ _ spelled => spelled.2

theorem option_canonical {format : Format α} (inner : format.Canonical) :
    (option format).Canonical := by
  intro bytes value? rest read
  simp only [option] at read
  split at read
  · cases read
  · cases read
    exact ⟨readsBack_option nofun, _, rfl, rfl⟩
  · obtain ⟨⟨value, behind⟩, found, same⟩ := map_eq_ok_iff.mp read
    cases same
    obtain ⟨back, _, rfl, rfl⟩ := inner found
    exact ⟨readsBack_option fun _ same => Option.some.inj same ▸ back, _, rfl, rfl⟩
  · cases read

section
variable {encode : α → Bytes} {size : α → Nat} {forms : α → Bytes → Prop} {tag : Nat}

/-- What a choice reads stands behind the number of a variant, and the reader of the variant has
read it. -/
theorem decodeVariant_eq_ok {readers : List (Bytes → Except Fault (α × Bytes))} {bytes rest : Bytes}
    {value : α} (read : decodeVariant readers bytes = .ok (value, rest)) :
    ∃ tag reader content, tag < LittleEndian.capacity 4 ∧ readers[tag]? = some reader ∧
      bytes = encodeVariant tag content ∧ reader content = .ok (value, rest) := by
  simp only [decodeVariant, bind_eq_ok_iff] at read
  obtain ⟨⟨tag, content⟩, counted, read⟩ := read
  obtain ⟨-, _, ⟨fits, rfl⟩, rfl⟩ := number_accepts 4 counted
  split at read
  · next reader place => exact ⟨tag, reader, content, fits, place, rfl, read⟩
  · cases read

/-- What the reader of one variant accepts, as a part of the whole choice. -/
def VariantAccepts (encode : α → Bytes) (forms : α → Bytes → Prop) (tag : Nat)
    (read : Bytes → Except Fault (α × Bytes)) : Prop :=
  ∀ ⦃bytes value rest⦄, read bytes = .ok (value, rest) →
    (∃ content, encode value = encodeVariant tag content ∧
      ∀ other, read (content ++ other) = .ok (value, other)) ∧
    ∃ content, forms value (encodeVariant tag content) ∧ bytes = content ++ rest

/-- A choice accepts what the readers of its variants accept. -/
theorem variants_accept {readers : List (Bytes → Except Fault (α × Bytes))}
    (each : ∀ tag read, readers[tag]? = some read → VariantAccepts encode forms tag read) :
    (Format.mk encode size (decodeVariant readers)).Accepts forms := by
  intro bytes value rest read
  obtain ⟨tag, reader, behind, fits, place, rfl, found⟩ := decodeVariant_eq_ok read
  obtain ⟨⟨written, same, back⟩, content, spelled, rfl⟩ := each tag reader place found
  refine ⟨readsBack_variant same fits place back, _, spelled, ?_⟩
  exact (List.append_assoc _ content rest).symm

theorem reader_accepts {format : Format β} {inner : β → Bytes → Prop}
    (accepts : format.Accepts inner) {build : β → α}
    (written : ∀ raw, encode (build raw) = encodeVariant tag (format.encode raw))
    (formed : ∀ raw content, inner raw content → forms (build raw) (encodeVariant tag content)) :
    VariantAccepts encode forms tag (reader format build) := by
  intro bytes value rest read
  obtain ⟨⟨raw, behind⟩, found, same⟩ := map_eq_ok_iff.mp read
  cases same
  obtain ⟨back, content, spelled, split⟩ := accepts found
  exact ⟨⟨format.encode raw, written raw, reader_encode back build⟩, content,
    formed raw content spelled, split⟩

/-- A variant whose content has one form, which is the only form that it is written in. -/
theorem reader_canonical {format : Format β} (canonical : format.Canonical) {build : β → α}
    (written : ∀ raw, encode (build raw) = encodeVariant tag (format.encode raw))
    (formed : ∀ raw, forms (build raw) (encode (build raw))) :
    VariantAccepts encode forms tag (reader format build) := by
  refine reader_accepts canonical written ?_
  rintro raw _ rfl
  exact written raw ▸ formed raw

end

end BuildDelivery.Wire.Format
