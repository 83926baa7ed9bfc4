import BuildDelivery.Wire.Format

/-! Reading back what was written. A value is read back from the front of any bytes that start
with its written form, if its numbers and lengths fit the bytes that they are written in; they do
if the written form is short. Every way to put formats together keeps this. -/

set_option autoImplicit false

namespace BuildDelivery.Wire.Format

variable {α β : Type}

/-- The value is read back from its written form, whatever follows it. -/
def ReadsBack (format : Format α) (value : α) : Prop :=
  ∀ rest, format.decode (format.encode value ++ rest) = .ok (value, rest)

theorem readsBack_via {format : Format α} {read : α → β} {write : β → α} {value : β}
    (inner : format.ReadsBack (write value)) (inverse : read (write value) = value) :
    (format.via read write).ReadsBack value := by
  intro rest
  change (format.decode (format.encode (write value) ++ rest)).map _ = _
  rw [inner rest]
  simp only [Except.map, inverse]

theorem readsBack_fixed {count : Nat} (value : { bytes : Bytes // bytes.length = count }) :
    (fixed count).ReadsBack value := by
  intro rest
  simp only [fixed, splitOff_append value.val rest value.property]

/-- A number that fits its width is read back; there is no other condition. -/
theorem readsBack_number {width value : Nat} (fits : value < LittleEndian.capacity width) :
    (number width).ReadsBack value := by
  intro rest
  simp only [number, fixed, splitOff_append _ rest (LittleEndian.length_encode width value),
    Except.map, LittleEndian.decode_encode fits]

theorem uint32_readsBack (value : UInt32) : uint32.ReadsBack value :=
  readsBack_via (readsBack_number value.toNat_lt) UInt32.ofNat_toNat

theorem readsBack_pair {first : Format α} {second : Format β} {left : α} {right : β}
    (before : first.ReadsBack left) (behind : second.ReadsBack right) :
    (pair first second).ReadsBack (left, right) := by
  intro rest
  simp only [pair, List.append_assoc]
  rw [before]
  simp only [bind, Except.bind]
  rw [behind]
  rfl

theorem readsBack_octets {bytes : Bytes} (fits : bytes.length < LittleEndian.capacity 8) :
    octets.ReadsBack bytes := by
  intro rest
  simp only [octets, List.append_assoc]
  rw [readsBack_number fits]
  simp only [bind, Except.bind, splitOff_append bytes rest rfl]
  rfl

theorem readsBack_text {value : String} (fits : value.utf8ByteSize < LittleEndian.capacity 8) :
    text.ReadsBack value := by
  intro rest
  simp only [text, List.append_assoc]
  rw [readsBack_number fits]
  simp only [bind, Except.bind, splitOff_append _ rest (Utf8.length_encode value),
    Utf8.decode_encode]
  rfl

theorem readMany_flatMap {format : Format α} {values : List α}
    (each : ∀ value ∈ values, format.ReadsBack value) (read : List α) (rest : Bytes) :
    readMany format values.length read (values.flatMap format.encode ++ rest) =
      .ok (read.reverse ++ values, rest) := by
  induction values generalizing read with
  | nil => simp [readMany]
  | cons value later step =>
    obtain ⟨first, others⟩ := List.forall_mem_cons.mp each
    rw [List.flatMap_cons, List.append_assoc, List.length_cons, readMany, first]
    simp only
    rw [step others (value :: read), List.reverse_cons, List.append_assoc]
    rfl

theorem readsBack_list {format : Format α} {values : List α}
    (each : ∀ value ∈ values, format.ReadsBack value)
    (fits : values.length < LittleEndian.capacity 8) : (list format).ReadsBack values := by
  intro rest
  simp only [list, List.append_assoc]
  rw [readsBack_number fits]
  simp only [bind, Except.bind]
  rw [readMany_flatMap each [] rest]
  rfl

theorem readsBack_option {format : Format α} {value? : Option α}
    (inner : ∀ value, value? = some value → format.ReadsBack value) :
    (option format).ReadsBack value? := by
  intro rest
  cases value? with
  | none => rfl
  | some value =>
    change (format.decode (format.encode value ++ rest)).map _ = _
    rw [inner value rfl rest]
    rfl

/-- Behind the number of a variant, the reader at its place takes over. -/
theorem decodeVariant_encodeVariant {readers : List (Bytes → Except Fault (α × Bytes))}
    {tag : Nat} {read : Bytes → Except Fault (α × Bytes)} (place : readers[tag]? = some read)
    (fits : tag < LittleEndian.capacity 4) (content rest : Bytes) :
    decodeVariant readers (encodeVariant tag content ++ rest) = read (content ++ rest) := by
  unfold decodeVariant encodeVariant
  rw [List.append_assoc, readsBack_number fits]
  simp only [bind, Except.bind, place]

/-- A choice is read back if the reader at the place of the variant reads back the content. -/
theorem readsBack_variant {encode : α → Bytes} {size : α → Nat}
    {readers : List (Bytes → Except Fault (α × Bytes))} {tag : Nat}
    {read : Bytes → Except Fault (α × Bytes)} {value : α} {content : Bytes}
    (written : encode value = encodeVariant tag content) (fits : tag < LittleEndian.capacity 4)
    (place : readers[tag]? = some read) (back : ∀ rest, read (content ++ rest) = .ok (value, rest)) :
    (Format.mk encode size (decodeVariant readers)).ReadsBack value := by
  intro rest
  change decodeVariant readers (encode value ++ rest) = _
  rw [written, decodeVariant_encodeVariant place fits]
  exact back rest

theorem reader_encode {format : Format α} {value : α} (inner : format.ReadsBack value)
    (build : α → β) (rest : Bytes) :
    reader format build (format.encode value ++ rest) = .ok (build value, rest) := by
  unfold reader
  rw [inner rest]
  rfl

/-- Every value with a short written form is read back. -/
structure RoundTrips (format : Format α) : Prop where
  nonempty : ∀ value, 0 < (format.encode value).length
  readsBack : ∀ value, (format.encode value).length < LittleEndian.capacity 8 →
    format.ReadsBack value

theorem via_roundTrips {format : Format α} (inner : format.RoundTrips) {read : α → β}
    {write : β → α} (inverse : ∀ value, read (write value) = value) :
    (format.via read write).RoundTrips where
  nonempty value := inner.nonempty (write value)
  readsBack value short := readsBack_via (inner.readsBack (write value) short) (inverse value)

theorem fixed_roundTrips {count : Nat} (positive : 0 < count) : (fixed count).RoundTrips where
  nonempty value := Nat.lt_of_lt_of_eq positive value.property.symm
  readsBack value _ := readsBack_fixed value

/-- A type of numbers that all fit one width. -/
theorem number_via_roundTrips {width : Nat} (positive : 0 < width) {read : Nat → β}
    {write : β → Nat} (inverse : ∀ value, read (write value) = value)
    (fits : ∀ value, write value < LittleEndian.capacity width) :
    ((number width).via read write).RoundTrips where
  nonempty value :=
    Nat.lt_of_lt_of_eq positive (LittleEndian.length_encode width (write value)).symm
  readsBack value _ := readsBack_via (readsBack_number (fits value)) (inverse value)

theorem uint32_roundTrips : uint32.RoundTrips :=
  number_via_roundTrips (by decide) (fun _ => UInt32.ofNat_toNat) UInt32.toNat_lt

theorem uint64_roundTrips : uint64.RoundTrips :=
  number_via_roundTrips (by decide) (fun _ => UInt64.ofNat_toNat) UInt64.toNat_lt

theorem pair_roundTrips {first : Format α} {second : Format β} (left : first.RoundTrips)
    (right : second.RoundTrips) : (pair first second).RoundTrips := by
  constructor
  · rintro ⟨a, b⟩
    have some := left.nonempty a
    simp only [pair, List.length_append]
    omega
  · rintro ⟨a, b⟩ short
    simp only [pair, List.length_append] at short
    exact readsBack_pair (left.readsBack a (by omega)) (right.readsBack b (by omega))

theorem octets_roundTrips : octets.RoundTrips := by
  constructor
  · intro bytes
    simp only [octets, number, List.length_append, LittleEndian.length_encode]
    omega
  · intro bytes short
    simp only [octets, List.length_append] at short
    exact readsBack_octets (by omega)

theorem text_roundTrips : text.RoundTrips := by
  constructor
  · intro value
    simp only [text, number, List.length_append, LittleEndian.length_encode]
    omega
  · intro value short
    simp only [text, List.length_append, Utf8.length_encode] at short
    exact readsBack_text (by omega)

/-- A row of values has at least as many bytes as values. -/
theorem length_le_flatMap {format : Format α} (element : format.RoundTrips) (values : List α) :
    values.length ≤ (values.flatMap format.encode).length := by
  induction values with
  | nil => exact Nat.zero_le _
  | cons value later step =>
    have some := element.nonempty value
    rw [List.flatMap_cons, List.length_append, List.length_cons]
    omega

/-- A row of values has at least as many bytes as each of them. -/
theorem length_encode_le_flatMap {format : Format α} {values : List α} {value : α}
    (member : value ∈ values) :
    (format.encode value).length ≤ (values.flatMap format.encode).length := by
  obtain ⟨before, behind, rfl⟩ := List.append_of_mem member
  simp only [List.flatMap_append, List.flatMap_cons, List.length_append]
  omega

theorem list_roundTrips {format : Format α} (element : format.RoundTrips) :
    (list format).RoundTrips := by
  constructor
  · intro values
    simp only [list, number, List.length_append, LittleEndian.length_encode]
    omega
  · intro values short
    -- No element is written as nothing, so the number of elements fits if their bytes do.
    have count := length_le_flatMap element values
    simp only [list, List.length_append] at short
    refine readsBack_list (fun value member => ?_) (by omega)
    have part : (format.encode value).length ≤ (values.flatMap format.encode).length :=
      length_encode_le_flatMap member
    exact element.readsBack value (by omega)

theorem option_roundTrips {format : Format α} (inner : format.RoundTrips) :
    (option format).RoundTrips := by
  constructor
  · intro value
    cases value with
    | none => exact Nat.one_pos
    | some value => exact Nat.succ_pos _
  · rintro _ short
    apply readsBack_option
    rintro value rfl
    change (format.encode value).length + 1 < _ at short
    exact inner.readsBack value (by omega)

theorem reader_roundTrips {format : Format α} (inner : format.RoundTrips) (build : α → β)
    (value : α) (rest : Bytes) (short : (format.encode value).length < LittleEndian.capacity 8) :
    reader format build (format.encode value ++ rest) = .ok (build value, rest) :=
  reader_encode (inner.readsBack value short) build rest

theorem length_encodeVariant (tag : Nat) (content : Bytes) :
    (encodeVariant tag content).length = 4 + content.length := by
  simp [encodeVariant, number]

end BuildDelivery.Wire.Format
