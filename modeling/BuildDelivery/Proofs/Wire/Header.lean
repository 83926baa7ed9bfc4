import BuildDelivery.Proofs.Wire.Frame

/-! Headers and their twelve bytes. Every header spells its fields at fixed places, so bytes have at
most one header; reading finds it and checks it. Hence the bytes that are accepted are exactly those
of the headers that pass the check, and flags do not matter for either. -/

set_option autoImplicit false

namespace BuildDelivery

namespace LittleEndian

theorem encode_two (number : Nat) :
    encode 2 number = [UInt8.ofNat number, UInt8.ofNat (number / 256)] := rfl

theorem encode_four (number : Nat) :
    encode 4 number = [UInt8.ofNat number, UInt8.ofNat (number / 256), UInt8.ofNat (number / 65536),
      UInt8.ofNat (number / 16777216)] := by
  simp only [encode, Nat.div_div_eq_div_mul, Nat.reduceMul]

/-- Four bytes spell a number of 32 bits. -/
theorem toNat_four (a b c d : UInt8) :
    (UInt32.ofNat (decode [a, b, c, d])).toNat = decode [a, b, c, d] :=
  UInt32.toNat_ofNat_of_lt' (decode_lt [a, b, c, d])

theorem toNat_two (a b : UInt8) : (UInt16.ofNat (decode [a, b])).toNat = decode [a, b] :=
  UInt16.toNat_ofNat_of_lt' (decode_lt [a, b])

end LittleEndian

theorem MessageKind.exists_ofByte?_iff {byte : UInt8} :
    (∃ kind, ofByte? byte = some kind) ↔ 1 ≤ byte ∧ byte ≤ 5 := by
  constructor
  · rintro ⟨kind, known⟩
    rw [← toByte_of_ofByte? known]
    cases kind <;> decide
  · rintro ⟨low, high⟩
    have cases : byte = 1 ∨ byte = 2 ∨ byte = 3 ∨ byte = 4 ∨ byte = 5 := by
      simp only [← UInt8.toNat_inj, UInt8.le_iff_toNat_le, UInt8.reduceToNat] at *
      omega
    rcases cases with rfl | rfl | rfl | rfl | rfl <;> exact ⟨_, rfl⟩

namespace Header

variable {header : Header} {bytes : Vector UInt8 12}

theorem check_eq_ok_iff : header.check = .ok () ↔ header.magic = protocolMagic ∧
    header.version = protocolVersion ∧ header.length.toNat ≤ maxPayloadSize := by
  unfold check
  by_cases magic : header.magic = protocolMagic
  · by_cases version : header.version = protocolVersion
    · by_cases long : maxPayloadSize < header.length.toNat
      · simp [magic, version, long]
      · simp [magic, version, long, Nat.le_of_not_lt long]
    · simp [magic, version]
  · simp [magic]

/-- Twelve bytes with the fields of a header at their places, numbers with the lowest byte first. -/
structure Spells (bytes : Vector UInt8 12) (header : Header) : Prop where
  magic : #v[bytes.get 0, bytes.get 1, bytes.get 2, bytes.get 3] = header.magic
  length : LittleEndian.decode [bytes.get 4, bytes.get 5, bytes.get 6, bytes.get 7] = header.length.toNat
  kind : bytes.get 8 = header.kind.toByte
  version : bytes.get 9 = header.version
  flags : LittleEndian.decode [bytes.get 10, bytes.get 11] = header.flags.toNat

/-- Twelve bytes taken one by one, so that each field of a header can be told from its bytes. -/
theorem spells_iff {a b c d e f g h i j k l : UInt8} {magic : Vector UInt8 4} {length : UInt32}
    {kind : MessageKind} {version : UInt8} {flags : UInt16} :
    Spells #v[a, b, c, d, e, f, g, h, i, j, k, l] ⟨magic, length, kind, version, flags⟩ ↔
      #v[a, b, c, d] = magic ∧ LittleEndian.decode [e, f, g, h] = length.toNat ∧ i = kind.toByte ∧
        j = version ∧ LittleEndian.decode [k, l] = flags.toNat :=
  ⟨fun spells => ⟨spells.magic, spells.length, spells.kind, spells.version, spells.flags⟩,
    fun ⟨magic, length, kind, version, flags⟩ => ⟨magic, length, kind, version, flags⟩⟩

theorem spells_encode (header : Header) : Spells header.encode header := by
  obtain ⟨magic, length, kind, version, flags⟩ := header
  obtain ⟨a, b, c, d, rfl⟩ := exists_four magic
  rw [encode_four, spells_iff, ← LittleEndian.encode_four, ← LittleEndian.encode_two]
  exact ⟨rfl, LittleEndian.decode_encode length.toNat_lt, rfl, rfl,
    LittleEndian.decode_encode flags.toNat_lt⟩

theorem exists_twelve (bytes : Vector UInt8 12) :
    ∃ a b c d e f g h i j k l, bytes = #v[a, b, c, d, e, f, g, h, i, j, k, l] := by
  obtain ⟨⟨entries⟩, size⟩ := bytes
  match entries, size with
  | [a, b, c, d, e, f, g, h, i, j, k, l], _ => exact ⟨a, b, c, d, e, f, g, h, i, j, k, l, rfl⟩

/-- The fields of a header leave nothing open in its bytes. -/
theorem Spells.encode_eq (spells : Spells bytes header) : header.encode = bytes := by
  obtain ⟨magic, length, kind, version, flags⟩ := header
  obtain ⟨a, b, c, d, e, f, g, h, i, j, k, l, rfl⟩ := exists_twelve bytes
  obtain ⟨rfl, number, rfl, rfl, bits⟩ := spells_iff.mp spells
  have four : LittleEndian.encode 4 length.toNat = [e, f, g, h] :=
    number ▸ LittleEndian.encode_decode [e, f, g, h]
  have two : LittleEndian.encode 2 flags.toNat = [k, l] := bits ▸ LittleEndian.encode_decode [k, l]
  simp only [LittleEndian.encode_four, LittleEndian.encode_two, List.cons.injEq, and_true] at four two
  simp only [encode_four, four, two]

/-- Reading finds the header that the bytes spell, if there is one and it passes the check. -/
theorem decode_eq_ok_iff :
    decode bytes = .ok header ↔ Spells bytes header ∧ header.check = .ok () := by
  constructor
  · intro read
    unfold decode at read
    split at read
    · cases read
    · next kind known =>
      obtain ⟨⟨⟩, accepted, same⟩ := bind_eq_ok_iff.mp read
      cases same
      refine ⟨⟨rfl, ?_, (MessageKind.toByte_of_ofByte? known).symm, rfl, ?_⟩, accepted⟩
      · exact (LittleEndian.toNat_four _ _ _ _).symm
      · exact (LittleEndian.toNat_two _ _).symm
  · -- The bytes are those of the header, and these are read back.
    rintro ⟨spells, accepted⟩
    rw [← spells.encode_eq, decode_encode, accepted]
    rfl

/-- Twelve bytes that can be accepted: the mark of the protocol, a length within the limit, the
number of a kind of message and the version. The last two bytes may be any. -/
structure Acceptable (bytes : Vector UInt8 12) : Prop where
  magic : [bytes.get 0, bytes.get 1, bytes.get 2, bytes.get 3] = Utf8.encode "BSYN"
  length : LittleEndian.decode [bytes.get 4, bytes.get 5, bytes.get 6, bytes.get 7] ≤ maxPayloadSize
  kind : (1 : UInt8) ≤ bytes.get 8 ∧ bytes.get 8 ≤ (5 : UInt8)
  version : bytes.get 9 = protocolVersion

theorem acceptable_iff : Acceptable bytes ↔ ∃ header, Spells bytes header ∧ header.check = .ok () := by
  constructor
  · rintro ⟨magic, length, kind, version⟩
    obtain ⟨kind, known⟩ := MessageKind.exists_ofByte?_iff.mpr kind
    let header : Header := ⟨protocolMagic,
      UInt32.ofNat (LittleEndian.decode [bytes.get 4, bytes.get 5, bytes.get 6, bytes.get 7]), kind,
      protocolVersion, UInt16.ofNat (LittleEndian.decode [bytes.get 10, bytes.get 11])⟩
    have number := LittleEndian.toNat_four (bytes.get 4) (bytes.get 5) (bytes.get 6) (bytes.get 7)
    have spells : Spells bytes header := ⟨Vector.toList_inj.mp magic, number.symm,
      (MessageKind.toByte_of_ofByte? known).symm, version, (LittleEndian.toNat_two _ _).symm⟩
    exact ⟨header, spells, check_eq_ok_iff.mpr ⟨rfl, rfl, number.symm ▸ length⟩⟩
  · rintro ⟨header, ⟨magic, length, kind, version, -⟩, accepted⟩
    obtain ⟨mark, current, short⟩ := check_eq_ok_iff.mp accepted
    refine ⟨congrArg Vector.toList (magic.trans mark), length ▸ short,
      MessageKind.exists_ofByte?_iff.mp ⟨header.kind, ?_⟩, version.trans current⟩
    rw [kind, MessageKind.ofByte?_toByte]

/-- Reading and writing are inverse to each other between the bytes that can be accepted and the
headers that pass the check, and both keep to the places of the fields. -/
theorem codec_bijective :
    (∀ bytes, (∃ header, decode bytes = .ok header) ↔ Acceptable bytes) ∧
    (∀ bytes header, decode bytes = .ok header → header.encode = bytes ∧ Spells bytes header) ∧
    ∀ header, decode header.encode = .ok header ↔ header.check = .ok () := by
  refine ⟨fun bytes => ?_, fun bytes header read => ?_, fun header => ?_⟩
  · rw [acceptable_iff]
    exact exists_congr fun header => decode_eq_ok_iff
  · obtain ⟨spells, -⟩ := decode_eq_ok_iff.mp read
    exact ⟨spells.encode_eq, spells⟩
  · rw [decode_eq_ok_iff, and_iff_right (spells_encode header)]

/-- The header of the longest answer, with flags. -/
def flagged : Header := ⟨protocolMagic, 67108864, .latestBuild, protocolVersion, 0x0201⟩

theorem codec_bijective_flagged :
    flagged.encode = #v[66, 83, 89, 78, 0, 0, 0, 4, 2, 1, 1, 2] ∧ Acceptable flagged.encode ∧
      decode flagged.encode = .ok flagged ∧
      Spells #v[66, 83, 89, 78, 0, 0, 0, 4, 2, 1, 1, 2] flagged ∧
      ¬Acceptable { flagged with length := 67108865 }.encode := by
  have written : flagged.encode = #v[66, 83, 89, 78, 0, 0, 0, 4, 2, 1, 1, 2] := by decide
  have accepted : flagged.check = .ok () := rfl
  have read := (codec_bijective.2.2 flagged).mpr accepted
  refine ⟨written, (codec_bijective.1 _).mp ⟨flagged, read⟩, read,
    written ▸ (codec_bijective.2.1 _ _ read).2, fun acceptable => ?_⟩
  obtain ⟨header, read⟩ := (codec_bijective.1 _).mpr acceptable
  have refused : decode { flagged with length := 67108865 }.encode =
      .error (.announcedSize 67108865) := rfl
  cases refused.symm.trans read

end Header

end BuildDelivery
