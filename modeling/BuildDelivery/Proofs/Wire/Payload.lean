import BuildDelivery.Proofs.Wire.Format
import BuildDelivery.Wire.Payload

/-! Every message is read back as it was written. The files of a manifest are written in the
order of their paths, and a manifest does not depend on the order in which its files are read. -/

set_option autoImplicit false

namespace BuildDelivery.Wire

open Format

theorem blockHash_roundTrips : blockHash.RoundTrips :=
  via_roundTrips (fixed_roundTrips (by decide)) fun _ => rfl

theorem block_roundTrips : block.RoundTrips :=
  via_roundTrips (pair_roundTrips blockHash_roundTrips uint32_roundTrips) fun _ => rfl

theorem location_roundTrips : location.RoundTrips :=
  via_roundTrips (pair_roundTrips text_roundTrips uint32_roundTrips) fun _ => rfl

theorem checksum_roundTrips : checksum.RoundTrips :=
  via_roundTrips uint64_roundTrips fun _ => rfl

theorem buildId_roundTrips : buildId.RoundTrips :=
  via_roundTrips octets_roundTrips fun _ => rfl

/-- A choice is read back if every value is written as the number of a variant and content that
the reader at that place reads back. -/
theorem variants_roundTrip {α : Type} {encode : α → Bytes} {size : α → Nat}
    {readers : List (Bytes → Except Fault (α × Bytes))}
    (choice : ∀ value, ∃ tag content read, encode value = encodeVariant tag content ∧
      tag < LittleEndian.capacity 4 ∧ readers[tag]? = some read ∧
        ∀ rest, content.length < LittleEndian.capacity 8 → read (content ++ rest) = .ok (value, rest)) :
    (Format.mk encode size (decodeVariant readers)).RoundTrips := by
  constructor
  · intro value
    obtain ⟨tag, content, read, written, -⟩ := choice value
    simp only [written, length_encodeVariant]
    omega
  · intro value short
    obtain ⟨tag, content, read, written, fits, place, back⟩ := choice value
    simp only [written, length_encodeVariant] at short
    exact readsBack_variant written fits place fun rest => back rest (by omega)

theorem operation_roundTrips : operation.RoundTrips := by
  have placed := pair_roundTrips location_roundTrips block_roundTrips
  apply variants_roundTrip
  intro value
  cases value with
  | add place content => exact ⟨0, _, _, rfl, by decide, rfl, reader_roundTrips placed _ (place, content)⟩
  | remove place => exact ⟨1, _, _, rfl, by decide, rfl, reader_roundTrips location_roundTrips _ place⟩
  | modify place content =>
    exact ⟨2, _, _, rfl, by decide, rfl, reader_roundTrips placed _ (place, content)⟩

theorem delta_roundTrips : delta.RoundTrips :=
  via_roundTrips (pair_roundTrips uint32_roundTrips (pair_roundTrips checksum_roundTrips
    (pair_roundTrips checksum_roundTrips (list_roundTrips operation_roundTrips)))) fun _ => rfl

/-- The entries of a map determine it. -/
theorem ofList_toList (files : Std.ExtTreeMap String (List Block)) :
    Std.ExtTreeMap.ofList files.toList = files := by
  refine Std.ExtTreeMap.ext_getElem? fun path => ?_
  cases found : files[path]? with
  | some blocks =>
    exact Std.ExtTreeMap.getElem?_ofList_of_mem Std.ReflOrd.compare_self
      Std.ExtTreeMap.distinct_keys_toList (Std.ExtTreeMap.mem_toList_iff_getElem?_eq_some.mpr found)
  -- A path without an entry is no key of the list either.
  | none =>
    apply Std.ExtTreeMap.getElem?_ofList_of_contains_eq_false
    rw [Std.ExtTreeMap.map_fst_toList_eq_keys, Std.ExtTreeMap.contains_keys,
      Std.ExtTreeMap.contains_eq_isSome_getElem?, found]
    rfl

theorem manifest_roundTrips : manifest.RoundTrips := by
  refine via_roundTrips (pair_roundTrips uint32_roundTrips
    (list_roundTrips (pair_roundTrips text_roundTrips (list_roundTrips block_roundTrips)))) ?_
  intro value
  simp only [ofList_toList]

theorem target_roundTrips : target.RoundTrips := by
  apply variants_roundTrip
  intro value
  refine ⟨value.index, [], fun rest => .ok (value, rest), rfl, ?_, ?_, fun rest _ => rfl⟩
  · exact Nat.lt_of_lt_of_le value.index_lt (by decide)
  · cases value with
    | _ => rfl

theorem request_roundTrips : request.RoundTrips :=
  via_roundTrips (pair_roundTrips (via_roundTrips uint64_roundTrips fun _ => rfl)
    (pair_roundTrips (list_roundTrips target_roundTrips) (option_roundTrips buildId_roundTrips)))
    fun _ => rfl

theorem payload_roundTrips : payload.RoundTrips := by
  apply variants_roundTrip
  intro value
  cases value with
  | upToDate => exact ⟨0, [], _, rfl, by decide, rfl, fun rest _ => rfl⟩
  | manifest content =>
    exact ⟨1, _, _, rfl, by decide, rfl, reader_roundTrips manifest_roundTrips _ content⟩
  | delta content => exact ⟨2, _, _, rfl, by decide, rfl, reader_roundTrips delta_roundTrips _ content⟩

theorem response_roundTrips : response.RoundTrips :=
  via_roundTrips (pair_roundTrips buildId_roundTrips
    (pair_roundTrips checksum_roundTrips payload_roundTrips)) fun _ => rfl

theorem message_roundTrips : message.RoundTrips := by
  have report := pair_roundTrips uint32_roundTrips text_roundTrips
  apply variants_roundTrip
  intro value
  cases value with
  | getLatestBuild content =>
    exact ⟨0, _, _, rfl, by decide, rfl, reader_roundTrips request_roundTrips _ content⟩
  | latestBuild content =>
    exact ⟨1, _, _, rfl, by decide, rfl, reader_roundTrips response_roundTrips _ content⟩
  | error code content =>
    exact ⟨2, _, _, rfl, by decide, rfl, reader_roundTrips report _ (code, content)⟩
  | ping number => exact ⟨3, _, _, rfl, by decide, rfl, reader_roundTrips uint64_roundTrips _ number⟩
  | pong number => exact ⟨4, _, _, rfl, by decide, rfl, reader_roundTrips uint64_roundTrips _ number⟩

end BuildDelivery.Wire
