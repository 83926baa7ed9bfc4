import BuildDelivery.Fingerprint
import BuildDelivery.Proofs.Manifest.Listing

/-! What the stream behind a checksum tells. Every listed block can be cut off the front of the
stream, since its one part of varying length stands behind its length, and what stands behind
the last block is shorter than any block. So the stream tells the listing, in whatever order and
with whatever repetitions it lists, and the listing of a manifest tells the manifest. -/

set_option autoImplicit false

namespace BuildDelivery

namespace LittleEndian

theorem eq_of_encode {width left right : Nat} (fitsLeft : left < capacity width)
    (fitsRight : right < capacity width) (same : encode width left = encode width right) :
    left = right := by
  rw [← decode_encode fitsLeft, same, decode_encode fitsRight]

theorem eq_of_decode {left right : Bytes} (lengths : left.length = right.length)
    (same : decode left = decode right) : left = right := by
  rw [← encode_decode left, lengths, same, encode_decode]

end LittleEndian

namespace Listing

/-- The length of every path fits the eight bytes that tell it. -/
def Measured (listing : Listing) : Prop :=
  ∀ entry ∈ listing.blocks, entry.1.path.utf8ByteSize < LittleEndian.capacity 8

theorem length_blockBytes (entry : Location × Block) :
    (blockBytes entry).length = entry.1.path.utf8ByteSize + 48 := by
  simp only [blockBytes, List.length_append, LittleEndian.length_encode, Utf8.length_encode,
    entry.2.hash.length_bytes]
  omega

/-- A block at the front of bytes is told from what follows it. -/
theorem blockBytes_append_inj {left right : Location × Block} {behindLeft behindRight : Bytes}
    (measuredLeft : left.1.path.utf8ByteSize < LittleEndian.capacity 8)
    (measuredRight : right.1.path.utf8ByteSize < LittleEndian.capacity 8)
    (same : blockBytes left ++ behindLeft = blockBytes right ++ behindRight) :
    left = right ∧ behindLeft = behindRight := by
  obtain ⟨⟨path, index⟩, ⟨⟨hash, length⟩, size⟩⟩ := left
  obtain ⟨⟨path', index'⟩, ⟨⟨hash', length'⟩, size'⟩⟩ := right
  simp only [blockBytes, List.append_assoc] at measuredLeft measuredRight same
  obtain ⟨lengths, rest⟩ := List.append_inj same (by simp only [LittleEndian.length_encode])
  have asLong := LittleEndian.eq_of_encode measuredLeft measuredRight lengths
  -- From here on every part is as long on the left as on the right.
  obtain ⟨paths, rest⟩ := List.append_inj rest (by simp only [Utf8.length_encode, asLong])
  obtain ⟨indices, rest⟩ := List.append_inj rest (by simp only [LittleEndian.length_encode])
  obtain ⟨hashes, rest⟩ := List.append_inj rest (length.trans length'.symm)
  obtain ⟨sizes, behind⟩ := List.append_inj rest (by simp only [LittleEndian.length_encode])
  obtain rfl := Utf8.encode_injective paths
  obtain rfl := UInt32.toNat_inj.mp
    (LittleEndian.eq_of_encode index.toNat_lt index'.toNat_lt indices)
  obtain rfl := UInt32.toNat_inj.mp (LittleEndian.eq_of_encode size.toNat_lt size'.toNat_lt sizes)
  obtain rfl := hashes
  exact ⟨rfl, behind⟩

/-- Blocks in a row are told from a trailer of eight bytes, which no block is as short as. -/
theorem eq_of_flatMap_blockBytes {left right : List (Location × Block)} {last last' : Bytes}
    (measuredLeft : ∀ entry ∈ left, entry.1.path.utf8ByteSize < LittleEndian.capacity 8)
    (measuredRight : ∀ entry ∈ right, entry.1.path.utf8ByteSize < LittleEndian.capacity 8)
    (eight : last.length = 8) (eight' : last'.length = 8)
    (same : left.flatMap blockBytes ++ last = right.flatMap blockBytes ++ last') :
    left = right := by
  induction left generalizing right with
  | nil =>
    cases right with
    | nil => rfl
    | cons entry rest =>
      have lengths := congrArg List.length same
      simp only [List.flatMap_nil, List.nil_append, List.flatMap_cons, List.length_append,
        length_blockBytes] at lengths
      omega
  | cons entry rest step =>
    cases right with
    | nil =>
      have lengths := congrArg List.length same
      simp only [List.flatMap_nil, List.nil_append, List.flatMap_cons, List.length_append,
        length_blockBytes] at lengths
      omega
    | cons entry' rest' =>
      rw [List.forall_mem_cons] at measuredLeft measuredRight
      rw [List.flatMap_cons, List.flatMap_cons, List.append_assoc, List.append_assoc] at same
      obtain ⟨first, later⟩ := blockBytes_append_inj measuredLeft.1 measuredRight.1 same
      rw [first, step measuredLeft.2 measuredRight.2 later]

theorem eq_of_stream {left right : Listing} (measuredLeft : left.Measured)
    (measuredRight : right.Measured) (same : left.stream = right.stream) : left = right := by
  obtain ⟨size, blocks⟩ := left
  obtain ⟨size', blocks'⟩ := right
  simp only [stream, List.append_assoc] at same
  obtain ⟨sizes, records⟩ := List.append_inj
    (List.append_cancel_left (List.append_cancel_left same))
    (by simp only [LittleEndian.length_encode])
  obtain rfl := UInt32.toNat_inj.mp (LittleEndian.eq_of_encode size.toNat_lt size'.toNat_lt sizes)
  obtain rfl := eq_of_flatMap_blockBytes measuredLeft measuredRight
    (LittleEndian.length_encode 8 blocks.length) (LittleEndian.length_encode 8 blocks'.length)
    records
  rfl

/-- Two byte strings that a digest of eight bytes does not tell apart. -/
def Collide (left right : Bytes) : Prop :=
  left ≠ right ∧ (Blake3.digest left).take 8 = (Blake3.digest right).take 8

theorem checksum_eq_iff {left right : Listing} :
    left.checksum = right.checksum ↔
      (Blake3.digest left.stream).take 8 = (Blake3.digest right.stream).take 8 := by
  have eight (listing : Listing) : ((Blake3.digest listing.stream).take 8).length = 8 := by
    rw [List.length_take, Blake3.length_digest]
    rfl
  have fits (listing : Listing) :
      LittleEndian.decode ((Blake3.digest listing.stream).take 8) < 2 ^ 64 := by
    have bound := LittleEndian.decode_lt ((Blake3.digest listing.stream).take 8)
    rwa [eight] at bound
  constructor
  · intro same
    have numbers := congrArg (fun checksum => checksum.value.toNat) same
    simp only [checksum, UInt64.toNat_ofNat', Nat.mod_eq_of_lt (fits _)] at numbers
    exact LittleEndian.eq_of_decode ((eight left).trans (eight right).symm) numbers
  · intro same
    simp only [checksum, same]

end Listing

namespace Manifest

/-- The listing of a valid manifest tells the manifest. -/
theorem eq_of_listing {left right : Manifest} (validLeft : left.Valid)
    (addressableLeft : left.Addressable) (validRight : right.Valid)
    (addressableRight : right.Addressable) (same : left.listing = right.listing) :
    left = right := by
  have sizes : left.maxBlockSize = right.maxBlockSize := congrArg Listing.maxBlockSize same
  refine eq_of_file? sizes fun path => ?_
  apply file?_eq_of_block? validLeft addressableLeft validRight addressableRight
  intro index
  rw [← block?_listing addressableLeft, ← block?_listing addressableRight, same]

end Manifest

namespace Listing

/-- The stream of a listing tells its block size and every block it lists, in order. Hence two
manifests that keep the rules have different streams unless they are equal, and their checksums
agree only if the streams collide. -/
theorem stream_injective :
    (∀ left right : Listing, left.Measured → right.Measured → left.stream = right.stream →
      left.maxBlockSize = right.maxBlockSize ∧ left.blocks = right.blocks) ∧
    ∀ left right : Manifest,
      left.check = .ok () → left.Addressable → left.listing.Measured →
      right.check = .ok () → right.Addressable → right.listing.Measured →
      left ≠ right → left.listing.stream ≠ right.listing.stream ∧
        (left.checksum = right.checksum ↔ Collide left.listing.stream right.listing.stream) := by
  constructor
  · intro left right measuredLeft measuredRight same
    obtain rfl := eq_of_stream measuredLeft measuredRight same
    exact ⟨rfl, rfl⟩
  · intro left right checkedLeft addressableLeft measuredLeft checkedRight addressableRight
      measuredRight different
    have apart : left.listing.stream ≠ right.listing.stream := fun same =>
      different (Manifest.eq_of_listing (Manifest.check_eq_ok_iff.mp checkedLeft) addressableLeft
        (Manifest.check_eq_ok_iff.mp checkedRight) addressableRight
        (eq_of_stream measuredLeft measuredRight same))
    exact ⟨apart, checksum_eq_iff.trans (and_iff_right apart).symm⟩

/-- Two blocks of one location, with a path that looks like the front of another block. -/
def doubled : Listing where
  maxBlockSize := smallestBlockSize
  blocks := [(⟨"\x01\x00\x00\x00\x00\x00\x00\x00a", 1⟩, .uniform 1),
    (⟨"\x01\x00\x00\x00\x00\x00\x00\x00a", 1⟩, .uniform 2)]

theorem stream_of_doubled :
    doubled.stream ≠ (mk doubled.maxBlockSize doubled.blocks.reverse).stream ∧
      Manifest.firstEdition.listing.stream ≠ Manifest.secondEdition.listing.stream ∧
      ¬Collide Manifest.firstEdition.listing.stream Manifest.secondEdition.listing.stream := by
  have measured : doubled.Measured := by
    unfold Measured
    decide +kernel
  have reversed : (mk doubled.maxBlockSize doubled.blocks.reverse).Measured := fun entry member =>
    measured entry (List.mem_reverse.mp member)
  have first : Manifest.firstEdition.listing.Measured := by
    unfold Measured
    decide +kernel
  have second : Manifest.secondEdition.listing.Measured := by
    unfold Measured
    decide +kernel
  obtain ⟨listings, manifests⟩ := stream_injective
  have editions := manifests Manifest.firstEdition Manifest.secondEdition (by decide +kernel)
    Manifest.addressable_firstEdition first (by decide +kernel)
    Manifest.addressable_secondEdition second (by decide +kernel)
  refine ⟨fun same => ?_, editions.1, fun collide => ?_⟩
  · exact absurd (listings _ _ measured reversed same).2 (by decide +kernel)
  · exact absurd (editions.2.mpr collide) (by decide +kernel)

end Listing

end BuildDelivery
