import BuildDelivery.Proofs.Manifest.Valid
import BuildDelivery.Proofs.Wire.Canonical
import BuildDelivery.Proofs.Wire.Payload
import BuildDelivery.Wire.Frame
import Mathlib.Control.Monad.Basic

/-! What the bytes of a message can be. Only the files of a manifest may be listed in more than
one way: in any order, and one path several times, of which the last counts. Everything else has
one form, whoever wrote it, and all that is ignored are bytes behind that form. -/

set_option autoImplicit false

namespace BuildDelivery

/-- The block size of a manifest and its files as they follow one another in the bytes. -/
def Wire.fileRow : Wire.Format (UInt32 × List (String × List Block)) :=
  .pair .uint32 (.list (.pair .text (.list Wire.block)))

namespace Manifest

/-- Bytes that list the files of a manifest in any order. Of several with one path the manifest
has the last. -/
def HasForm (manifest : Manifest) (form : Bytes) : Prop :=
  ∃ files : List (String × List Block),
    form = Wire.fileRow.encode (manifest.maxBlockSize, files) ∧
      ∀ path, manifest.file? path = files.reverse.lookup path

/-- Entries that are inserted one after another replace each other and what was there. -/
theorem getElem?_insertMany (files : Std.ExtTreeMap String (List Block))
    (entries : List (String × List Block)) (path : String) :
    (files.insertMany entries)[path]? = (entries.reverse.lookup path).or files[path]? := by
  induction entries generalizing files with
  | nil => simp
  | cons entry later step =>
    obtain ⟨name, blocks⟩ := entry
    rw [Std.ExtTreeMap.insertMany_cons, step, List.reverse_cons, List.lookup_append, Option.or_assoc]
    congr 1
    by_cases here : name = path
    · simp [here]
    · have apart : compare name path ≠ .eq := fun same => here (Std.LawfulEqOrd.eq_of_compare same)
      have other : (path == name) = false := beq_eq_false_iff_ne.mpr (Ne.symm here)
      simp [Std.ExtTreeMap.getElem?_insert, apart, List.lookup_cons, other]

theorem getElem?_ofList (entries : List (String × List Block)) (path : String) :
    (Std.ExtTreeMap.ofList entries)[path]? = entries.reverse.lookup path := by
  rw [Std.ExtTreeMap.ofList_eq_insertMany_empty, getElem?_insertMany]
  simp

theorem mem_of_mem_ofList {entries : List (String × List Block)} {entry : String × List Block}
    (member : entry ∈ (Std.ExtTreeMap.ofList entries).toList) : entry ∈ entries := by
  have found := Std.ExtTreeMap.mem_toList_iff_getElem?_eq_some.mp member
  rw [getElem?_ofList, List.lookup_eq_some_iff] at found
  obtain ⟨before, behind, split, -⟩ := found
  rw [← List.mem_reverse, split]
  simp

end Manifest

/-- The forms of a payload, which has more than one only if it is a manifest. -/
def Payload.HasForm : Payload → Bytes → Prop
  | .manifest content, form => ∃ inner, content.HasForm inner ∧ form = Wire.Format.encodeVariant 1 inner
  | payload, form => form = Wire.payload.encode payload

namespace Response

def HasForm (response : Response) (form : Bytes) : Prop :=
  ∃ inner, response.payload.HasForm inner ∧
    form = Wire.buildId.encode response.build ++ (Wire.checksum.encode response.checksum ++ inner)

/-- The manifest that a response carries as a whole. -/
def manifest? (response : Response) : Option Manifest :=
  match response.payload with
  | .manifest content => some content
  | _ => none

theorem HasForm.eq_toBytes {response : Response} {form : Bytes} (formed : response.HasForm form)
    (bare : response.manifest? = none) : form = response.toBytes := by
  obtain ⟨build, checksum, payload⟩ := response
  obtain ⟨inner, formed, rfl⟩ := formed
  cases payload with
  | manifest content => cases bare
  | upToDate =>
    cases formed
    rfl
  | delta content =>
    cases formed
    rfl

end Response

namespace Message

def HasForm : Message → Bytes → Prop
  | .latestBuild response, form =>
    ∃ inner, response.HasForm inner ∧ form = Wire.Format.encodeVariant 1 inner
  | message, form => form = message.toBytes

/-- The manifest that a message carries as a whole. -/
def manifest? : Message → Option Manifest
  | .latestBuild response => response.manifest?
  | _ => none

theorem HasForm.eq_toBytes {message : Message} {form : Bytes} (formed : message.HasForm form)
    (bare : message.manifest? = none) : form = message.toBytes := by
  cases message with
  | latestBuild response =>
    obtain ⟨inner, formed, rfl⟩ := formed
    rw [formed.eq_toBytes bare]
    rfl
  | getLatestBuild request => exact formed
  | error code text => exact formed
  | ping number => exact formed
  | pong number => exact formed

end Message

namespace Wire

open Format

theorem blockHash_canonical : blockHash.Canonical :=
  via_canonical (fixed_canonical 32) fun _ => rfl

theorem block_canonical : block.Canonical :=
  via_canonical (pair_canonical blockHash_canonical uint32_canonical) fun _ => rfl

theorem location_canonical : location.Canonical :=
  via_canonical (pair_canonical text_canonical uint32_canonical) fun _ => rfl

theorem checksum_canonical : checksum.Canonical := via_canonical uint64_canonical fun _ => rfl

theorem buildId_canonical : buildId.Canonical := via_canonical octets_canonical fun _ => rfl

theorem operation_canonical : operation.Canonical := by
  have placed := pair_canonical location_canonical block_canonical
  apply variants_accept
  intro tag read place
  match tag, place with
  | 0, rfl => exact reader_canonical placed (fun _ => rfl) fun _ => rfl
  | 1, rfl => exact reader_canonical location_canonical (fun _ => rfl) fun _ => rfl
  | 2, rfl => exact reader_canonical placed (fun _ => rfl) fun _ => rfl

theorem delta_canonical : delta.Canonical :=
  via_canonical (pair_canonical uint32_canonical (pair_canonical checksum_canonical
    (pair_canonical checksum_canonical (list_canonical operation_canonical)))) fun _ => rfl

theorem target_canonical : target.Canonical := by
  apply variants_accept
  intro tag read place bytes value rest found
  have numbered : value.index = tag ∧ bytes = rest ∧ ∀ other, read other = .ok (value, other) := by
    match tag, place with
    | 0, rfl | 1, rfl | 2, rfl | 3, rfl | 4, rfl | 5, rfl =>
      cases found
      exact ⟨rfl, rfl, fun _ => rfl⟩
  obtain ⟨rfl, rfl, back⟩ := numbered
  exact ⟨⟨[], rfl, back⟩, [], rfl, rfl⟩

theorem request_canonical : request.Canonical :=
  via_canonical (pair_canonical (via_canonical uint64_canonical fun _ => rfl)
    (pair_canonical (list_canonical target_canonical) (option_canonical buildId_canonical)))
    fun _ => rfl

theorem file_canonical : (pair text (list block)).Canonical :=
  pair_canonical text_canonical (list_canonical block_canonical)

/-- Whatever the order of the files and however often a path comes, the manifest that was read is
written with its files in order and read back. -/
theorem manifest_accepts : manifest.Accepts Manifest.HasForm := by
  intro bytes value rest read
  obtain ⟨⟨⟨size, files⟩, behind⟩, found, same⟩ := map_eq_ok_iff.mp read
  cases same
  obtain ⟨-, _, ⟨front, _, rfl, ⟨⟨fits, each⟩, rfl⟩, rfl⟩, split⟩ :=
    pair_accepts uint32_canonical (list_accepts file_canonical) found
  -- The map has entries of the row only, and no more of them.
  have fewer : (Std.ExtTreeMap.ofList files).toList.length < LittleEndian.capacity 8 := by
    rw [Std.ExtTreeMap.length_toList]
    exact Nat.lt_of_le_of_lt Std.ExtTreeMap.size_ofList_le fits
  have row : fileRow.ReadsBack (size, (Std.ExtTreeMap.ofList files).toList) :=
    readsBack_pair (uint32_readsBack size)
      (readsBack_list (fun entry member => each entry (Manifest.mem_of_mem_ofList member)) fewer)
  refine ⟨readsBack_via row ?_, _, ⟨files, rfl, Manifest.getElem?_ofList files⟩, split⟩
  simp only [ofList_toList]

theorem payload_accepts : payload.Accepts Payload.HasForm := by
  apply variants_accept
  intro tag read place
  match tag, place with
  | 0, rfl =>
    rintro bytes value rest ⟨⟩
    exact ⟨⟨[], rfl, fun _ => rfl⟩, [], rfl, rfl⟩
  | 1, rfl =>
    exact reader_accepts manifest_accepts (fun _ => rfl) fun _ inner formed => ⟨inner, formed, rfl⟩
  | 2, rfl => exact reader_canonical delta_canonical (fun _ => rfl) fun _ => rfl

theorem response_accepts : response.Accepts Response.HasForm := by
  have parts := pair_accepts buildId_canonical (pair_accepts checksum_canonical payload_accepts)
  refine (via_accepts parts fun _ _ _ => rfl).mono ?_
  rintro value form ⟨_, _, rfl, ⟨_, inner, rfl, formed, rfl⟩, rfl⟩
  exact ⟨inner, formed, rfl⟩

theorem message_accepts : message.Accepts Message.HasForm := by
  have report := pair_canonical uint32_canonical text_canonical
  apply variants_accept
  intro tag read place
  match tag, place with
  | 0, rfl => exact reader_canonical request_canonical (fun _ => rfl) fun _ => rfl
  | 1, rfl =>
    exact reader_accepts response_accepts (fun _ => rfl) fun _ inner formed => ⟨inner, formed, rfl⟩
  | 2, rfl => exact reader_canonical report (fun _ => rfl) fun _ => rfl
  | 3, rfl => exact reader_canonical uint64_canonical (fun _ => rfl) fun _ => rfl
  | 4, rfl => exact reader_canonical uint64_canonical (fun _ => rfl) fun _ => rfl

section
variable {α : Type} {format : Format α} {forms : α → Bytes → Prop} {bytes : Bytes} {value : α}

/-- The front of what was read is a form of the value, and what follows the written form is never
looked at. -/
theorem front_of_accepts (accepts : format.Accepts forms)
    (read : format.decodeFront bytes = .ok value) :
    (∃ form, forms value form ∧ form <+: bytes) ∧
      ∀ rest, format.decodeFront (format.encode value ++ rest) = .ok value := by
  obtain ⟨rest, found⟩ := decodeFront_eq_ok_iff.mp read
  obtain ⟨back, form, formed, rfl⟩ := accepts found
  exact ⟨⟨form, formed, List.prefix_append form rest⟩, back.decodeFront⟩

theorem front_of_canonical (canonical : format.Canonical)
    (read : format.decodeFront bytes = .ok value) :
    format.encode value <+: bytes ∧
      ∀ rest, format.decodeFront (format.encode value ++ rest) = .ok value := by
  obtain ⟨⟨_, rfl, front⟩, back⟩ := front_of_accepts canonical read
  exact ⟨front, back⟩

end

/-- Deltas, requests and whatever carries no manifest are read only from their own written form.
A manifest is read from its files in any order, the last of a path counting; and everything that
was read is written and read again as it is. -/
theorem canonical_decoding (bytes : Bytes) :
    (∀ value, delta.decodeFront bytes = .ok value →
      delta.encode value <+: bytes ∧
        ∀ rest, delta.decodeFront (delta.encode value ++ rest) = .ok value) ∧
    (∀ value, request.decodeFront bytes = .ok value →
      request.encode value <+: bytes ∧
        ∀ rest, request.decodeFront (request.encode value ++ rest) = .ok value) ∧
    (∀ manifest, Manifest.ofBytes bytes = .ok manifest →
      (∃ form, manifest.HasForm form ∧ form <+: bytes) ∧
        ∀ rest, Manifest.ofBytes (manifest.toBytes ++ rest) = .ok manifest) ∧
    (∀ response, Response.ofBytes bytes = .ok response →
      (response.manifest? = none → response.toBytes <+: bytes) ∧
      (∃ form, response.HasForm form ∧ form <+: bytes) ∧
        ∀ rest, Response.ofBytes (response.toBytes ++ rest) = .ok response) ∧
    (∀ message, Message.ofBytes bytes = .ok message →
      (message.manifest? = none → message.toBytes <+: bytes) ∧
      (∃ form, message.HasForm form ∧ form <+: bytes) ∧
        ∀ rest, Message.ofBytes (message.toBytes ++ rest) = .ok message) := by
  refine ⟨fun value => front_of_canonical delta_canonical,
    fun value => front_of_canonical request_canonical,
    fun manifest => front_of_accepts manifest_accepts, ?_, ?_⟩
  · intro response read
    obtain ⟨⟨form, formed, front⟩, back⟩ :=
      front_of_accepts response_accepts (mapError_eq_ok_iff.mp read)
    refine ⟨fun bare => ?_, ⟨form, formed, front⟩, fun rest => mapError_eq_ok_iff.mpr (back rest)⟩
    exact formed.eq_toBytes bare ▸ front
  · intro message read
    obtain ⟨⟨form, formed, front⟩, back⟩ :=
      front_of_accepts message_accepts (mapError_eq_ok_iff.mp read)
    refine ⟨fun bare => ?_, ⟨form, formed, front⟩, fun rest => mapError_eq_ok_iff.mpr (back rest)⟩
    exact formed.eq_toBytes bare ▸ front

/-- A file that is listed twice, the second time with another block, and a byte behind the list. -/
def listedTwice : Bytes :=
  fileRow.encode (smallestBlockSize, [("a", [.uniform 1]), ("a", [.uniform 2])]) ++ [9]

def listedLast : Manifest := (Manifest.empty smallestBlockSize).setFile "a" [.uniform 2]

/-- A response that conveys the manifest by that list. -/
def listedResponse : Bytes :=
  buildId.encode ⟨[1]⟩ ++ checksum.encode ⟨3⟩ ++ encodeVariant 1 listedTwice

def removal : Delta := ⟨smallestBlockSize, ⟨3⟩, ⟨4⟩, [.remove ⟨"a", 0⟩]⟩

def inquiry : Request := ⟨⟨7⟩, [.linuxX64], some ⟨[1]⟩⟩

theorem canonical_decoding_of_listed :
    (delta.decodeFront (delta.encode removal ++ [9]) = .ok removal ∧
      ∀ rest, delta.decodeFront (delta.encode removal ++ rest) = .ok removal) ∧
    (request.decodeFront (request.encode inquiry ++ [9]) = .ok inquiry ∧
      ∀ rest, request.decodeFront (request.encode inquiry ++ rest) = .ok inquiry) ∧
    (Manifest.ofBytes listedTwice = .ok listedLast ∧
      (∃ form, listedLast.HasForm form ∧ form <+: listedTwice) ∧
      ∀ rest, Manifest.ofBytes (listedLast.toBytes ++ rest) = .ok listedLast) ∧
    (Response.ofBytes listedResponse = .ok ⟨⟨[1]⟩, ⟨3⟩, .manifest listedLast⟩ ∧
      ∃ form, (Response.mk ⟨[1]⟩ ⟨3⟩ (.manifest listedLast)).HasForm form ∧
        form <+: listedResponse) ∧
    (Message.ofBytes ((Message.ping 5).toBytes ++ [9]) = .ok (.ping 5) ∧
      (Message.ping 5).toBytes <+: (Message.ping 5).toBytes ++ [9] ∧
      ∀ rest, Message.ofBytes ((Message.ping 5).toBytes ++ rest) = .ok (.ping 5)) := by
  have read : delta.decodeFront (delta.encode removal ++ [9]) = .ok removal := by decide +kernel
  have asked : request.decodeFront (request.encode inquiry ++ [9]) = .ok inquiry := by
    decide +kernel
  have listed : Manifest.ofBytes listedTwice = .ok listedLast := by decide +kernel
  have conveyed : Response.ofBytes listedResponse = .ok ⟨⟨[1]⟩, ⟨3⟩, .manifest listedLast⟩ := by
    decide +kernel
  have called : Message.ofBytes ((Message.ping 5).toBytes ++ [9]) = .ok (.ping 5) := by
    decide +kernel
  refine ⟨⟨read, ?_⟩, ⟨asked, ?_⟩, ⟨listed, ?_⟩, ⟨conveyed, ?_⟩, called, ?_⟩
  · exact ((canonical_decoding _).1 removal read).2
  · exact ((canonical_decoding _).2.1 inquiry asked).2
  · exact (canonical_decoding _).2.2.1 listedLast listed
  · exact ((canonical_decoding _).2.2.2.1 _ conveyed).2.1
  · obtain ⟨front, -, back⟩ := (canonical_decoding _).2.2.2.2 (.ping 5) called
    exact ⟨front rfl, back⟩

end Wire

end BuildDelivery
