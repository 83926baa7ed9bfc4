import BuildDelivery.Proofs.Catalog.Directory
import BuildDelivery.Proofs.Path.Joining
import BuildDelivery.Proofs.Text.Hex

/-! The names of things as text, and of files. A build and a block have one name in hexadecimal, which
is read in any case and written in lower case, and a checksum is read from its sixteen digits. So a
directory keeps different builds in different files, each under one name of its own in the directory
of builds, whatever bytes the id of a build has. -/

set_option autoImplicit false

namespace BuildDelivery

/-- A name in hexadecimal: it is read back, only legal texts are read, and the text that was read is
the name but for its case. -/
structure InHex {α : Type} (write : α → String) (read : String → Except Failure α)
    (legal : String → Prop) : Prop where
  readsBack : ∀ value, read (write value) = .ok value
  accepted : ∀ text, (∃ value, read text = .ok value) ↔
    legal text ∧ ∀ character ∈ text.toList, Hex.IsDigit character
  lowered : ∀ text value, read text = .ok value → write value = text.toLower

namespace BuildId

theorem read_eq_ok_iff {text : String} {id : BuildId} :
    read text = .ok id ↔ Hex.Spells text id.bytes := by
  rw [read, mapError_eq_ok_iff, ofHex, map_eq_ok_iff, ← Hex.decode_eq_ok_iff]
  exact ⟨fun ⟨_, found, same⟩ => same ▸ found, fun found => ⟨id.bytes, found, rfl⟩⟩

theorem inHex : InHex toHex read fun text => text.length % 2 = 0 where
  readsBack id := read_eq_ok_iff.mpr (Hex.spells_encode id.bytes)
  accepted text := by
    rw [← Hex.exists_spells_iff]
    exact ⟨fun ⟨id, found⟩ => ⟨id.bytes, read_eq_ok_iff.mp found⟩,
      fun ⟨bytes, spells⟩ => ⟨⟨bytes⟩, read_eq_ok_iff.mpr spells⟩⟩
  lowered text id found := (read_eq_ok_iff.mp found).encode_eq

theorem toHex_injective {id other : BuildId} (same : id.toHex = other.toHex) : id = other := by
  have found := inHex.readsBack id
  rw [same, inHex.readsBack other] at found
  exact (Except.ok.inj found).symm

end BuildId

namespace BlockHash

theorem read_eq_ok_iff {text : String} {hash : BlockHash} :
    read text = .ok hash ↔ Hex.Spells text hash.bytes := by
  have digits : Hex.decodeExactly 32 text = .ok hash.bytes ↔ Hex.Spells text hash.bytes :=
    Hex.decodeExactly_eq_ok_iff.trans (and_iff_left hash.length_bytes)
  rw [read, mapError_eq_ok_iff, ← digits, ofHex]
  obtain ⟨content, size⟩ := hash
  split
  · next bytes found =>
    rw [Except.ok.injEq, BlockHash.mk.injEq]
    exact ⟨fun same => found.trans (congrArg Except.ok same),
      fun again => Except.ok.inj (found.symm.trans again)⟩
  · next fault refused => exact iff_of_false nofun fun found => nomatch refused.symm.trans found

theorem inHex : InHex toHex read fun text => text.length = 64 where
  readsBack hash := read_eq_ok_iff.mpr (Hex.spells_encode hash.bytes)
  accepted text := by
    constructor
    · rintro ⟨hash, found⟩
      have spells := read_eq_ok_iff.mp found
      exact ⟨by rw [spells.length, hash.length_bytes], (Hex.exists_spells_iff.mp ⟨_, spells⟩).2⟩
    · rintro ⟨size, digits⟩
      obtain ⟨bytes, spells⟩ := Hex.exists_spells_iff.mpr ⟨by rw [size], digits⟩
      have count : bytes.length = 32 := by
        have := spells.length
        omega
      exact ⟨⟨bytes, count⟩, read_eq_ok_iff.mpr spells⟩
  lowered text hash found := (read_eq_ok_iff.mp found).encode_eq

end BlockHash

namespace Checksum

theorem length_toText (checksum : Checksum) : checksum.toText.length = 16 := by
  rw [toText, String.length_ofList, Numeral.length_padded]

theorem read_toText (checksum : Checksum) : read checksum.toText = .ok checksum := by
  have number : Numeral.read 16 (Numeral.capacity 64) checksum.toText = .ok checksum.value.toNat :=
    Numeral.read_padded (by decide) (by decide) (by decide) checksum.value.toNat_lt
      checksum.value.toNat_lt
  rw [read, number]
  simp [Except.map, Except.mapError]

end Checksum

namespace DirectoryCatalog

/-- The name of the file that holds the manifest of a build. -/
def fileName (id : BuildId) : String := id.toHex ++ ".manifest"

theorem toList_fileName (id : BuildId) :
    (fileName id).toList = id.toHex.toList ++ ".manifest".toList := String.toList_append

theorem isDigit_of_mem_toHex (id : BuildId) : ∀ character ∈ id.toHex.toList, Hex.IsDigit character :=
  ((BuildId.inHex.accepted _).mp ⟨id, BuildId.inHex.readsBack id⟩).2

theorem fileName_injective {id other : BuildId} (same : fileName id = fileName other) : id = other := by
  have characters := congrArg String.toList same
  rw [toList_fileName, toList_fileName] at characters
  exact BuildId.toHex_injective (String.toList_inj.mp (List.append_cancel_right characters))

theorem notMem_fileName {character : Char} (other : ¬Hex.IsDigit character)
    (apart : character ∉ ".manifest".toList) (id : BuildId) : character ∉ (fileName id).toList := by
  rw [toList_fileName, List.mem_append, not_or]
  exact ⟨mt (isDigit_of_mem_toHex id character) other, apart⟩

theorem notMem_slash (id : BuildId) : '/' ∉ (fileName id).toList :=
  notMem_fileName (by decide) (by decide) id

theorem isPlain_fileName (id : BuildId) : Path.IsPlain (fileName id) where
  proper := Path.isProper_of_length (by
    rw [toList_fileName, List.length_append]
    exact Nat.lt_of_lt_of_le (by decide) (Nat.le_add_left _ _))
  withoutBackslash := notMem_fileName (by decide) (by decide) id
  withoutNul := notMem_fileName (by decide) (by decide) id

/-- The file is in the directory of builds, under one name. -/
theorem components_manifestPath (catalog : DirectoryCatalog) (id : BuildId) :
    Path.components (catalog.manifestPath id) = Path.way catalog.root ++ ["builds", fileName id] := by
  have builds : '/' ∉ "builds".toList := by decide
  have named := Path.isNormal_of_isPlain (notMem_slash id) (isPlain_fileName id)
  have joined := Path.components_join named (Path.join catalog.root "builds")
  rw [Path.way_join (Path.isNormal_of_isPlain builds (by decide)), Path.components_of_notMem builds,
    Path.components_of_notMem (notMem_slash id), List.append_assoc] at joined
  exact joined

theorem utf8ByteSize_fileName (id : BuildId) :
    (fileName id).utf8ByteSize = 2 * id.bytes.length + 9 := by
  rw [fileName, String.utf8ByteSize_append]
  exact congrArg (· + 9) (Hex.spells_encode id.bytes).length_encode

end DirectoryCatalog

open DirectoryCatalog

/-- Builds, blocks and checksums are read back from their texts. So different builds have files of
different names, each one name in the directory of builds; and where a catalog looks for a build, this
name is short. -/
theorem distinct_names :
    InHex BuildId.toHex BuildId.read (fun text => text.length % 2 = 0) ∧
    InHex BlockHash.toHex BlockHash.read (fun text => text.length = 64) ∧
    (∀ checksum : Checksum, checksum.toText.length = 16 ∧
      Checksum.read checksum.toText = .ok checksum) ∧
    (∀ id other, fileName id = fileName other → id = other) ∧
    ∀ (catalog : DirectoryCatalog) (id : BuildId),
      Path.components (catalog.manifestPath id) = Path.way catalog.root ++ ["builds", fileName id] ∧
      (∀ character ∈ id.toHex.toList, Hex.IsDigit character) ∧
      (Filed id → (fileName id).utf8ByteSize ≤ 137) ∧
      (¬Filed id → ∀ disk, catalog.byId disk id = (.ok none, catalog)) := by
  refine ⟨BuildId.inHex, BlockHash.inHex, fun checksum => ⟨checksum.length_toText, checksum.read_toText⟩,
    fun id other => fileName_injective, fun catalog id => ⟨components_manifestPath catalog id,
      isDigit_of_mem_toHex id, fun filed => ?_, fun unfiled disk => byId_of_unfiled unfiled catalog disk⟩⟩
  have few : id.bytes.length ≤ 64 := filed.2
  rw [utf8ByteSize_fileName]
  omega

/-- A build id of the greatest length that has a file. -/
def longestId : BuildId := ⟨List.replicate 64 0xAB⟩

theorem distinct_names_longest :
    BuildId.read "DeadBeef" = .ok ⟨[0xde, 0xad, 0xbe, 0xef]⟩ ∧
      BuildId.toHex ⟨[0xde, 0xad, 0xbe, 0xef]⟩ = "DeadBeef".toLower ∧
    (¬∃ id, BuildId.read "DeadBee" = .ok id) ∧ (¬∃ id, BuildId.read "+1" = .ok id) ∧
    (Filed longestId ∧ (fileName longestId).utf8ByteSize ≤ 137 ∧ fileName longestId ≠ fileName ⟨[0xAB]⟩) ∧
    ¬Filed ⟨0 :: longestId.bytes⟩ ∧ ∀ disk catalog,
      DirectoryCatalog.byId catalog disk ⟨0 :: longestId.bytes⟩ = (.ok none, catalog) := by
  obtain ⟨builds, -, -, distinct, files⟩ := distinct_names
  have found : BuildId.read "DeadBeef" = .ok ⟨[0xde, 0xad, 0xbe, 0xef]⟩ := by decide +kernel
  have filed : Filed longestId := by decide
  have unfiled : ¬Filed ⟨0 :: longestId.bytes⟩ := by decide
  refine ⟨found, builds.lowered _ _ found, fun read => ?_, fun read => ?_,
    ⟨filed, (files ⟨"", ∅⟩ longestId).2.2.1 filed, fun same => ?_⟩, unfiled,
    fun disk catalog => (files catalog _).2.2.2 unfiled disk⟩
  · exact absurd ((builds.accepted _).mp read).1 (by decide)
  · exact absurd (((builds.accepted _).mp read).2 '+' (by decide)) (by decide)
  · exact absurd (distinct _ _ same) (by decide)

end BuildDelivery
