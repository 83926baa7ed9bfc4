import BuildDelivery.Proofs.Delta.RoundTrip
import BuildDelivery.Proofs.Installation.Scan

/-! Checking an installation against a build. The build was scanned from one directory and is
checked against another; what comes out leads from what is there to the build. Equal hashes of
equally many pieces mean equal files as long as no two pieces share a hash, so nothing is found
exactly where the files with content are the same. -/

set_option autoImplicit false

namespace BuildDelivery

namespace FileTree

variable {tree other : FileTree} {root root' : String} {size : UInt32}
  {manifest installed : Manifest} {names : List String} {content : Bytes}

/-- A directory whose files have plain names and no more blocks of a size than there are indices. -/
structure Scannable (tree : FileTree) (root : String) (size : UInt32) : Prop where
  whole : tree.Avoids '/'
  directory : tree.inspect root = .ok .directory
  plain : ∀ names content, tree.HasFile root names content → ∀ name ∈ names, Path.IsPlain name
  short : ∀ names content, tree.HasFile root names content →
    (Block.row size content).length < Numeral.capacity 32

/-- The same files with content below two directories, each with the same bytes. -/
def SameContent (tree : FileTree) (root : String) (other : FileTree) (root' : String) : Prop :=
  ∀ names content, content ≠ [] →
    (tree.HasFile root names content ↔ other.HasFile root' names content)

/-- A piece of a file below a directory, as files are cut for blocks of a size. -/
def HasPiece (tree : FileTree) (root : String) (size : UInt32) (piece : Bytes) : Prop :=
  ∃ names content, tree.HasFile root names content ∧ piece ∈ Feed.cut size.toNat content

/-- No piece of one directory has the hash of a different piece of the other. -/
def HashedApart (tree : FileTree) (root : String) (other : FileTree) (root' : String)
    (size : UInt32) : Prop :=
  ∀ piece piece', tree.HasPiece root size piece → other.HasPiece root' size piece' →
    BlockHash.ofData piece = BlockHash.ofData piece' → piece = piece'

theorem HashedApart.symm (apart : HashedApart tree root other root' size) :
    HashedApart other root' tree root size :=
  fun piece piece' here there same => (apart piece' piece there here same.symm).symm

theorem HasFile.names_ne_nil (file : tree.HasFile root names content) : names ≠ [] := by
  obtain ⟨-, -, some, -⟩ := file
  exact some

theorem located_of_inspect {entry : Entry} (inspected : tree.inspect root = .ok entry) :
    ∃ place, tree.locate root = .ok place ∧ tree.entry? place = some entry := by
  cases located : tree.locate root with
  | error fault =>
    rw [inspect, located] at inspected
    cases inspected
  | ok place =>
    have seen := inspect_of_located located
    rw [inspected] at seen
    cases found : tree.entry? place with
    | none =>
      rw [found] at seen
      cases seen
    | some present =>
      rw [found] at seen
      cases seen
      exact ⟨place, rfl, found⟩

namespace Scannable

theorem normal (scannable : tree.Scannable root size) (file : tree.HasFile root names content) :
    Path.IsNormal ("/".intercalate names) :=
  Path.isNormal_intercalate file.names_ne_nil (notMem_of_hasFile scannable.whole file)
    (scannable.plain names content file)

theorem exists_scan (scannable : tree.Scannable root size) (legal : isBlockSize size) :
    ∃ manifest, tree.scan root size = .ok manifest := by
  obtain ⟨place, located, directory⟩ := located_of_inspect scannable.directory
  exact FileTree.exists_scan legal located directory
    (fun _ _ file => ⟨_, scannable.normal file⟩) scannable.short

theorem represents (scannable : tree.Scannable root size)
    (scanned : tree.scan root size = .ok manifest) : Represents manifest size tree root := by
  refine (represents_iff scannable.whole scanned).mpr (unshadowed_of_plain scannable.whole scanned ?_)
  exact fun names content file name member =>
    (scannable.plain names content file name member).withoutBackslash

theorem addressable (scannable : tree.Scannable root size)
    (scanned : tree.scan root size = .ok manifest) : manifest.Addressable := by
  intro path blocks held
  obtain ⟨names, content, file, -, -, rfl⟩ := (scannable.represents scanned path blocks).mp held
  exact scannable.short names content file

end Scannable

/-- A file of one directory is in the other if one manifest represents both. -/
theorem HasFile.of_represents (positive : 0 < size.toNat) (whole : tree.Avoids '/')
    (whole' : other.Avoids '/') (apart : HashedApart tree root other root' size)
    (represents : Represents manifest size tree root)
    (represents' : Represents manifest size other root')
    (file : tree.HasFile root names content) (some : content ≠ []) :
    other.HasFile root' names content := by
  have entry := (represents _ _).mpr ⟨names, content, file, some, rfl, rfl⟩
  obtain ⟨names', content', file', -, paths, rows⟩ := (represents' _ _).mp entry
  obtain rfl : names = names' :=
    Path.eq_of_intercalate_eq file.names_ne_nil file'.names_ne_nil (notMem_of_hasFile whole file)
      (notMem_of_hasFile whole' file') paths
  obtain rfl : content = content' :=
    Block.content_eq_of_row positive (fun piece among piece' among' =>
      apart piece piece' ⟨names, content, file, among⟩ ⟨names, content', file', among'⟩) rows
  exact file'

/-- Directories with the same content are represented by the same manifest. -/
theorem eq_of_sameContent (sizes : manifest.maxBlockSize = installed.maxBlockSize)
    (represents : Represents manifest size tree root)
    (represents' : Represents installed size other root')
    (same : SameContent tree root other root') : manifest = installed := by
  refine Manifest.eq_of_file? sizes fun path => Option.ext fun blocks => ?_
  rw [represents, represents']
  constructor
  · rintro ⟨names, content, file, some, told⟩
    exact ⟨names, content, (same names content some).mp file, some, told⟩
  · rintro ⟨names, content, file, some, told⟩
    exact ⟨names, content, (same names content some).mpr file, some, told⟩

/-- The manifest of one directory can be checked against another. What has to change there leads
from its own manifest to the one checked; and if hashes tell the pieces of the files apart, nothing
has to change exactly if the directories have the same files with content. -/
theorem verify_exact (legal : isBlockSize size) (scannable : tree.Scannable root size)
    (scannable' : other.Scannable root' size) :
    ∃ manifest installed delta, tree.scan root size = .ok manifest ∧
      other.scan root' size = .ok installed ∧ manifest.verify other root' = .ok delta ∧
      delta.apply installed = .ok manifest ∧
      (HashedApart tree root other root' size →
        (delta.isEmpty ↔ SameContent tree root other root')) := by
  obtain ⟨manifest, scanned⟩ := scannable.exists_scan legal
  obtain ⟨installed, scanned'⟩ := scannable'.exists_scan legal
  have reached := reached_of_scan scanned
  have reached' := reached_of_scan scanned'
  have addressable := scannable.addressable scanned
  have addressable' := scannable'.addressable scanned'
  have sizes : installed.maxBlockSize = manifest.maxBlockSize :=
    reached'.maxBlockSize_eq.trans reached.maxBlockSize_eq.symm
  have verified : manifest.verify other root' =
      .ok (Delta.between installed.listing manifest.listing) := by
    rw [Manifest.verify, reached.maxBlockSize_eq, scanned']
    rfl
  refine ⟨manifest, installed, _, scanned, scanned', verified,
    Delta.apply_between_ok reached'.valid addressable' reached.valid addressable sizes, ?_⟩
  intro apart
  have represents := scannable.represents scanned
  have represents' := scannable'.represents scanned'
  rw [Delta.isEmpty_between_iff reached'.valid addressable' reached.valid addressable sizes]
  constructor
  · rintro rfl names content some
    have positive := toNat_pos_of_isBlockSize legal
    exact ⟨fun file => file.of_represents positive scannable.whole scannable'.whole apart
        represents represents' some,
      fun file => file.of_represents positive scannable'.whole scannable.whole apart.symm
        represents' represents some⟩
  · exact fun same => (eq_of_sameContent sizes.symm represents represents' same).symm

theorem forall_hasFile_iff {place : List String} (located : tree.locate root = .ok place)
    {claim : List String → Bytes → Prop} :
    (∀ names content, tree.HasFile root names content → claim names content) ↔
      ∀ file ∈ tree.filesAt place, claim file.1 file.2 := by
  simp only [hasFile_iff located, Prod.forall]

/-- The workshop in another place, with a shorter tool and without the other files. -/
def ransacked : FileTree where
  entries := .ofList [(["v"], Entry.directory), (["v", "bin"], Entry.directory),
    (["v", "bin", "tool"], Entry.file [1, 2])]
  workingDirectory := ["v"]

theorem scannable_workshop : workshop.Scannable "w" smallestBlockSize := by
  have located : workshop.locate "w" = .ok ["w"] := by decide +kernel
  refine ⟨by decide +kernel, by decide +kernel, ?_, ?_⟩
  · exact (forall_hasFile_iff located).mpr (by decide +kernel)
  · exact (forall_hasFile_iff located).mpr (by decide +kernel)

theorem scannable_ransacked : ransacked.Scannable "." smallestBlockSize := by
  have located : ransacked.locate "." = .ok ["v"] := by decide +kernel
  refine ⟨by decide +kernel, by decide +kernel, ?_, ?_⟩
  · exact (forall_hasFile_iff located).mpr (by decide +kernel)
  · exact (forall_hasFile_iff located).mpr (by decide +kernel)

theorem hashedApart_workshop : HashedApart workshop "w" ransacked "." smallestBlockSize := by
  have located : workshop.locate "w" = .ok ["w"] := by decide +kernel
  have located' : ransacked.locate "." = .ok ["v"] := by decide +kernel
  have apart : ∀ file ∈ workshop.filesAt ["w"],
      ∀ piece ∈ Feed.cut smallestBlockSize.toNat file.2, ∀ file' ∈ ransacked.filesAt ["v"],
        ∀ piece' ∈ Feed.cut smallestBlockSize.toNat file'.2,
          BlockHash.ofData piece = BlockHash.ofData piece' → piece = piece' := by
    decide +kernel
  rintro piece piece' ⟨names, content, file, among⟩ ⟨names', content', file', among'⟩
  exact apart _ ((hasFile_iff located).mp file) piece among _ ((hasFile_iff located').mp file')
    piece' among'

/-- What was taken away is found and can be made good. -/
theorem verify_ransacked :
    ∃ manifest installed delta, workshop.scan "w" smallestBlockSize = .ok manifest ∧
      ransacked.scan "." smallestBlockSize = .ok installed ∧
      manifest.verify ransacked "." = .ok delta ∧ delta.apply installed = .ok manifest ∧
      ¬delta.isEmpty := by
  obtain ⟨manifest, installed, delta, scanned, scanned', verified, applied, found⟩ :=
    verify_exact (by decide +kernel) scannable_workshop scannable_ransacked
  refine ⟨manifest, installed, delta, scanned, scanned', verified, applied, fun none => ?_⟩
  have same := (found hashedApart_workshop).mp none
  have readme : workshop.HasFile "w" ["readme"] [4] :=
    ⟨["w"], by decide +kernel, by decide, by decide +kernel⟩
  have located : ransacked.locate "." = .ok ["v"] := by decide +kernel
  have left := (hasFile_iff located).mp ((same _ _ (by decide)).mp readme)
  exact absurd left (by decide +kernel)

end FileTree

end BuildDelivery
