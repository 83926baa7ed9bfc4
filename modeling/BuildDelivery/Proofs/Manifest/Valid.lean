import BuildDelivery.Manifest.Basic
import BuildDelivery.Proofs.Path.Normal

/-! Manifests that keep the rules. The check accepts exactly the valid manifests, inserting a
file into a valid manifest gives a valid one, and what an insertion does to the other files is
nothing. -/

set_option autoImplicit false

namespace BuildDelivery

theorem checkBlockSize_eq_ok_iff {size : UInt32} :
    checkBlockSize size = .ok () ↔ isBlockSize size := by
  unfold checkBlockSize
  split
  · next legal => exact iff_of_true rfl legal
  · next illegal => exact iff_of_false nofun illegal

theorem checkBlocks_eq_ok_iff (path : String) {max : UInt32} {blocks : List Block} :
    checkBlocks path max blocks = .ok () ↔ ∀ block ∈ blocks, block.fits max := by
  induction blocks with
  | nil => simp [checkBlocks]
  | cons block rest step =>
    by_cases fits : block.fits max
    · simp [checkBlocks, fits, step]
    · simp [checkBlocks, fits]

theorem Block.fits_iff {block : Block} {max : UInt32} :
    block.fits max ↔ 0 < block.size.toNat ∧ block.size.toNat ≤ max.toNat := by
  rw [fits, Bool.and_eq_true, decide_eq_true_iff, decide_eq_true_iff, UInt32.le_iff_toNat_le,
    Nat.pos_iff_ne_zero, ne_eq, ← UInt32.toNat_inj, UInt32.toNat_zero]

/-- A block with the same byte all over its hash. -/
def Block.uniform (byte : UInt8) : Block := ⟨⟨List.replicate 32 byte, List.length_replicate⟩, 1⟩

namespace Manifest

/-- The blocks of every file are few enough to have an index each. -/
def Addressable (manifest : Manifest) : Prop :=
  ∀ (path : String) (blocks : List Block),
    manifest.file? path = some blocks → blocks.length < Numeral.capacity 32

/-- A row of blocks that a valid manifest can hold under a path. -/
structure Holdable (max : UInt32) (path : String) (blocks : List Block) : Prop where
  normal : Path.IsNormal path
  nonempty : blocks ≠ []
  fits : ∀ block ∈ blocks, block.fits max

theorem checkFile_eq_ok_iff {max : UInt32} {path : String} {blocks : List Block} :
    checkFile max path blocks = .ok () ↔ Holdable max path blocks := by
  unfold checkFile
  cases spelled : Path.normalize path with
  | error fault =>
    refine iff_of_false nofun fun held => ?_
    cases spelled.symm.trans held.normal
  | ok spelling =>
    by_cases same : spelling = path
    · by_cases none : blocks = []
      · refine iff_of_false ?_ fun held => held.nonempty none
        simp [bind, Except.bind, throw, throwThe, MonadExceptOf.throw, same, none]
      · simp only [bind, Except.bind, same, ne_eq, not_true_eq_false, if_false, none]
        rw [checkBlocks_eq_ok_iff]
        exact ⟨fun fits => ⟨same ▸ spelled, none, fits⟩, fun held => held.fits⟩
    · refine iff_of_false ?_ fun held => same (held.normal.eq spelled)
      simp [bind, Except.bind, throw, throwThe, MonadExceptOf.throw, same]

theorem checkFiles_eq_ok_iff {max : UInt32} {files : List (String × List Block)} :
    checkFiles max files = .ok () ↔ ∀ entry ∈ files, Holdable max entry.1 entry.2 := by
  induction files with
  | nil => simp [checkFiles]
  | cons entry rest step =>
    obtain ⟨path, blocks⟩ := entry
    rw [List.forall_mem_cons, ← checkFile_eq_ok_iff, ← step]
    simp only [checkFiles, bind, Except.bind]
    cases checkFile max path blocks with
    | error fault => simp
    | ok accepted => simp

theorem mem_toList_iff {manifest : Manifest} {path : String} {blocks : List Block} :
    (path, blocks) ∈ manifest.files.toList ↔ manifest.file? path = some blocks :=
  Std.ExtTreeMap.mem_toList_iff_getElem?_eq_some

theorem valid_iff {manifest : Manifest} :
    manifest.Valid ↔ isBlockSize manifest.maxBlockSize ∧
      ∀ (path : String) (blocks : List Block), manifest.file? path = some blocks →
        Holdable manifest.maxBlockSize path blocks := by
  constructor
  · intro valid
    exact ⟨valid.blockSize, fun path blocks found =>
      ⟨valid.normal path blocks found, valid.nonempty path blocks found, valid.fits path blocks found⟩⟩
  · rintro ⟨legal, files⟩
    exact ⟨legal, fun path blocks found => (files path blocks found).normal,
      fun path blocks found => (files path blocks found).nonempty,
      fun path blocks found => (files path blocks found).fits⟩

/-- The check accepts exactly the valid manifests. -/
theorem check_eq_ok_iff {manifest : Manifest} : manifest.check = .ok () ↔ manifest.Valid := by
  have files : checkFiles manifest.maxBlockSize manifest.files.toList = .ok () ↔
      ∀ (path : String) (blocks : List Block), manifest.file? path = some blocks →
        Holdable manifest.maxBlockSize path blocks := by
    rw [checkFiles_eq_ok_iff, Prod.forall]
    simp only [mem_toList_iff]
  rw [valid_iff, ← files, ← checkBlockSize_eq_ok_iff]
  simp only [check, bind, Except.bind]
  cases checkBlockSize manifest.maxBlockSize with
  | error fault => simp
  | ok accepted => simp

theorem file?_empty (size : UInt32) (path : String) : (empty size).file? path = none := by
  simp [empty, file?]

theorem valid_empty {size : UInt32} (legal : isBlockSize size) : (empty size).Valid :=
  valid_iff.mpr ⟨legal, fun path blocks found => by simp [file?_empty] at found⟩

theorem addressable_empty (size : UInt32) : (empty size).Addressable :=
  fun path blocks found => by simp [file?_empty] at found

theorem create_eq_ok_iff {size : UInt32} {manifest : Manifest} :
    create size = .ok manifest ↔ isBlockSize size ∧ manifest = empty size := by
  rw [← checkBlockSize_eq_ok_iff]
  simp only [create, bind, Except.bind, pure, Except.pure]
  cases checkBlockSize size with
  | error fault => simp
  | ok accepted => simp [eq_comm]

/-- A row of blocks that can be inserted: none at all, or few enough and each of a legal size. -/
def Insertable (max : UInt32) (blocks : List Block) : Prop :=
  blocks.length < Numeral.capacity 32 ∧ ∀ block ∈ blocks, block.fits max

theorem insertFile_eq_ok_iff {manifest next : Manifest} {path : String} {blocks : List Block} :
    manifest.insertFile path blocks = .ok next ↔
      ∃ spelling, Path.normalize path = .ok spelling ∧ Insertable manifest.maxBlockSize blocks ∧
        next = manifest.setFile spelling blocks := by
  unfold insertFile
  cases spelled : Path.normalize path with
  | error fault => simp [bind, Except.bind]
  | ok spelling =>
    -- The accepted spelling is the one that the statement speaks of.
    have only (claim : String → Prop) :
        (∃ other, (Except.ok spelling : Except ManifestFault String) = .ok other ∧ claim other) ↔
          claim spelling := by
      simp
    rw [only]
    by_cases none : blocks = []
    · subst none
      have insertable : Insertable manifest.maxBlockSize [] := ⟨by decide, by simp⟩
      simp [bind, Except.bind, pure, Except.pure, insertable, eq_comm]
    · by_cases many : Numeral.capacity 32 ≤ blocks.length
      · have refused : ¬Insertable manifest.maxBlockSize blocks := fun insertable =>
          Nat.not_lt.mpr many insertable.1
        simp [bind, Except.bind, throw, throwThe, MonadExceptOf.throw, none, many, refused]
      · simp only [bind, Except.bind, pure, Except.pure, none, if_false, many]
        rw [Insertable, and_iff_right (Nat.lt_of_not_le many),
          ← checkBlocks_eq_ok_iff spelling]
        cases checkBlocks spelling manifest.maxBlockSize blocks with
        | error fault => simp
        | ok accepted => simp [eq_comm]

theorem Valid.setFile {manifest : Manifest} (valid : manifest.Valid) {path : String}
    (normal : Path.IsNormal path) {blocks : List Block}
    (insertable : Insertable manifest.maxBlockSize blocks) :
    (manifest.setFile path blocks).Valid := by
  rw [valid_iff] at valid ⊢
  refine ⟨valid.1, fun other found held => ?_⟩
  rw [file?_setFile] at held
  by_cases here : other = path
  · by_cases none : blocks = []
    · simp [here, none] at held
    · simp only [here, none, if_true, if_false, Option.some.injEq] at held
      subst here held
      exact ⟨normal, none, insertable.2⟩
  · rw [if_neg here] at held
    exact valid.2 other found held

theorem Addressable.setFile {manifest : Manifest} (addressable : manifest.Addressable)
    {path : String} {blocks : List Block} (insertable : Insertable manifest.maxBlockSize blocks) :
    (manifest.setFile path blocks).Addressable := by
  intro other found held
  rw [file?_setFile] at held
  by_cases here : other = path
  · by_cases none : blocks = []
    · simp [here, none] at held
    · simp only [here, none, if_true, if_false, Option.some.injEq] at held
      exact held ▸ insertable.1
  · rw [if_neg here] at held
    exact addressable other found held

/-- A build of two files, the first of which has two blocks. -/
def firstEdition : Manifest :=
  ((empty smallestBlockSize).setFile "bin/tool" [.uniform 1, .uniform 2]).setFile
    "readme" [.uniform 3]

/-- A build with a shorter tool and with a map in place of the readme. -/
def secondEdition : Manifest :=
  ((empty smallestBlockSize).setFile "bin/tool" [.uniform 4]).setFile "data/map" [.uniform 5]

theorem addressable_firstEdition : firstEdition.Addressable :=
  ((addressable_empty smallestBlockSize).setFile ⟨by decide, by decide⟩).setFile
    ⟨by decide, by decide⟩

theorem addressable_secondEdition : secondEdition.Addressable :=
  ((addressable_empty smallestBlockSize).setFile ⟨by decide, by decide⟩).setFile
    ⟨by decide, by decide⟩

end Manifest

end BuildDelivery
