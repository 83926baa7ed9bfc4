import BuildDelivery.Fingerprint
import BuildDelivery.Proofs.Manifest.Extent
import BuildDelivery.Wire.Payload
import Mathlib.Data.List.Pairwise

/-! Editing a manifest. From the empty manifest, files are inserted and removed in any order, and
some of these edits are refused. Whatever was done, the manifest keeps the rules, an edit changes
one file or nothing, and the manifest tells nothing of its past but the files that it holds. Its counts
are right, the bytes up to multiples of 2 ^ 64, for which edits can make a manifest large enough. -/

set_option autoImplicit false

namespace BuildDelivery

inductive Edit where
  | insert (path : String) (blocks : List Block)
  | remove (path : String)
  deriving DecidableEq, Repr

/-- The file that an edit sets in a manifest of a block size. Without blocks it is gone. -/
inductive Edit.Sets (max : UInt32) : Edit → String → List Block → Prop where
  | insert {path spelling : String} {blocks : List Block} :
      Path.normalize path = .ok spelling → Manifest.Insertable max blocks →
        Sets max (.insert path blocks) spelling blocks
  | remove {path : String} : Sets max (.remove path) path []

namespace Manifest

def perform (manifest : Manifest) : Edit → Except ManifestFault Manifest
  | .insert path blocks => manifest.insertFile path blocks
  | .remove path => .ok (manifest.removeFile path)

/-- What an edit leaves, which is the manifest as it was where the edit is refused. -/
def step (manifest : Manifest) (edit : Edit) : Manifest :=
  match manifest.perform edit with
  | .ok next => next
  | .error _ => manifest

def after (manifest : Manifest) (edits : List Edit) : Manifest := edits.foldl step manifest

variable {manifest next : Manifest} {edit : Edit} {path : String} {blocks : List Block}

theorem removeFile_eq (manifest : Manifest) (path : String) :
    manifest.removeFile path = manifest.setFile path [] := rfl

theorem perform_eq_ok_iff :
    manifest.perform edit = .ok next ↔
      ∃ path blocks, edit.Sets manifest.maxBlockSize path blocks ∧
        next = manifest.setFile path blocks := by
  cases edit with
  | insert path blocks =>
    constructor
    · intro done
      obtain ⟨spelling, accepted, insertable, same⟩ := insertFile_eq_ok_iff.mp done
      exact ⟨spelling, blocks, .insert accepted insertable, same⟩
    · rintro ⟨_, _, ⟨accepted, insertable⟩, same⟩
      exact insertFile_eq_ok_iff.mpr ⟨_, accepted, insertable, same⟩
  | remove path =>
    constructor
    · rintro ⟨⟩
      exact ⟨path, [], .remove, removeFile_eq manifest path⟩
    · rintro ⟨_, _, ⟨⟩, rfl⟩
      exact congrArg Except.ok (removeFile_eq manifest path)

theorem step_of_sets (sets : edit.Sets manifest.maxBlockSize path blocks) :
    manifest.step edit = manifest.setFile path blocks := by
  unfold step
  rw [perform_eq_ok_iff.mpr ⟨path, blocks, sets, rfl⟩]

theorem step_of_refused {fault : ManifestFault} (refused : manifest.perform edit = .error fault) :
    manifest.step edit = manifest := by
  unfold step
  rw [refused]

/-- An edit is refused or sets one file, and the block size alone decides which. -/
theorem step_eq_or (manifest : Manifest) (edit : Edit) :
    (manifest.step edit = manifest ∧ ∀ path blocks, ¬edit.Sets manifest.maxBlockSize path blocks) ∨
      ∃ path blocks, edit.Sets manifest.maxBlockSize path blocks ∧
        manifest.step edit = manifest.setFile path blocks := by
  cases done : manifest.perform edit with
  | error fault =>
    refine .inl ⟨step_of_refused done, fun path blocks sets => ?_⟩
    cases done.symm.trans (perform_eq_ok_iff.mpr ⟨path, blocks, sets, rfl⟩)
  | ok next =>
    obtain ⟨path, blocks, sets, -⟩ := perform_eq_ok_iff.mp done
    exact .inr ⟨path, blocks, sets, step_of_sets sets⟩

theorem maxBlockSize_step (manifest : Manifest) (edit : Edit) :
    (manifest.step edit).maxBlockSize = manifest.maxBlockSize := by
  rcases step_eq_or manifest edit with ⟨same, -⟩ | ⟨path, blocks, -, same⟩
  · rw [same]
  · rw [same]
    rfl

theorem maxBlockSize_after (manifest : Manifest) (edits : List Edit) :
    (manifest.after edits).maxBlockSize = manifest.maxBlockSize := by
  induction edits generalizing manifest with
  | nil => rfl
  | cons edit later rest => exact (rest (manifest.step edit)).trans (maxBlockSize_step manifest edit)

theorem file?_step_of_unset (unset : ∀ blocks, ¬edit.Sets manifest.maxBlockSize path blocks) :
    (manifest.step edit).file? path = manifest.file? path := by
  rcases step_eq_or manifest edit with ⟨same, -⟩ | ⟨other, blocks, sets, same⟩
  · rw [same]
  · have apart : path ≠ other := fun here => unset blocks (here ▸ sets)
    rw [same, file?_setFile, if_neg apart]

theorem file?_after_of_unset {edits : List Edit}
    (unset : ∀ edit ∈ edits, ∀ blocks, ¬edit.Sets manifest.maxBlockSize path blocks) :
    (manifest.after edits).file? path = manifest.file? path := by
  induction edits generalizing manifest with
  | nil => rfl
  | cons edit later rest =>
    obtain ⟨first, unset⟩ := List.forall_mem_cons.mp unset
    rw [← file?_step_of_unset first]
    exact rest (maxBlockSize_step manifest edit ▸ unset)

/-- The last edit that sets a file decides about it. -/
theorem file?_after_of_sets {before behind : List Edit}
    (sets : edit.Sets manifest.maxBlockSize path blocks)
    (unset : ∀ later ∈ behind, ∀ blocks, ¬later.Sets manifest.maxBlockSize path blocks) :
    (manifest.after (before ++ edit :: behind)).file? path =
      if blocks = [] then none else some blocks := by
  have split : manifest.after (before ++ edit :: behind) =
      ((manifest.after before).step edit).after behind := List.foldl_append
  have size : (manifest.after before).maxBlockSize = manifest.maxBlockSize :=
    maxBlockSize_after manifest before
  rw [← size] at sets unset
  rw [← maxBlockSize_step (manifest.after before) edit] at unset
  rw [split, file?_after_of_unset unset, step_of_sets sets, file?_setFile, if_pos rfl]

/-- Removing a file breaks no rule, whatever the path. -/
theorem Valid.removeFile (valid : manifest.Valid) (path : String) :
    (manifest.removeFile path).Valid := by
  rw [removeFile_eq]
  rw [valid_iff] at valid ⊢
  refine ⟨valid.1, fun other found held => valid.2 other found ?_⟩
  rw [file?_setFile] at held
  by_cases here : other = path
  · simp [here] at held
  · rwa [if_neg here] at held

theorem Valid.step (valid : manifest.Valid) (edit : Edit) : (manifest.step edit).Valid := by
  rcases step_eq_or manifest edit with ⟨same, -⟩ | ⟨path, blocks, sets, same⟩
  · rwa [same]
  · rw [same]
    cases sets with
    | insert accepted insertable => exact valid.setFile (Path.isNormal_of_normalize accepted) insertable
    | remove => exact valid.removeFile path

theorem Valid.after (valid : manifest.Valid) (edits : List Edit) : (manifest.after edits).Valid := by
  induction edits generalizing manifest with
  | nil => exact valid
  | cons edit later rest => exact rest (valid.step edit)

theorem Addressable.step (addressable : manifest.Addressable) (edit : Edit) :
    (manifest.step edit).Addressable := by
  rcases step_eq_or manifest edit with ⟨same, -⟩ | ⟨path, blocks, sets, same⟩
  · rwa [same]
  · rw [same]
    cases sets with
    | insert accepted insertable => exact addressable.setFile insertable
    | remove => exact addressable.setFile ⟨by decide, by simp⟩

theorem Addressable.after (addressable : manifest.Addressable) (edits : List Edit) :
    (manifest.after edits).Addressable := by
  induction edits generalizing manifest with
  | nil => exact addressable
  | cons edit later rest => exact rest (addressable.step edit)

/-- Two files are set in either order. -/
theorem setFile_comm (manifest : Manifest) {other : String} (apart : path ≠ other)
    (blocks others : List Block) :
    (manifest.setFile path blocks).setFile other others =
      (manifest.setFile other others).setFile path blocks := by
  refine eq_of_file? rfl fun place => ?_
  simp only [file?_setFile]
  by_cases here : place = path
  · simp only [here, apart, if_true, if_false]
  · simp only [here, if_false]

/-- Edits that never set the same file can be done in either order. -/
theorem step_comm (manifest : Manifest) {first second : Edit}
    (apart : ∀ path blocks others, first.Sets manifest.maxBlockSize path blocks →
      ¬second.Sets manifest.maxBlockSize path others) :
    (manifest.step first).step second = (manifest.step second).step first := by
  have sizes (edit : Edit) := maxBlockSize_step manifest edit
  rcases step_eq_or manifest first with ⟨same, refused⟩ | ⟨path, blocks, sets, same⟩
  · rw [same]
    rcases step_eq_or (manifest.step second) first with ⟨same', -⟩ | ⟨path, blocks, sets, -⟩
    · exact same'.symm
    · exact absurd (sizes second ▸ sets) (refused path blocks)
  · have again : (manifest.step second).step first = (manifest.step second).setFile path blocks :=
      step_of_sets ((sizes second).symm ▸ sets)
    rw [same, again]
    rcases step_eq_or manifest second with ⟨same', refused⟩ | ⟨other, others, sets', same'⟩
    · rw [same']
      rcases step_eq_or (manifest.setFile path blocks) second with ⟨kept, -⟩ | ⟨other, others, sets', -⟩
      · exact kept
      · exact absurd sets' (refused other others)
    · have different : path ≠ other := fun here => apart path blocks others sets (here ▸ sets')
      rw [same', ← setFile_comm manifest different]
      exact step_of_sets sets'

/-- No two of the files have the same spelling. -/
def SpelledApart (files : List (String × List Block)) : Prop :=
  files.Pairwise fun left right =>
    ∀ spelling, Path.normalize left.1 = .ok spelling → Path.normalize right.1 ≠ .ok spelling

/-- The edits that insert files in a row. -/
def insertions (files : List (String × List Block)) : List Edit :=
  files.map fun file => .insert file.1 file.2

/-- Files that are spelled apart can be inserted in any order. -/
theorem after_insertions_perm (manifest : Manifest) {files others : List (String × List Block)}
    (perm : files.Perm others) (apart : SpelledApart files) :
    manifest.after (insertions files) = manifest.after (insertions others) := by
  unfold after insertions
  rw [List.foldl_map, List.foldl_map]
  apply perm.foldl_eq'
  intro left leftMember right rightMember between
  by_cases same : left = right
  · rw [same]
  · have symmetric : Std.Symm fun left right : String × List Block =>
        ∀ spelling, Path.normalize left.1 = .ok spelling → Path.normalize right.1 ≠ .ok spelling :=
      ⟨fun _ _ apart spelling here there => apart spelling there here⟩
    have different := apart.forall leftMember rightMember same
    apply step_comm
    rintro path blocks blocks' ⟨accepted, -⟩ ⟨accepted', -⟩
    exact different path accepted accepted'

/-- Where every file comes with the blocks that belong to its path, it does not matter in which order
the files come. -/
theorem file?_after_insertions {files : List (String × List Block)}
    {rows : String → List Block} (normal : ∀ file ∈ files, Path.IsNormal file.1)
    (insertable : ∀ file ∈ files, Insertable manifest.maxBlockSize file.2)
    (told : ∀ file ∈ files, file.2 = rows file.1) (path : String) :
    (manifest.after (insertions files)).file? path =
      if path ∈ files.map Prod.fst then if rows path = [] then none else some (rows path)
      else manifest.file? path := by
  induction files generalizing manifest with
  | nil => rfl
  | cons file rest step =>
    obtain ⟨first, normal⟩ := List.forall_mem_cons.mp normal
    obtain ⟨first', insertable⟩ := List.forall_mem_cons.mp insertable
    obtain ⟨first'', told⟩ := List.forall_mem_cons.mp told
    have size := maxBlockSize_step manifest (.insert file.1 file.2)
    have later := step normal (size.symm ▸ insertable) told
    change ((manifest.step (.insert file.1 file.2)).after (insertions rest)).file? path = _
    rw [later, step_of_sets (.insert first first'), file?_setFile, first'']
    by_cases among : path ∈ rest.map Prod.fst
    · simp [among]
    · by_cases here : path = file.1
      · simp [here]
      · simp [among, here]

/-- The files in the order of their paths, and what the counts say of them. -/
structure Counted (manifest : Manifest) : Prop where
  ascending : manifest.files.toList.Pairwise fun left right => compare left.1 right.1 = .lt
  held : ∀ (path : String) (blocks : List Block),
    (path, blocks) ∈ manifest.files.toList ↔ manifest.file? path = some blocks
  fileCount : manifest.fileCount = manifest.files.toList.length
  blockCount : manifest.blockCount = (manifest.files.toList.map fun entry => entry.2.length).sum
  totalSize : manifest.totalSize.toNat = manifest.extent % UInt64.size
  /-- It takes 2 ^ 38 blocks to run over. -/
  exactBelow : manifest.blockCount < Numeral.capacity 38 → manifest.totalSize.toNat = manifest.extent

theorem Valid.counted (valid : manifest.Valid) : manifest.Counted where
  ascending := Std.ExtTreeMap.ordered_keys_toList
  held _ _ := mem_toList_iff
  fileCount := Std.ExtTreeMap.length_toList.symm
  blockCount := List.length_flatMap
  totalSize := by rw [totalSize, toNat_totalSize, extent_blocks]
  exactBelow few := by
    rw [totalSize, toNat_totalSize_of_lt (extent_lt (fun _ => valid.size_le) few), extent_blocks]

/-- The manifest comes of the empty one of a block size by edits, refused ones among them. -/
def Reached (size : UInt32) (manifest : Manifest) : Prop :=
  ∃ start edits, create size = .ok start ∧ manifest = start.after edits

theorem Reached.valid {size : UInt32} (reached : Reached size manifest) : manifest.Valid := by
  obtain ⟨start, edits, created, rfl⟩ := reached
  obtain ⟨legal, rfl⟩ := create_eq_ok_iff.mp created
  exact (valid_empty legal).after edits

theorem Reached.addressable {size : UInt32} (reached : Reached size manifest) :
    manifest.Addressable := by
  obtain ⟨start, edits, created, rfl⟩ := reached
  obtain ⟨-, rfl⟩ := create_eq_ok_iff.mp created
  exact (addressable_empty size).after edits

theorem Reached.maxBlockSize_eq {size : UInt32} (reached : Reached size manifest) :
    manifest.maxBlockSize = size := by
  obtain ⟨start, edits, created, rfl⟩ := reached
  obtain ⟨-, rfl⟩ := create_eq_ok_iff.mp created
  exact maxBlockSize_after (empty size) edits

/-- After any edits the manifest passes the check and its counts are right, that of the bytes up to
multiples of 2 ^ 64. A refused edit leaves it as it is, and one that is done changes the file that it
means and no other. Two runs that end with the same files end with the same manifest, so files that
are spelled apart can be inserted in any order and lead to the same bytes and the same checksum. -/
theorem reached_keeps_rules {size : UInt32} (reached : Reached size manifest) :
    manifest.check = .ok () ∧ manifest.Counted ∧
    (∀ edit fault, manifest.perform edit = .error fault → manifest.step edit = manifest) ∧
    (∀ path blocks next, manifest.insertFile path blocks = .ok next →
      ∃ spelling, Path.normalize path = .ok spelling ∧
        next.file? spelling = (if blocks = [] then none else some blocks) ∧
        ∀ other, other ≠ spelling → next.file? other = manifest.file? other) ∧
    (∀ path, (manifest.removeFile path).file? path = none ∧
      ∀ other, other ≠ path → (manifest.removeFile path).file? other = manifest.file? other) ∧
    (∀ other, Reached size other → (∀ path, other.file? path = manifest.file? path) →
      other = manifest) ∧
    ∀ files others, files.Perm others → SpelledApart files →
      manifest.after (insertions files) = manifest.after (insertions others) ∧
      (manifest.after (insertions files)).toBytes = (manifest.after (insertions others)).toBytes ∧
      (manifest.after (insertions files)).checksum =
        (manifest.after (insertions others)).checksum := by
  refine ⟨check_eq_ok_iff.mpr reached.valid, reached.valid.counted, fun _ _ => step_of_refused, ?_, ?_,
    ?_, ?_⟩
  · intro path blocks next done
    obtain ⟨spelling, accepted, -, rfl⟩ := insertFile_eq_ok_iff.mp done
    refine ⟨spelling, accepted, ?_, fun other apart => ?_⟩
    · rw [file?_setFile, if_pos rfl]
    · rw [file?_setFile, if_neg apart]
  · intro path
    rw [removeFile_eq]
    refine ⟨?_, fun other apart => ?_⟩
    · rw [file?_setFile, if_pos rfl, if_pos rfl]
    · rw [file?_setFile, if_neg apart]
  · intro other reached' same
    exact eq_of_file? (reached'.maxBlockSize_eq.trans reached.maxBlockSize_eq.symm) same
  · intro files others perm apart
    have same := after_insertions_perm manifest perm apart
    exact ⟨same, congrArg toBytes same, congrArg checksum same⟩

/-- Edits of which the second is refused and the fourth removes what the first has inserted. -/
def revisions : List Edit :=
  [.insert "a\\b" [.uniform 1], .insert "../c" [.uniform 2], .insert "d" [.uniform 3],
    .insert "a/b" [], .remove "e"]

def revised : Manifest := (empty smallestBlockSize).after revisions

theorem revised_keeps_rules :
    Reached smallestBlockSize revised ∧ revised.check = .ok () ∧
      revised.perform (.insert "../c" [.uniform 2]) = .error (.path (.malformed "../c")) ∧
      revised.step (.insert "../c" [.uniform 2]) = revised ∧
      SpelledApart [("a\\b", [.uniform 1]), ("c", [.uniform 2])] ∧
      revised.after (insertions [("a\\b", [.uniform 1]), ("c", [.uniform 2])]) =
        revised.after (insertions [("c", [.uniform 2]), ("a\\b", [.uniform 1])]) := by
  have reached : Reached smallestBlockSize revised :=
    ⟨empty smallestBlockSize, revisions, by decide +kernel, rfl⟩
  have refused : revised.perform (.insert "../c" [.uniform 2]) =
      .error (.path (.malformed "../c")) := by
    decide +kernel
  have spelled : Path.normalize "a\\b" = .ok "a/b" := by decide +kernel
  have apart : SpelledApart [("a\\b", [.uniform 1]), ("c", [.uniform 2])] := by
    refine List.pairwise_pair.mpr fun spelling here there => ?_
    have other : Path.normalize "c" ≠ .ok "a/b" := by decide +kernel
    exact other (Except.ok.inj (spelled.symm.trans here) ▸ there)
  obtain ⟨checked, -, kept, -, -, -, ordered⟩ := reached_keeps_rules reached
  exact ⟨reached, checked, refused, kept _ _ refused, apart,
    (ordered _ _ (List.Perm.swap _ _ []) apart).1⟩

def copyNames : List String := (List.range 65).map toString

/-- Sixty-five files with one row of blocks. -/
def copies (row : List Block) : List (String × List Block) := copyNames.map fun name => (name, row)

theorem names_copies (row : List Block) : (copies row).map Prod.fst = copyNames := by
  rw [copies, List.map_map]
  exact List.map_id copyNames

theorem file?_after_copies {size : UInt32} {row : List Block} (insertable : Insertable size row)
    (filled : row ≠ []) (path : String) :
    ((empty size).after (insertions (copies row))).file? path =
      if path ∈ copyNames then some row else none := by
  have normal : ∀ name ∈ copyNames, Path.normalize name = .ok name := by decide +kernel
  have found := @file?_after_insertions (empty size) (copies row) (fun _ => row)
    (List.forall_mem_map.mpr normal) (List.forall_mem_map.mpr fun _ _ => insertable)
    (List.forall_mem_map.mpr fun _ _ => rfl) path
  rw [found, names_copies, if_neg filled, file?_empty]

theorem extent_after_copies {size : UInt32} {row : List Block} (insertable : Insertable size row)
    (filled : row ≠ []) :
    65 * BuildDelivery.extent row ≤ ((empty size).after (insertions (copies row))).extent := by
  have distinct : ((copies row).map Prod.fst).Nodup := by
    rw [names_copies]
    decide +kernel
  have held : ∀ file ∈ copies row,
      ((empty size).after (insertions (copies row))).file? file.1 = some file.2 := by
    refine List.forall_mem_map.mpr fun name member => ?_
    rw [file?_after_copies insertable filled, if_pos member]
  have total : ((copies row).map fun file => BuildDelivery.extent file.2).sum =
      65 * BuildDelivery.extent row := by
    rw [copies, List.map_map]
    change (copyNames.map fun _ => BuildDelivery.extent row).sum = _
    rw [List.map_const', List.sum_replicate, smul_eq_mul]
    rfl
  exact total.symm.trans_le (sum_extent_le distinct held)

/-- As many blocks of the largest size as a file can have. -/
def fullRow : List Block :=
  List.replicate (Numeral.capacity 32 - 1) ⟨.ofData [], largestBlockSize⟩

theorem insertable_fullRow : Insertable largestBlockSize fullRow := by
  refine ⟨?_, fun block member => ?_⟩
  · rw [fullRow, List.length_replicate]
    decide
  · rw [List.eq_of_mem_replicate member]
    decide +kernel

/-- A manifest that edits lead to and that describes more than 2 ^ 64 bytes. -/
def vast : Manifest := (empty largestBlockSize).after (insertions (copies fullRow))

theorem reached_vast : Reached largestBlockSize vast :=
  ⟨empty largestBlockSize, insertions (copies fullRow), by decide +kernel, rfl⟩

theorem fullRow_ne_nil : fullRow ≠ [] := by
  rw [fullRow, ne_eq, List.replicate_eq_nil_iff]
  decide

theorem size_le_extent_vast : UInt64.size ≤ vast.extent := by
  refine Nat.le_trans ?_ (extent_after_copies insertable_fullRow fullRow_ne_nil)
  rw [fullRow, extent_of_full fun _ member => congrArg Block.size (List.eq_of_mem_replicate member),
    List.length_replicate]
  decide

theorem vast_miscounted :
    Reached largestBlockSize vast ∧ vast.totalSize.toNat ≠ vast.extent :=
  ⟨reached_vast, Nat.ne_of_lt (Nat.lt_of_lt_of_le vast.totalSize.toNat_lt size_le_extent_vast)⟩

end Manifest

end BuildDelivery
