import BuildDelivery.Proofs.Manifest.Editing
import BuildDelivery.Proofs.Manifest.Listing
import BuildDelivery.Proofs.Manifest.Reading

/-! What an index tells. A listing numbers the blocks of a file in 32 bits, and beyond those the
numbers start again. Inserting a file refuses a row of so many blocks; the check of a manifest from
elsewhere and the builder do not count them. -/

set_option autoImplicit false

namespace BuildDelivery

theorem getElem?_locate (path : String) (start : Nat) (blocks : List Block) (number : Nat) :
    (locate path start blocks)[number]? =
      blocks[number]?.map fun block => (⟨path, UInt32.ofNat (start + number)⟩, block) := by
  induction blocks generalizing start number with
  | nil => simp [locate]
  | cons first rest step =>
    cases number with
    | zero => simp [locate]
    | succ number =>
      simp only [locate, List.getElem?_cons_succ, step]
      rw [Nat.add_assoc, Nat.add_comm 1]

theorem path_of_mem_locate {path : String} {start : Nat} {blocks : List Block}
    {entry : Location × Block} (member : entry ∈ locate path start blocks) :
    entry.1.path = path := by
  obtain ⟨number, -, place⟩ := mem_locate_iff.mp member
  rw [place]

namespace Manifest

variable {manifest : Manifest} {path : String} {blocks : List Block}

/-- What the listing has of one file, in its order. -/
def entries (manifest : Manifest) (path : String) : List (Location × Block) :=
  manifest.listing.blocks.filter fun entry => entry.1.path = path

theorem entries_eq (found : manifest.file? path = some blocks) :
    manifest.entries path = locate path 0 blocks := by
  obtain ⟨front, back, files⟩ := List.append_of_mem (mem_toList_iff.mpr found)
  have ordered : manifest.files.toList.Pairwise fun left right => compare left.1 right.1 = .lt :=
    Std.ExtTreeMap.ordered_keys_toList
  rw [files, List.pairwise_append, List.pairwise_cons] at ordered
  obtain ⟨-, ⟨behind, -⟩, before⟩ := ordered
  have own : (locate path 0 blocks).filter (fun entry => entry.1.path = path) =
      locate path 0 blocks :=
    List.filter_eq_self.mpr fun entry member => decide_eq_true (path_of_mem_locate member)
  have others {files : List (String × List Block)} (apart : ∀ file ∈ files, file.1 ≠ path) :
      (files.flatMap fun file =>
        (locate file.1 0 file.2).filter fun entry => entry.1.path = path) = [] := by
    refine List.flatMap_eq_nil_iff.mpr fun file member =>
      List.filter_eq_nil_iff.mpr fun entry among => ?_
    rw [path_of_mem_locate among, decide_eq_true_eq]
    exact apart file member
  rw [entries, listing, List.filter_flatMap, files, List.flatMap_append, List.flatMap_cons, own,
    others, others, List.nil_append, List.append_nil]
  · exact fun file member => (ne_of_compare_eq_lt (behind file member)).symm
  · exact fun file member => ne_of_compare_eq_lt (before file member _ List.mem_cons_self)

theorem getElem?_entries (found : manifest.file? path = some blocks) (number : Nat) :
    (manifest.entries path)[number]? =
      blocks[number]?.map fun block => (⟨path, UInt32.ofNat number⟩, block) := by
  rw [entries_eq found, getElem?_locate, Nat.zero_add]

/-- Every block of a file is listed with its number for an index. -/
def Numbered (manifest : Manifest) : Prop :=
  ∀ path blocks, manifest.file? path = some blocks →
    ∀ number block, blocks[number]? = some block →
      ∃ index : UInt32, (manifest.entries path)[number]? = some (⟨path, index⟩, block) ∧
        index.toNat = number

theorem Indexable.numbered (indexable : manifest.Indexable) : manifest.Numbered := by
  intro path blocks found number block held
  refine ⟨UInt32.ofNat number, by rw [getElem?_entries found, held]; rfl, ?_⟩
  have bound := (List.getElem?_eq_some_iff.mp held).1
  exact UInt32.toNat_ofNat_of_lt' (Nat.lt_of_lt_of_le bound (indexable path blocks found))

theorem Numbered.indexable (numbered : manifest.Numbered) : manifest.Indexable := by
  intro path blocks found
  refine Nat.le_of_not_lt fun many => ?_
  -- There is a block under the number of all indices, but no index has that number.
  obtain ⟨index, -, same⟩ := numbered path blocks found _ _ (List.getElem?_eq_getElem many)
  exact absurd index.toNat_lt (Nat.not_lt_of_le (Nat.le_of_eq same.symm))

/-- The first block behind those that have an index takes the location of the first of all. -/
theorem indexable_of_distinct (distinct : manifest.listing.Distinct) : manifest.Indexable := by
  intro path blocks found
  refine Nat.le_of_not_lt fun many => ?_
  have places : ((manifest.entries path).map Prod.fst).Nodup :=
    distinct.sublist (List.filter_sublist.map Prod.fst)
  have place (number : Nat) (small : number < blocks.length) :
      ((manifest.entries path).map Prod.fst)[number]? = some ⟨path, UInt32.ofNat number⟩ := by
    rw [List.getElem?_map, getElem?_entries found, List.getElem?_eq_getElem small]
    rfl
  have first := place 0 (Nat.zero_lt_of_lt many)
  -- As an index, the number of all indices is zero.
  have again : ((manifest.entries path).map Prod.fst)[Numeral.capacity 32]? = some ⟨path, 0⟩ :=
    place _ many
  have apart : 0 ≠ Numeral.capacity 32 := by decide
  exact apart ((List.getElem?_inj (List.getElem?_eq_some_iff.mp first).1 places).mp
    (first.trans again.symm))

end Manifest

namespace ManifestBuilder

theorem file?_build (builder : ManifestBuilder) (path : String) :
    builder.build.file? path = builder.drafts[path]?.filter (· ≠ []) := by
  rw [build, Manifest.file?, Std.ExtTreeMap.getElem?_filter']

theorem indexable_build_iff {builder : ManifestBuilder} :
    builder.build.Indexable ↔ ∀ (path : String) (blocks : List Block),
      builder.drafts[path]? = some blocks → blocks.length ≤ Numeral.capacity 32 := by
  constructor
  · intro indexable path blocks drafted
    by_cases none : blocks = []
    · rw [none]
      exact Nat.zero_le _
    · refine indexable path blocks ?_
      rw [file?_build, drafted, Option.filter_some, if_pos (decide_eq_true none)]
  · intro few path blocks found
    rw [file?_build] at found
    exact few path blocks (Option.filter_eq_some_iff.mp found).1

/-- A builder is made, takes the blocks of one file one after another, and builds. -/
def buildFile (maxBlockSize : UInt32) (path : String) (blocks : List Block) :
    Except ManifestFault Manifest := do
  let builder ← create maxBlockSize
  let draft ← builder.file path
  let draft ← blocks.foldlM FileDraft.append draft
  return (builder.put draft).build

theorem foldlM_append {draft : FileDraft} {blocks : List Block}
    (fits : ∀ block ∈ blocks, block.fits draft.maxBlockSize) :
    blocks.foldlM FileDraft.append draft = .ok (draft.extended blocks) := by
  induction blocks generalizing draft with
  | nil => rw [FileDraft.extended_nil]; rfl
  | cons block rest step =>
    obtain ⟨first, later⟩ := List.forall_mem_cons.mp fits
    have run := @step (draft.extended [block]) later
    rw [FileDraft.extended_extended] at run
    rw [List.foldlM_cons, FileDraft.append_of_fits first]
    exact run

/-- On this way nothing counts the blocks. -/
theorem buildFile_eq {size : UInt32} {path : String} {blocks : List Block}
    (legal : isBlockSize size) (normal : Path.IsNormal path)
    (fits : ∀ block ∈ blocks, block.fits size) :
    buildFile size path blocks = .ok ((Manifest.empty size).setFile path blocks) := by
  have created : create size = .ok (empty size) := by
    rw [create, checkBlockSize_eq_ok_iff.mpr legal]
    rfl
  have drafted : (empty size).file path = .ok ⟨path, size, []⟩ := by
    rw [file, normal]
    rfl
  have built : ((empty size).put ⟨path, size, blocks⟩).build =
      (Manifest.empty size).setFile path blocks := by
    refine Manifest.eq_of_file? rfl fun other => ?_
    rw [file?_build, Manifest.file?_setFile, Manifest.file?_empty, put, empty]
    by_cases here : other = path
    · by_cases none : blocks = []
      · simp [here, none]
      · simp [here, none]
    · have apart : compare path other ≠ .eq := fun same =>
        here (Std.LawfulEqOrd.eq_of_compare same).symm
      simp [here, apart]
  have run := @foldlM_append ⟨path, size, []⟩ blocks fits
  simp only [buildFile, created, drafted, run, bind, Except.bind, pure, Except.pure]
  exact congrArg Except.ok built

end ManifestBuilder

namespace Manifest

/-- When the listing of a manifest tells its blocks apart: in ascending order, without repetition
and every block by its number in the file, each of these exactly if no file has more blocks than
there are indices. A builder keeps what it was given, and only a manifest that comes of insertions
and removals is sure to be within that bound. -/
theorem ordered_iff_indexable (manifest : Manifest) :
    (manifest.listing.Ascending ↔ manifest.Indexable) ∧
    (manifest.listing.Distinct ↔ manifest.Indexable) ∧
    (manifest.Numbered ↔ manifest.Indexable) ∧
    (∀ builder : ManifestBuilder, builder.build = manifest →
      (manifest.Indexable ↔ ∀ (path : String) (blocks : List Block),
        builder.drafts[path]? = some blocks → blocks.length ≤ Numeral.capacity 32)) ∧
    ∀ size : UInt32, Reached size manifest → manifest.Indexable := by
  refine ⟨?_, ?_, ?_, ?_, fun size reached => reached.addressable.indexable⟩
  · exact ⟨fun ascending => indexable_of_distinct ascending.distinct, Indexable.ascending⟩
  · exact ⟨indexable_of_distinct, fun indexable => indexable.ascending.distinct⟩
  · exact ⟨Numbered.indexable, Indexable.numbered⟩
  · rintro builder rfl
    exact ManifestBuilder.indexable_build_iff

theorem ordered_firstEdition :
    firstEdition.listing.Ascending ∧ firstEdition.listing.Distinct ∧ firstEdition.Numbered := by
  obtain ⟨ascending, distinct, numbered, -⟩ := ordered_iff_indexable firstEdition
  have indexable := addressable_firstEdition.indexable
  exact ⟨ascending.mpr indexable, distinct.mpr indexable, numbered.mpr indexable⟩

/-- A file of one block more than there are indices. -/
def overlong : Manifest :=
  (empty smallestBlockSize).setFile "a" (List.replicate (Numeral.capacity 32 + 1) (.uniform 1))

theorem file?_overlong (path : String) :
    overlong.file? path =
      if path = "a" then some (List.replicate (Numeral.capacity 32 + 1) (.uniform 1)) else none := by
  have some : List.replicate (Numeral.capacity 32 + 1) (Block.uniform 1) ≠ [] :=
    List.cons_ne_nil _ _
  rw [overlong, file?_setFile, if_neg some, file?_empty]

/-- The check accepts the file and the builder makes it, but two of its blocks have one location. -/
theorem overlong_repeats :
    overlong.check = .ok () ∧
    ManifestBuilder.buildFile smallestBlockSize "a"
      (List.replicate (Numeral.capacity 32 + 1) (.uniform 1)) = .ok overlong ∧
    ¬overlong.listing.Ascending ∧ ¬overlong.listing.Distinct ∧ ¬overlong.Numbered := by
  have legal : isBlockSize smallestBlockSize := by decide
  have normal : Path.IsNormal "a" := show Path.normalize "a" = .ok "a" by decide +kernel
  have fits : ∀ block ∈ List.replicate (Numeral.capacity 32 + 1) (Block.uniform 1),
      block.fits smallestBlockSize := by
    intro block member
    rw [List.eq_of_mem_replicate member]
    decide
  have many : ¬overlong.Indexable := by
    intro indexable
    have few := indexable "a" _ (by rw [file?_overlong, if_pos rfl])
    rw [List.length_replicate] at few
    exact Nat.not_succ_le_self _ few
  have distinct : ¬overlong.listing.Distinct := fun distinct => many (indexable_of_distinct distinct)
  refine ⟨check_eq_ok_iff.mpr (valid_iff.mpr ⟨legal, fun path blocks found => ?_⟩),
    ManifestBuilder.buildFile_eq legal normal fits, fun ascending => distinct ascending.distinct,
    distinct, fun numbered => many numbered.indexable⟩
  rw [file?_overlong] at found
  split at found
  · next here =>
    cases here
    cases found
    exact ⟨normal, List.cons_ne_nil _ _, fits⟩
  · cases found

end Manifest

end BuildDelivery
