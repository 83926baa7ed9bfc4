import BuildDelivery.Proofs.Manifest.Indices
import BuildDelivery.Proofs.Outcome

/-! The two ways to a manifest. A builder keeps a row of blocks for every path it is asked for, adds
to the row block by block, and leaves the empty rows out in the end; an insertion takes all blocks of
a file at once. What is refused adds nothing, so both ways lead to one manifest: the rows depend on
the additions that are accepted, and not on how those to different files alternate. -/

set_option autoImplicit false

namespace BuildDelivery

/-- What a draft can be given. -/
inductive Addition where
  | block (block : Block)
  | data (data : Bytes)
  | feed (feed : Feed)
  deriving DecidableEq, Repr

/-- The front of a feed that fills whole blocks. -/
def Feed.filled (size : Nat) (feed : Feed) : Bytes :=
  feed.bytes.take (feed.bytes.length / size * size)

/-- The blocks that come of an addition where blocks have at most `max` bytes. A block that does not
fit and data that make no such block give none, and a feed that breaks gives those that are full. -/
def Addition.blocks (max : UInt32) : Addition → List Block
  | .block given => if given.fits max then [given] else []
  | .data given => if given ≠ [] ∧ given.length ≤ max.toNat then [Block.ofData given] else []
  | .feed given =>
    match given.ending with
    | .closed => Block.row max given.bytes
    | .broken _ => Block.row max (given.filled max.toNat)

theorem Feed.Division.filled_eq {size : Nat} {feed : Feed} {full : List Bytes} {tail : Bytes}
    (positive : 0 < size) (division : Division size feed.bytes full tail) :
    feed.filled size = full.flatten := by
  have length : full.flatten.length = full.length * size := by
    rw [List.length_flatten, List.map_congr_left division.full, List.map_const', List.sum_replicate_nat]
  have count : feed.bytes.length / size = full.length := by
    rw [division.whole, List.length_append, length, Nat.mul_comm, Nat.mul_add_div positive,
      Nat.div_eq_of_lt division.short, Nat.add_zero]
  rw [filled, count, ← length, division.whole, List.take_left]

theorem Addition.fits_of_mem_blocks {max : UInt32} {addition : Addition}
    {block : Block} (member : block ∈ addition.blocks max) : block.fits max := by
  cases addition with
  | block given =>
    rw [blocks, List.mem_ite_nil_right, List.mem_singleton] at member
    exact member.2 ▸ member.1
  | data given =>
    rw [blocks, List.mem_ite_nil_right, List.mem_singleton] at member
    obtain ⟨⟨some, short⟩, rfl⟩ := member
    have row : Block.row max given = [Block.ofData given] := by
      rw [Block.row, Feed.cut_of_length_le some short]
      rfl
    exact Block.fits_of_mem_row (row ▸ List.mem_singleton_self (Block.ofData given))
  | feed given =>
    rw [blocks] at member
    split at member
    · exact Block.fits_of_mem_row member
    · exact Block.fits_of_mem_row member

namespace FileDraft

variable {draft next : FileDraft} {addition : Addition} {additions : List Addition}

/-- Gives a draft something more. Where that is refused the draft stays as it is, and where a feed
breaks, what was appended before stays. -/
def add (draft : FileDraft) : Addition → FileDraft × Except Failure Unit
  | .block block =>
    match draft.append block with
    | .ok next => (next, .ok ())
    | .error fault => (draft, .error (.manifest fault))
  | .data data =>
    match draft.appendData data with
    | .ok (_, next) => (next, .ok ())
    | .error fault => (draft, .error (.manifest fault))
  | .feed feed =>
    let (next, total) := draft.appendFeed feed
    (next, total.map fun _ => ())

theorem append_eq (draft : FileDraft) (block : Block) :
    draft.append block =
      if block.fits draft.maxBlockSize then .ok (draft.extended [block])
      else .error (.block draft.path block.size draft.maxBlockSize) := rfl

theorem appendData_eq (legal : isBlockSize draft.maxBlockSize) (data : Bytes) :
    draft.appendData data =
      if data ≠ [] ∧ data.length ≤ draft.maxBlockSize.toNat then
        .ok (Block.ofData data, draft.extended [Block.ofData data])
      else .error (.block draft.path (UInt32.ofNat (min data.length (Numeral.capacity 32 - 1)))
        draft.maxBlockSize) := by
  -- A length is told as at most the largest number of 32 bits, which no block size reaches.
  have small := toNat_lt_of_isBlockSize legal
  have few : Numeral.capacity 32 = 4294967296 := rfl
  by_cases suits : data ≠ [] ∧ data.length ≤ draft.maxBlockSize.toNat
  · have added := append_ofData draft (List.length_pos_iff.mpr suits.1) suits.2
    have whole : min data.length (Numeral.capacity 32 - 1) = data.length := by omega
    rw [if_pos suits, appendData, whole]
    simp only [Block.ofData] at added ⊢
    rw [added]
    rfl
  · have refused : ¬(Block.mk (BlockHash.ofData data)
        (UInt32.ofNat (min data.length (Numeral.capacity 32 - 1)))).fits draft.maxBlockSize := by
      have told : (UInt32.ofNat (min data.length (Numeral.capacity 32 - 1))).toNat =
          min data.length (Numeral.capacity 32 - 1) :=
        UInt32.toNat_ofNat_of_lt' (Nat.lt_of_le_of_lt (Nat.min_le_right _ _) (by decide))
      rw [Block.fits_iff, told]
      rintro ⟨some, short⟩
      exact suits ⟨List.length_pos_iff.mp (by omega), by omega⟩
    rw [if_neg suits, appendData, append_eq, if_neg refused]
    rfl

theorem appendFeed_of_broken_eq {feed : Feed} {fault : SystemFault}
    (positive : 0 < draft.maxBlockSize.toNat) (broken : feed.ending = .broken fault) :
    draft.appendFeed feed =
      (draft.extended (Block.row draft.maxBlockSize (feed.filled draft.maxBlockSize.toNat)),
        .error (.system fault)) := by
  obtain ⟨full, tail, division⟩ := Feed.exists_division positive feed.bytes
  obtain ⟨rest, rfl, ending, run⟩ := appendFeed_of_division positive division
  have cut : Feed.Division draft.maxBlockSize.toNat full.flatten full [] :=
    ⟨(List.append_nil _).symm, division.full, positive⟩
  rw [run _ _ (appendFeed_of_broken division.short (ending.trans broken)),
    division.filled_eq positive, Block.row, cut.cut_eq positive, if_pos rfl, List.append_nil]
  rfl

theorem add_eq (legal : isBlockSize draft.maxBlockSize) (addition : Addition) :
    (draft.add addition).1 = draft.extended (addition.blocks draft.maxBlockSize) := by
  have positive := toNat_pos_of_isBlockSize legal
  cases addition with
  | block given =>
    rw [add, append_eq, Addition.blocks]
    by_cases fits : given.fits draft.maxBlockSize
    · rw [if_pos fits, if_pos fits]
    · rw [if_neg fits, if_neg fits, extended_nil]
  | data given =>
    rw [add, appendData_eq legal, Addition.blocks]
    by_cases suits : given ≠ [] ∧ given.length ≤ draft.maxBlockSize.toNat
    · rw [if_pos suits, if_pos suits]
    · rw [if_neg suits, if_neg suits, extended_nil]
  | feed given =>
    rw [add, Addition.blocks]
    cases ending : given.ending with
    | closed => rw [appendFeed_closed positive ending]
    | broken fault => rw [appendFeed_of_broken_eq positive ending]

/-- A refused block and refused data leave no trace. -/
theorem add_of_refused {fault : Failure} (whole : ∀ feed, addition ≠ .feed feed)
    (refused : (draft.add addition).2 = .error fault) : (draft.add addition).1 = draft := by
  cases addition with
  | block given =>
    rw [add] at refused ⊢
    cases added : draft.append given with
    | ok next =>
      rw [added] at refused
      cases refused
    | error fault => rfl
  | data given =>
    rw [add] at refused ⊢
    cases added : draft.appendData given with
    | ok next =>
      rw [added] at refused
      cases refused
    | error fault => rfl
  | feed given => exact absurd rfl (whole given)

/-- What a row of additions makes of a draft. -/
def addAll (draft : FileDraft) (additions : List Addition) : FileDraft :=
  additions.foldl (fun draft addition => (draft.add addition).1) draft

theorem addAll_eq (legal : isBlockSize draft.maxBlockSize) (additions : List Addition) :
    draft.addAll additions =
      draft.extended (additions.flatMap (Addition.blocks draft.maxBlockSize)) := by
  induction additions generalizing draft with
  | nil => exact draft.extended_nil.symm
  | cons addition rest step =>
    have later := @step (draft.extended (addition.blocks draft.maxBlockSize)) legal
    rw [extended_extended] at later
    rw [addAll, List.foldl_cons, add_eq legal]
    exact later

end FileDraft

/-- A file that a builder is asked for, and what its draft is given then. -/
structure Contribution where
  path : String
  additions : List Addition
  deriving DecidableEq, Repr

/-- The blocks that come of a contribution to the file with a path. -/
def Contribution.blocks (max : UInt32) (path : String) (contribution : Contribution) : List Block :=
  if Path.normalize contribution.path = .ok path then
    contribution.additions.flatMap (Addition.blocks max)
  else []

/-- The blocks that come together for the file with a path, in the order of the contributions. -/
def gathered (max : UInt32) (contributions : List Contribution) (path : String) : List Block :=
  contributions.flatMap (Contribution.blocks max path)

theorem gathered_of_unspelled {max : UInt32} {path : String} {contributions : List Contribution}
    (unspelled : ∀ contribution ∈ contributions, Path.normalize contribution.path ≠ .ok path) :
    gathered max contributions path = [] :=
  List.flatMap_eq_nil_iff.mpr fun contribution member => if_neg (unspelled contribution member)

theorem fits_of_mem_gathered {max : UInt32} {path : String}
    {contributions : List Contribution} {block : Block}
    (member : block ∈ gathered max contributions path) : block.fits max := by
  obtain ⟨contribution, -, among⟩ := List.mem_flatMap.mp member
  rw [Contribution.blocks, List.mem_ite_nil_right] at among
  obtain ⟨addition, -, given⟩ := List.mem_flatMap.mp among.2
  exact Addition.fits_of_mem_blocks given

namespace ManifestBuilder

variable {builder : ManifestBuilder} {path other : String} {contribution : Contribution}

/-- The blocks that a builder has for a path so far. -/
def blocks (builder : ManifestBuilder) (path : String) : List Block := builder.drafts.getD path []

/-- Asks for a file and adds to its draft, unless the path is refused. -/
def contribute (builder : ManifestBuilder) (contribution : Contribution) : ManifestBuilder :=
  match builder.file contribution.path with
  | .ok draft => builder.put (draft.addAll contribution.additions)
  | .error _ => builder

def after (builder : ManifestBuilder) (contributions : List Contribution) : ManifestBuilder :=
  contributions.foldl contribute builder

theorem file_eq (builder : ManifestBuilder) (path : String) :
    builder.file path = (Path.normalize path).map fun spelling =>
      ⟨spelling, builder.maxBlockSize, builder.blocks spelling⟩ := by
  rw [file]
  cases Path.normalize path with
  | ok spelling => rfl
  | error fault => rfl

theorem blocks_put (builder : ManifestBuilder) (draft : FileDraft) (path : String) :
    (builder.put draft).blocks path = if draft.path = path then draft.blocks else builder.blocks path := by
  rw [blocks, put, Std.ExtTreeMap.getD_insert]
  simp only [Std.LawfulEqCmp.compare_eq_iff_eq]
  rfl

theorem file?_build_eq (builder : ManifestBuilder) (path : String) :
    builder.build.file? path =
      if builder.blocks path = [] then none else some (builder.blocks path) := by
  rw [file?_build, blocks, Std.ExtTreeMap.getD_eq_getD_getElem?]
  cases builder.drafts[path]? with
  | none => rfl
  | some blocks =>
    by_cases none : blocks = []
    · simp [none]
    · simp [none]

theorem maxBlockSize_contribute (builder : ManifestBuilder) (contribution : Contribution) :
    (builder.contribute contribution).maxBlockSize = builder.maxBlockSize := by
  rw [contribute]
  split
  · rfl
  · rfl

theorem blocks_contribute (legal : isBlockSize builder.maxBlockSize) (contribution : Contribution)
    (path : String) :
    (builder.contribute contribution).blocks path =
      builder.blocks path ++ contribution.blocks builder.maxBlockSize path := by
  rw [contribute, file_eq, Contribution.blocks]
  cases spelled : Path.normalize contribution.path with
  | error fault => simp [Except.map]
  | ok spelling =>
    simp only [Except.map]
    rw [FileDraft.addAll_eq legal, blocks_put]
    simp only [FileDraft.extended, Except.ok.injEq]
    by_cases here : spelling = path
    · simp [here]
    · simp [here]

theorem maxBlockSize_after (builder : ManifestBuilder) (contributions : List Contribution) :
    (builder.after contributions).maxBlockSize = builder.maxBlockSize := by
  induction contributions generalizing builder with
  | nil => rfl
  | cons contribution rest step =>
    exact (step (builder.contribute contribution)).trans (maxBlockSize_contribute builder contribution)

theorem blocks_after (legal : isBlockSize builder.maxBlockSize) (contributions : List Contribution)
    (path : String) :
    (builder.after contributions).blocks path =
      builder.blocks path ++ gathered builder.maxBlockSize contributions path := by
  induction contributions generalizing builder with
  | nil => exact (List.append_nil _).symm
  | cons contribution rest step =>
    have size := maxBlockSize_contribute builder contribution
    have later := @step (builder.contribute contribution) (size ▸ legal)
    rw [size, blocks_contribute legal, List.append_assoc] at later
    exact later

theorem blocks_after_create {size : UInt32} (legal : isBlockSize size)
    (contributions : List Contribution) (path : String) :
    ((ManifestBuilder.empty size).after contributions).blocks path =
      gathered size contributions path :=
  (blocks_after legal contributions path).trans (List.nil_append _)

theorem contribute_of_refused {fault : ManifestFault} (refused : builder.file path = .error fault)
    (additions : List Addition) : builder.contribute ⟨path, additions⟩ = builder := by
  rw [contribute, refused]

/-- Putting a draft back as it was taken changes no row. -/
theorem blocks_put_of_file {draft : FileDraft} (taken : builder.file path = .ok draft) (other : String) :
    (builder.put draft).blocks other = builder.blocks other := by
  rw [file_eq, map_eq_ok_iff] at taken
  obtain ⟨spelling, -, rfl⟩ := taken
  rw [blocks_put]
  by_cases here : spelling = other
  · rw [if_pos here, here]
  · rw [if_neg here]

/-- Where a draft refuses what it is given, its builder keeps the rows of all files. -/
theorem blocks_contribute_of_refused {draft : FileDraft} {addition : Addition}
    (taken : builder.file path = .ok draft) (refused : (draft.add addition).1 = draft) (other : String) :
    (builder.contribute ⟨path, [addition]⟩).blocks other = builder.blocks other := by
  have single : draft.addAll [addition] = draft := refused
  simp only [contribute, taken, single]
  exact blocks_put_of_file taken other

end ManifestBuilder

namespace Manifest

/-- Inserts files one after another, up to the first that is refused. -/
def insertAll (manifest : Manifest) (files : List (String × List Block)) :
    Except ManifestFault Manifest :=
  files.foldlM (fun manifest file => manifest.insertFile file.1 file.2) manifest

theorem insertAll_eq_ok {manifest : Manifest} {files : List (String × List Block)}
    (normal : ∀ file ∈ files, Path.IsNormal file.1)
    (insertable : ∀ file ∈ files, Insertable manifest.maxBlockSize file.2) :
    manifest.insertAll files = .ok (manifest.after (insertions files)) := by
  induction files generalizing manifest with
  | nil => rfl
  | cons file rest step =>
    obtain ⟨first, normal⟩ := List.forall_mem_cons.mp normal
    obtain ⟨first', insertable⟩ := List.forall_mem_cons.mp insertable
    have sets : (Edit.insert file.1 file.2).Sets manifest.maxBlockSize file.1 file.2 :=
      .insert first first'
    have done : manifest.insertFile file.1 file.2 = .ok (manifest.step (.insert file.1 file.2)) :=
      insertFile_eq_ok_iff.mpr ⟨file.1, first, first', step_of_sets sets⟩
    have size := maxBlockSize_step manifest (.insert file.1 file.2)
    rw [insertAll, List.foldlM_cons, done]
    exact step normal (size.symm ▸ insertable)

end Manifest

/-- Inserting the files that were asked for, with the blocks gathered for them, leads to what a builder
makes of the contributions. -/
theorem insertAll_gathered {size : UInt32} (legal : isBlockSize size)
    {contributions : List Contribution} {files : List (String × List Block)}
    (few : ∀ path, (gathered size contributions path).length < Numeral.capacity 32)
    (asked : ∀ path, path ∈ files.map Prod.fst ↔
      ∃ contribution ∈ contributions, Path.normalize contribution.path = .ok path)
    (told : ∀ file ∈ files, file.2 = gathered size contributions file.1) :
    (Manifest.empty size).insertAll files =
      .ok ((ManifestBuilder.empty size).after contributions).build := by
  have normal : ∀ file ∈ files, Path.IsNormal file.1 := by
    intro file member
    obtain ⟨contribution, -, accepted⟩ := (asked file.1).mp (List.mem_map_of_mem member)
    exact Path.isNormal_of_normalize accepted
  have insertable : ∀ file ∈ files, Manifest.Insertable size file.2 := by
    intro file member
    rw [told file member]
    exact ⟨few file.1, fun block => fits_of_mem_gathered⟩
  rw [Manifest.insertAll_eq_ok normal insertable]
  refine congrArg Except.ok (Manifest.eq_of_file? ?_ fun path => ?_)
  · exact (Manifest.maxBlockSize_after (.empty size) (Manifest.insertions files)).trans
      (ManifestBuilder.maxBlockSize_after (.empty size) contributions).symm
  · rw [Manifest.file?_after_insertions normal insertable told, ManifestBuilder.file?_build_eq,
      ManifestBuilder.blocks_after_create legal]
    by_cases among : path ∈ files.map Prod.fst
    · rw [if_pos among]
    · -- Nobody asked for this path, so no blocks came together for it either.
      have unasked := mt (asked path).mpr among
      rw [if_neg among, gathered_of_unspelled fun contribution member accepted =>
        unasked ⟨contribution, member, accepted⟩, if_pos rfl, Manifest.file?_empty]

/-- A builder makes the manifest that comes of inserting, in any order, every file it was asked for
with the blocks gathered for it. A path that is refused leaves the builder as it is, and a block or
data that are refused leave the blocks of all files as they are. -/
theorem build_eq_insertions {size : UInt32} (legal : isBlockSize size)
    (contributions : List Contribution)
    (few : ∀ path, (gathered size contributions path).length < Numeral.capacity 32) :
    ∃ builder start, ManifestBuilder.create size = .ok builder ∧ Manifest.create size = .ok start ∧
      (∀ files : List (String × List Block),
        (∀ path, path ∈ files.map Prod.fst ↔
          ∃ contribution ∈ contributions, Path.normalize contribution.path = .ok path) →
        (∀ file ∈ files, file.2 = gathered size contributions file.1) →
          start.insertAll files = .ok (builder.after contributions).build) ∧
      (∀ path, (builder.after contributions).blocks path = gathered size contributions path) ∧
      (∀ (state : ManifestBuilder) path fault additions, state.file path = .error fault →
        state.contribute ⟨path, additions⟩ = state) ∧
      ∀ (draft : FileDraft) addition fault, (∀ feed, addition ≠ .feed feed) →
        (draft.add addition).2 = .error fault →
          (draft.add addition).1 = draft ∧
          ∀ (state : ManifestBuilder) path, state.file path = .ok draft →
            ∀ other, (state.contribute ⟨path, [addition]⟩).blocks other = state.blocks other := by
  have created : ManifestBuilder.create size = .ok (.empty size) := by
    rw [ManifestBuilder.create, checkBlockSize_eq_ok_iff.mpr legal]
    rfl
  refine ⟨.empty size, .empty size, created, Manifest.create_eq_ok_iff.mpr ⟨legal, rfl⟩,
    fun files => insertAll_gathered legal few, ManifestBuilder.blocks_after_create legal contributions,
    fun state path fault additions refused => state.contribute_of_refused refused additions,
    fun draft addition fault whole refused => ?_⟩
  have kept := FileDraft.add_of_refused whole refused
  exact ⟨kept, fun state path taken => state.blocks_contribute_of_refused taken kept⟩

theorem length_gathered_le (max : UInt32) (contributions : List Contribution) (path : String) :
    (gathered max contributions path).length ≤
      ((contributions.flatMap Contribution.additions).flatMap (Addition.blocks max)).length := by
  rw [List.flatMap_assoc, gathered]
  induction contributions with
  | nil => exact Nat.le_refl _
  | cons contribution rest step =>
    rw [List.flatMap_cons, List.flatMap_cons, List.length_append, List.length_append]
    refine Nat.add_le_add ?_ step
    rw [Contribution.blocks]
    split
    · exact Nat.le_refl _
    · exact Nat.zero_le _

/-- Contributions to two spellings of one path with another file between them, and with a path, a
block and data that are refused, and a feed that breaks. -/
def workpieces : List Contribution :=
  [⟨"bin\\tool", [.block (.uniform 1), .block { Block.uniform 2 with size := 0 }]⟩,
    ⟨"../tool", [.data [1]]⟩, ⟨"readme", [.data [], .data [2, 3]]⟩,
    ⟨"bin/tool", [.feed ⟨[[4], [5, 6]], .closed⟩]⟩, ⟨"log", [.feed ⟨[[7]], .broken .idle⟩]⟩]

theorem build_workpieces : ∃ builder start,
    ManifestBuilder.create smallestBlockSize = .ok builder ∧
    Manifest.create smallestBlockSize = .ok start ∧
    start.insertAll [("readme", [.ofData [2, 3]]), ("log", []),
      ("bin/tool", [.uniform 1, .ofData [4, 5, 6]])] = .ok (builder.after workpieces).build := by
  have few (path : String) :
      (gathered smallestBlockSize workpieces path).length < Numeral.capacity 32 :=
    Nat.lt_of_le_of_lt (length_gathered_le _ _ path) (by decide +kernel)
  obtain ⟨builder, start, built, created, agree, -⟩ :=
    build_eq_insertions (by decide) workpieces few
  refine ⟨builder, start, built, created, agree _ (fun path => ?_) ?_⟩
  · have spellings : workpieces.map (Path.normalize ∘ Contribution.path) =
        [.ok "bin/tool", .error (.path (.malformed "../tool")), .ok "readme", .ok "bin/tool",
          .ok "log"] := by
      decide +kernel
    have spelled : (∃ contribution ∈ workpieces, Path.normalize contribution.path = .ok path) ↔
        .ok path ∈ workpieces.map (Path.normalize ∘ Contribution.path) := by
      rw [List.mem_map]
      rfl
    rw [spelled, spellings]
    simp only [List.map_cons, List.map_nil, List.mem_cons, Except.ok.injEq, List.not_mem_nil,
      reduceCtorEq, or_false, false_or]
    tauto
  · decide +kernel

end BuildDelivery
