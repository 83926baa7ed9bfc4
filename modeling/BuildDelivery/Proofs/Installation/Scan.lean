import BuildDelivery.Installation
import BuildDelivery.Proofs.Manifest.Editing
import BuildDelivery.Proofs.Manifest.Reading
import BuildDelivery.Proofs.Outcome
import BuildDelivery.Proofs.Path.Names

/-! What a scan finds. The files below a directory are described in the order of the names on the
way to them, each under the path that its names make. A name can hold a backslash, which a path
reads as a slash: then two files can mean one path, and the later one decides about it, also when
it is empty. Where every file with content decides about its own path, the manifest has one entry
for each of them and no other. -/

set_option autoImplicit false

namespace BuildDelivery

theorem compare_append (front left right : List String) :
    compare (front ++ left) (front ++ right) = compare left right := by
  induction front with
  | nil => rfl
  | cons name front step =>
    rw [List.cons_append, List.cons_append, List.compare_cons_cons, step]
    simp

namespace FileTree

variable {tree : FileTree} {root : String} {size : UInt32} {manifest next : Manifest}
  {place names : List String} {content : Bytes} {files : List (String × Bytes)}

/-- No name holds a character. -/
def Avoids (tree : FileTree) (character : Char) : Prop :=
  ∀ entry ∈ tree.entries.toList, ∀ name ∈ entry.1, character ∉ name.toList

instance (tree : FileTree) (character : Char) : Decidable (tree.Avoids character) :=
  inferInstanceAs (Decidable (∀ entry ∈ tree.entries.toList, ∀ name ∈ entry.1,
    character ∉ name.toList))

/-- A file below a directory, by the names on the way to it from there. -/
def HasFile (tree : FileTree) (root : String) (names : List String) (content : Bytes) : Prop :=
  ∃ place, tree.locate root = .ok place ∧ names ≠ [] ∧
    tree.entries[place ++ names]? = some (.file content)

/-- What an entry is for the files below a place. -/
def fileBelow? (place : List String) : List String × Entry → Option (List String × Bytes)
  | (_, .directory) => none
  | (other, .file content) =>
    if place.isPrefixOf other ∧ other ≠ place then some (other.drop place.length, content) else none

/-- The files below a place, by the names on the way to them from there and in their order. -/
def filesAt (tree : FileTree) (place : List String) : List (List String × Bytes) :=
  tree.entries.toList.filterMap (fileBelow? place)

theorem fileBelow?_eq_some_iff {entry : List String × Entry} :
    fileBelow? place entry = some (names, content) ↔
      names ≠ [] ∧ entry = (place ++ names, .file content) := by
  obtain ⟨other, content' | _⟩ := entry
  · simp only [fileBelow?, Option.ite_none_right_eq_some, Option.some.injEq, Prod.mk.injEq,
      Entry.file.injEq, List.isPrefixOf_iff_prefix]
    constructor
    · rintro ⟨⟨below, apart⟩, rfl, rfl⟩
      have whole := List.prefix_iff_eq_append.mp below
      refine ⟨fun none => apart ?_, whole.symm, rfl⟩
      rw [← whole, none, List.append_nil]
    · rintro ⟨some, rfl, rfl⟩
      refine ⟨⟨List.prefix_append place names, fun same => some ?_⟩, List.drop_left, rfl⟩
      exact List.append_right_eq_self.mp same
  · exact iff_of_false nofun fun ⟨_, same⟩ => nomatch same

theorem mem_filesAt_iff :
    (names, content) ∈ tree.filesAt place ↔
      names ≠ [] ∧ tree.entries[place ++ names]? = some (.file content) := by
  rw [filesAt, List.mem_filterMap, ← Std.ExtTreeMap.mem_toList_iff_getElem?_eq_some]
  constructor
  · rintro ⟨entry, member, found⟩
    obtain ⟨some, rfl⟩ := fileBelow?_eq_some_iff.mp found
    exact ⟨some, member⟩
  · rintro ⟨some, member⟩
    exact ⟨_, member, fileBelow?_eq_some_iff.mpr ⟨some, rfl⟩⟩

theorem hasFile_iff (located : tree.locate root = .ok place) :
    tree.HasFile root names content ↔ (names, content) ∈ tree.filesAt place := by
  rw [mem_filesAt_iff]
  constructor
  · rintro ⟨place', located', some, found⟩
    cases located.symm.trans located'
    exact ⟨some, found⟩
  · rintro ⟨some, found⟩
    exact ⟨place, located, some, found⟩

theorem ordered_filesAt (tree : FileTree) (place : List String) :
    (tree.filesAt place).Pairwise fun left right => compare left.1 right.1 = .lt := by
  refine List.pairwise_filterMap.mpr ?_
  refine Std.ExtTreeMap.ordered_keys_toList.imp fun {left right} before file found file' found' => ?_
  obtain ⟨-, rfl⟩ := fileBelow?_eq_some_iff.mp found
  obtain ⟨-, rfl⟩ := fileBelow?_eq_some_iff.mp found'
  rwa [compare_append] at before

/-- The files under the paths that their names make. -/
def underPaths (files : List (List String × Bytes)) : List (String × Bytes) :=
  files.map fun file => ("/".intercalate file.1, file.2)

theorem inspect_of_located (located : tree.locate root = .ok place) :
    tree.inspect root = (tree.entry? place).elim (.error .notFound) .ok := by
  rw [inspect, located]
  simp only [bind, Except.bind]
  cases tree.entry? place with
  | none => rfl
  | some entry => rfl

theorem filesBelow_of_directory (located : tree.locate root = .ok place)
    (found : tree.entry? place = some .directory) :
    tree.filesBelow root = .ok (underPaths (tree.filesAt place)) := by
  have seen := inspect_of_located located
  rw [found, Option.elim_some] at seen
  simp only [filesBelow, seen, below, located, found, bind, Except.bind, pure, Except.pure,
    Except.mapError, Except.map, Except.ok.injEq]
  rw [List.filterMap_filterMap, underPaths, filesAt, List.map_filterMap]
  refine List.filterMap_congr fun entry _ => ?_
  obtain ⟨other, content | _⟩ := entry
  · simp only [fileBelow?]
    split
    · rfl
    · rfl
  · simp only [fileBelow?]
    split
    · rfl
    · rfl

/-- A walk starts at a directory, or at a file, which then has no name. -/
theorem filesBelow_eq_ok_iff :
    tree.filesBelow root = .ok files ↔
      (∃ content, tree.inspect root = .ok (.file content) ∧ files = [("", content)]) ∨
        ∃ place, tree.locate root = .ok place ∧ tree.entry? place = some .directory ∧
          files = underPaths (tree.filesAt place) := by
  cases located : tree.locate root with
  | error fault =>
    have lost : tree.inspect root = .error fault := by
      rw [inspect, located]
      rfl
    rw [filesBelow, lost]
    simp
  | ok place =>
    have seen := inspect_of_located located
    cases found : tree.entry? place with
    | none =>
      rw [found, Option.elim_none] at seen
      rw [filesBelow, seen]
      simp [found]
    | some entry =>
      rw [found, Option.elim_some] at seen
      cases entry with
      | file content =>
        rw [filesBelow, seen]
        simp [found, eq_comm]
      | directory =>
        rw [filesBelow_of_directory located found, seen]
        simp [found, eq_comm]

/-- A file that a manifest of a block size can describe. -/
structure Describable (size : UInt32) (file : String × Bytes) : Prop where
  accepted : ∃ spelling, Path.normalize file.1 = .ok spelling
  addressable : (Block.row size file.2).length < Numeral.capacity 32

/-- The edit that describes a file. -/
def description (size : UInt32) (file : String × Bytes) : Edit :=
  .insert file.1 (Block.row size file.2)

theorem sets_description_iff {file : String × Bytes} {path : String} {blocks : List Block}
    (describable : Describable size file) :
    (description size file).Sets size path blocks ↔
      Path.normalize file.1 = .ok path ∧ blocks = Block.row size file.2 := by
  constructor
  · rintro ⟨accepted, -⟩
    exact ⟨accepted, rfl⟩
  · rintro ⟨accepted, rfl⟩
    exact .insert accepted (Block.insertable_row_iff.mpr describable.addressable)

theorem not_sets_descriptions {path : String}
    (unspelled : ∀ file ∈ files, Path.normalize file.1 ≠ .ok path) :
    ∀ edit ∈ files.map (description size), ∀ blocks, ¬edit.Sets size path blocks := by
  refine List.forall_mem_map.mpr fun file member blocks sets => ?_
  obtain ⟨accepted, -⟩ := sets
  exact unspelled file member accepted

theorem file?_of_unspelled {path : String}
    (unspelled : ∀ file ∈ files, Path.normalize file.1 ≠ .ok path) :
    (manifest.after (files.map (description manifest.maxBlockSize))).file? path =
      manifest.file? path :=
  Manifest.file?_after_of_unset (not_sets_descriptions unspelled)

/-- The last file that a path can mean decides about it. -/
theorem file?_of_last {before behind : List (String × Bytes)} {file : String × Bytes} {path : String}
    (describable : Describable manifest.maxBlockSize file)
    (spelled : Path.normalize file.1 = .ok path)
    (unspelled : ∀ later ∈ behind, Path.normalize later.1 ≠ .ok path) :
    (manifest.after ((before ++ file :: behind).map (description manifest.maxBlockSize))).file? path =
      if Block.row manifest.maxBlockSize file.2 = [] then none
      else some (Block.row manifest.maxBlockSize file.2) := by
  have sets := (sets_description_iff describable).mpr ⟨spelled, rfl⟩
  rw [List.map_append, List.map_cons]
  exact Manifest.file?_after_of_sets sets (not_sets_descriptions unspelled)

theorem insertFile_row_eq_ok_iff {file : String × Bytes} :
    manifest.insertFile file.1 (Block.row manifest.maxBlockSize file.2) = .ok next ↔
      Describable manifest.maxBlockSize file ∧
        next = manifest.step (description manifest.maxBlockSize file) := by
  rw [Manifest.insertFile_eq_ok_iff]
  constructor
  · rintro ⟨spelling, accepted, insertable, rfl⟩
    have describable : Describable manifest.maxBlockSize file :=
      ⟨⟨spelling, accepted⟩, Block.insertable_row_iff.mp insertable⟩
    have sets := (sets_description_iff describable).mpr ⟨accepted, rfl⟩
    exact ⟨describable, (Manifest.step_of_sets sets).symm⟩
  · rintro ⟨describable, rfl⟩
    obtain ⟨spelling, accepted⟩ := describable.accepted
    have sets := (sets_description_iff describable).mpr ⟨accepted, rfl⟩
    exact ⟨spelling, accepted, Block.insertable_row_iff.mpr describable.addressable,
      Manifest.step_of_sets sets⟩

theorem describe_eq_ok_iff (positive : 0 < manifest.maxBlockSize.toNat) :
    describe manifest files = .ok next ↔
      (∀ file ∈ files, Describable manifest.maxBlockSize file) ∧
        next = manifest.after (files.map (description manifest.maxBlockSize)) := by
  induction files generalizing manifest with
  | nil => simp [describe, Manifest.after, eq_comm]
  | cons file rest step =>
    -- The draft begins empty, so what the file leaves in it is all that it has.
    have drafted : FileDraft.appendFeed ⟨file.1, manifest.maxBlockSize, []⟩ (.whole file.2 .closed) =
        (⟨file.1, manifest.maxBlockSize, Block.row manifest.maxBlockSize file.2⟩,
          .ok file.2.length) := by
      rw [FileDraft.appendFeed_closed positive rfl, Feed.bytes_whole]
      rfl
    have first := @insertFile_row_eq_ok_iff manifest
    rw [describe, drafted, List.forall_mem_cons]
    dsimp only
    cases done : manifest.insertFile file.1 (Block.row manifest.maxBlockSize file.2) with
    | error fault =>
      constructor
      · intro described
        cases described
      · intro described
        cases done.symm.trans (first.mpr ⟨described.1.1, rfl⟩)
    | ok following =>
      obtain ⟨describable, rfl⟩ := first.mp done
      have size := Manifest.maxBlockSize_step manifest (description manifest.maxBlockSize file)
      simp only [step (size.symm ▸ positive), size, describable, true_and]
      rfl

/-- A scan succeeds where all files can be described, and describes each of them. -/
theorem scan_eq_ok_iff :
    tree.scan root size = .ok manifest ↔ isBlockSize size ∧
      ∃ files, tree.filesBelow root = .ok files ∧ (∀ file ∈ files, Describable size file) ∧
        manifest = (Manifest.empty size).after (files.map (description size)) := by
  constructor
  · intro scanned
    obtain ⟨_, checked, walked⟩ := bind_eq_ok_iff.mp scanned
    obtain ⟨files, found, described⟩ := bind_eq_ok_iff.mp walked
    have legal := checkBlockSize_eq_ok_iff.mp (mapError_eq_ok_iff.mp checked)
    exact ⟨legal, files, found, (describe_eq_ok_iff (toNat_pos_of_isBlockSize legal)).mp described⟩
  · rintro ⟨legal, files, found, described⟩
    have checked := checkBlockSize_eq_ok_iff.mpr legal
    have described : describe (Manifest.empty size) files = .ok manifest :=
      (describe_eq_ok_iff (toNat_pos_of_isBlockSize legal)).mpr described
    exact bind_eq_ok_iff.mpr ⟨(), mapError_eq_ok_iff.mpr checked,
      bind_eq_ok_iff.mpr ⟨files, found, described⟩⟩

theorem reached_of_scan (scanned : tree.scan root size = .ok manifest) :
    manifest.Reached size := by
  obtain ⟨legal, files, -, -, rfl⟩ := scan_eq_ok_iff.mp scanned
  exact ⟨_, _, Manifest.create_eq_ok_iff.mpr ⟨legal, rfl⟩, rfl⟩

/-- Of the files below a directory that a path can mean, the one that is walked last. -/
structure Decides (tree : FileTree) (root path : String) (names : List String) (content : Bytes) :
    Prop where
  file : tree.HasFile root names content
  spelled : Path.normalize ("/".intercalate names) = .ok path
  last : ∀ others content', tree.HasFile root others content' →
    Path.normalize ("/".intercalate others) = .ok path → others = names ∨ compare others names = .lt

theorem last_of_row {α : Type} (row : List α) (claim : α → Prop) :
    (∀ item ∈ row, ¬claim item) ∨
      ∃ before item behind, row = before ++ item :: behind ∧ claim item ∧
        ∀ later ∈ behind, ¬claim later := by
  induction row with
  | nil => exact .inl fun item member => nomatch member
  | cons first rest step =>
    rcases step with none | ⟨before, item, behind, rfl, holds, none⟩
    · by_cases holds : claim first
      · exact .inr ⟨[], first, rest, rfl, holds, none⟩
      · exact .inl (List.forall_mem_cons.mpr ⟨holds, none⟩)
    · exact .inr ⟨first :: before, item, behind, rfl, holds, none⟩

theorem decides_iff (located : tree.locate root = .ok place) {path : String} :
    tree.Decides root path names content ↔
      ∃ before behind, tree.filesAt place = before ++ (names, content) :: behind ∧
        Path.normalize ("/".intercalate names) = .ok path ∧
        ∀ later ∈ behind, Path.normalize ("/".intercalate later.1) ≠ .ok path := by
  have ordered := tree.ordered_filesAt place
  constructor
  · rintro ⟨file, spelled, last⟩
    obtain ⟨before, behind, split⟩ := List.append_of_mem ((hasFile_iff located).mp file)
    refine ⟨before, behind, split, spelled, fun later member spelled' => ?_⟩
    rw [split, List.pairwise_append, List.pairwise_cons] at ordered
    have behindIt : compare names later.1 = .lt := ordered.2.1.1 later member
    have file' : tree.HasFile root later.1 later.2 := by
      rw [hasFile_iff located, split]
      exact List.mem_append_right before (List.mem_cons_of_mem _ member)
    rcases last later.1 later.2 file' spelled' with same | before
    · rw [same, Std.ReflOrd.compare_self] at behindIt
      cases behindIt
    · exact Std.OrientedCmp.not_lt_of_lt before behindIt
  · rintro ⟨before, behind, split, spelled, unspelled⟩
    have member : (names, content) ∈ tree.filesAt place := by
      rw [split]
      exact List.mem_append_right before List.mem_cons_self
    refine ⟨(hasFile_iff located).mpr member, spelled, fun others content' file' spelled' => ?_⟩
    rw [hasFile_iff located, split, List.mem_append, List.mem_cons] at file'
    rw [split, List.pairwise_append] at ordered
    rcases file' with earlier | same | later
    · exact .inr (ordered.2.2 _ earlier _ List.mem_cons_self)
    · exact .inl (Prod.mk.inj same).1
    · exact absurd spelled' (unspelled _ later)

/-- A directory can be scanned if the paths of its files are accepted and no file has more blocks than
there are indices. -/
theorem exists_scan (legal : isBlockSize size) (located : tree.locate root = .ok place)
    (directory : tree.entry? place = some .directory)
    (accepted : ∀ names content, tree.HasFile root names content →
      ∃ spelling, Path.normalize ("/".intercalate names) = .ok spelling)
    (short : ∀ names content, tree.HasFile root names content →
      (Block.row size content).length < Numeral.capacity 32) :
    ∃ manifest, tree.scan root size = .ok manifest := by
  refine ⟨_, scan_eq_ok_iff.mpr ⟨legal, _, filesBelow_of_directory located directory, ?_, rfl⟩⟩
  refine List.forall_mem_map.mpr fun file member => ?_
  have held : tree.HasFile root file.1 file.2 := (hasFile_iff located).mpr member
  exact ⟨accepted _ _ held, short _ _ held⟩

theorem located_of_scan (scanned : tree.scan root size = .ok manifest) :
    isBlockSize size ∧ ∃ place, tree.locate root = .ok place ∧
      (∀ file ∈ underPaths (tree.filesAt place), Describable size file) ∧
      manifest = (Manifest.empty size).after
        ((underPaths (tree.filesAt place)).map (description size)) := by
  obtain ⟨legal, files, found, describable, same⟩ := scan_eq_ok_iff.mp scanned
  rcases filesBelow_eq_ok_iff.mp found with ⟨content, -, rfl⟩ | ⟨place, located, -, rfl⟩
  · -- A file that has no name has no path.
    obtain ⟨⟨spelling, accepted⟩, -⟩ := describable _ List.mem_cons_self
    cases accepted
  · exact ⟨legal, place, located, describable, same⟩

theorem file?_of_decides (scanned : tree.scan root size = .ok manifest) {path : String}
    (decides : tree.Decides root path names content) :
    manifest.file? path = if content = [] then none else some (Block.row size content) := by
  obtain ⟨legal, place, located, describable, rfl⟩ := located_of_scan scanned
  obtain ⟨before, behind, split, spelled, unspelled⟩ := (decides_iff located).mp decides
  have parts : underPaths (tree.filesAt place) =
      underPaths before ++ ("/".intercalate names, content) :: underPaths behind := by
    rw [split, underPaths, List.map_append, List.map_cons]
    rfl
  rw [parts] at describable ⊢
  have here : Describable size ("/".intercalate names, content) :=
    describable _ (List.mem_append_right _ List.mem_cons_self)
  have unspelled : ∀ later ∈ underPaths behind, Path.normalize later.1 ≠ .ok path :=
    List.forall_mem_map.mpr unspelled
  refine (file?_of_last here spelled unspelled).trans ?_
  exact if_congr (Block.row_eq_nil_iff (toNat_pos_of_isBlockSize legal)) rfl rfl

theorem file?_of_undecided (scanned : tree.scan root size = .ok manifest) {path : String}
    (undecided : ¬∃ names content, tree.Decides root path names content) :
    manifest.file? path = none := by
  obtain ⟨-, place, located, -, rfl⟩ := located_of_scan scanned
  have unspelled : ∀ file ∈ underPaths (tree.filesAt place), Path.normalize file.1 ≠ .ok path := by
    rcases last_of_row (tree.filesAt place) fun file =>
        Path.normalize ("/".intercalate file.1) = .ok path with
      unspelled | ⟨before, file, behind, split, spelled, unspelled⟩
    · exact List.forall_mem_map.mpr unspelled
    · exact absurd ⟨_, _, (decides_iff located).mpr ⟨before, behind, split, spelled, unspelled⟩⟩
        undecided
  exact (file?_of_unspelled unspelled).trans (Manifest.file?_empty size path)

/-- A manifest has an entry for a path exactly if the last file that the path can mean has content. -/
theorem file?_eq_some_iff (scanned : tree.scan root size = .ok manifest) {path : String}
    {blocks : List Block} :
    manifest.file? path = some blocks ↔
      ∃ names content, tree.Decides root path names content ∧ content ≠ [] ∧
        blocks = Block.row size content := by
  constructor
  · intro held
    by_cases decided : ∃ names content, tree.Decides root path names content
    · obtain ⟨names, content, decides⟩ := decided
      rw [file?_of_decides scanned decides] at held
      obtain ⟨some, same⟩ := Option.ite_none_left_eq_some.mp held
      exact ⟨names, content, decides, some, (Option.some.inj same).symm⟩
    · rw [file?_of_undecided scanned decided] at held
      cases held
  · rintro ⟨names, content, decides, some, rfl⟩
    rw [file?_of_decides scanned decides, if_neg some]

theorem notMem_of_hasFile {character : Char} (avoids : tree.Avoids character)
    (file : tree.HasFile root names content) : ∀ name ∈ names, character ∉ name.toList := by
  obtain ⟨place, -, -, found⟩ := file
  have listed := Std.ExtTreeMap.mem_toList_iff_getElem?_eq_some.mpr found
  exact fun name member => avoids _ listed name (List.mem_append_right place member)

theorem content_unique {content' : Bytes} (file : tree.HasFile root names content)
    (file' : tree.HasFile root names content') : content = content' := by
  obtain ⟨place, located, -, found⟩ := file
  obtain ⟨place', located', -, found'⟩ := file'
  cases located.symm.trans located'
  cases found.symm.trans found'
  rfl

/-- The files below a directory have different paths. -/
theorem names_unique (named : tree.Avoids '/') {others : List String} {content' : Bytes}
    (file : tree.HasFile root names content) (file' : tree.HasFile root others content')
    (same : "/".intercalate names = "/".intercalate others) : names = others := by
  have some : names ≠ [] := file.choose_spec.2.1
  have some' : others ≠ [] := file'.choose_spec.2.1
  exact Path.eq_of_intercalate_eq some some' (notMem_of_hasFile named file)
    (notMem_of_hasFile named file') same

theorem accepted_of_scan (scanned : tree.scan root size = .ok manifest)
    (file : tree.HasFile root names content) :
    ∃ spelling, Path.normalize ("/".intercalate names) = .ok spelling := by
  obtain ⟨-, place, located, describable, -⟩ := located_of_scan scanned
  exact (describable _ (List.mem_map_of_mem ((hasFile_iff located).mp file))).accepted

/-- The manifest has one entry for each file with content, under its path, and no other. -/
def Represents (manifest : Manifest) (size : UInt32) (tree : FileTree) (root : String) : Prop :=
  ∀ path blocks, manifest.file? path = some blocks ↔
    ∃ names content, tree.HasFile root names content ∧ content ≠ [] ∧
      path = "/".intercalate names ∧ blocks = Block.row size content

/-- Every file with content decides about its own path. -/
def Unshadowed (tree : FileTree) (root : String) : Prop :=
  ∀ names content, tree.HasFile root names content → content ≠ [] →
    tree.Decides root ("/".intercalate names) names content

theorem represents_iff (named : tree.Avoids '/') (scanned : tree.scan root size = .ok manifest) :
    Represents manifest size tree root ↔ tree.Unshadowed root := by
  constructor
  · intro represents names content file some
    have entry := (represents _ _).mpr ⟨names, content, file, some, rfl, rfl⟩
    obtain ⟨others, content', decides, some', -⟩ := (file?_eq_some_iff scanned).mp entry
    -- The file that decides has an entry too, so its path is in its one spelling.
    have entry' := (represents _ _).mpr ⟨others, content', decides.file, some', rfl, rfl⟩
    have same := ((reached_of_scan scanned).valid.normal _ _ entry').eq decides.spelled
    obtain rfl := names_unique named file decides.file same
    rwa [content_unique file decides.file]
  · intro unshadowed path blocks
    constructor
    · intro held
      obtain ⟨names, content, decides, some, same⟩ := (file?_eq_some_iff scanned).mp held
      have own := (unshadowed names content decides.file some).spelled
      exact ⟨names, content, decides.file, some, Except.ok.inj (decides.spelled.symm.trans own), same⟩
    · rintro ⟨names, content, file, some, rfl, rfl⟩
      exact (file?_eq_some_iff scanned).mpr
        ⟨names, content, unshadowed names content file some, some, rfl⟩

/-- Without backslashes no file stands in the way of another. -/
theorem unshadowed_of_plain (named : tree.Avoids '/') (scanned : tree.scan root size = .ok manifest)
    (plain : ∀ names content, tree.HasFile root names content → ∀ name ∈ names, '\\' ∉ name.toList) :
    tree.Unshadowed root := by
  have normal {names : List String} {content : Bytes} (file : tree.HasFile root names content) :
      Path.IsNormal ("/".intercalate names) := by
    obtain ⟨spelling, accepted⟩ := accepted_of_scan scanned file
    exact Path.isNormal_of_notMem accepted
      (Path.notMem_intercalate (by decide) (plain names content file))
  intro names content file _
  refine ⟨file, normal file, fun others content' file' spelled => .inl ?_⟩
  exact (names_unique named file file' ((normal file').eq spelled)).symm

/-- What a scan comes to. The manifest is valid, and the last file that a path can mean decides
about the path. The files below the directory have different paths, so the manifest represents them
one by one, exactly if every file with content decides about its own path. That is so where no
name holds a backslash. -/
theorem scan_meaning (named : tree.Avoids '/') (scanned : tree.scan root size = .ok manifest) :
    manifest.check = .ok () ∧ manifest.maxBlockSize = size ∧
      (∀ path blocks, manifest.file? path = some blocks ↔
        ∃ names content, tree.Decides root path names content ∧ content ≠ [] ∧
          blocks = Block.row size content) ∧
      (∀ names others content content', tree.HasFile root names content →
        tree.HasFile root others content' →
          "/".intercalate names = "/".intercalate others → names = others) ∧
      (Represents manifest size tree root ↔ tree.Unshadowed root) ∧
      ((∀ names content, tree.HasFile root names content → ∀ name ∈ names, '\\' ∉ name.toList) →
        Represents manifest size tree root) := by
  have reached := reached_of_scan scanned
  have exactly := represents_iff named scanned
  exact ⟨Manifest.check_eq_ok_iff.mpr reached.valid, reached.maxBlockSize_eq,
    fun _ _ => file?_eq_some_iff scanned, fun _ _ _ _ => names_unique named, exactly,
    fun plain => exactly.mpr (unshadowed_of_plain named scanned plain)⟩

/-- A directory with a file in a directory, an empty file and another file beside it. -/
def workshop : FileTree where
  entries := .ofList [(["w"], Entry.directory), (["w", "bin"], Entry.directory),
    (["w", "bin", "tool"], Entry.file [1, 2, 3]), (["w", "empty"], Entry.file []),
    (["w", "readme"], Entry.file [4])]
  workingDirectory := []

/-- Its build, in which the empty file has no place. -/
def workshopBuild : Manifest :=
  ((Manifest.empty smallestBlockSize).setFile "bin/tool" [Block.ofData [1, 2, 3]]).setFile
    "readme" [Block.ofData [4]]

theorem meaning_of_workshop :
    workshop.Avoids '/' ∧ workshop.scan "w" smallestBlockSize = .ok workshopBuild ∧
      workshopBuild.check = .ok () ∧ Represents workshopBuild smallestBlockSize workshop "w" := by
  have named : workshop.Avoids '/' := by decide +kernel
  have scanned : workshop.scan "w" smallestBlockSize = .ok workshopBuild := by decide +kernel
  have plain : workshop.Avoids '\\' := by decide +kernel
  obtain ⟨checked, -, -, -, -, represented⟩ := scan_meaning named scanned
  exact ⟨named, scanned, checked, represented fun _ _ file => notMem_of_hasFile plain file⟩

/-- A file with content, and an empty file whose name is another spelling of its path. -/
def shadow : FileTree where
  entries := .ofList [(["d"], Entry.directory), (["d", "a"], Entry.directory),
    (["d", "a", "b"], Entry.file [1]), (["d", "a\\b"], Entry.file [])]
  workingDirectory := []

/-- The scan succeeds, and the file is lost. -/
theorem scan_loses_file :
    shadow.Avoids '/' ∧
      shadow.scan "d" smallestBlockSize = .ok (Manifest.empty smallestBlockSize) ∧
      shadow.HasFile "d" ["a", "b"] [1] ∧
      ¬Represents (Manifest.empty smallestBlockSize) smallestBlockSize shadow "d" := by
  have file : shadow.HasFile "d" ["a", "b"] [1] :=
    ⟨["d"], by decide +kernel, by decide, by decide +kernel⟩
  refine ⟨by decide +kernel, by decide +kernel, file, fun represents => ?_⟩
  have entry := (represents _ _).mpr ⟨_, _, file, by decide, rfl, rfl⟩
  cases (Manifest.file?_empty _ _).symm.trans entry

end FileTree

end BuildDelivery
