import BuildDelivery.Proofs.Delta.Layout

/-! From layouts back to manifests. The files of a layout are inserted in the order of their
paths. Several paths can be spellings of one file, and then the last of them decides about it,
also when it has no blocks. -/

set_option autoImplicit false

namespace BuildDelivery.Layout

/-- A file of a layout under its path. -/
abbrev Entry := String × Std.ExtTreeMap UInt32 Block

theorem getElem?_of_isContiguous {start number : Nat} {indices : List UInt32} {index : UInt32}
    (gapless : isContiguous start indices) (found : indices[number]? = some index) :
    index.toNat = start + number := by
  induction indices generalizing start number with
  | nil => cases found
  | cons first rest step =>
    simp only [isContiguous, Bool.and_eq_true, beq_iff_eq] at gapless
    cases number with
    | zero =>
      cases found
      exact gapless.1
    | succ number =>
      have later := step gapless.2 (by simpa using found)
      omega

/-- In a row without gaps every block stands at its index. -/
theorem getElem?_row {file : Std.ExtTreeMap UInt32 Block} (gapless : isContiguous 0 file.keys)
    (index : UInt32) : (row file)[index.toNat]? = file[index]? := by
  -- Without gaps the entry at a place has the place as its index.
  have place {number : Nat} {key : UInt32} {block : Block}
      (found : file.toList[number]? = some (key, block)) : key.toNat = number := by
    rw [← Std.ExtTreeMap.map_fst_toList_eq_keys] at gapless
    have listed : (file.toList.map Prod.fst)[number]? = some key := by
      rw [List.getElem?_map, found]
      rfl
    rw [getElem?_of_isContiguous gapless listed, Nat.zero_add]
  refine Option.ext fun block => ?_
  rw [row, List.getElem?_map, Option.map_eq_some_iff, ← Std.ExtTreeMap.mem_toList_iff_getElem?_eq_some]
  constructor
  · rintro ⟨⟨key, content⟩, found, rfl⟩
    rw [← UInt32.toNat_inj.mp (place found)]
    exact List.mem_of_getElem? found
  · intro member
    obtain ⟨number, found⟩ := List.mem_iff_getElem?.mp member
    exact ⟨(index, block), by rw [place found]; exact found, rfl⟩

/-- A map lists its entries in the one order that goes up. -/
theorem toList_eq_of_ascending {file : Std.ExtTreeMap UInt32 Block}
    {entries : List (UInt32 × Block)}
    (ascending : entries.Pairwise fun left right => compare left.1 right.1 = .lt)
    (same : ∀ (index : UInt32) (block : Block),
      (index, block) ∈ entries ↔ file[index]? = some block) :
    file.toList = entries := by
  have nodup {list : List (UInt32 × Block)}
      (sorted : list.Pairwise fun left right => compare left.1 right.1 = .lt) : list.Nodup :=
    sorted.imp fun {left right} before equal =>
      ne_of_compare_eq_lt before (congrArg Prod.fst equal)
  have members : ∀ entry, entry ∈ file.toList ↔ entry ∈ entries := by
    rintro ⟨index, block⟩
    rw [Std.ExtTreeMap.mem_toList_iff_getElem?_eq_some, same]
  have sorted := Std.ExtTreeMap.ordered_keys_toList (t := file)
  -- Two sorted lists with the same members are permutations of each other, hence equal.
  refine List.Perm.eq_of_pairwise (fun left right _ _ before after => ?_) sorted ascending
    ((List.perm_ext_iff_of_nodup (nodup sorted) (nodup ascending)).mpr members)
  exact absurd after (Std.OrientedCmp.not_lt_of_lt before)

/-- The blocks of a row under their indices. -/
def indexed (blocks : List Block) : List (UInt32 × Block) :=
  (locate "" 0 blocks).map fun entry => (entry.1.index, entry.2)

theorem ascending_indexed {blocks : List Block} (small : blocks.length < Numeral.capacity 32) :
    (indexed blocks).Pairwise fun left right => compare left.1 right.1 = .lt := by
  have sorted : (locate "" 0 blocks).Pairwise _ := pairwise_locate (by omega)
  refine List.pairwise_map.mpr (sorted.imp_of_mem fun {left right} here there before => ?_)
  -- All locations have the same path, so the order is that of their indices.
  obtain ⟨_, -, place⟩ := mem_locate_iff.mp here
  obtain ⟨_, -, place'⟩ := mem_locate_iff.mp there
  rw [place, place'] at before ⊢
  rcases Location.compare_eq_lt_iff.mp before with paths | ⟨-, indices⟩
  · exact absurd (paths.symm.trans Std.ReflOrd.compare_self) nofun
  · exact indices

theorem mem_indexed_iff {blocks : List Block} (small : blocks.length < Numeral.capacity 32)
    {index : UInt32} {block : Block} :
    (index, block) ∈ indexed blocks ↔ blocks[index.toNat]? = some block := by
  have bound : Numeral.capacity 32 = 2 ^ 32 := rfl
  rw [indexed, List.mem_map]
  constructor
  · rintro ⟨⟨place, content⟩, member, same⟩
    obtain ⟨number, found, rfl⟩ := mem_locate_iff.mp member
    obtain ⟨rfl, rfl⟩ := Prod.mk.inj same
    have inside := (List.getElem?_eq_some_iff.mp found).1
    rw [UInt32.toNat_ofNat', Nat.mod_eq_of_lt (by omega), Nat.zero_add]
    exact found
  · intro found
    refine ⟨(⟨"", index⟩, block), mem_locate_iff.mpr ⟨index.toNat, found, ?_⟩, rfl⟩
    rw [Nat.zero_add, UInt32.ofNat_toNat]

theorem isContiguous_locate (path : String) (start : Nat) (blocks : List Block)
    (small : start + blocks.length ≤ Numeral.capacity 32) :
    isContiguous start ((locate path start blocks).map fun entry => entry.1.index) := by
  induction blocks generalizing start with
  | nil => rfl
  | cons block rest step =>
    have bound : Numeral.capacity 32 = 2 ^ 32 := rfl
    rw [List.length_cons] at small
    simp only [locate, List.map_cons, isContiguous, Bool.and_eq_true, beq_iff_eq,
      UInt32.toNat_ofNat']
    exact ⟨Nat.mod_eq_of_lt (by omega), step (start + 1) (by omega)⟩

theorem map_snd_locate (path : String) (start : Nat) (blocks : List Block) :
    (locate path start blocks).map Prod.snd = blocks := by
  induction blocks generalizing start with
  | nil => rfl
  | cons block rest step => rw [locate, List.map_cons, step]

/-- A file that holds a row of blocks at their indices has no gap and gives back the row. -/
theorem row_of_getElem? (file : Std.ExtTreeMap UInt32 Block) (blocks : List Block)
    (small : blocks.length < Numeral.capacity 32)
    (holds : ∀ index : UInt32, file[index]? = blocks[index.toNat]?) :
    isContiguous 0 file.keys ∧ row file = blocks := by
  have listed : file.toList = indexed blocks := by
    apply toList_eq_of_ascending (ascending_indexed small)
    intro index block
    rw [mem_indexed_iff small, holds]
  constructor
  · rw [← Std.ExtTreeMap.map_fst_toList_eq_keys, listed, indexed, List.map_map]
    exact isContiguous_locate "" 0 blocks (by omega)
  · rw [row, listed, indexed, List.map_map]
    exact map_snd_locate "" 0 blocks

/-- A file of a layout that can become a file of a manifest. -/
structure Placeable (max : UInt32) (entry : Entry) : Prop where
  gapless : isContiguous 0 entry.2.keys
  insertable : Manifest.Insertable max (row entry.2)
  spelled : ∃ spelling, Path.normalize entry.1 = .ok spelling

/-- Sets the file that a path means. -/
def place (manifest : Manifest) (entry : Entry) : Manifest :=
  match Path.normalize entry.1 with
  | .ok spelling => manifest.setFile spelling (row entry.2)
  | .error _ => manifest

theorem maxBlockSize_place (manifest : Manifest)
    (entry : Entry) :
    (place manifest entry).maxBlockSize = manifest.maxBlockSize := by
  unfold place
  cases Path.normalize entry.1 with
  | ok spelling => rfl
  | error fault => rfl

theorem insertFile_eq_ok_iff {manifest next : Manifest} {path : String}
    {file : Std.ExtTreeMap UInt32 Block} (gapless : isContiguous 0 file.keys) :
    manifest.insertFile path (row file) = .ok next ↔
      Placeable manifest.maxBlockSize (path, file) ∧ next = place manifest (path, file) := by
  rw [Manifest.insertFile_eq_ok_iff]
  constructor
  · rintro ⟨spelling, spelled, insertable, rfl⟩
    exact ⟨⟨gapless, insertable, spelling, spelled⟩, by simp only [place, spelled]⟩
  · rintro ⟨⟨-, insertable, spelling, spelled⟩, rfl⟩
    exact ⟨spelling, spelled, insertable, by simp only [place, spelled]⟩

theorem insertFiles_eq_ok_iff {manifest result : Manifest}
    {files : List Entry} :
    insertFiles manifest files = .ok result ↔
      (∀ entry ∈ files, Placeable manifest.maxBlockSize entry) ∧
        result = files.foldl place manifest := by
  induction files generalizing manifest with
  | nil => simp [insertFiles, eq_comm]
  | cons entry rest step =>
    obtain ⟨path, file⟩ := entry
    rw [List.forall_mem_cons, List.foldl_cons]
    by_cases gapless : isContiguous 0 file.keys
    · cases inserted : manifest.insertFile path (row file) with
      | error fault =>
        have refused : ¬Placeable manifest.maxBlockSize (path, file) := fun placeable => by
          cases inserted.symm.trans ((insertFile_eq_ok_iff gapless).mpr ⟨placeable, rfl⟩)
        simp only [insertFiles, gapless, if_true, inserted, reduceCtorEq, refused, false_and]
      | ok next =>
        obtain ⟨placeable, rfl⟩ := (insertFile_eq_ok_iff gapless).mp inserted
        simp only [insertFiles, gapless, if_true, inserted, placeable, true_and]
        rw [step, maxBlockSize_place]
    · have refused : ¬Placeable manifest.maxBlockSize (path, file) := fun placeable =>
        gapless placeable.gapless
      simp only [insertFiles, gapless, if_false, reduceCtorEq, refused, false_and]

theorem toManifest_eq_ok_iff {layout : Layout} {max : UInt32} {result : Manifest} :
    layout.toManifest max = .ok result ↔
      isBlockSize max ∧ (∀ entry ∈ layout.toList, Placeable max entry) ∧
        result = layout.toList.foldl place (Manifest.empty max) := by
  unfold toManifest
  cases created : Manifest.create max with
  | error fault =>
    have illegal : ¬isBlockSize max := fun legal => by
      cases created.symm.trans (Manifest.create_eq_ok_iff.mpr ⟨legal, rfl⟩)
    simp only [reduceCtorEq, illegal, false_and]
  | ok manifest =>
    obtain ⟨legal, rfl⟩ := Manifest.create_eq_ok_iff.mp created
    simp only [legal, true_and]
    exact insertFiles_eq_ok_iff

theorem place_sound {manifest : Manifest} {entry : Entry}
    (placeable : Placeable manifest.maxBlockSize entry)
    (sound : manifest.Valid ∧ manifest.Addressable) :
    (place manifest entry).Valid ∧ (place manifest entry).Addressable := by
  obtain ⟨-, insertable, spelling, spelled⟩ := placeable
  simp only [place, spelled]
  exact ⟨sound.1.setFile (Path.isNormal_of_normalize spelled) insertable,
    sound.2.setFile insertable⟩

theorem foldl_place_sound {manifest : Manifest}
    {files : List Entry}
    (placeable : ∀ entry ∈ files, Placeable manifest.maxBlockSize entry)
    (sound : manifest.Valid ∧ manifest.Addressable) :
    ((files.foldl place manifest).Valid ∧ (files.foldl place manifest).Addressable) ∧
      (files.foldl place manifest).maxBlockSize = manifest.maxBlockSize := by
  induction files generalizing manifest with
  | nil => exact ⟨sound, rfl⟩
  | cons entry rest step =>
    rw [List.forall_mem_cons] at placeable
    have same := maxBlockSize_place manifest entry
    rw [List.foldl_cons, ← same]
    exact step (same ▸ placeable.2) (place_sound placeable.1 sound)

/-- What a layout becomes keeps the rules of manifests. -/
theorem sound_of_toManifest {layout : Layout} {max : UInt32} {result : Manifest}
    (built : layout.toManifest max = .ok result) :
    (result.Valid ∧ result.Addressable) ∧ result.maxBlockSize = max := by
  obtain ⟨legal, placeable, rfl⟩ := toManifest_eq_ok_iff.mp built
  exact foldl_place_sound placeable ⟨Manifest.valid_empty legal, Manifest.addressable_empty max⟩

/-- The entry that decides about a file: of all spellings of its path the last. -/
def lastSpelling? (files : List Entry) (path : String) :
    Option Entry :=
  files.reverse.find? fun entry => (Path.normalize entry.1).toOption = some path

theorem file?_place {manifest : Manifest} {entry : Entry}
    (spelled : ∃ spelling, Path.normalize entry.1 = .ok spelling) (path : String) :
    (place manifest entry).file? path =
      if (Path.normalize entry.1).toOption = some path then
        if row entry.2 = [] then none else some (row entry.2)
      else manifest.file? path := by
  obtain ⟨spelling, spelled⟩ := spelled
  simp only [place, spelled, Manifest.file?_setFile, Except.toOption, Option.some.injEq, eq_comm]

theorem file?_foldl_place {manifest : Manifest}
    {files : List Entry}
    (spelled : ∀ entry ∈ files, ∃ spelling, Path.normalize entry.1 = .ok spelling) (path : String) :
    (files.foldl place manifest).file? path =
      match lastSpelling? files path with
      | some entry => if row entry.2 = [] then none else some (row entry.2)
      | none => manifest.file? path := by
  induction files generalizing manifest with
  | nil => rfl
  | cons entry rest step =>
    rw [List.forall_mem_cons] at spelled
    rw [List.foldl_cons, step spelled.2, file?_place spelled.1, lastSpelling?, lastSpelling?,
      find?_reverse_cons]
    -- A later spelling decides in any case; without one it is up to this entry.
    cases List.find? (fun entry => decide ((Path.normalize entry.1).toOption = some path))
      rest.reverse with
    | some found => rfl
    | none =>
      by_cases here : (Path.normalize entry.1).toOption = some path
      · simp [here]
      · simp [here]

theorem toOption_normalize {path spelling : String} :
    (Path.normalize path).toOption = some spelling ↔ Path.normalize path = .ok spelling := by
  cases Path.normalize path with
  | ok other => simp [Except.toOption]
  | error fault => simp [Except.toOption]

theorem lastSpelling?_eq_none_iff {files : List Entry}
    {path : String} :
    lastSpelling? files path = none ↔ ∀ entry ∈ files, Path.normalize entry.1 ≠ .ok path := by
  simp only [lastSpelling?, List.find?_eq_none, List.mem_reverse, decide_eq_true_eq,
    toOption_normalize, ne_eq]

theorem mem_of_lastSpelling? {files : List Entry}
    {path : String} {entry : Entry}
    (last : lastSpelling? files path = some entry) :
    entry ∈ files ∧ Path.normalize entry.1 = .ok path := by
  refine ⟨List.mem_reverse.mp (List.mem_of_find?_eq_some last), toOption_normalize.mp ?_⟩
  simpa using List.find?_some last

/-- Nothing that spells the path stands behind the last spelling. -/
theorem lastSpelling?_last {files : List Entry}
    (sorted : files.Pairwise fun left right => compare left.1 right.1 = .lt)
    {path : String} {entry other : Entry}
    (last : lastSpelling? files path = some entry) (member : other ∈ files)
    (spelled : Path.normalize other.1 = .ok path) :
    other = entry ∨ compare other.1 entry.1 = .lt := by
  obtain ⟨-, behind, before, split, none⟩ := List.find?_eq_some_iff_append.mp last
  -- The search runs from the end, so nothing that it passed over spells the path.
  have whole : files = before.reverse ++ entry :: behind.reverse := by
    rw [← List.reverse_reverse files, split]
    simp
  rw [whole, List.mem_append, List.mem_cons, List.mem_reverse, List.mem_reverse] at member
  rw [whole, List.pairwise_append] at sorted
  rcases member with earlier | same | later
  · exact .inr (sorted.2.2 other (List.mem_reverse.mpr earlier) entry List.mem_cons_self)
  · exact .inl same
  · have missed := none other later
    simp only [toOption_normalize.mpr spelled, decide_true, Bool.not_true, Bool.false_eq_true] at missed

section
variable {layout : Layout} {max : UInt32} {result : Manifest}

theorem mem_of_block? {location : Location} {block : Block}
    (held : layout.block? location = some block) : location.path ∈ layout := by
  obtain ⟨file, found, -⟩ := Option.bind_eq_some_iff.mp held
  rw [Std.ExtTreeMap.mem_iff_isSome_getElem?, found]
  rfl

theorem mem_iff_toList {path : String} : path ∈ layout ↔ ∃ file, (path, file) ∈ layout.toList := by
  simp only [Std.ExtTreeMap.mem_toList_iff_getElem?_eq_some, Std.ExtTreeMap.mem_iff_isSome_getElem?,
    Option.isSome_iff_exists]

theorem spelled_of_toManifest (built : layout.toManifest max = .ok result) {path : String}
    (named : path ∈ layout) : ∃ spelling, Path.normalize path = .ok spelling := by
  obtain ⟨-, placeable, -⟩ := toManifest_eq_ok_iff.mp built
  obtain ⟨file, listed⟩ := mem_iff_toList.mp named
  exact (placeable _ listed).spelled

/-- A manifest holds at a location what the last spelling of its path has at the index. -/
theorem block?_of_toManifest (built : layout.toManifest max = .ok result) (location : Location) :
    result.block? location =
      (lastSpelling? layout.toList location.path).bind fun entry =>
        layout.block? ⟨entry.1, location.index⟩ := by
  obtain ⟨-, placeable, rfl⟩ := toManifest_eq_ok_iff.mp built
  have spelled : ∀ entry ∈ layout.toList, ∃ spelling, Path.normalize entry.1 = .ok spelling :=
    fun entry member => (placeable entry member).spelled
  rw [Manifest.block?, file?_foldl_place spelled]
  cases last : lastSpelling? layout.toList location.path with
  | none => rw [Manifest.file?_empty]; rfl
  | some entry =>
    obtain ⟨path, file⟩ := entry
    have member := (mem_of_lastSpelling? last).1
    have found := Std.ExtTreeMap.mem_toList_iff_getElem?_eq_some.mp member
    have held : layout.block? ⟨path, location.index⟩ = (row file)[location.index.toNat]? := by
      rw [getElem?_row (placeable _ member).gapless, block?, found]
      rfl
    rw [Option.bind_some, held]
    by_cases none : row file = []
    · simp [none]
    · simp [none]

/-- Where a path is not in its own spelling, neither it nor its spelling has a block left. -/
def SpellsApart (layout : Layout) : Prop :=
  ∀ path ∈ layout, ∀ spelling, Path.normalize path = .ok spelling → spelling ≠ path →
    ∀ index : UInt32, layout.block? ⟨path, index⟩ = none ∧ layout.block? ⟨spelling, index⟩ = none

/-- A manifest holds what its layout does exactly if no other spelling is in the way. -/
theorem block?_of_toManifest_iff (built : layout.toManifest max = .ok result) :
    (∀ location, result.block? location = layout.block? location) ↔ layout.SpellsApart := by
  constructor
  · intro same path named spelling spelled other index
    have valid := (sound_of_toManifest built).1.1
    -- A path that is not its own spelling is no path of a valid manifest.
    have gone {path spelling : String} (spelled : Path.normalize path = .ok spelling)
        (other : spelling ≠ path) : layout.block? ⟨path, index⟩ = none := by
      rw [← same]
      refine Option.eq_none_iff_forall_ne_some.mpr fun block held => ?_
      obtain ⟨blocks, found⟩ := Manifest.file?_of_block? held
      exact other ((valid.normal path blocks found).eq spelled)
    refine ⟨gone spelled other, ?_⟩
    rw [← same, block?_of_toManifest built]
    refine Option.bind_eq_none_iff.mpr fun last found => ?_
    obtain ⟨member, spelledLast⟩ := mem_of_lastSpelling? found
    refine gone spelledLast fun own => ?_
    -- The last spelling is behind this one, which is behind the spelling of both.
    obtain ⟨file, listed⟩ := mem_iff_toList.mp named
    have before := Path.compare_normalize spelled other
    obtain rfl | after := lastSpelling?_last Std.ExtTreeMap.ordered_keys_toList found listed spelled
    · exact other own
    · change compare path last.1 = .lt at after
      rw [← own] at after
      exact Std.OrientedCmp.not_lt_of_lt before after
  · intro apart location
    rw [block?_of_toManifest built]
    cases last : lastSpelling? layout.toList location.path with
    | none =>
      refine (Option.eq_none_iff_forall_ne_some.mpr fun block held => ?_).symm
      have named := mem_of_block? held
      obtain ⟨spelling, spelled⟩ := spelled_of_toManifest built named
      obtain ⟨file, listed⟩ := mem_iff_toList.mp named
      -- A path that is held but decides about nothing is not its own spelling.
      have other : spelling ≠ location.path := fun own =>
        lastSpelling?_eq_none_iff.mp last _ listed (own ▸ spelled)
      cases held.symm.trans (apart _ named spelling spelled other location.index).1
    | some entry =>
      obtain ⟨member, spelled⟩ := mem_of_lastSpelling? last
      change layout.block? ⟨entry.1, location.index⟩ = layout.block? location
      by_cases own : location.path = entry.1
      · rw [← own]
      · have named : entry.1 ∈ layout := mem_iff_toList.mpr ⟨entry.2, member⟩
        have gone := apart entry.1 named location.path spelled own location.index
        rw [gone.1]
        exact gone.2.symm

end

end BuildDelivery.Layout
