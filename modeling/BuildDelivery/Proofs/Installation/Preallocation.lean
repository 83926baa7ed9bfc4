import BuildDelivery.Proofs.Installation.Places
import BuildDelivery.Proofs.Installation.Verification
import BuildDelivery.Proofs.Manifest.Editing

/-! Making room for a build. The bytes that are missing are counted by what the paths of the files
lead to before anything is made; then the files are made or get their lengths one after another. Each
step adds directories and changes the file at one place, the places of different files are different,
and so the second pass finds every file as the first did. The two agree about a file that a path does
not lead to as well, unless the root leads back from a directory that is missing: then what is below it
comes to light only when that directory is made. The bytes are counted in 64 bits. -/

set_option autoImplicit false

namespace BuildDelivery

namespace FileTree

variable {tree next later after : FileTree} {root path : String} {place : List String} {size : UInt64}
  {files : List (String × UInt64)}

/-- The length of the file that a path leads to, and zero if there is none. -/
def sizeAt (tree : FileTree) (path : String) : Nat :=
  match tree.inspect path with
  | .ok (.file content) => content.length
  | _ => 0

/-- A path that leads to something, or where nothing is found. -/
def Countable (tree : FileTree) (path : String) : Prop :=
  ∀ fault, tree.inspect path = .error fault → fault = .notFound

/-- The bytes that files lack of their lengths, by what their paths lead to. -/
def lacking (tree : FileTree) (files : List (String × UInt64)) : Nat :=
  (files.map fun file => file.2.toNat - tree.sizeAt file.1).sum

theorem growth_cons_eq_ok_iff {required : UInt64} :
    tree.growth ((path, size) :: files) = .ok required ↔
      tree.Countable path ∧ ∃ more, tree.growth files = .ok more ∧
        required = UInt64.ofNat (size.toNat - tree.sizeAt path) + more := by
  have counted (present : Nat) :
      (tree.growth files >>= fun more => pure (UInt64.ofNat (size.toNat - present) + more)) =
          .ok required ↔
        ∃ more, tree.growth files = .ok more ∧
          required = UInt64.ofNat (size.toNat - present) + more := by
    rw [bind_eq_ok_iff]
    refine exists_congr fun more => and_congr_right fun _ => ?_
    exact ⟨fun same => (Except.ok.inj same).symm, fun same => congrArg Except.ok same.symm⟩
  rw [growth, Countable, sizeAt]
  cases tree.inspect path with
  | ok entry =>
    cases entry with
    | file content => exact (counted content.length).trans (and_iff_right nofun).symm
    | directory => exact (counted 0).trans (and_iff_right nofun).symm
  | error fault =>
    by_cases missing : fault = .notFound
    · subst missing
      exact (counted 0).trans (and_iff_right fun fault same => (Except.error.inj same).symm).symm
    · refine iff_of_false (fun counted => ?_) fun ⟨countable, _⟩ => missing (countable fault rfl)
      simp [bind, Except.bind] at counted

/-- The count of the lacking bytes has 64 bits. -/
theorem growth_eq_ok_iff {required : UInt64} :
    tree.growth files = .ok required ↔ (∀ file ∈ files, tree.Countable file.1) ∧
      required = UInt64.ofNat (tree.lacking files) := by
  induction files generalizing required with
  | nil => simp [growth, lacking, eq_comm]
  | cons file rest step =>
    obtain ⟨path, size⟩ := file
    rw [growth_cons_eq_ok_iff, List.forall_mem_cons, lacking, List.map_cons, List.sum_cons,
      UInt64.ofNat_add, and_assoc]
    refine and_congr_right fun _ => ?_
    simp only [step, and_assoc, exists_and_left, exists_eq_left, lacking]

theorem makeFile_eq_ok_iff :
    tree.makeFile path size = (next, .ok ()) ↔ ∃ made, Widens tree made ∧
      tree.makeDirectory ((Path.parent? path).getD "") = (made, .ok ()) ∧ Opens made path ∧
        next = made.set (tree.target path) (.file (fitted size.toNat (tree.content (tree.target path)))) := by
  constructor
  · intro done
    rw [makeFile] at done
    split at done
    · cases congrArg Prod.snd done
    · next made way =>
      split at done
      · cases congrArg Prod.snd done
      · next sized resized =>
        obtain ⟨rfl, -⟩ := Prod.mk.inj done
        obtain ⟨opens, rfl⟩ := resize_eq_ok_iff.mp resized
        have widens := widens_of_makeDirectory way
        rw [widens.keeps.target, (widens.kept _).content]
        exact ⟨made, widens, way, opens, rfl⟩
  · rintro ⟨made, widens, way, opens, rfl⟩
    rw [← (widens.kept _).content, ← widens.keeps.target, makeFile, way]
    simp only [resize_eq_ok_iff.mpr ⟨opens, rfl⟩]

theorem makeFiles_cons_eq_ok_iff :
    tree.makeFiles ((path, size) :: files) = (after, .ok ()) ↔ ∃ next,
      tree.makeFile path size = (next, .ok ()) ∧ next.makeFiles files = (after, .ok ()) := by
  constructor
  · intro done
    rw [makeFiles] at done
    split at done
    · cases congrArg Prod.snd done
    · next next first => exact ⟨next, first, done⟩
  · rintro ⟨next, first, later⟩
    rw [makeFiles, first]
    exact later

/-- What has become of a tree in which files have got their lengths. -/
structure Made (files : List (String × UInt64)) (tree after : FileTree) : Prop where
  keeps : Keeps tree after
  opens : ∀ file ∈ files, after.Opens file.1
  sized : ∀ file ∈ files, after.entry? (tree.target file.1) =
    some (.file (fitted file.2.toNat (tree.content (tree.target file.1))))
  others : ∀ place, (∀ file ∈ files, place ≠ tree.target file.1) → Kept tree after place

theorem made_of_makeFile (done : tree.makeFile path size = (next, .ok ())) :
    Made [(path, size)] tree next := by
  obtain ⟨made, widens, -, opens, rfl⟩ := makeFile_eq_ok_iff.mp done
  have same := widens.keeps.target path
  have free := same ▸ opens.free
  have entry := @found_set made _ (ne_nil_of_free free)
    (.file (fitted size.toNat (tree.content (tree.target path))))
  have here := (entry (tree.target path)).trans (if_pos rfl)
  have keeps := @keeps_set made _ (.file (fitted size.toNat (tree.content (tree.target path)))) free
  refine ⟨widens.keeps.trans keeps, List.forall_mem_singleton.mpr ?_,
    List.forall_mem_singleton.mpr here, fun other apart => ?_⟩
  · exact opens.of_keeps keeps (by rw [same, here]; nofun)
  · have elsewhere := (entry other).trans (if_neg (apart _ (List.mem_singleton_self _)))
    exact (widens.kept other).trans (.inl elsewhere)

/-- A file that has got its length is found so while its place stays and no directory goes. -/
theorem makeFile_again (done : tree.makeFile path size = (next, .ok ())) (keeps : Keeps next later)
    (same : later.entry? (tree.target path) = next.entry? (tree.target path)) :
    later.makeFile path size = (later, .ok ()) := by
  have first := made_of_makeFile done
  have found := same.trans (first.sized _ (List.mem_singleton_self _))
  have place := (first.keeps.trans keeps).target path
  obtain ⟨made, widens, way, opens, rfl⟩ := makeFile_eq_ok_iff.mp done
  have free := widens.keeps.target path ▸ opens.free
  -- The way is there already, so nothing widens this time and the place is the one given its length.
  have kept : Keeps made later := (keeps_set free).trans keeps
  refine makeFile_eq_ok_iff.mpr ⟨later, .refl later, makeDirectory_again way kept,
    opens.of_keeps kept ?_, ?_⟩
  · rw [widens.keeps.target, found]
    nofun
  · rw [place, content_of_file found, fitted_of_length (length_fitted size.toNat _),
      set_eq_self (ne_nil_of_free free) found]

theorem Made.cons {file : String × UInt64} (first : Made [file] tree next) (later : Made files next after)
    (apart : ∀ other ∈ files, tree.target file.1 ≠ tree.target other.1) :
    Made (file :: files) tree after := by
  have same (path : String) : next.target path = tree.target path := first.keeps.target path
  have single := List.mem_singleton_self file
  -- A file is no directory, so what is kept of it is the file itself.
  have stays : after.entry? (tree.target file.1) = _ :=
    (later.others _ fun other member => same other.1 ▸ apart other member).eq_some
      (first.sized file single)
  refine ⟨first.keeps.trans later.keeps, List.forall_mem_cons.mpr ⟨?_, fun other member => ?_⟩,
    List.forall_mem_cons.mpr ⟨stays, fun other member => ?_⟩, fun place elsewhere => ?_⟩
  · exact (first.opens file single).of_keeps later.keeps (by rw [same, stays]; nofun)
  · exact later.opens other member
  · have sized := later.sized other member
    have untouched := first.others (tree.target other.1)
      (List.forall_mem_singleton.mpr (apart other member).symm)
    rwa [same, untouched.content] at sized
  · obtain ⟨here, there⟩ := List.forall_mem_cons.mp elsewhere
    exact (first.others place (List.forall_mem_singleton.mpr here)).trans
      (later.others place fun other member => same other.1 ▸ there other member)

theorem inspect_of_made (made : Made files tree after) {file : String × UInt64} (member : file ∈ files) :
    after.inspect file.1 = .ok (.file (fitted file.2.toNat (tree.content (tree.target file.1)))) := by
  rw [inspect_of_located (made.opens file member).located, made.keeps.target, made.sized file member]
  rfl

/-- Files that have got their lengths lack nothing. -/
theorem lacking_of_made (made : Made files tree after) : after.lacking files = 0 := by
  refine List.sum_eq_zero (List.forall_mem_map.mpr fun file member => ?_)
  rw [sizeAt, inspect_of_made made member]
  exact Nat.sub_eq_zero_of_le (length_fitted _ _).ge

theorem fitted_keeps (size : Nat) (before : Bytes) :
    (fitted size before).take (min before.length size) = before.take (min before.length size) ∧
      ∀ byte ∈ (fitted size before).drop (min before.length size), byte = 0 := by
  rcases Nat.le_total before.length size with grows | shrinks
  · rw [Nat.min_eq_left grows, fitted, List.take_of_length_le grows, List.take_left, List.drop_left,
      List.take_length]
    exact ⟨rfl, fun byte => List.eq_of_mem_replicate⟩
  · rw [Nat.min_eq_right shrinks, fitted, Nat.sub_eq_zero_of_le shrinks, List.replicate_zero,
      List.append_nil, List.take_take, Nat.min_self, List.drop_take_self]
    exact ⟨rfl, List.forall_mem_nil _⟩

/-- A path leads to a file of a length, which has the bytes in front that the file at its place had
before, as far as both go, and zeros behind. -/
def Sized (tree after : FileTree) (path : String) (size : Nat) : Prop :=
  ∃ content, after.inspect path = .ok (.file content) ∧ content.length = size ∧
    let before := tree.content (tree.target path)
    let kept := min before.length content.length
    content.take kept = before.take kept ∧ ∀ byte ∈ content.drop kept, byte = 0

theorem sized_of_made (made : Made files tree after) {file : String × UInt64} (member : file ∈ files) :
    Sized tree after file.1 file.2.toNat := by
  refine ⟨_, inspect_of_made made member, length_fitted _ _, ?_⟩
  rw [length_fitted]
  exact fitted_keeps _ _

/-- The paths of files lead to different places. -/
def Apart (tree : FileTree) (files : List (String × UInt64)) : Prop :=
  files.Pairwise fun file other => tree.target file.1 ≠ tree.target other.1

theorem made_of_makeFiles (apart : tree.Apart files) (done : tree.makeFiles files = (after, .ok ())) :
    Made files tree after := by
  induction files generalizing tree with
  | nil =>
    obtain ⟨rfl, -⟩ := Prod.mk.inj done
    exact ⟨.refl tree, nofun, nofun, fun place _ => .inl rfl⟩
  | cons file rest step =>
    obtain ⟨next, first, later⟩ := makeFiles_cons_eq_ok_iff.mp done
    obtain ⟨here, apart⟩ := List.pairwise_cons.mp apart
    have first := made_of_makeFile first
    have apart' : next.Apart rest := by simpa only [Apart, first.keeps.target] using apart
    exact first.cons (step apart' later) here

theorem makeFiles_again (apart : tree.Apart files) (done : tree.makeFiles files = (after, .ok ())) :
    after.makeFiles files = (after, .ok ()) := by
  induction files generalizing tree with
  | nil => rfl
  | cons file rest step =>
    obtain ⟨next, first, later⟩ := makeFiles_cons_eq_ok_iff.mp done
    obtain ⟨here, apart⟩ := List.pairwise_cons.mp apart
    have made := made_of_makeFile first
    have apart' : next.Apart rest := by simpa only [Apart, made.keeps.target] using apart
    -- The files made later are at other places, so they leave the first as it was made.
    have rested := made_of_makeFiles apart' later
    have found := made.sized _ (List.mem_singleton_self _)
    have stays := (rested.others _ fun other member =>
      made.keeps.target other.1 ▸ here other member).eq_some found
    exact makeFiles_cons_eq_ok_iff.mpr
      ⟨after, makeFile_again first rested.keeps (stays.trans found.symm), step apart' later⟩

/-- Where the directories of files are there and every path opens, all files are made. -/
theorem exists_makeFiles
    (ways : ∀ file ∈ files, tree.makeDirectory ((Path.parent? file.1).getD "") = (tree, .ok ()))
    (opens : ∀ file ∈ files, tree.Opens file.1) : ∃ after, tree.makeFiles files = (after, .ok ()) := by
  induction files generalizing tree with
  | nil => exact ⟨tree, rfl⟩
  | cons file rest step =>
    obtain ⟨way, ways⟩ := List.forall_mem_cons.mp ways
    obtain ⟨here, opens⟩ := List.forall_mem_cons.mp opens
    have first : tree.makeFile file.1 file.2 = _ :=
      makeFile_eq_ok_iff.mpr ⟨tree, .refl tree, way, here, rfl⟩
    have keeps := (made_of_makeFile first).keeps
    obtain ⟨after, later⟩ := step (fun other member => makeDirectory_again (ways other member) keeps)
      fun other member => (opens other member).of_keeps keeps <| by
        rw [found_set (ne_nil_of_free here.free)]
        split
        · nofun
        · exact (opens other member).free
    exact ⟨after, makeFiles_cons_eq_ok_iff.mpr ⟨_, first, later⟩⟩

theorem Opens.countable (opens : tree.Opens path) : tree.Countable path := by
  intro fault lost
  rw [inspect_of_located opens.located] at lost
  cases found : tree.entry? (tree.target path) with
  | some entry => rw [found] at lost; cases lost
  | none => rw [found] at lost; exact (Except.error.inj lost).symm

theorem checkPath_ne_notFound (path : String) : checkPath path ≠ .error .notFound := by
  rw [checkPath]
  split
  · nofun
  · split
    · nofun
    · nofun

/-- A path misses what is at its place only where it cannot be followed to there. -/
theorem follow_of_missed (some : path ≠ "") (missed : tree.inspect path = .error .notFound)
    (present : tree.entry? (tree.target path) ≠ none) :
    tree.follow (tree.start path) (Path.components path) = .error .notFound := by
  cases located : tree.locate path with
  | ok place =>
    obtain rfl := eq_target_of_locate located
    rw [inspect_of_located located] at missed
    obtain ⟨entry, found⟩ := Option.ne_none_iff_exists'.mp present
    rw [found] at missed
    cases missed
  | error fault =>
    rw [inspect, located] at missed
    cases Except.error.inj missed
    cases safe : checkPath path with
    | error fault =>
      rw [locate, safe] at located
      obtain rfl : fault = .notFound := Except.error.inj located
      exact absurd safe (checkPath_ne_notFound path)
    | ok =>
      rw [locate, safe] at located
      simpa only [bind, Except.bind, if_neg some] using located

/-- A path that misses nothing tells of a file what is at its place. -/
theorem sizeAt_eq (countable : tree.Countable path)
    (unmissed : tree.inspect path = .error .notFound → tree.entry? (tree.target path) = none) :
    tree.sizeAt path = (tree.content (tree.target path)).length := by
  cases inspected : tree.inspect path with
  | ok entry =>
    obtain ⟨place, located, found⟩ := located_of_inspect inspected
    rw [sizeAt, inspected, ← eq_target_of_locate located]
    cases entry with
    | file content => rw [content_of_file found]
    | directory => rw [content_of_directory found]; rfl
  | error fault =>
    cases countable fault inspected
    rw [sizeAt, inspected, content_of_absent (unmissed inspected)]
    rfl

/-- A path tells of a file at most what is at its place. -/
theorem sizeAt_le (tree : FileTree) (path : String) :
    tree.sizeAt path ≤ (tree.content (tree.target path)).length := by
  cases inspected : tree.inspect path with
  | ok entry =>
    refine (sizeAt_eq (fun fault lost => ?_) fun lost => ?_).le
    · cases inspected.symm.trans lost
    · cases inspected.symm.trans lost
  | error fault =>
    rw [sizeAt, inspected]
    exact Nat.zero_le _

/-- The bytes by which what is at the places of files has grown. -/
def grown (files : List (String × UInt64)) (tree after : FileTree) : Nat :=
  (files.map fun file => (after.content (tree.target file.1)).length -
    (tree.content (tree.target file.1)).length).sum

theorem grown_of_made (made : Made files tree after) :
    grown files tree after = (files.map fun file =>
      file.2.toNat - (tree.content (tree.target file.1)).length).sum := by
  refine congrArg List.sum (List.map_congr_left fun file member => ?_)
  rw [content_of_file (made.sized file member), length_fitted]

theorem grown_le_lacking (made : Made files tree after) :
    grown files tree after ≤ tree.lacking files := by
  rw [grown_of_made made]
  exact List.sum_le_sum fun file _ => Nat.sub_le_sub_left (sizeAt_le tree file.1) _

theorem grown_eq_lacking (made : Made files tree after)
    (told : ∀ file ∈ files, tree.sizeAt file.1 = (tree.content (tree.target file.1)).length) :
    grown files tree after = tree.lacking files := by
  rw [grown_of_made made]
  refine congrArg List.sum (List.map_congr_left fun file member => ?_)
  rw [told file member]

theorem join_ne_empty (normal : Path.IsNormal path) (root : String) : Path.join root path ≠ "" := by
  intro none
  have names : [""] = Path.way root ++ Path.components path := by
    rw [← Path.components_join normal, none]
    rfl
  obtain ⟨name, member⟩ := List.exists_mem_of_ne_nil _ (Path.components_ne_nil path)
  have empty : name ∈ [""] := by
    rw [names]
    exact List.mem_append_right _ member
  have proper := normal.proper name member
  rw [List.mem_singleton.mp empty] at proper
  exact absurd proper (by decide)

/-- Where everything lies in a directory and the root misses nothing, no file is missed. -/
theorem absent_of_missed (grounded : tree.Grounded) (reaches : tree.Reaches root)
    (normal : Path.IsNormal path) (missed : tree.inspect (Path.join root path) = .error .notFound) :
    tree.entry? (tree.target (Path.join root path)) = none := by
  -- Otherwise its parents are there as well, and the way fails before the root is reached.
  by_contra present
  have lost := follow_of_missed (join_ne_empty normal root) missed present
  rw [target_join tree normal] at present
  have below : tree.entry? (tree.target root) = some .directory :=
    grounded.directory_of_append (Path.components_ne_nil path) present
  rw [start_join tree normal, Path.components_join normal, follow_append] at lost
  cases led : tree.follow (tree.start root) (Path.way root) with
  | ok middle =>
    rw [led] at lost
    have same : middle = tree.target root := (eq_walk_of_follow led).trans (walk_way _ root).symm
    rw [← same] at present
    rcases grounded.follow normal.proper present with found | long
    · cases lost.symm.trans found
    · cases lost.symm.trans long
  | error fault =>
    rw [led] at lost
    obtain rfl : fault = .notFound := Except.error.inj lost
    have unreached : tree.follow (tree.start root) (Path.components root) = .error .notFound := by
      rcases Path.components_eq_way root with same | same
      · rw [same, led]
      · rw [same, follow_append, led]
        rfl
    cases below.symm.trans (reaches unreached)

end FileTree

namespace Manifest

open FileTree

variable {manifest : Manifest} {tree after : FileTree} {root : String} {required : UInt64}

theorem forall_lengthsBelow_iff {claim : String × UInt64 → Prop} :
    (∀ file ∈ manifest.lengthsBelow root, claim file) ↔ ∀ path blocks,
      manifest.file? path = some blocks → claim (Path.join root path, BuildDelivery.totalSize blocks) := by
  rw [lengthsBelow, List.forall_mem_map]
  simp only [Prod.forall, mem_toList_iff]

/-- The files of a manifest lead to different places below a directory. -/
theorem apart_lengthsBelow (valid : manifest.Valid) (tree : FileTree) (root : String) :
    tree.Apart (manifest.lengthsBelow root) := by
  have normal (file : String × List Block) (member : file ∈ manifest.files.toList) :
      Path.IsNormal file.1 := valid.normal file.1 file.2 (mem_toList_iff.mp member)
  refine List.pairwise_map.mpr (List.Pairwise.imp_of_mem (fun here there before => ?_)
    Std.ExtTreeMap.ordered_keys_toList)
  exact target_join_ne tree (normal _ here) (normal _ there) (ne_of_compare_eq_lt before) root

theorem lacking_le_extent (manifest : Manifest) (tree : FileTree) (root : String) :
    tree.lacking (manifest.lengthsBelow root) ≤ manifest.extent := by
  rw [lacking, lengthsBelow, List.map_map]
  refine List.sum_le_sum fun entry _ => (Nat.sub_le _ _).trans ?_
  exact (toNat_totalSize entry.2).trans_le (Nat.mod_le _ _)

theorem spaceRequired_eq_ok_iff :
    manifest.spaceRequired tree root = .ok required ↔
      (∀ file ∈ manifest.lengthsBelow root, tree.Countable file.1) ∧
        required = UInt64.ofNat (tree.lacking (manifest.lengthsBelow root)) := by
  rw [spaceRequired, mapError_eq_ok_iff, growth_eq_ok_iff]

theorem preallocateWithin_eq_ok_iff {available? : Option UInt64} :
    manifest.preallocateWithin root available? tree = (after, .ok ()) ↔
      ∃ required, manifest.spaceRequired tree root = .ok required ∧
        (∀ available ∈ available?, required ≤ available) ∧
        tree.makeFiles (manifest.lengthsBelow root) = (after, .ok ()) := by
  rw [preallocateWithin]
  cases counted : manifest.spaceRequired tree root with
  | error failure => simp
  | ok required =>
    have enough : available?.filter (· < required) = none ↔
        ∀ available ∈ available?, required ≤ available := by
      simp only [Option.filter_eq_none_iff, decide_eq_true_eq, UInt64.not_lt, Option.mem_def]
    simp only [Except.ok.injEq, exists_eq_left', ← enough]
    cases available?.filter (· < required) with
    | some available => simp
    | none => simp [Prod.ext_iff, mapError_eq_ok_iff]

theorem of_preallocateWithin_refused {available? : Option UInt64} {available : UInt64}
    (refused : manifest.preallocateWithin root available? tree =
      (after, .error (.insufficientSpace required available))) :
    after = tree ∧ manifest.spaceRequired tree root = .ok required ∧
      available? = some available ∧ available < required := by
  rw [preallocateWithin] at refused
  split at refused
  · next failure counted =>
    obtain ⟨-, same⟩ := Prod.mk.inj refused
    obtain rfl := Except.error.inj same
    obtain ⟨fault, -, other⟩ := mapError_eq_error_iff.mp counted
    cases other
  · next needed counted =>
    split at refused
    · next held short =>
      obtain ⟨rfl, same⟩ := Prod.mk.inj refused
      obtain ⟨rfl, rfl⟩ := Failure.insufficientSpace.inj (Except.error.inj same)
      obtain ⟨found, short⟩ := Option.filter_eq_some_iff.mp short
      exact ⟨rfl, counted, found, of_decide_eq_true short⟩
    · obtain ⟨-, same⟩ := Prod.mk.inj refused
      obtain ⟨fault, -, other⟩ := mapError_eq_error_iff.mp same
      cases other

/-- The files of a manifest have grown by as many bytes as were counted, up to multiples of 2 ^ 64. -/
structure Grown (manifest : Manifest) (root : String) (tree after : FileTree) (required : UInt64) :
    Prop where
  counted : required.toNat = grown (manifest.lengthsBelow root) tree after % UInt64.size
  exactBelow : manifest.extent < UInt64.size →
    required.toNat = grown (manifest.lengthsBelow root) tree after

/-- What has become of a tree in which the files of a manifest have got their lengths. -/
structure Preallocated (manifest : Manifest) (root : String) (tree after : FileTree)
    (required : UInt64) : Prop where
  sized : ∀ path blocks, manifest.file? path = some blocks →
    Sized tree after (Path.join root path) (BuildDelivery.totalSize blocks).toNat
  others : ∀ place, (∀ path blocks, manifest.file? path = some blocks →
    place ≠ tree.target (Path.join root path)) → Kept tree after place
  complete : manifest.spaceRequired after root = .ok 0
  /-- No more bytes than were counted, also where the root leads back from a missing directory. -/
  bounded : manifest.extent < UInt64.size →
    grown (manifest.lengthsBelow root) tree after ≤ required.toNat
  grown : tree.Grounded → tree.Reaches root → manifest.Grown root tree after required
  again : ∀ available?, manifest.preallocateWithin root available? after = (after, .ok ())

/-- Where the root misses nothing, no file is missed when the bytes are counted. -/
theorem sizeAt_lengthsBelow (valid : manifest.Valid)
    (countable : ∀ file ∈ manifest.lengthsBelow root, tree.Countable file.1)
    (grounded : tree.Grounded) (reaches : tree.Reaches root) :
    ∀ file ∈ manifest.lengthsBelow root,
      tree.sizeAt file.1 = (tree.content (tree.target file.1)).length :=
  forall_lengthsBelow_iff.mpr fun path blocks held =>
    sizeAt_eq (forall_lengthsBelow_iff.mp countable path blocks held)
      (absent_of_missed grounded reaches (valid.normal path blocks held))

theorem preallocated (valid : manifest.Valid)
    (counted : manifest.spaceRequired tree root = .ok required)
    (done : tree.makeFiles (manifest.lengthsBelow root) = (after, .ok ())) :
    manifest.Preallocated root tree after required := by
  have apart := apart_lengthsBelow valid tree root
  have made := made_of_makeFiles apart done
  obtain ⟨countable, rfl⟩ := spaceRequired_eq_ok_iff.mp counted
  have most := lacking_le_extent manifest tree root
  have complete : manifest.spaceRequired after root = .ok 0 := by
    refine spaceRequired_eq_ok_iff.mpr ⟨fun file member => (made.opens file member).countable, ?_⟩
    rw [lacking_of_made made]
    rfl
  refine ⟨forall_lengthsBelow_iff.mp fun file => sized_of_made made, fun place elsewhere => ?_, complete,
    fun small => ?_, fun grounded reaches => ?_, fun available? => ?_⟩
  · exact made.others place (forall_lengthsBelow_iff.mpr elsewhere)
  · rw [UInt64.toNat_ofNat_of_lt' (most.trans_lt small)]
    exact grown_le_lacking made
  · have same := grown_eq_lacking made (sizeAt_lengthsBelow valid countable grounded reaches)
    refine ⟨?_, fun small => ?_⟩
    · rw [same, UInt64.toNat_ofNat']
    · rw [same, UInt64.toNat_ofNat_of_lt' (most.trans_lt small)]
  · exact preallocateWithin_eq_ok_iff.mpr
      ⟨0, complete, fun available _ => UInt64.zero_le, makeFiles_again apart done⟩

/-- The root is made before the bytes are counted, so nothing below it is missed. -/
theorem reaches_of_preallocate {available? : Option UInt64} (grounded : tree.Grounded)
    (done : manifest.preallocate root available? tree = (after, .ok ())) :
    ∃ made, tree.makeDirectory root = (made, .ok ()) ∧ made.Grounded ∧ made.Reaches root ∧
      manifest.preallocateWithin root available? made = (after, .ok ()) := by
  rw [preallocate] at done
  split at done
  · cases congrArg Prod.snd done
  · next made way =>
    obtain ⟨grounded', reaches⟩ := reaches_of_makeDirectory grounded way
    exact ⟨made, way, grounded', reaches, done⟩

/-- Making room for a manifest leads to its files with their lengths and to no other change, and where
the bytes are not enough nothing is done. The files grow by the bytes that were counted, unless the root
leads back from a directory that is missing; a root that is made first never does. -/
theorem layout_of_preallocation (accepted : manifest.check = .ok ()) (root : String)
    (available? : Option UInt64) (tree : FileTree) :
    (∀ after, manifest.preallocateWithin root available? tree = (after, .ok ()) →
      ∃ required, manifest.spaceRequired tree root = .ok required ∧
        manifest.Preallocated root tree after required) ∧
    (∀ after required available, manifest.preallocateWithin root available? tree =
        (after, .error (.insufficientSpace required available)) →
      after = tree ∧ manifest.spaceRequired tree root = .ok required ∧
        available? = some available ∧ available < required) ∧
    (tree.Grounded → ∀ after, manifest.preallocate root available? tree = (after, .ok ()) →
      ∃ made required, tree.makeDirectory root = (made, .ok ()) ∧
        manifest.spaceRequired made root = .ok required ∧
        manifest.Preallocated root made after required ∧ manifest.Grown root made after required) := by
  have valid := check_eq_ok_iff.mp accepted
  have within (tree after : FileTree)
      (done : manifest.preallocateWithin root available? tree = (after, .ok ())) :
      ∃ required, manifest.spaceRequired tree root = .ok required ∧
        manifest.Preallocated root tree after required := by
    obtain ⟨required, counted, -, done⟩ := preallocateWithin_eq_ok_iff.mp done
    exact ⟨required, counted, preallocated valid counted done⟩
  refine ⟨within tree, fun after required available => of_preallocateWithin_refused,
    fun grounded after done => ?_⟩
  obtain ⟨made, way, grounded', reaches, done⟩ := reaches_of_preallocate grounded done
  obtain ⟨required, counted, reached⟩ := within made after done
  exact ⟨made, required, way, counted, reached, reached.grown grounded' reaches⟩

/-- A directory with a file that is too short, one that is too long and one that no build has. -/
def site : FileTree where
  entries := .ofList [(["w"], Entry.directory), (["w", "bin"], Entry.directory),
    (["w", "bin", "tool"], Entry.file [1, 2]), (["w", "notes"], Entry.file [9]),
    (["w", "readme"], Entry.file [5, 6, 7])]
  workingDirectory := []

/-- A build for it with one more file, in a directory that is missing. -/
def plan : Manifest :=
  (((empty smallestBlockSize).setFile "bin/tool" [.uniform 1, .uniform 2, .uniform 3]).setFile
    "data/map" [.uniform 4]).setFile "readme" [.uniform 5]

theorem layout_of_site :
    (∃ after, plan.preallocateWithin "w" (some 2) site = (after, .ok ()) ∧
      plan.Preallocated "w" site after 2 ∧ plan.Grown "w" site after 2) ∧
    site.Grounded ∧ site.Reaches "w" ∧
    plan.preallocateWithin "w" (some 1) site = (site, .error (.insufficientSpace 2 1)) ∧
    ∃ after made, plan.preallocate "w" none site = (after, .ok ()) ∧
      plan.Grown "w" made after 2 := by
  have accepted : plan.check = .ok () := by decide +kernel
  have grounded : site.Grounded := by decide +kernel
  have reaches : site.Reaches "w" := grounded.reaches (by decide +kernel)
  have counted : plan.spaceRequired site "w" = .ok 2 := by decide +kernel
  have done : (plan.preallocateWithin "w" (some 2) site).2 = .ok () := by decide +kernel
  have refused : (plan.preallocateWithin "w" (some 1) site).2 = .error (.insufficientSpace 2 1) := by
    decide +kernel
  obtain ⟨required, counted', reached⟩ :=
    (layout_of_preallocation accepted "w" (some 2) site).1 _ (Prod.ext rfl done)
  cases counted.symm.trans counted'
  obtain ⟨same, -⟩ :=
    (layout_of_preallocation accepted "w" (some 1) site).2.1 _ _ _ (Prod.ext rfl refused)
  have done' : (plan.preallocate "w" none site).2 = .ok () := by decide +kernel
  have made' : site.makeDirectory "w" = (site, .ok ()) := by decide +kernel
  obtain ⟨made, required, way, counted', -, grew⟩ :=
    (layout_of_preallocation accepted "w" none site).2.2 grounded _ (Prod.ext rfl done')
  cases made'.symm.trans way
  cases counted.symm.trans counted'
  exact ⟨⟨_, Prod.ext rfl done, reached, reached.grown grounded reaches⟩, grounded, reaches,
    Prod.ext same refused, _, _, Prod.ext rfl done', grew⟩

theorem opens_copyNames : ∀ path ∈ copyNames, FileTree.empty.Opens path := by
  have unclosed : ∀ path ∈ copyNames, ¬(path.endsWith "/" && trimSlashes path != "") := by
    decide +kernel
  have located : ∀ path ∈ copyNames,
      FileTree.empty.locate path = .ok (FileTree.empty.target path) := by decide +kernel
  have free : ∀ path ∈ copyNames,
      FileTree.empty.entry? (FileTree.empty.target path) ≠ some .directory := by decide +kernel
  exact fun path member => ⟨unclosed path member, located path member, free path member⟩

theorem mem_copyNames {file : String × UInt64} (member : file ∈ vast.lengthsBelow "") :
    file.1 ∈ copyNames := by
  obtain ⟨⟨path, blocks⟩, listed, rfl⟩ := List.mem_map.mp member
  have held : vast.file? path = some blocks := mem_toList_iff.mp listed
  rw [vast, file?_after_copies insertable_fullRow fullRow_ne_nil] at held
  split at held
  · next named =>
    change Path.join "" path ∈ copyNames
    rwa [Path.join, if_pos (.inr rfl)]
  · cases held

/-- Files of more than 2 ^ 64 bytes in a directory that is empty. They grow by more bytes than can be
counted. -/
theorem vast_outgrows_count : ∃ after required,
    vast.preallocateWithin "" none .empty = (after, .ok ()) ∧
      vast.spaceRequired .empty "" = .ok required ∧
      required.toNat < FileTree.grown (vast.lengthsBelow "") .empty after := by
  have opens (file : String × UInt64) (member : file ∈ vast.lengthsBelow "") :
      FileTree.empty.Opens file.1 := opens_copyNames file.1 (mem_copyNames member)
  have ways : ∀ path ∈ copyNames,
      FileTree.empty.makeDirectory ((Path.parent? path).getD "") = (.empty, .ok ()) := by
    decide +kernel
  obtain ⟨after, done⟩ := exists_makeFiles (fun file member => ways file.1 (mem_copyNames member)) opens
  have counted : vast.spaceRequired .empty "" = .ok _ :=
    spaceRequired_eq_ok_iff.mpr ⟨fun file member => (opens file member).countable, rfl⟩
  have apart := apart_lengthsBelow reached_vast.valid .empty ""
  have grew : vast.extent ≤ FileTree.grown (vast.lengthsBelow "") .empty after := by
    rw [grown_of_made (made_of_makeFiles apart done), lengthsBelow, List.map_map]
    refine List.sum_le_sum fun entry member => ?_
    have whole := reached_vast.valid.toNat_totalSize_of_file reached_vast.addressable
      (mem_toList_iff.mp member)
    simp only [Function.comp_apply, content_empty, List.length_nil, Nat.sub_zero]
    exact whole.ge
  refine ⟨after, _, preallocateWithin_eq_ok_iff.mpr ⟨_, counted, nofun, done⟩, counted, ?_⟩
  exact (UInt64.toNat_lt _).trans_le (size_le_extent_vast.trans grew)

/-- What is counted is not what the files grow by if the root leads back from a missing directory,
which hides the files below it until it is made, or if there are too many bytes for 64 bits. -/
theorem growth_miscounted :
    (plan.check = .ok () ∧ site.Grounded ∧ plan.spaceRequired site "missing/../w" = .ok 5 ∧
      ∃ after, plan.preallocateWithin "missing/../w" none site = (after, .ok ()) ∧
        grown (plan.lengthsBelow "missing/../w") site after = 2) ∧
    vast.check = .ok () ∧ FileTree.empty.Grounded ∧ FileTree.empty.Reaches "" ∧
      ∃ after required, vast.preallocateWithin "" none .empty = (after, .ok ()) ∧
        vast.spaceRequired .empty "" = .ok required ∧
        required.toNat ≠ grown (vast.lengthsBelow "") .empty after := by
  have done : (plan.preallocateWithin "missing/../w" none site).2 = .ok () := by decide +kernel
  have grounded : FileTree.empty.Grounded := by decide +kernel
  obtain ⟨after, required, made, counted, less⟩ := vast_outgrows_count
  exact ⟨⟨by decide +kernel, by decide +kernel, by decide +kernel, _, Prod.ext rfl done,
    by decide +kernel⟩, check_eq_ok_iff.mpr reached_vast.valid, grounded,
    grounded.reaches (by decide +kernel), after, required, made, counted, Nat.ne_of_lt less⟩

end Manifest

end BuildDelivery
