import BuildDelivery.FileTree
import BuildDelivery.Proofs.Outcome
import BuildDelivery.Proofs.Path.Joining

/-! Where paths lead while a tree changes. The place of a path is told by its names alone; the tree
decides only whether it can be reached. Making directories adds directories where nothing was, giving
a file a length changes one place, and neither takes a directory away. So what was reached stays within
reach, and directories that were made once need not be made again. -/

set_option autoImplicit false

namespace BuildDelivery.FileTree

variable {tree next later : FileTree} {place names : List String} {name path root : String}

/-- The place that a name leads to from another. -/
def onward (place : List String) (name : String) : List String :=
  if Path.isIdle name then place else if name = ".." then place.dropLast else place ++ [name]

/-- The place that names lead to, whatever is there. -/
def walk (place names : List String) : List String := names.foldl onward place

/-- The place of a path, whether it can be reached or not. -/
def target (tree : FileTree) (path : String) : List String :=
  walk (tree.start path) (Path.components path)

theorem onward_of_isIdle (idle : Path.isIdle name) (place : List String) :
    onward place name = place := if_pos idle

theorem onward_of_isProper (proper : Path.isProper name.toList) (place : List String) :
    onward place name = place ++ [name] := by
  simp only [Path.isProper, Bool.and_eq_true, decide_eq_true_eq] at proper
  obtain ⟨⟨some, noPoint⟩, noPoints⟩ := proper
  have busy : ¬Path.isIdle name := fun idle => by
    rcases Bool.or_eq_true_iff.mp idle with none | point
    · exact some (by rw [eq_of_beq none]; rfl)
    · exact noPoint (by rw [eq_of_beq point]; rfl)
  rw [onward, if_neg busy, if_neg fun points => noPoints (by rw [points]; rfl)]

theorem walk_of_isProper (proper : ∀ name ∈ names, Path.isProper name.toList) (place : List String) :
    walk place names = place ++ names := by
  induction names generalizing place with
  | nil => exact (List.append_nil place).symm
  | cons name rest step =>
    obtain ⟨first, proper⟩ := List.forall_mem_cons.mp proper
    rw [walk, List.foldl_cons, onward_of_isProper first]
    exact (step proper _).trans (by rw [List.append_assoc]; rfl)

theorem walk_cons (place : List String) (name : String) (names : List String) :
    walk place (name :: names) = walk (onward place name) names := rfl

theorem short_of_isIdle (idle : Path.isIdle name) : ¬maxNameLength < name.utf8ByteSize := by
  rcases Bool.or_eq_true_iff.mp idle with none | point
  · rw [eq_of_beq none]
    decide
  · rw [eq_of_beq point]
    decide

theorem follow_cons (tree : FileTree) (place : List String) (name : String) (names : List String) :
    tree.follow place (name :: names) =
      match tree.entry? place with
      | none => .error .notFound
      | some (.file _) => .error .notADirectory
      | some .directory =>
        if maxNameLength < name.utf8ByteSize then .error .nameTooLong
        else tree.follow (onward place name) names := by
  rw [follow, onward]
  cases tree.entry? place with
  | none => rfl
  | some entry =>
    cases entry with
    | file content => rfl
    | directory =>
      by_cases idle : Path.isIdle name
      · simp only [idle, short_of_isIdle idle, if_true, if_false]
      · by_cases up : name = ".."
        · subst up
          rfl
        · simp only [idle, up, if_false]
          rfl

theorem follow_cons_of_directory (found : tree.entry? place = some .directory)
    (short : ¬maxNameLength < name.utf8ByteSize) :
    tree.follow place (name :: names) = tree.follow (onward place name) names := by
  rw [follow_cons, found]
  exact if_neg short

theorem follow_cons_eq_ok_iff {destination : List String} :
    tree.follow place (name :: names) = .ok destination ↔ tree.entry? place = some .directory ∧
      ¬maxNameLength < name.utf8ByteSize ∧ tree.follow (onward place name) names = .ok destination := by
  rw [follow_cons]
  split
  · next absent => simp [absent]
  · next found => simp [found]
  · next found =>
    rw [found]
    split
    · next long => simp [long]
    · next short => simp [short]

theorem eq_walk_of_follow {destination : List String}
    (followed : tree.follow place names = .ok destination) : destination = walk place names := by
  induction names generalizing place with
  | nil => exact (Except.ok.inj followed).symm
  | cons name rest step => exact step (follow_cons_eq_ok_iff.mp followed).2.2

theorem follow_append (tree : FileTree) (place front back : List String) :
    tree.follow place (front ++ back) =
      (tree.follow place front).bind fun middle => tree.follow middle back := by
  induction front generalizing place with
  | nil => rfl
  | cons name front step =>
    rw [List.cons_append, follow_cons, follow_cons]
    split
    · rfl
    · rfl
    · split
      · rfl
      · exact step _

/-! ## Entries -/

theorem found_set (below : place ≠ []) (entry : Entry) (other : List String) :
    FileTree.entry? (tree.set place entry) other =
      if other = place then some entry else tree.entry? other := by
  rw [ entry?, entry?, set, Std.ExtTreeMap.getElem?_insert]
  simp only [Std.LawfulEqCmp.compare_eq_iff_eq]
  by_cases here : other = place
  · rw [if_pos here, if_neg (here ▸ below), if_pos here.symm]
  · rw [if_neg here, if_neg (Ne.symm here)]

theorem ne_nil_of_free (other : tree.entry? place ≠ some .directory) : place ≠ [] := by
  rintro rfl
  exact other rfl

theorem set_eq_self {entry : Entry} (below : place ≠ []) (found : tree.entry? place = some entry) :
    tree.set place entry = tree := by
  rw [ entry?, if_neg below] at found
  have same : tree.entries.insert place entry = tree.entries := by
    refine Std.ExtTreeMap.ext_getElem? fun other => ?_
    rw [Std.ExtTreeMap.getElem?_insert]
    split
    · next here => rw [← Std.LawfulEqCmp.eq_of_compare here, found]
    · rfl
  rw [set, same]

theorem found_set_self (absent : tree.entry? place = none) :
    FileTree.entry? (tree.set place .directory) place = some .directory := by
  rw [found_set (ne_nil_of_free (by rw [absent]; nofun)), if_pos rfl]

/-- A place stays as it is, unless a directory is made where nothing was. -/
def Kept (tree next : FileTree) (place : List String) : Prop :=
  next.entry? place = tree.entry? place ∨
    tree.entry? place = none ∧ next.entry? place = some .directory

/-- A tree that differs from another in further directories alone. -/
structure Widens (tree next : FileTree) : Prop where
  workingDirectory : next.workingDirectory = tree.workingDirectory
  kept : ∀ place, Kept tree next place

/-- A tree that has all directories of another. -/
structure Keeps (tree next : FileTree) : Prop where
  workingDirectory : next.workingDirectory = tree.workingDirectory
  directory : ∀ place, tree.entry? place = some .directory → next.entry? place = some .directory

theorem Kept.trans (first : Kept tree next place) (second : Kept next later place) :
    Kept tree later place := by
  rcases second with same | ⟨absent, made⟩
  · rw [Kept, same]
    exact first
  · rcases first with same | ⟨absent', made'⟩
    · exact .inr ⟨same ▸ absent, made⟩
    · cases absent.symm.trans made'

theorem Kept.eq_some {entry : Entry} (kept : Kept tree next place)
    (found : tree.entry? place = some entry) : next.entry? place = some entry := by
  rcases kept with same | ⟨absent, made⟩
  · exact same.trans found
  · cases absent.symm.trans found

theorem Widens.refl (tree : FileTree) : Widens tree tree := ⟨rfl, fun _ => .inl rfl⟩

theorem Widens.trans (first : Widens tree next) (second : Widens next later) : Widens tree later :=
  ⟨second.workingDirectory.trans first.workingDirectory,
    fun place => (first.kept place).trans (second.kept place)⟩

theorem Widens.keeps (widens : Widens tree next) : Keeps tree next :=
  ⟨widens.workingDirectory, fun place found => (widens.kept place).eq_some found⟩

theorem Keeps.refl (tree : FileTree) : Keeps tree tree := (Widens.refl tree).keeps

theorem Keeps.trans (first : Keeps tree next) (second : Keeps next later) : Keeps tree later :=
  ⟨second.workingDirectory.trans first.workingDirectory,
    fun place found => second.directory place (first.directory place found)⟩

theorem widens_set (absent : tree.entry? place = none) : Widens tree (tree.set place .directory) := by
  have below : place ≠ [] := ne_nil_of_free (by rw [absent]; nofun)
  refine ⟨rfl, fun other => ?_⟩
  rw [Kept, found_set below]
  by_cases here : other = place
  · rw [if_pos here, here]
    exact .inr ⟨absent, rfl⟩
  · rw [if_neg here]
    exact .inl rfl

theorem keeps_set {entry : Entry} (free : tree.entry? place ≠ some .directory) :
    Keeps tree (tree.set place entry) := by
  refine ⟨rfl, fun other found => ?_⟩
  have apart : other ≠ place := fun here => free (here ▸ found)
  rwa [found_set (ne_nil_of_free free), if_neg apart]

theorem Keeps.start (keeps : Keeps tree next) (path : String) : next.start path = tree.start path := by
  rw [FileTree.start, FileTree.start, keeps.workingDirectory]

theorem Keeps.target (keeps : Keeps tree next) (path : String) : next.target path = tree.target path := by
  rw [FileTree.target, FileTree.target, keeps.start]

theorem Keeps.follow {destination : List String} (keeps : Keeps tree next)
    (followed : tree.follow place names = .ok destination) :
    next.follow place names = .ok destination := by
  induction names generalizing place with
  | nil => exact followed
  | cons name rest step =>
    obtain ⟨found, short, onward⟩ := follow_cons_eq_ok_iff.mp followed
    exact follow_cons_eq_ok_iff.mpr ⟨keeps.directory place found, short, step onward⟩

theorem locate_eq_ok_iff {destination : List String} :
    tree.locate path = .ok destination ↔ checkPath path = .ok () ∧ path ≠ "" ∧
      tree.follow (tree.start path) (Path.components path) = .ok destination := by
  rw [locate, bind_eq_ok_iff]
  constructor
  · rintro ⟨_, safe, followed⟩
    by_cases none : path = ""
    · rw [if_pos none] at followed
      cases followed
    · rw [if_neg none] at followed
      exact ⟨safe, none, followed⟩
  · rintro ⟨safe, some, followed⟩
    exact ⟨(), safe, by rwa [if_neg some]⟩

theorem Keeps.locate {destination : List String} (keeps : Keeps tree next)
    (located : tree.locate path = .ok destination) : next.locate path = .ok destination := by
  obtain ⟨safe, some, followed⟩ := locate_eq_ok_iff.mp located
  exact locate_eq_ok_iff.mpr ⟨safe, some, keeps.start path ▸ keeps.follow followed⟩

theorem eq_target_of_locate {destination : List String} (located : tree.locate path = .ok destination) :
    destination = tree.target path :=
  eq_walk_of_follow (locate_eq_ok_iff.mp located).2.2

/-! ## Making directories -/

theorem makeWay_widens (tree : FileTree) (place names : List String) :
    Widens tree (tree.makeWay place names).1 := by
  fun_induction makeWay tree place names with
  | case1 | case4 | case6 | case8 => exact Widens.refl _
  | case2 tree place name names idle step => exact step
  | case3 tree place names busy step => exact step
  | case5 tree place name names busy other short next found step => exact step
  | case7 tree place name names busy other short next absent free step =>
    exact (widens_set absent).trans step

theorem makeWay_of_directory (busy : ¬Path.isIdle name) (other : name ≠ "..")
    (short : ¬maxNameLength < name.utf8ByteSize)
    (found : tree.entry? (place ++ [name]) = some .directory) :
    tree.makeWay place (name :: names) = tree.makeWay (place ++ [name]) names := by
  rw [makeWay, if_neg busy, if_neg other, if_neg short]
  simp only [found]

/-- Directories that were made once are there as long as none is taken away. -/
theorem makeWay_again (made : tree.makeWay place names = (next, .ok ())) (keeps : Keeps next later) :
    later.makeWay place names = (later, .ok ()) := by
  -- By the recursion of the first run: what it found or made at a name is a directory in later trees.
  fun_induction makeWay tree place names with
  | case1 tree place => rfl
  | case2 tree place name names idle step => rw [makeWay, if_pos idle, step made]
  | case3 tree place names busy step => rw [makeWay, if_neg busy, if_pos rfl, step made]
  | case4 tree place name names busy other long => cases congrArg Prod.snd made
  | case5 tree place name names busy other short further found step =>
    have widens := makeWay_widens tree further names
    rw [made] at widens
    have kept := keeps.directory _ (widens.keeps.directory _ found)
    rw [makeWay_of_directory busy other short kept, step made]
  | case6 tree place name names busy other short further absent closed =>
    cases congrArg Prod.snd made
  | case7 tree place name names busy other short further absent free step =>
    have widens := makeWay_widens (tree.set further .directory) further names
    rw [made] at widens
    have kept := keeps.directory _ (widens.keeps.directory _ (found_set_self absent))
    rw [makeWay_of_directory busy other short kept, step made]
  | case8 tree place name names busy other short further content found =>
    cases congrArg Prod.snd made

theorem widens_of_makeDirectory {outcome : Except SystemFault Unit}
    (made : tree.makeDirectory path = (next, outcome)) : Widens tree next := by
  rw [makeDirectory] at made
  split at made
  · obtain ⟨rfl, -⟩ := Prod.mk.inj made
    exact Widens.refl tree
  · have widens := makeWay_widens tree (tree.start path) (Path.components path)
    rwa [made] at widens

theorem makeDirectory_again (made : tree.makeDirectory path = (next, .ok ())) (keeps : Keeps next later) :
    later.makeDirectory path = (later, .ok ()) := by
  have widens := widens_of_makeDirectory made
  rw [makeDirectory] at made ⊢
  split at made
  · cases congrArg Prod.snd made
  · rw [keeps.start, widens.keeps.start]
    exact makeWay_again made keeps

/-! ## Giving files a length -/

/-- The bytes of the file at a place. -/
def content (tree : FileTree) (place : List String) : Bytes :=
  match tree.entry? place with
  | some (.file content) => content
  | _ => []

theorem content_of_file {found : Bytes} (entry : tree.entry? place = some (.file found)) :
    tree.content place = found := by
  rw [content, entry]

theorem content_of_absent (absent : tree.entry? place = none) : tree.content place = [] := by
  rw [content, absent]

theorem content_of_directory (directory : tree.entry? place = some .directory) :
    tree.content place = [] := by
  rw [content, directory]

theorem content_empty (place : List String) : empty.content place = [] := by
  by_cases top : place = []
  · exact content_of_directory (if_pos top)
  · exact content_of_absent (if_neg top)

theorem Kept.content (kept : Kept tree next place) : next.content place = tree.content place := by
  rcases kept with same | ⟨absent, directory⟩
  · rw [FileTree.content, same, FileTree.content]
  · rw [content_of_absent absent, content_of_directory directory]

/-- Bytes that are cut to a length or go on with zeros. -/
def fitted (size : Nat) (content : Bytes) : Bytes :=
  content.take size ++ List.replicate (size - content.length) 0

theorem length_fitted (size : Nat) (content : Bytes) : (fitted size content).length = size := by
  rw [fitted, List.length_append, List.length_take, List.length_replicate]
  omega

theorem fitted_of_length {size : Nat} {content : Bytes} (same : content.length = size) :
    fitted size content = content := by
  rw [fitted, ← same, List.take_length, Nat.sub_self, List.replicate_zero, List.append_nil]

/-- A path that a file can be opened by, if there is one or not. -/
structure Opens (tree : FileTree) (path : String) : Prop where
  unclosed : ¬(path.endsWith "/" && trimSlashes path != "")
  located : tree.locate path = .ok (tree.target path)
  free : tree.entry? (tree.target path) ≠ some .directory

theorem Opens.of_keeps (opens : Opens tree path) (keeps : Keeps tree next)
    (free : next.entry? (tree.target path) ≠ some .directory) : Opens next path := by
  refine ⟨opens.unclosed, ?_, ?_⟩
  · rw [keeps.target]
    exact keeps.locate opens.located
  · rwa [keeps.target]

theorem openFile_eq_ok_iff {found : Bytes} :
    tree.openFile path = .ok (place, found) ↔
      Opens tree path ∧ place = tree.target path ∧ found = tree.content (tree.target path) := by
  unfold openFile
  simp only
  rw [bind_eq_ok_iff]
  by_cases closed : path.endsWith "/" && trimSlashes path != ""
  · constructor
    · rintro ⟨_, -, opened⟩
      rw [if_pos closed] at opened
      cases opened
    · exact fun ⟨opens, _⟩ => absurd closed opens.unclosed
  · simp only [if_neg closed]
    constructor
    · rintro ⟨place', located, opened⟩
      obtain rfl := eq_target_of_locate located
      split at opened
      · next entry =>
        obtain ⟨rfl, rfl⟩ := Prod.mk.inj (Except.ok.inj opened)
        exact ⟨⟨closed, located, by rw [entry]; nofun⟩, rfl, (content_of_file entry).symm⟩
      · cases opened
      · next absent =>
        obtain ⟨rfl, rfl⟩ := Prod.mk.inj (Except.ok.inj opened)
        exact ⟨⟨closed, located, by rw [absent]; nofun⟩, rfl, (content_of_absent absent).symm⟩
    · rintro ⟨⟨-, located, free⟩, rfl, rfl⟩
      refine ⟨tree.target path, located, ?_⟩
      split
      · next entry => rw [content_of_file entry]; rfl
      · next directory => exact absurd directory free
      · next absent => rw [content_of_absent absent]; rfl

theorem resize_eq_ok_iff {size : Nat} :
    tree.resize path size = .ok next ↔ Opens tree path ∧
      next = tree.set (tree.target path) (.file (fitted size (tree.content (tree.target path)))) := by
  rw [resize, bind_eq_ok_iff]
  constructor
  · rintro ⟨⟨place, found⟩, opened, resized⟩
    obtain ⟨opens, rfl, rfl⟩ := openFile_eq_ok_iff.mp opened
    exact ⟨opens, (Except.ok.inj resized).symm⟩
  · rintro ⟨opens, rfl⟩
    exact ⟨_, openFile_eq_ok_iff.mpr ⟨opens, rfl, rfl⟩, rfl⟩

/-! ## Files below a directory -/

theorem walk_append (place front back : List String) :
    walk place (front ++ back) = walk (walk place front) back := List.foldl_append

theorem walk_way (place : List String) (root : String) :
    walk place (Path.components root) = walk place (Path.way root) := by
  rcases Path.components_eq_way root with same | same
  · rw [same]
  · rw [same, walk_append]
    exact onward_of_isIdle (show Path.isIdle "" by decide) _

theorem start_join (tree : FileTree) (normal : Path.IsNormal path) (root : String) :
    tree.start (Path.join root path) = tree.start root := by
  rw [start, Path.startsWith_join normal, start]

/-- The names of a file follow the place of the directory that it is below. -/
theorem target_join (tree : FileTree) (normal : Path.IsNormal path) (root : String) :
    tree.target (Path.join root path) = tree.target root ++ Path.components path := by
  rw [target, start_join tree normal, Path.components_join normal, walk_append, ← walk_way,
    walk_of_isProper normal.proper]
  rfl

theorem target_join_ne {other : String} (tree : FileTree) (normal : Path.IsNormal path)
    (normal' : Path.IsNormal other) (apart : path ≠ other) (root : String) :
    tree.target (Path.join root path) ≠ tree.target (Path.join root other) := by
  rw [target_join tree normal, target_join tree normal']
  exact fun same => apart (Path.eq_of_components_eq (List.append_cancel_left same))

/-- A tree in which everything lies in a directory. -/
structure Grounded (tree : FileTree) : Prop where
  parent : ∀ place, tree.entry? place ≠ none → tree.entry? place.dropLast = some .directory
  workingDirectory : tree.entry? tree.workingDirectory = some .directory

theorem grounded_iff : tree.Grounded ↔
    (∀ entry ∈ tree.entries.toList, tree.entry? entry.1.dropLast = some .directory) ∧
      tree.entry? tree.workingDirectory = some .directory := by
  constructor
  · rintro ⟨parent, workingDirectory⟩
    refine ⟨fun entry member => ?_, workingDirectory⟩
    have found := Std.ExtTreeMap.mem_toList_iff_getElem?_eq_some.mp member
    by_cases top : entry.1 = []
    · rw [top]
      rfl
    · exact parent entry.1 (by rw [ entry?, if_neg top, found]; nofun)
  · rintro ⟨parent, workingDirectory⟩
    refine ⟨fun place present => ?_, workingDirectory⟩
    by_cases top : place = []
    · rw [top]
      rfl
    · rw [ entry?, if_neg top] at present
      obtain ⟨entry, found⟩ := Option.ne_none_iff_exists'.mp present
      exact parent _ (Std.ExtTreeMap.mem_toList_iff_getElem?_eq_some.mpr found)

instance (tree : FileTree) : Decidable tree.Grounded := decidable_of_iff _ grounded_iff.symm

/-- What is at the place of a path is not missed on the way to it. A path that leads back from a
directory that is missing can miss it. -/
def Reaches (tree : FileTree) (path : String) : Prop :=
  tree.follow (tree.start path) (Path.components path) = .error .notFound →
    tree.entry? (tree.target path) = none

theorem Grounded.directory_of_append (grounded : tree.Grounded) (some : names ≠ [])
    (present : tree.entry? (place ++ names) ≠ none) : tree.entry? place = .some .directory := by
  induction names generalizing place with
  | nil => exact absurd rfl some
  | cons name rest step =>
    have next : tree.entry? (place ++ [name]) ≠ none := by
      by_cases last : rest = []
      · rwa [last] at present
      · rw [List.append_cons] at present
        rw [step last present]
        nofun
    have parent := grounded.parent _ next
    rwa [List.dropLast_concat] at parent

/-- What is in the tree is found by its names, unless one of them is too long. -/
theorem Grounded.follow (grounded : tree.Grounded) (proper : ∀ name ∈ names, Path.isProper name.toList)
    (present : tree.entry? (place ++ names) ≠ none) :
    tree.follow place names = .ok (place ++ names) ∨ tree.follow place names = .error .nameTooLong := by
  induction names generalizing place with
  | nil => exact .inl (congrArg Except.ok (List.append_nil place).symm)
  | cons name rest step =>
    obtain ⟨first, proper⟩ := List.forall_mem_cons.mp proper
    have directory := grounded.directory_of_append (List.cons_ne_nil name rest) present
    rw [follow_cons, directory]
    simp only
    split
    · exact .inr rfl
    · rw [onward_of_isProper first]
      rw [List.append_cons] at present
      rw [List.append_cons place name rest]
      exact step proper present

theorem prefix_walk (straight : ".." ∉ names) (place : List String) : place <+: walk place names := by
  induction names generalizing place with
  | nil => exact List.prefix_rfl
  | cons name rest step =>
    obtain ⟨other, straight⟩ := List.ne_and_not_mem_of_not_mem_cons straight
    refine List.IsPrefix.trans ?_ (step straight (onward place name))
    rw [onward, if_neg (Ne.symm other)]
    split
    · exact List.prefix_rfl
    · exact List.prefix_append place [name]

theorem Grounded.follow_ne_notFound (grounded : tree.Grounded) (straight : ".." ∉ names)
    (present : tree.entry? (walk place names) ≠ none) : tree.follow place names ≠ .error .notFound := by
  induction names generalizing place with
  | nil => nofun
  | cons name rest step =>
    obtain ⟨more, below⟩ := prefix_walk straight place
    have here : tree.entry? place ≠ none := by
      by_cases last : more = []
      · rwa [← below, last, List.append_nil] at present
      · rw [grounded.directory_of_append last (below ▸ present)]
        nofun
    rw [follow_cons]
    split
    · next absent => exact absurd absent here
    · nofun
    · split
      · nofun
      · exact step (List.not_mem_of_not_mem_cons straight) present

/-- A path that nowhere leads back misses nothing. -/
theorem Grounded.reaches (grounded : tree.Grounded) (straight : ".." ∉ Path.components path) :
    tree.Reaches path := fun lost =>
  Decidable.byContradiction fun present => grounded.follow_ne_notFound straight present lost

theorem Grounded.set_directory (grounded : tree.Grounded)
    (parent : tree.entry? place.dropLast = some .directory) (absent : tree.entry? place = none) :
    (tree.set place .directory).Grounded := by
  have keeps := (widens_set absent).keeps
  have below : place ≠ [] := ne_nil_of_free (by rw [absent]; nofun)
  refine ⟨fun other present => keeps.directory _ ?_, keeps.directory _ grounded.workingDirectory⟩
  rw [found_set below] at present
  by_cases here : other = place
  · rwa [here]
  · rw [if_neg here] at present
    exact grounded.parent other present

theorem makeWay_grounded (grounded : tree.Grounded) (begun : tree.entry? place = some .directory) :
    (tree.makeWay place names).1.Grounded := by
  fun_induction makeWay tree place names with
  | case1 | case4 | case6 | case8 => exact grounded
  | case2 tree place name names idle step => exact step grounded begun
  | case3 tree place names busy step =>
    exact step grounded (grounded.parent place (by rw [begun]; nofun))
  | case5 tree place name names busy other short further found step => exact step grounded found
  | case7 tree place name names busy other short further absent free step =>
    have parent : tree.entry? further.dropLast = some .directory := by
      rwa [List.dropLast_concat]
    exact step (grounded.set_directory parent absent) (found_set_self absent)

/-- Where nothing is left to make on a way, it can be followed. -/
theorem follow_of_makeWay (grounded : tree.Grounded) (begun : tree.entry? place = some .directory)
    (made : tree.makeWay place names = (tree, .ok ())) :
    tree.follow place names = .ok (walk place names) := by
  fun_induction makeWay tree place names with
  | case1 tree place => rfl
  | case2 tree place name names idle step =>
    rw [follow_cons_of_directory begun (short_of_isIdle idle), onward_of_isIdle idle,
      step grounded begun made, walk_cons, onward_of_isIdle idle]
  | case3 tree place names busy step =>
    have parent := grounded.parent place (by rw [begun]; nofun)
    rw [follow_cons_of_directory begun (by decide)]
    exact step grounded parent made
  | case4 tree place name names busy other long => cases congrArg Prod.snd made
  | case5 tree place name names busy other short further found step =>
    have leads : onward place name = further := by rw [onward, if_neg busy, if_neg other]
    rw [follow_cons_of_directory begun short, walk_cons, leads, step grounded found made]
  | case6 tree place name names busy other short further absent closed =>
    cases congrArg Prod.snd made
  | case7 tree place name names busy other short further absent free =>
    have widens := makeWay_widens (tree.set further .directory) further names
    rw [made] at widens
    cases absent.symm.trans (widens.keeps.directory further (found_set_self absent))
  | case8 tree place name names busy other short further content found =>
    cases congrArg Prod.snd made

/-- The directory that was made is found, so its path does not miss what is there. -/
theorem reaches_of_makeDirectory (grounded : tree.Grounded)
    (made : tree.makeDirectory root = (next, .ok ())) : next.Grounded ∧ next.Reaches root := by
  have begun (tree : FileTree) (grounded : tree.Grounded) :
      tree.entry? (tree.start root) = some .directory := by
    rw [start]
    split
    · rfl
    · exact grounded.workingDirectory
  have again := makeDirectory_again made (Keeps.refl next)
  rw [makeDirectory] at made again
  split at made
  · cases congrArg Prod.snd made
  · next safe =>
    rw [safe] at again
    have grounded' := @makeWay_grounded _ _ (Path.components root) grounded (begun tree grounded)
    rw [made] at grounded'
    refine ⟨grounded', fun lost => ?_⟩
    rw [follow_of_makeWay grounded' (begun next grounded') again] at lost
    cases lost

end BuildDelivery.FileTree
