import BuildDelivery.Catalog.Directory
import BuildDelivery.Proofs.Manifest.Valid
import BuildDelivery.Proofs.Outcome
import Mathlib.Data.List.Induction

/-! A directory of builds whose files change from call to call. What was told of a build once is
kept, so that neither another file nor a missing one makes a difference to it; whatever was not
told is decided anew from the files as they are. -/

set_option autoImplicit false

namespace BuildDelivery

namespace Toml

namespace Entries

theorem get?_cons (name key : String) (value : Value) (entries : Entries) :
    get? ((name, value) :: entries) key = if key = name then some value else get? entries key := by
  unfold get?
  by_cases here : key = name
  · rw [if_pos here, here, List.lookup_cons_self]
  · rw [if_neg here, List.lookup_cons, beq_eq_false_iff_ne.mpr here]

theorem get?_set (entries : Entries) (key other : String) (value : Value) :
    (entries.set key value).get? other = if other = key then some value else entries.get? other := by
  induction entries with
  | nil => exact get?_cons key other value []
  | cons entry rest step =>
    obtain ⟨name, old⟩ := entry
    unfold set
    by_cases same : name = key
    · rw [if_pos same, get?_cons, get?_cons, same]
      by_cases here : other = key
      · rw [if_pos here, if_pos here]
      · rw [if_neg here, if_neg here, if_neg here]
    · rw [if_neg same, get?_cons, get?_cons, step]
      by_cases here : other = name
      · have apart : other ≠ key := fun found => same (here.symm.trans found)
        rw [if_pos here, if_pos here, if_neg apart]
      · rw [if_neg here, if_neg here]

end Entries

end Toml

namespace Release

/-- The entry that counts for a channel. -/
def last? (channel : Channel) (releases : List Release) : Option Release :=
  (releases.filter (·.channel = channel)).getLast?

/-- The same entry with another text as its build. -/
def retell (text : String) : Toml.Value → Toml.Value
  | .table origin entries => .table origin (Toml.Entries.set "build" (.text text) entries)
  | .array growing elements => .array growing (elements.set 2 (.text text))
  | value => value

/-- The second list has other texts as the builds of other channels. -/
inductive Retold (channel : Channel) : List Toml.Value → List Toml.Value → Prop where
  | none : Retold channel [] []
  | same (value : Toml.Value) {values others : List Toml.Value} : Retold channel values others →
      Retold channel (value :: values) (value :: others)
  | other {value : Toml.Value} {values others : List Toml.Value} {release : Release}
      (text : String) : ofValue? value = some release → release.channel ≠ channel →
        Retold channel values others → Retold channel (value :: values) (retell text value :: others)

theorem last?_cons (channel : Channel) (release : Release) (releases : List Release) :
    last? channel (release :: releases) =
      (last? channel releases).or (if release.channel = channel then some release else none) := by
  unfold last?
  by_cases here : release.channel = channel
  · simp [here, List.getLast?_cons]
  · simp [here]

theorem ofValue?_eq_some_iff {value : Toml.Value} {release : Release} :
    ofValue? value = some release ↔
      (∃ number, part? value 0 "branch" = some (.integer number) ∧ 0 ≤ number ∧
        release.channel.branch = ⟨UInt64.ofNat number.toNat⟩) ∧
      (part? value 1 "target").bind targetOf? = some release.channel.target ∧
      part? value 2 "build" = some (.text release.build) := by
  obtain ⟨⟨branch, target⟩, build⟩ := release
  unfold ofValue?
  split
  case h_1 number named text numbered found told =>
    simp only [numbered, found, told, Option.some.injEq, Toml.Value.integer.injEq,
      Toml.Value.text.injEq, exists_eq_left', eq_comm (a := branch)]
    simp [and_assoc]
  case h_2 other =>
    refine iff_of_false nofun ?_
    rintro ⟨⟨number, numbered, -⟩, found, told⟩
    exact other number target build numbered found told

/-- An entry is read whatever the text is that it has as its build. -/
theorem ofValue?_retell {value : Toml.Value} {release : Release}
    (read : ofValue? value = some release) (text : String) :
    ofValue? (retell text value) = some { release with build := text } := by
  obtain ⟨⟨number, numbered, positive, branch⟩, target, build⟩ := ofValue?_eq_some_iff.mp read
  rw [ofValue?_eq_some_iff]
  cases value with
  | table origin entries =>
    have untouched (key : String) (apart : key ≠ "build") :
        (Toml.Entries.set "build" (.text text) entries).get? key =
          Toml.Entries.get? entries key := by
      rw [Toml.Entries.get?_set, if_neg apart]
    refine ⟨⟨number, ?_, positive, branch⟩, ?_, ?_⟩
    · exact (untouched "branch" (by decide)).trans numbered
    · exact (congrArg (·.bind targetOf?) (untouched "target" (by decide))).trans target
    · exact Toml.Entries.get?_set entries "build" "build" (.text text)
  | array growing elements =>
    have long : 2 < elements.length := (List.getElem?_eq_some_iff.mp build).1
    have untouched (place : Nat) (apart : 2 ≠ place) :
        (elements.set 2 (.text text))[place]? = elements[place]? := List.getElem?_set_ne apart
    refine ⟨⟨number, ?_, positive, branch⟩, ?_, ?_⟩
    · exact (untouched 0 (by decide)).trans numbered
    · exact (congrArg (·.bind targetOf?) (untouched 1 (by decide))).trans target
    · exact List.getElem?_set_self long
  | text _ | integer _ | real _ | boolean _ | moment _ => cases numbered

theorem last?_mapM_cons (channel : Channel) (value : Toml.Value) (values : List Toml.Value) :
    ((value :: values).mapM ofValue?).map (last? channel) =
      (ofValue? value).bind fun release =>
        ((values.mapM ofValue?).map (last? channel)).map fun last =>
          last.or (if release.channel = channel then some release else none) := by
  rw [List.mapM_cons]
  cases ofValue? value with
  | none => rfl
  | some release =>
    cases values.mapM ofValue? with
    | none => rfl
    | some releases => exact congrArg some (last?_cons channel release releases)

/-- Other texts as the builds of other channels change nothing for a channel, not even whether
the entries can be read. -/
theorem last?_of_retold {channel : Channel} {values others : List Toml.Value}
    (retold : Retold channel values others) :
    (others.mapM ofValue?).map (last? channel) = (values.mapM ofValue?).map (last? channel) := by
  induction retold with
  | none => rfl
  | same value _ step => rw [last?_mapM_cons, last?_mapM_cons, step]
  | @other value _ _ release text read apart _ step =>
    have apart' : { release with build := text }.channel ≠ channel := apart
    rw [last?_mapM_cons, last?_mapM_cons, step, read, ofValue?_retell read, Option.bind_some,
      Option.bind_some, if_neg apart, if_neg apart']

end Release

namespace DirectoryCatalog

/-- What a catalog can be asked. -/
inductive Question where
  | latest (channel : Channel)
  | byId (id : BuildId)

/-- The answer to a question, with the build that it is about. -/
def ask (catalog : DirectoryCatalog) (disk : Disk) :
    Question → Except StoreFault (Option Published) × DirectoryCatalog
  | .latest channel => catalog.latest disk channel
  | .byId id =>
    let (answer, next) := catalog.byId disk id
    (answer.map (Option.map (Published.mk id)), next)

/-- The catalog after questions each of which found files of its own. -/
def after (catalog : DirectoryCatalog) (session : List (Disk × Question)) : DirectoryCatalog :=
  session.foldl (fun catalog call => (catalog.ask call.1 call.2).2) catalog

/-- One of the questions was answered with this manifest of the build. -/
def Told (start : DirectoryCatalog) (session : List (Disk × Question)) (id : BuildId)
    (manifest : Manifest) : Prop :=
  ∃ earlier disk question later, session = earlier ++ (disk, question) :: later ∧
    ((start.after earlier).ask disk question).1 = .ok (some ⟨id, manifest⟩)

/-- The build that an entry names, if there is an entry. -/
def nominee (catalog : DirectoryCatalog) : Option Release → Except StoreFault (Option BuildId)
  | none => .ok none
  | some release => ((BuildId.ofHex release.build).map some).mapError fun fault =>
      .unreadable catalog.releasesPath (.request (.buildId release.build fault))

/-- The build whose manifest answers a question. -/
def named (catalog : DirectoryCatalog) (disk : Disk) : Question → Except StoreFault (Option BuildId)
  | .byId id => .ok (some id)
  | .latest channel => do
    let releases ← catalog.releases disk
    catalog.nominee (Release.last? channel releases)

/-- The answer to a question about a build when this is known of the build. -/
def Question.conclude (question : Question) (id : BuildId) :
    Except StoreFault (Option Manifest) → Except StoreFault (Option Published)
  | .error fault => .error fault
  | .ok (some manifest) => .ok (some ⟨id, manifest⟩)
  | .ok none =>
    match question with
    | .latest channel => .error (.manifestMissing channel id)
    | .byId _ => .ok none

/-- The entries that a document on the disk lists, as they stand there. -/
def Lists (catalog : DirectoryCatalog) (disk : Disk) (values : List Toml.Value) : Prop :=
  ∃ document entries growing, disk.readText catalog.releasesPath = .ok document ∧
    Toml.read document = some entries ∧ entries.get? "release" = some (.array growing values)

/-- The lists on two disks are alike for a channel: the same entry counts for it, or they differ only
in what stands as the builds of other channels. -/
inductive ListsAlike (catalog : DirectoryCatalog) (channel : Channel) (disk disk' : Disk) : Prop where
  | last {releases releases' : List Release} : catalog.releases disk = .ok releases →
      catalog.releases disk' = .ok releases' →
        Release.last? channel releases = Release.last? channel releases' →
          ListsAlike catalog channel disk disk'
  | retold {values others : List Toml.Value} : catalog.Lists disk values →
      catalog.Lists disk' others → Release.Retold channel values others →
        ListsAlike catalog channel disk disk'

/-- The id can name a file. -/
def Filed (id : BuildId) : Prop := ¬id.isEmpty ∧ id.bytes.length ≤ maxIdLength

instance : DecidablePred Filed := fun _ => inferInstanceAs (Decidable (_ ∧ _))

/-- The answer that the files give to a question. -/
def answerOfFiles (catalog : DirectoryCatalog) (disk : Disk) (question : Question) :
    Except StoreFault (Option Published) := do
  match ← catalog.named disk question with
  | none => return none
  | some id => question.conclude id (if Filed id then catalog.load disk id else .ok none)

/-- The catalog that keeps one more manifest. -/
def keep (catalog : DirectoryCatalog) (id : BuildId) (manifest : Manifest) : DirectoryCatalog :=
  { catalog with loaded := catalog.loaded.insert id manifest }

variable {catalog other : DirectoryCatalog} {disk disk' : Disk} {question : Question}
  {id : BuildId} {manifest : Manifest}

theorem ask_eq (catalog : DirectoryCatalog) (disk : Disk) (question : Question) :
    catalog.ask disk question =
      match catalog.named disk question with
      | .error fault => (.error fault, catalog)
      | .ok none => (.ok none, catalog)
      | .ok (some id) =>
        (question.conclude id (catalog.byId disk id).1, (catalog.byId disk id).2) := by
  cases question with
  | byId id =>
    simp only [ask, named]
    rcases (catalog.byId disk id).1 with fault | _ | manifest <;> rfl
  | latest channel =>
    simp only [ask, named, latest]
    cases catalog.releases disk with
    | error fault => rfl
    | ok releases =>
      have last : releases.reverse.find? (·.channel = channel) =
          Release.last? channel releases := by
        rw [Release.last?, ← List.head?_filter, List.filter_reverse, List.head?_reverse]
      simp only [last, bind, Except.bind]
      cases Release.last? channel releases with
      | none => rfl
      | some release =>
        simp only [nominee]
        cases BuildId.ofHex release.build with
        | error fault => rfl
        | ok id =>
          simp only [Except.map, Except.mapError]
          rcases catalog.byId disk id with ⟨fault | _ | manifest, next⟩ <;> rfl

theorem getElem?_keep (catalog : DirectoryCatalog) (id named : BuildId) (manifest : Manifest) :
    (catalog.keep id manifest).loaded[named]? =
      if named = id then some manifest else catalog.loaded[named]? := by
  simp only [keep, Std.ExtTreeMap.getElem?_insert, Std.LawfulEqCmp.compare_eq_iff_eq,
    eq_comm (a := named)]

theorem check_of_readManifest {bytes : Bytes} (read : readManifest bytes = .ok manifest) :
    manifest.check = .ok () := by
  obtain ⟨decoded, -, rest⟩ := bind_eq_ok_iff.mp read
  obtain ⟨_, checked, same⟩ := bind_eq_ok_iff.mp rest
  cases same
  exact mapError_eq_ok_iff.mp checked

theorem check_of_load (found : catalog.load disk id = .ok (some manifest)) :
    manifest.check = .ok () := by
  unfold load at found
  cases content : disk.read (catalog.manifestPath id) with
  | error fault =>
    simp only [content] at found
    cases fault <;> cases found
  | ok bytes =>
    simp only [content] at found
    cases read : readManifest bytes with
    | error fault =>
      rw [read] at found
      cases found
    | ok manifest =>
      rw [read] at found
      cases found
      exact check_of_readManifest read

theorem filed_iff : Filed id ↔ ¬(id.isEmpty ∨ maxIdLength < id.bytes.length) := by
  rw [not_or, Nat.not_lt]
  rfl

theorem byId_of_unfiled (unfiled : ¬Filed id) (catalog : DirectoryCatalog) (disk : Disk) :
    catalog.byId disk id = (.ok none, catalog) :=
  if_pos (not_not.mp (mt filed_iff.mpr unfiled))

theorem byId_of_loaded (filed : Filed id) (known : catalog.loaded[id]? = some manifest) (disk : Disk) :
    catalog.byId disk id = (.ok (some manifest), catalog) := by
  unfold byId
  rw [if_neg (filed_iff.mp filed)]
  simp only [known]

/-- Only a manifest that is found in the file of a build is kept. -/
theorem byId_of_unloaded (filed : Filed id) (unknown : catalog.loaded[id]? = none) (disk : Disk) :
    catalog.byId disk id =
      (catalog.load disk id,
        match catalog.load disk id with
        | .ok (some manifest) => catalog.keep id manifest
        | _ => catalog) := by
  unfold byId
  rw [if_neg (filed_iff.mp filed)]
  simp only [unknown]
  rcases catalog.load disk id with fault | _ | manifest <;> rfl

theorem byId_cases (catalog : DirectoryCatalog) (disk : Disk) (id : BuildId) :
    (∃ manifest, Filed id ∧ catalog.loaded[id]? = some manifest ∧
      catalog.byId disk id = (.ok (some manifest), catalog)) ∨
    (∃ manifest, Filed id ∧ catalog.loaded[id]? = none ∧
      catalog.load disk id = .ok (some manifest) ∧
        catalog.byId disk id = (.ok (some manifest), catalog.keep id manifest)) ∨
    ∃ answer, (∀ manifest, answer ≠ .ok (some manifest)) ∧
      catalog.byId disk id = (answer, catalog) := by
  by_cases filed : Filed id
  · cases known : catalog.loaded[id]? with
    | some manifest => exact .inl ⟨manifest, filed, rfl, byId_of_loaded filed known disk⟩
    | none =>
      rw [byId_of_unloaded filed known]
      rcases catalog.load disk id with fault | _ | manifest
      · exact .inr (.inr ⟨.error fault, nofun, rfl⟩)
      · exact .inr (.inr ⟨.ok none, nofun, rfl⟩)
      · exact .inr (.inl ⟨manifest, filed, rfl, rfl, rfl⟩)
  · exact .inr (.inr ⟨.ok none, nofun, byId_of_unfiled filed catalog disk⟩)

/-- The manifest that answers a question was loaded before, or it is loaded now and kept; or nothing
is told and nothing is kept. -/
theorem ask_cases (catalog : DirectoryCatalog) (disk : Disk) (question : Question) :
    (∃ id manifest, Filed id ∧ catalog.named disk question = .ok (some id) ∧
      catalog.loaded[id]? = some manifest ∧
        catalog.ask disk question = (.ok (some ⟨id, manifest⟩), catalog)) ∨
    (∃ id manifest, Filed id ∧ catalog.named disk question = .ok (some id) ∧
      catalog.loaded[id]? = none ∧ catalog.load disk id = .ok (some manifest) ∧
        catalog.ask disk question = (.ok (some ⟨id, manifest⟩), catalog.keep id manifest)) ∨
    ∃ answer, (∀ published, answer ≠ .ok (some published)) ∧
      catalog.ask disk question = (answer, catalog) := by
  rw [ask_eq]
  rcases catalog.named disk question with fault | _ | id
  · exact .inr (.inr ⟨.error fault, nofun, rfl⟩)
  · exact .inr (.inr ⟨.ok none, nofun, rfl⟩)
  · simp only
    rcases catalog.byId_cases disk id with
      ⟨manifest, filed, known, same⟩ | ⟨manifest, filed, known, found, same⟩ | ⟨answer, silent, same⟩
    · rw [same]
      exact .inl ⟨id, manifest, filed, rfl, known, rfl⟩
    · rw [same]
      exact .inr (.inl ⟨id, manifest, filed, rfl, known, found, rfl⟩)
    · rw [same]
      refine .inr (.inr ⟨_, ?_, rfl⟩)
      rcases answer with fault | _ | manifest
      · exact nofun
      · cases question <;> exact nofun
      · exact absurd rfl (silent manifest)

/-- What is loaded after a question was loaded before or has been told now. -/
theorem loaded_ask_iff :
    (catalog.ask disk question).2.loaded[id]? = some manifest ↔
      catalog.loaded[id]? = some manifest ∨
        (catalog.ask disk question).1 = .ok (some ⟨id, manifest⟩) := by
  rcases catalog.ask_cases disk question with
    ⟨told, content, -, -, known, same⟩ | ⟨told, content, -, -, unknown, -, same⟩ |
      ⟨answer, silent, same⟩
  · rw [same, or_iff_left_of_imp]
    rintro ⟨⟩
    exact known
  · rw [same, getElem?_keep]
    by_cases here : id = told
    · simp [here, unknown]
    · simp [here, Ne.symm here]
  · rw [same, or_iff_left (silent _)]

theorem root_ask (catalog : DirectoryCatalog) (disk : Disk) (question : Question) :
    (catalog.ask disk question).2.root = catalog.root := by
  rcases catalog.ask_cases disk question with
    ⟨_, _, -, -, -, same⟩ | ⟨_, _, -, -, -, -, same⟩ | ⟨_, -, same⟩
  · rw [same]
  · rw [same, keep]
  · rw [same]

/-- Every manifest that is loaded has passed the check, and its build can have a file. -/
def Settled (catalog : DirectoryCatalog) : Prop :=
  ∀ (id : BuildId) (manifest : Manifest), catalog.loaded[id]? = some manifest →
    Filed id ∧ manifest.check = .ok ()

theorem Settled.ask (settled : catalog.Settled) (disk : Disk) (question : Question) :
    (catalog.ask disk question).2.Settled := by
  rcases catalog.ask_cases disk question with
    ⟨_, _, -, -, -, same⟩ | ⟨told, content, filed, -, -, found, same⟩ | ⟨_, -, same⟩
  · rw [same]
    exact settled
  · rw [same]
    intro id manifest known
    rw [getElem?_keep] at known
    by_cases here : id = told
    · rw [if_pos here] at known
      cases known
      exact ⟨here ▸ filed, check_of_load found⟩
    · rw [if_neg here] at known
      exact settled id manifest known
  · rw [same]
    exact settled

section
variable {start : DirectoryCatalog} {session : List (Disk × Question)}

theorem after_append_singleton (start : DirectoryCatalog) (session : List (Disk × Question))
    (disk : Disk) (question : Question) :
    start.after (session ++ [(disk, question)]) = ((start.after session).ask disk question).2 :=
  List.foldl_append ..

theorem root_after (start : DirectoryCatalog) (session : List (Disk × Question)) :
    (start.after session).root = start.root :=
  session.foldlRecOn _ (motive := fun catalog : DirectoryCatalog => catalog.root = start.root) rfl
    fun catalog same call _ => (catalog.root_ask call.1 call.2).trans same

theorem Settled.after (settled : start.Settled) (session : List (Disk × Question)) :
    (start.after session).Settled :=
  session.foldlRecOn _ settled fun _ settled call _ => settled.ask call.1 call.2

theorem told_append_singleton :
    Told start (session ++ [(disk, question)]) id manifest ↔
      Told start session id manifest ∨
        ((start.after session).ask disk question).1 = .ok (some ⟨id, manifest⟩) := by
  constructor
  · rintro ⟨earlier, disk', question', later, split, told⟩
    rcases List.eq_nil_or_concat later with rfl | ⟨later, last, rfl⟩
    · obtain ⟨rfl, same⟩ := List.append_inj' split rfl
      cases same
      exact .inr told
    · rw [List.concat_eq_append, ← List.cons_append, ← List.append_assoc] at split
      obtain ⟨rfl, -⟩ := List.append_inj' split rfl
      exact .inl ⟨earlier, disk', question', later, rfl, told⟩
  · rintro (⟨earlier, disk', question', later, rfl, told⟩ | told)
    · exact ⟨earlier, disk', question', later ++ [(disk, question)], by simp, told⟩
    · exact ⟨session, disk, question, [], rfl, told⟩

/-- After a session that began with nothing, those manifests are loaded that were told in it. -/
theorem loaded_after_iff (nothing : ∀ id : BuildId, start.loaded[id]? = none)
    (session : List (Disk × Question)) (id : BuildId) (manifest : Manifest) :
    (start.after session).loaded[id]? = some manifest ↔ Told start session id manifest := by
  -- The last question has found its state, so the session is taken apart at its end.
  induction session using List.reverseRecOn with
  | nil =>
    have unloaded : (start.after []).loaded[id]? = none := nothing id
    rw [unloaded]
    refine iff_of_false nofun ?_
    rintro ⟨earlier, disk, question, later, split, -⟩
    simp at split
  | append_singleton session call step =>
    obtain ⟨disk, question⟩ := call
    rw [after_append_singleton, loaded_ask_iff, told_append_singleton, step]

theorem unloaded_of_opened {root : String} (opened : ofRoot disk root = .ok start) (id : BuildId) :
    start.loaded[id]? = none := by
  unfold ofRoot at opened
  by_cases found : disk.isDirectory root
  · rw [if_pos found] at opened
    cases opened
    exact Std.ExtTreeMap.getElem?_empty
  · rw [if_neg found] at opened
    cases opened

end

theorem named_of_root (rooted : catalog.root = other.root) (disk : Disk) (question : Question) :
    catalog.named disk question = other.named disk question := by
  obtain ⟨root, loaded⟩ := catalog
  obtain ⟨root', loaded'⟩ := other
  obtain rfl : root = root' := rooted
  rfl

theorem answerOfFiles_of_root (rooted : catalog.root = other.root) (disk : Disk)
    (question : Question) :
    catalog.answerOfFiles disk question = other.answerOfFiles disk question := by
  obtain ⟨root, loaded⟩ := catalog
  obtain ⟨root', loaded'⟩ := other
  obtain rfl : root = root' := rooted
  rfl

/-- Where nothing is loaded of the build that a question leads to, the files decide. -/
theorem answer_of_unloaded (unloaded : ∀ id, catalog.named disk question = .ok (some id) →
    catalog.loaded[id]? = none) :
    (catalog.ask disk question).1 = catalog.answerOfFiles disk question := by
  rw [ask_eq, answerOfFiles]
  rcases known : catalog.named disk question with fault | _ | id
  · rfl
  · rfl
  · refine congrArg (question.conclude id) ?_
    by_cases filed : Filed id
    · rw [byId_of_unloaded filed (unloaded id known), if_pos filed]
    · rw [byId_of_unfiled filed, if_neg filed]

/-- Two disks that lead a question to the same build and have the same file for it are the same to
the question. -/
theorem ask_congr (names : catalog.named disk question = catalog.named disk' question)
    (files : ∀ id, catalog.named disk question = .ok (some id) →
      disk.read (catalog.manifestPath id) = disk'.read (catalog.manifestPath id)) :
    catalog.ask disk question = catalog.ask disk' question := by
  rw [ask_eq, ask_eq, ← names]
  rcases known : catalog.named disk question with fault | _ | id
  · rfl
  · rfl
  · have load : catalog.load disk id = catalog.load disk' id := by
      simp only [load, files id known]
    simp only [byId, load]

theorem releases_of_text {document : String}
    (text : disk.readText catalog.releasesPath = .ok document) :
    catalog.releases disk =
      (Release.listOf? document).elim (.error (.unreadable catalog.releasesPath .tables)) .ok := by
  unfold releases
  simp only [text]
  cases Release.listOf? document <;> rfl

theorem releases_of_lists {values : List Toml.Value} (lists : catalog.Lists disk values) :
    catalog.releases disk =
      (values.mapM Release.ofValue?).elim (.error (.unreadable catalog.releasesPath .tables))
        .ok := by
  obtain ⟨document, entries, growing, text, read, found⟩ := lists
  have listed : Release.listOf? document = values.mapM Release.ofValue? := by
    simp only [Release.listOf?, read, bind, Option.bind_some, found]
  rw [releases_of_text text, listed]

theorem named_of_lists {values : List Toml.Value} (lists : catalog.Lists disk values)
    (channel : Channel) :
    catalog.named disk (.latest channel) =
      ((values.mapM Release.ofValue?).map (Release.last? channel)).elim
        (.error (.unreadable catalog.releasesPath .tables)) catalog.nominee := by
  simp only [named, releases_of_lists lists]
  cases values.mapM Release.ofValue? <;> rfl

theorem named_of_listsAlike {channel : Channel} (alike : catalog.ListsAlike channel disk disk') :
    catalog.named disk (.latest channel) = catalog.named disk' (.latest channel) := by
  cases alike with
  | last listed listed' last => simp only [named, listed, listed', last, bind, Except.bind]
  | retold lists lists' retold =>
    rw [named_of_lists lists, named_of_lists lists', Release.last?_of_retold retold]

/-- A question that does not end with a manifest changes nothing. -/
theorem ask_of_silent
    (silent : ∀ published, (catalog.ask disk question).1 ≠ .ok (some published)) :
    (catalog.ask disk question).2 = catalog := by
  rcases catalog.ask_cases disk question with
    ⟨_, _, -, -, -, same⟩ | ⟨_, _, -, -, -, -, same⟩ | ⟨_, -, same⟩
  · rw [same]
  · exact absurd (congrArg Prod.fst same) (silent _)
  · rw [same]

theorem Settled.check_of_ask (settled : catalog.Settled) {published : Published}
    (told : (catalog.ask disk question).1 = .ok (some published)) :
    published.manifest.check = .ok () ∧ catalog.named disk question = .ok (some published.build) := by
  rcases catalog.ask_cases disk question with
    ⟨id, manifest, -, names, known, same⟩ | ⟨id, manifest, -, names, -, found, same⟩ |
      ⟨answer, silent, same⟩
  · rw [same] at told
    cases told
    exact ⟨(settled id manifest known).2, names⟩
  · rw [same] at told
    cases told
    exact ⟨check_of_load found, names⟩
  · rw [same] at told
    exact absurd told (silent published)

section
variable {root : String} {start : DirectoryCatalog} {session : List (Disk × Question)}

theorem settled_of_opened (opened : ofRoot disk root = .ok start)
    (session : List (Disk × Question)) : (start.after session).Settled := by
  refine Settled.after (fun id manifest loaded => ?_) session
  rw [unloaded_of_opened opened id] at loaded
  cases loaded

/-- What was told of a build is told again, whatever has become of its file. -/
theorem ask_of_told (opened : ofRoot disk' root = .ok start) (told : Told start session id manifest)
    (names : (start.after session).named disk question = .ok (some id)) :
    (start.after session).ask disk question =
      (.ok (some ⟨id, manifest⟩), start.after session) := by
  have known := (loaded_after_iff (unloaded_of_opened opened) session id manifest).mpr told
  obtain ⟨filed, -⟩ := settled_of_opened opened session id manifest known
  simp only [ask_eq, names, byId_of_loaded filed known]
  rfl

/-- Where nothing was told of a build, the files decide. -/
theorem answer_of_untold (opened : ofRoot disk' root = .ok start)
    (untold : ∀ id, (start.after session).named disk question = .ok (some id) →
      ∀ manifest, ¬Told start session id manifest) :
    ((start.after session).ask disk question).1 = start.answerOfFiles disk question := by
  have nothing := unloaded_of_opened opened
  rw [← answerOfFiles_of_root (root_after start session)]
  refine answer_of_unloaded fun id names => ?_
  rw [Option.eq_none_iff_forall_ne_some]
  intro manifest known
  exact untold id names manifest ((loaded_after_iff nothing session id manifest).mp known)

/-- Whatever becomes of the files between one question and the next: every manifest that is told
has passed the check. A build that was told once is told the same forever. A question that does not
end with a manifest changes nothing, and where nothing was told of the build that a question leads
to, the files decide as they are. Which build is the latest of a channel depends on the last entry
for it only, whatever is added, removed or told about others. -/
theorem answers_while_files_change (opened : ofRoot disk root = .ok start)
    (session : List (Disk × Question)) :
    (∀ disk question published,
      ((start.after session).ask disk question).1 = .ok (some published) →
        published.manifest.check = .ok () ∧
          (start.after session).named disk question = .ok (some published.build)) ∧
    (∀ id manifest, Told start session id manifest → ∀ disk question,
      (start.after session).named disk question = .ok (some id) →
        (start.after session).ask disk question =
          (.ok (some ⟨id, manifest⟩), start.after session)) ∧
    (∀ disk question,
      (∀ published, ((start.after session).ask disk question).1 ≠ .ok (some published)) →
        ((start.after session).ask disk question).2 = start.after session) ∧
    (∀ disk question,
      (∀ id, (start.after session).named disk question = .ok (some id) →
        ∀ manifest, ¬Told start session id manifest) →
          ((start.after session).ask disk question).1 = start.answerOfFiles disk question) ∧
    ∀ disk disk' channel, (start.after session).ListsAlike channel disk disk' →
      (∀ id, (start.after session).named disk (.latest channel) = .ok (some id) →
        disk.read ((start.after session).manifestPath id) =
          disk'.read ((start.after session).manifestPath id)) →
      (start.after session).latest disk channel = (start.after session).latest disk' channel :=
  ⟨fun _ _ _ told => (settled_of_opened opened session).check_of_ask told,
    fun _ _ told _ _ names => ask_of_told opened told names,
    fun _ _ silent => ask_of_silent silent,
    fun _ _ untold => answer_of_untold opened untold,
    fun _ _ _ alike files => ask_congr (named_of_listsAlike alike) files⟩

end

/-- A list with a build for one channel. What it has as the build of another is none. -/
def notice : String :=
  "[[release]]\nbranch = 1\ntarget = 'windows-x64'\nbuild = '01'\n" ++
    "[[release]]\nbranch = 1\ntarget = 'linux-x64'\nbuild = 'soon'\n"

/-- A disk with a list of releases and a file for the build that is named there. -/
def shelf (list : String) (file : Bytes) : Disk where
  isDirectory path := path == "shelf"
  read path :=
    if path = "shelf/releases.toml" then .ok (Utf8.encode list)
    else if path = "shelf/builds/01.manifest" then .ok file
    else .error .notFound

theorem readText_shelf (list : String) (file : Bytes) :
    (shelf list file).readText "shelf/releases.toml" = .ok list := by
  simp only [Disk.readText, shelf, if_true, Utf8.decode_encode, Except.mapError]

theorem named_shelf (file : Bytes) :
    named ⟨"shelf", ∅⟩ (shelf notice file) (.latest ⟨⟨1⟩, .windowsX64⟩) = .ok (some ⟨[1]⟩) := by
  have path : releasesPath ⟨"shelf", ∅⟩ = "shelf/releases.toml" := by decide +kernel
  have text : (shelf notice file).readText (releasesPath ⟨"shelf", ∅⟩) = .ok notice := by
    rw [path, readText_shelf]
  have listed : Release.listOf? notice =
      some [⟨⟨⟨1⟩, .windowsX64⟩, "01"⟩, ⟨⟨⟨1⟩, .linuxX64⟩, "soon"⟩] := by decide +kernel
  simp only [named, releases_of_text text, listed]
  decide +kernel

theorem answer_of_shelf (file : Bytes) :
    (ask ⟨"shelf", ∅⟩ (shelf notice file) (.latest ⟨⟨1⟩, .windowsX64⟩)).1 =
      (Question.latest ⟨⟨1⟩, .windowsX64⟩).conclude ⟨[1]⟩ (load ⟨"shelf", ∅⟩ (shelf notice file) ⟨[1]⟩) := by
  have filed : Filed ⟨[1]⟩ := by decide
  rw [answer_of_unloaded fun id _ => Std.ExtTreeMap.getElem?_empty, answerOfFiles, named_shelf]
  simp only [bind, Except.bind, if_pos filed]

/-- A file that was read once can be lost. A new catalog cannot do without it. -/
theorem answer_after_loss :
    ((after ⟨"shelf", ∅⟩
        [(shelf notice Manifest.firstEdition.toBytes, .latest ⟨⟨1⟩, .windowsX64⟩)]).ask
      (shelf notice []) (.latest ⟨⟨1⟩, .windowsX64⟩)).1 = .ok (some ⟨⟨[1]⟩, Manifest.firstEdition⟩) ∧
    (ask ⟨"shelf", ∅⟩ (shelf notice []) (.latest ⟨⟨1⟩, .windowsX64⟩)).1.toOption = none := by
  have opened : ofRoot (shelf notice []) "shelf" = .ok ⟨"shelf", ∅⟩ := rfl
  have found : load ⟨"shelf", ∅⟩ (shelf notice Manifest.firstEdition.toBytes) ⟨[1]⟩ =
      .ok (some Manifest.firstEdition) := by decide +kernel
  have told : Told ⟨"shelf", ∅⟩
      [(shelf notice Manifest.firstEdition.toBytes, .latest ⟨⟨1⟩, .windowsX64⟩)] ⟨[1]⟩
        Manifest.firstEdition := by
    refine ⟨[], _, _, [], rfl, (answer_of_shelf _).trans ?_⟩
    rw [found]
    rfl
  obtain ⟨-, kept, -⟩ := answers_while_files_change opened
    [(shelf notice Manifest.firstEdition.toBytes, .latest ⟨⟨1⟩, .windowsX64⟩)]
  constructor
  · exact congrArg Prod.fst (kept ⟨[1]⟩ Manifest.firstEdition told (shelf notice [])
      (.latest ⟨⟨1⟩, .windowsX64⟩)
      ((named_of_root (root_after _ _) _ _).trans (named_shelf [])))
  · have lost : (load ⟨"shelf", ∅⟩ (shelf notice []) ⟨[1]⟩).toOption = none := by decide +kernel
    rw [answer_of_shelf]
    cases missing : load ⟨"shelf", ∅⟩ (shelf notice []) ⟨[1]⟩ with
    | error fault => rfl
    | ok found =>
      rw [missing] at lost
      cases lost

end DirectoryCatalog

end BuildDelivery
