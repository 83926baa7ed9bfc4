import BuildDelivery.Proofs.Catalog.Memory
import Mathlib.Logic.Function.Basic

/-! Publishers and readers that come between each other. A publish call takes two steps, and in
between other publishers may bind the same build or move the same channel. Whatever the order, the
catalog keeps what it has bound, tells nothing that is not bound, and lets every publish call that
has begun come to its end. -/

set_option autoImplicit false

namespace BuildDelivery.MemoryCatalog

/-- A step that nobody can come between. -/
inductive Step where
  | insert (id : BuildId) (manifest : Manifest)
  | setLatest (channel : Channel) (id : BuildId)
  | beginPublish (publisher : Nat) (channel : Channel) (build : Published)
  | endPublish (publisher : Nat)
  | askLatest (channel : Channel)
  | askBuild (id : BuildId)

/-- The publisher whose publish call the step belongs to. -/
def Step.publisher? : Step → Option Nat
  | beginPublish publisher _ _ | endPublish publisher => some publisher
  | _ => none

/-- What a step came to. -/
inductive Report where
  | changed (change : Change) (result : Except StoreFault Unit)
  | toldLatest (channel : Channel) (answer : Except Failure (Option Published))
  | toldBuild (id : BuildId) (answer : Except Failure (Option Manifest))
  /-- There was no publish call to end. -/
  | idle

/-- The build that became the latest of a channel. -/
def Report.pointed? (channel : Channel) : Report → Option BuildId
  | changed (.setLatest other id) (.ok ()) => if other = channel then some id else none
  | _ => none

/-- A catalog that many use at once. -/
structure Shared where
  catalog : MemoryCatalog
  /-- What a publisher has bound and has still to make the latest. -/
  begun? : Nat → Option (Channel × Published)
  /-- What the steps so far came to, the last one first. -/
  reports : List Report

namespace Shared

def start : Shared := ⟨.empty, fun _ => none, []⟩

def change (shared : Shared) (change : Change) : Shared where
  catalog := shared.catalog.after change
  begun? := shared.begun?
  reports := .changed change ((shared.catalog.attempt change).map fun _ => ()) :: shared.reports

def say (shared : Shared) (report : Report) : Shared :=
  { shared with reports := report :: shared.reports }

/-- What a publisher still has to do is this. -/
def leave (shared : Shared) (publisher : Nat) (rest : Option (Channel × Published)) : Shared :=
  { shared with begun? := Function.update shared.begun? publisher rest }

def take (shared : Shared) : Step → Shared
  | .insert id manifest => shared.change (.insert id manifest)
  | .setLatest channel id => shared.change (.setLatest channel id)
  | .beginPublish publisher channel build =>
    -- A build that is refused ends the call.
    let bound := (shared.catalog.insert build.build build.manifest).toOption
    (shared.change (.insert build.build build.manifest)).leave publisher
      (bound.map fun _ => (channel, build))
  | .endPublish publisher =>
    match shared.begun? publisher with
    | some (channel, build) =>
      (shared.change (.setLatest channel build.build)).leave publisher none
    | none => shared.say .idle
  | .askLatest channel =>
    let (answer, catalog) := lookup.latest channel shared.catalog
    { shared with catalog := catalog }.say (.toldLatest channel answer)
  | .askBuild id =>
    let (answer, catalog) := lookup.byId id shared.catalog
    { shared with catalog := catalog }.say (.toldBuild id answer)

/-- What a step comes to if it is the next. -/
def report? (shared : Shared) (step : Step) : Option Report := (shared.take step).reports.head?

/-- The build that the most recent successful step of that kind made the latest of a channel. -/
def lastPointed? (shared : Shared) (channel : Channel) : Option BuildId :=
  shared.reports.findSome? (Report.pointed? channel)

def run (steps : List Step) : Shared := steps.foldl take start

end Shared

section
variable {catalog next : MemoryCatalog} {channel : Channel} {id : BuildId} {manifest : Manifest}

theorem current_of_insert (inserted : catalog.insert id manifest = .ok next) :
    next.current = catalog.current := by
  unfold insert at inserted
  cases found : catalog.build? id with
  | some known =>
    simp only [found] at inserted
    by_cases same : known = manifest
    · rw [if_pos same] at inserted
      cases inserted
      rfl
    · rw [if_neg same] at inserted
      cases inserted
  | none =>
    simp only [found] at inserted
    cases inserted
    rfl

theorem setLatest_eq_ok_iff :
    catalog.setLatest channel id = .ok next ↔
      (∃ manifest, catalog.build? id = some manifest) ∧
        next = { catalog with current := catalog.current.insert channel id } := by
  unfold setLatest
  cases catalog.build? id with
  | some known => simp [eq_comm]
  | none => simp

/-- Only other content is refused. -/
theorem exists_insert_iff :
    (∃ next, catalog.insert id manifest = .ok next) ↔
      ∀ known, catalog.build? id = some known → known = manifest := by
  constructor
  · rintro ⟨next, inserted⟩ known bound
    have kept := bound_of_insert inserted bound
    rw [build?_of_insert inserted, if_pos rfl] at kept
    exact (Option.some.inj kept).symm
  · intro same
    unfold insert
    cases bound : catalog.build? id with
    | none => exact ⟨_, rfl⟩
    | some known => exact ⟨catalog, if_pos (same known bound)⟩

theorem current_of_setLatest (set : catalog.setLatest channel id = .ok next) (other : Channel) :
    next.current[other]? = if other = channel then some id else catalog.current[other]? := by
  obtain ⟨-, rfl⟩ := setLatest_eq_ok_iff.mp set
  simp only [Std.ExtTreeMap.getElem?_insert, Std.LawfulEqCmp.compare_eq_iff_eq, eq_comm (a := other)]

theorem latest?_eq_some_iff {latest : Published} :
    catalog.latest? channel = some latest ↔
      catalog.current[channel]? = some latest.build ∧
        catalog.build? latest.build = some latest.manifest := by
  unfold latest?
  simp only [bind, Option.bind_eq_some_iff]
  constructor
  · rintro ⟨id, current, manifest, bound, same⟩
    cases same
    exact ⟨current, bound⟩
  · rintro ⟨current, bound⟩
    exact ⟨latest.build, current, latest.manifest, bound, rfl⟩

theorem after_of_ok {change : Change} (done : catalog.attempt change = .ok next) :
    catalog.after change = next := by
  unfold after
  rw [done]

theorem after_of_error {change : Change} {fault : StoreFault}
    (refused : catalog.attempt change = .error fault) : catalog.after change = catalog := by
  unfold after
  rw [refused]

/-- A call succeeds and changes the catalog, or it fails and leaves the catalog as it is. -/
theorem attempt_cases (catalog : MemoryCatalog) (change : Change) :
    (∃ next, catalog.attempt change = .ok next ∧ catalog.after change = next) ∨
      ∃ fault, catalog.attempt change = .error fault ∧ catalog.after change = catalog := by
  cases done : catalog.attempt change with
  | ok next => exact .inl ⟨next, rfl, after_of_ok done⟩
  | error fault => exact .inr ⟨fault, rfl, after_of_error done⟩

end

namespace Shared

variable {shared : Shared} {channel : Channel} {id : BuildId} {manifest : Manifest}
  {publisher : Nat} {build : Published}

/-- The channels are where the reports say, no channel names a build that is not bound, and what a
publisher has begun is bound. -/
structure Coherent (shared : Shared) : Prop where
  pointed : ∀ channel : Channel, shared.catalog.current[channel]? = shared.lastPointed? channel
  bound : ∀ (channel : Channel) (id : BuildId), shared.catalog.current[channel]? = some id →
    ∃ manifest, shared.catalog.build? id = some manifest
  begun : ∀ publisher channel build, shared.begun? publisher = some (channel, build) →
    shared.catalog.build? build.build = some build.manifest

theorem coherent_start : start.Coherent where
  pointed channel := by simp [start, empty, lastPointed?]
  bound channel id points := by simp [start, empty] at points
  begun publisher channel build begun := nomatch begun

theorem lastPointed?_change (shared : Shared) (change : Change) (channel : Channel) :
    (shared.change change).lastPointed? channel =
      (Report.pointed? channel (.changed change ((shared.catalog.attempt change).map fun _ => ()))).or
        (shared.lastPointed? channel) := by
  simp only [lastPointed?, Shared.change, List.findSome?_cons]
  cases Report.pointed? channel _ <;> rfl

/-- No call of a publisher unbinds what another has begun. -/
theorem Coherent.begun_change (coherent : shared.Coherent) (change : Change)
    (begun : shared.begun? publisher = some (channel, build)) :
    (shared.change change).catalog.build? build.build = some build.manifest :=
  bound_after change (coherent.begun publisher channel build begun)

theorem Coherent.insert (coherent : shared.Coherent) (id : BuildId) (manifest : Manifest) :
    (shared.change (.insert id manifest)).Coherent := by
  have current : (shared.change (.insert id manifest)).catalog.current =
      shared.catalog.current := by
    rcases shared.catalog.attempt_cases (.insert id manifest) with
      ⟨next, done, same⟩ | ⟨fault, -, same⟩
    · exact (congrArg MemoryCatalog.current same).trans (current_of_insert done)
    · exact congrArg MemoryCatalog.current same
  constructor
  · intro channel
    rw [current, lastPointed?_change]
    exact coherent.pointed channel
  · intro channel named points
    rw [current] at points
    obtain ⟨content, bound⟩ := coherent.bound channel named points
    exact ⟨content, bound_after _ bound⟩
  · exact fun publisher channel build => coherent.begun_change _

theorem Coherent.setLatest (coherent : shared.Coherent) (channel : Channel) (id : BuildId) :
    (shared.change (.setLatest channel id)).Coherent := by
  have begun : ∀ publisher other build, shared.begun? publisher = some (other, build) →
      (shared.change (.setLatest channel id)).catalog.build? build.build = some build.manifest :=
    fun publisher other build => coherent.begun_change _
  rcases shared.catalog.attempt_cases (.setLatest channel id) with
    ⟨next, done, same⟩ | ⟨fault, failed, same⟩
  · -- The channel points to the build that was found bound, the others to what they did before.
    have set : shared.catalog.setLatest channel id = .ok next := done
    have moved : (shared.change (.setLatest channel id)).catalog = next := same
    have points := current_of_setLatest set
    obtain ⟨⟨content, known⟩, -⟩ := setLatest_eq_ok_iff.mp set
    refine ⟨fun other => ?_, fun other named current => ?_, begun⟩
    · rw [lastPointed?_change, done, moved, points, ← coherent.pointed]
      by_cases here : other = channel
      · simp [Report.pointed?, Except.map, here]
      · simp [Report.pointed?, Except.map, here, Ne.symm here]
    · rw [moved, points] at current
      rw [moved, build?_of_setLatest set]
      by_cases here : other = channel
      · rw [if_pos here] at current
        exact ⟨content, Option.some.inj current ▸ known⟩
      · rw [if_neg here] at current
        exact coherent.bound other named current
  · have kept : (shared.change (.setLatest channel id)).catalog = shared.catalog := same
    refine ⟨fun other => ?_, ?_, begun⟩
    · rw [lastPointed?_change, failed, kept]
      exact coherent.pointed other
    · rw [kept]
      exact coherent.bound

theorem Coherent.leave (coherent : shared.Coherent) (publisher : Nat)
    {rest : Option (Channel × Published)}
    (bound : ∀ channel build, rest = some (channel, build) →
      shared.catalog.build? build.build = some build.manifest) :
    (shared.leave publisher rest).Coherent where
  pointed := coherent.pointed
  bound := coherent.bound
  begun other channel build begun := by
    simp only [Shared.leave, Function.update_apply] at begun
    by_cases own : other = publisher
    · rw [if_pos own] at begun
      exact bound channel build begun
    · rw [if_neg own] at begun
      exact coherent.begun other channel build begun

theorem Coherent.say (coherent : shared.Coherent) {report : Report}
    (silent : ∀ channel, report.pointed? channel = none) : (shared.say report).Coherent where
  pointed channel := by
    simp only [lastPointed?, Shared.say, List.findSome?_cons, silent]
    exact coherent.pointed channel
  bound := coherent.bound
  begun := coherent.begun

theorem take_endPublish_of_begun (begun : shared.begun? publisher = some (channel, build)) :
    shared.take (.endPublish publisher) =
      (shared.change (.setLatest channel build.build)).leave publisher none := by
  simp only [take, begun]

theorem take_endPublish_of_none (none : shared.begun? publisher = none) :
    shared.take (.endPublish publisher) = shared.say .idle := by
  simp only [take, none]

theorem bound_of_changeInsert (done : (shared.catalog.insert id manifest).toOption.isSome) :
    (shared.change (.insert id manifest)).catalog.build? id = some manifest := by
  rcases shared.catalog.attempt_cases (.insert id manifest) with
    ⟨next, inserted, same⟩ | ⟨fault, refused, -⟩
  · have built := build?_of_insert inserted id
    rw [if_pos rfl] at built
    exact (congrArg (build? · id) same).trans built
  · have refused : shared.catalog.insert id manifest = .error fault := refused
    rw [refused] at done
    cases done

theorem Coherent.take (coherent : shared.Coherent) (step : Step) : (shared.take step).Coherent := by
  cases step with
  | insert id manifest => exact coherent.insert id manifest
  | setLatest channel id => exact coherent.setLatest channel id
  | beginPublish publisher channel build =>
    apply (coherent.insert build.build build.manifest).leave publisher
    intro other begun rest
    obtain ⟨next, inserted, same⟩ := Option.map_eq_some_iff.mp rest
    cases same
    exact bound_of_changeInsert (by rw [inserted]; rfl)
  | endPublish publisher =>
    cases begun : shared.begun? publisher with
    | none =>
      rw [take_endPublish_of_none begun]
      exact coherent.say fun channel => rfl
    | some pending =>
      rw [take_endPublish_of_begun begun]
      refine (coherent.setLatest _ _).leave publisher ?_
      rintro channel build ⟨⟩
  | askLatest channel =>
    have silent (other : Channel) :
        (Report.toldLatest channel (lookup.latest channel shared.catalog).1).pointed? other = none :=
      rfl
    exact coherent.say silent
  | askBuild id =>
    have silent (other : Channel) :
        (Report.toldBuild id (lookup.byId id shared.catalog).1).pointed? other = none := rfl
    exact coherent.say silent

theorem coherent_run (steps : List Step) : (run steps).Coherent :=
  steps.foldlRecOn take coherent_start fun _ coherent step _ => coherent.take step

theorem report?_askLatest (shared : Shared) (channel : Channel) :
    shared.report? (.askLatest channel) =
      some (.toldLatest channel (.ok (shared.catalog.latest? channel))) := rfl

theorem report?_askBuild (shared : Shared) (id : BuildId) :
    shared.report? (.askBuild id) = some (.toldBuild id (.ok (shared.catalog.build? id))) := rfl

theorem report?_insert_iff :
    shared.report? (.insert id manifest) = some (.changed (.insert id manifest) (.ok ())) ↔
      ∀ known, shared.catalog.build? id = some known → known = manifest := by
  rw [← exists_insert_iff]
  change some (Report.changed _ ((shared.catalog.insert id manifest).map fun _ => ())) = _ ↔ _
  cases shared.catalog.insert id manifest with
  | ok next => simp [Except.map]
  | error fault => simp [Except.map]

theorem report?_setLatest_iff :
    shared.report? (.setLatest channel id) = some (.changed (.setLatest channel id) (.ok ())) ↔
      ∃ manifest, shared.catalog.build? id = some manifest := by
  change some (Report.changed _ ((shared.catalog.setLatest channel id).map fun _ => ())) = _ ↔ _
  unfold MemoryCatalog.setLatest
  cases shared.catalog.build? id with
  | some manifest => simp [Except.map]
  | none => simp [Except.map]

theorem report?_endPublish_of_none (none : shared.begun? publisher = none) :
    shared.report? (.endPublish publisher) = some .idle := by
  rw [report?, take_endPublish_of_none none]
  rfl

/-- A step is a call of a publisher, or it leaves the catalog as it is. -/
theorem take_cases (shared : Shared) (step : Step) :
    (∃ change, (shared.take step).catalog = shared.catalog.after change ∧
      shared.report? step = some (.changed change ((shared.catalog.attempt change).map fun _ => ()))) ∨
    (shared.take step).catalog = shared.catalog ∧
      ∀ change result, shared.report? step ≠ some (.changed change result) := by
  cases step with
  | insert _ _ => exact .inl ⟨_, rfl, rfl⟩
  | setLatest _ _ => exact .inl ⟨_, rfl, rfl⟩
  | beginPublish _ _ _ => exact .inl ⟨_, rfl, rfl⟩
  | endPublish publisher =>
    cases begun : shared.begun? publisher with
    | none =>
      rw [report?_endPublish_of_none begun, take_endPublish_of_none begun]
      refine .inr ⟨rfl, ?_⟩
      rintro change result ⟨⟩
    | some pending =>
      rw [report?, take_endPublish_of_begun begun]
      exact .inl ⟨_, rfl, rfl⟩
  | askLatest channel =>
    rw [report?_askLatest]
    refine .inr ⟨rfl, ?_⟩
    rintro change result ⟨⟩
  | askBuild id =>
    rw [report?_askBuild]
    refine .inr ⟨rfl, ?_⟩
    rintro change result ⟨⟩

theorem bound_take (step : Step) (bound : shared.catalog.build? id = some manifest) :
    (shared.take step).catalog.build? id = some manifest := by
  rcases shared.take_cases step with ⟨change, same, -⟩ | ⟨same, -⟩
  · rw [same]
    exact bound_after change bound
  · rw [same]
    exact bound

/-- A step that is refused changes nothing in the catalog. -/
theorem catalog_of_refused {step : Step} {change : Change} {fault : StoreFault}
    (refused : shared.report? step = some (.changed change (.error fault))) :
    (shared.take step).catalog = shared.catalog := by
  rcases shared.take_cases step with ⟨other, same, told⟩ | ⟨same, -⟩
  · rcases shared.catalog.attempt_cases other with ⟨next, done, -⟩ | ⟨-, -, kept⟩
    · rw [told, done] at refused
      cases refused
    · exact same.trans kept
  · exact same

theorem run_append (steps later : List Step) : run (steps ++ later) = later.foldl take (run steps) :=
  List.foldl_append

theorem bound_run {steps : List Step} (bound : (run steps).catalog.build? id = some manifest)
    (later : List Step) : (run (steps ++ later)).catalog.build? id = some manifest := by
  rw [run_append]
  exact later.foldlRecOn take (motive := fun shared => shared.catalog.build? id = some manifest)
    bound fun _ bound step _ => bound_take step bound

/-- Nobody else ends or replaces what a publisher has begun. -/
theorem begun?_take {step : Step} (other : step.publisher? ≠ some publisher) :
    (shared.take step).begun? publisher = shared.begun? publisher := by
  cases step with
  | insert _ _ => rfl
  | setLatest _ _ => rfl
  | beginPublish own _ _ =>
    exact Function.update_of_ne (fun same => other (congrArg some same.symm)) _ _
  | endPublish own =>
    cases begun : shared.begun? own with
    | none => rw [take_endPublish_of_none begun]; rfl
    | some pending =>
      rw [take_endPublish_of_begun begun]
      exact Function.update_of_ne (fun same => other (congrArg some same.symm)) _ _
  | askLatest _ => rfl
  | askBuild _ => rfl

theorem begun?_run {between : List Step} (others : ∀ step ∈ between, step.publisher? ≠ some publisher) :
    (between.foldl take shared).begun? publisher = shared.begun? publisher :=
  between.foldlRecOn take (motive := fun next => next.begun? publisher = shared.begun? publisher)
    rfl fun _ same step member => (begun?_take (others step member)).trans same

theorem inserted_of_report
    (told : shared.report? (.beginPublish publisher channel build) =
      some (.changed (.insert build.build build.manifest) (.ok ()))) :
    ∃ next, shared.catalog.insert build.build build.manifest = .ok next := by
  -- The first step of a publish call is reported as the insertion that it is.
  have told : shared.report? (.insert build.build build.manifest) =
      some (.changed (.insert build.build build.manifest) (.ok ())) := told
  exact exists_insert_iff.mpr (report?_insert_iff.mp told)

theorem begun?_beginPublish {next : MemoryCatalog}
    (inserted : shared.catalog.insert build.build build.manifest = .ok next) (channel : Channel) :
    (shared.take (.beginPublish publisher channel build)).begun? publisher =
      some (channel, build) := by
  simp only [take, leave, inserted, Except.toOption, Option.map_some, Function.update_self]

/-- Whoever asks for the latest build of a channel is told the one that became so last, with the
manifest that it is bound to. -/
theorem Coherent.latest? (coherent : shared.Coherent) (channel : Channel) :
    (shared.catalog.latest? channel).map Published.build = shared.lastPointed? channel := by
  rw [← coherent.pointed]
  cases points : shared.catalog.current[channel]? with
  | none => simp [MemoryCatalog.latest?, points]
  | some id =>
    obtain ⟨manifest, bound⟩ := coherent.bound channel id points
    have latest : shared.catalog.latest? channel = some ⟨id, manifest⟩ :=
      latest?_eq_some_iff.mpr ⟨points, bound⟩
    rw [latest, Option.map_some]

/-- The second step of a publish call never fails. -/
theorem Coherent.endPublish (coherent : shared.Coherent)
    (begun : shared.begun? publisher = some (channel, build)) :
    shared.report? (.endPublish publisher) =
      some (.changed (.setLatest channel build.build) (.ok ())) := by
  have known : shared.catalog.build? build.build = some build.manifest :=
    coherent.begun publisher channel build begun
  have done : shared.catalog.attempt (.setLatest channel build.build) = .ok _ :=
    setLatest_eq_ok_iff.mpr ⟨⟨build.manifest, known⟩, rfl⟩
  unfold report?
  rw [take_endPublish_of_begun begun]
  simp only [Shared.leave, change, done, List.head?_cons, Except.map]

/-- A publish call that nobody comes between does both of its steps, or none. -/
theorem catalog_publish (shared : Shared) (publisher : Nat) (channel : Channel) (build : Published) :
    ((shared.take (.beginPublish publisher channel build)).take (.endPublish publisher)).catalog =
      shared.catalog.after (.publish channel build.build build.manifest) := by
  cases inserted : shared.catalog.insert build.build build.manifest with
  | error fault =>
    have nothing : (shared.take (.beginPublish publisher channel build)).begun? publisher = none := by
      simp only [take, leave, inserted, Except.toOption, Option.map_none, Function.update_self]
    have refused : shared.catalog.attempt (.publish channel build.build build.manifest) =
        .error fault := by
      simp only [attempt, publish, inserted, bind, Except.bind]
    have first : shared.catalog.attempt (.insert build.build build.manifest) = .error fault := inserted
    rw [take_endPublish_of_none nothing, after_of_error refused]
    exact after_of_error first
  | ok next =>
    have known : next.build? build.build = some build.manifest := by
      rw [build?_of_insert inserted, if_pos rfl]
    have set : next.setLatest channel build.build = .ok _ :=
      setLatest_eq_ok_iff.mpr ⟨⟨build.manifest, known⟩, rfl⟩
    have done : shared.catalog.attempt (.publish channel build.build build.manifest) = .ok _ :=
      bind_eq_ok_iff.mpr ⟨next, inserted, set⟩
    have first : shared.catalog.attempt (.insert build.build build.manifest) = .ok next := inserted
    have second : next.attempt (.setLatest channel build.build) = .ok _ := set
    have between : (shared.take (.beginPublish publisher channel build)).catalog = next :=
      after_of_ok first
    rw [take_endPublish_of_begun (begun?_beginPublish inserted channel), after_of_ok done]
    exact (congrArg (after · (.setLatest channel build.build)) between).trans (after_of_ok second)

/-- In every order of steps, what is bound stays bound, whoever asks for the latest build of a channel
is told the one that became so last with the manifest that it is bound to, a step that is refused
changes nothing, and a publish call that has bound its build ends well, whatever comes between.
Refused are only other content for a build and a latest build that is not bound. -/
theorem safe_interleaving (steps : List Step) :
    (∀ id manifest, (run steps).catalog.build? id = some manifest →
      ∀ later, (run (steps ++ later)).catalog.build? id = some manifest) ∧
    (∀ channel, ∃ latest?,
      (run steps).report? (.askLatest channel) = some (.toldLatest channel (.ok latest?)) ∧
      latest?.map Published.build = (run steps).lastPointed? channel ∧
      ∀ latest, latest? = some latest → (run steps).report? (.askBuild latest.build) =
        some (.toldBuild latest.build (.ok (some latest.manifest)))) ∧
    (∀ step change fault, (run steps).report? step = some (.changed change (.error fault)) →
      (run (steps ++ [step])).catalog = (run steps).catalog) ∧
    (∀ id manifest,
      (run steps).report? (.insert id manifest) =
          some (.changed (.insert id manifest) (.ok ())) ↔
        ∀ known, (run steps).catalog.build? id = some known → known = manifest) ∧
    (∀ channel id,
      (run steps).report? (.setLatest channel id) =
          some (.changed (.setLatest channel id) (.ok ())) ↔
        ∃ manifest, (run steps).catalog.build? id = some manifest) ∧
    (∀ publisher channel build between,
      (run steps).report? (.beginPublish publisher channel build) =
        some (.changed (.insert build.build build.manifest) (.ok ())) →
      (∀ step ∈ between, step.publisher? ≠ some publisher) →
      (run (steps ++ .beginPublish publisher channel build :: between)).report?
          (.endPublish publisher) = some (.changed (.setLatest channel build.build) (.ok ())) ∧
        (run (steps ++ .beginPublish publisher channel build :: between ++
          [.endPublish publisher])).catalog.build? build.build = some build.manifest) ∧
    ∀ publisher channel build,
      (run (steps ++ [.beginPublish publisher channel build, .endPublish publisher])).catalog =
        (run steps).catalog.after (.publish channel build.build build.manifest) := by
  have coherent := coherent_run steps
  refine ⟨fun id manifest => bound_run, fun channel => ?_, fun step change fault refused => ?_,
    fun id manifest => report?_insert_iff, fun channel id => report?_setLatest_iff,
    fun publisher channel build between told others => ?_, fun publisher channel build => ?_⟩
  · refine ⟨_, report?_askLatest _ channel, coherent.latest? channel, fun latest found => ?_⟩
    rw [report?_askBuild, bound_of_latest? found]
  · rw [run_append]
    exact catalog_of_refused refused
  · have begun : (run (steps ++ .beginPublish publisher channel build :: between)).begun?
        publisher = some (channel, build) := by
      obtain ⟨next, inserted⟩ := inserted_of_report told
      rw [run_append]
      exact (begun?_run others).trans (begun?_beginPublish inserted channel)
    have midway := coherent_run (steps ++ .beginPublish publisher channel build :: between)
    exact ⟨midway.endPublish begun, bound_run (midway.begun publisher channel build begun) _⟩
  · rw [run_append]
    exact catalog_publish _ publisher channel build

def contested : Channel := ⟨⟨1⟩, .windowsX64⟩

def small : Published := ⟨⟨[1]⟩, Manifest.empty smallestBlockSize⟩

def large : Published := ⟨⟨[2]⟩, Manifest.empty largestBlockSize⟩

/-- What happens while one publisher is between its steps: another publishes a build for the same
channel, and a third tries to give the first one's build another content. -/
def crowd : List Step :=
  [.beginPublish 1 contested large, .insert small.build large.manifest, .endPublish 1,
    .askLatest contested]

theorem publish_in_crowd :
    (run (.beginPublish 0 contested small :: crowd)).report? (.endPublish 0) =
        some (.changed (.setLatest contested small.build) (.ok ())) ∧
      (run (.beginPublish 0 contested small :: crowd ++ [.endPublish 0])).catalog.build?
        small.build = some small.manifest := by
  have told : (run []).report? (.beginPublish 0 contested small) =
      some (.changed (.insert small.build small.manifest) (.ok ())) := rfl
  have others : ∀ step ∈ crowd, step.publisher? ≠ some 0 := by decide
  obtain ⟨-, -, -, -, -, ends, -⟩ := safe_interleaving []
  exact ends 0 contested small crowd told others

end Shared

end BuildDelivery.MemoryCatalog
