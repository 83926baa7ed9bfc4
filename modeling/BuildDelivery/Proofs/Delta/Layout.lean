import BuildDelivery.Delta.Apply
import BuildDelivery.Proofs.Manifest.Listing

/-! Layouts while operations are carried out. Each step touches one location, and where all steps
succeed the last operation at a location decides about its block. -/

set_option autoImplicit false

namespace BuildDelivery

namespace Operation

/-- The operation that decides about a location: of several the last. -/
def lastAt? (operations : List Operation) (location : Location) : Option Operation :=
  operations.reverse.find? fun operation => operation.location = location

/-- The block at a location once operations are carried out on one that held `held?`. -/
def after (operations : List Operation) (location : Location) (held? : Option Block) :
    Option Block :=
  match lastAt? operations location with
  | some operation => operation.block?
  | none => held?

theorem after_cons (operation : Operation) (rest : List Operation) (location : Location)
    (held? : Option Block) :
    after (operation :: rest) location held? =
      after rest location (if operation.location = location then operation.block? else held?) := by
  rw [after, after, lastAt?, lastAt?, find?_reverse_cons]
  cases List.find? (fun operation => decide (operation.location = location)) rest.reverse with
  | some found => rfl
  | none =>
    by_cases here : operation.location = location
    · simp [here]
    · simp [here]

theorem lastAt?_eq_none_iff {operations : List Operation} {location : Location} :
    lastAt? operations location = none ↔ ∀ operation ∈ operations, operation.location ≠ location := by
  simp only [lastAt?, List.find?_eq_none, List.mem_reverse, decide_eq_true_eq, ne_eq]

theorem mem_of_lastAt? {operations : List Operation} {location : Location} {operation : Operation}
    (last : lastAt? operations location = some operation) :
    operation ∈ operations ∧ operation.location = location :=
  ⟨List.mem_reverse.mp (List.mem_of_find?_eq_some last), by simpa using List.find?_some last⟩

theorem after_of_unnamed {operations : List Operation} {location : Location}
    (unnamed : ∀ operation ∈ operations, operation.location ≠ location) (held? : Option Block) :
    after operations location held? = held? := by
  rw [after, lastAt?_eq_none_iff.mpr unnamed]

/-- An operation at a location of its own decides about it. -/
theorem after_of_distinct {operations : List Operation} {operation : Operation}
    (distinct : (operations.map location).Nodup) (member : operation ∈ operations)
    (held? : Option Block) : after operations operation.location held? = operation.block? := by
  cases last : lastAt? operations operation.location with
  | none => exact absurd rfl (lastAt?_eq_none_iff.mp last operation member)
  | some other =>
    obtain ⟨among, same⟩ := mem_of_lastAt? last
    obtain rfl := List.inj_on_of_nodup_map distinct among member same
    rw [after, last]

end Operation

namespace Layout

theorem block?_insert (layout : Layout) (path : String) (file : Std.ExtTreeMap UInt32 Block)
    (location : Location) :
    Layout.block? (layout.insert path file) location =
      if path = location.path then file[location.index]? else layout.block? location := by
  simp only [block?, Std.ExtTreeMap.getElem?_insert, Std.LawfulEqCmp.compare_eq_iff_eq]
  by_cases here : path = location.path
  · simp [here]
  · simp [here]

theorem getElem?_getD (layout : Layout) (path : String) (index : UInt32) :
    (layout.getD path ∅)[index]? = layout.block? ⟨path, index⟩ := by
  simp only [block?, Std.ExtTreeMap.getD_eq_getD_getElem?]
  cases layout[path]? with
  | none => simp
  | some file => rfl

theorem block?_put (layout : Layout) (location other : Location) (block : Block) :
    (layout.put location block).block? other =
      if location = other then some block else layout.block? other := by
  obtain ⟨path, index⟩ := location
  obtain ⟨path', index'⟩ := other
  rw [put, block?_insert, Std.ExtTreeMap.getElem?_insert, getElem?_getD]
  by_cases samePath : path = path'
  · simp [samePath]
  · simp [samePath]

theorem block?_drop (layout : Layout) (location other : Location) :
    (layout.drop location).block? other =
      if location = other then none else layout.block? other := by
  obtain ⟨path, index⟩ := location
  obtain ⟨path', index'⟩ := other
  rw [drop, block?_insert, Std.ExtTreeMap.getElem?_erase, getElem?_getD]
  by_cases samePath : path = path'
  · simp [samePath]
  · simp [samePath]

theorem mem_put (layout : Layout) (location : Location) (block : Block) (path : String) :
    path ∈ layout.put location block ↔ location.path = path ∨ path ∈ layout := by
  simp [put, Std.ExtTreeMap.mem_insert]

theorem mem_drop (layout : Layout) (location : Location) (path : String) :
    path ∈ layout.drop location ↔ location.path = path ∨ path ∈ layout := by
  simp [drop, Std.ExtTreeMap.mem_insert]

/-- Carries out an operation whether or not it fits. -/
def carry (layout : Layout) (operation : Operation) : Layout :=
  match operation.block? with
  | some block => layout.put operation.location block
  | none => layout.drop operation.location

theorem block?_carry (layout : Layout) (operation : Operation) (location : Location) :
    (layout.carry operation).block? location =
      if operation.location = location then operation.block? else layout.block? location := by
  unfold carry
  cases operation.block? with
  | some block => exact block?_put ..
  | none => exact block?_drop ..

theorem mem_carry (layout : Layout) (operation : Operation) (path : String) :
    path ∈ layout.carry operation ↔ operation.location.path = path ∨ path ∈ layout := by
  unfold carry
  cases operation.block? with
  | some block => exact mem_put ..
  | none => exact mem_drop ..

/-- Additions fit where nothing is, all other operations where something is. -/
def Fits (operation : Operation) (held? : Option Block) : Prop := operation.isAdd = held?.isNone

theorem step_eq_ok_iff {layout next : Layout} {operation : Operation} :
    layout.step operation = .ok next ↔
      Fits operation (layout.block? operation.location) ∧ next = layout.carry operation := by
  unfold step
  cases held : layout.block? operation.location with
  | none =>
    cases operation with
    | add location block => exact ⟨fun done => ⟨rfl, (Except.ok.inj done).symm⟩, fun fits => by rw [fits.2]; rfl⟩
    | modify location block => exact iff_of_false nofun fun fits => Bool.noConfusion fits.1
    | remove location => exact iff_of_false nofun fun fits => Bool.noConfusion fits.1
  | some old =>
    cases operation with
    | add location block => exact iff_of_false nofun fun fits => Bool.noConfusion fits.1
    | modify location block => exact ⟨fun done => ⟨rfl, (Except.ok.inj done).symm⟩, fun fits => by rw [fits.2]; rfl⟩
    | remove location => exact ⟨fun done => ⟨rfl, (Except.ok.inj done).symm⟩, fun fits => by rw [fits.2]; rfl⟩

theorem run_cons_eq_ok_iff {layout final : Layout} {operation : Operation}
    {rest : List Operation} :
    layout.run (operation :: rest) = .ok final ↔
      Fits operation (layout.block? operation.location) ∧
        (layout.carry operation).run rest = .ok final := by
  cases stepped : layout.step operation with
  | error fault =>
    have unfit : ¬Fits operation (layout.block? operation.location) := fun fits => by
      cases stepped.symm.trans (step_eq_ok_iff.mpr ⟨fits, rfl⟩)
    simp only [run, stepped, reduceCtorEq, unfit, false_and]
  | ok next =>
    obtain ⟨fits, rfl⟩ := step_eq_ok_iff.mp stepped
    simp only [run, stepped, fits, true_and]

/-- Where a run succeeds, the last operation at a location decides about its block. -/
theorem block?_of_run {layout final : Layout} {operations : List Operation}
    (done : layout.run operations = .ok final) (location : Location) :
    final.block? location = Operation.after operations location (layout.block? location) := by
  induction operations generalizing layout with
  | nil =>
    cases done
    rfl
  | cons operation rest step =>
    rw [step (run_cons_eq_ok_iff.mp done).2, block?_carry, Operation.after_cons]

/-- Where a run succeeds, the files are those from before and those that operations name. -/
theorem mem_of_run {layout final : Layout} {operations : List Operation}
    (done : layout.run operations = .ok final) (path : String) :
    path ∈ final ↔ path ∈ layout ∨ ∃ operation ∈ operations, operation.location.path = path := by
  induction operations generalizing layout with
  | nil =>
    cases done
    simp
  | cons operation rest step =>
    rw [step (run_cons_eq_ok_iff.mp done).2, mem_carry, List.exists_mem_cons_iff, or_assoc,
      or_left_comm]

/-- Operations at locations of their own that fit at the start fit when their turn comes. -/
theorem run_of_fits {layout : Layout} {operations : List Operation}
    (distinct : (operations.map Operation.location).Nodup)
    (fit : ∀ operation ∈ operations, Fits operation (layout.block? operation.location)) :
    ∃ final, layout.run operations = .ok final := by
  induction operations generalizing layout with
  | nil => exact ⟨layout, rfl⟩
  | cons operation rest step =>
    rw [List.map_cons, List.nodup_cons] at distinct
    rw [List.forall_mem_cons] at fit
    -- What is done first happens elsewhere, so whatever fitted before still fits.
    have kept : ∀ later ∈ rest, Fits later ((layout.carry operation).block? later.location) := by
      intro later member
      have apart : operation.location ≠ later.location := fun same =>
        distinct.1 (List.mem_map.mpr ⟨later, member, same.symm⟩)
      rw [block?_carry, if_neg apart]
      exact fit.2 later member
    obtain ⟨final, done⟩ := step distinct.2 kept
    exact ⟨final, run_cons_eq_ok_iff.mpr ⟨fit.1, done⟩⟩

/-- Conversely, operations at locations of their own that could be carried out fitted at the start. -/
theorem fits_of_run {layout final : Layout} {operations : List Operation}
    (distinct : (operations.map Operation.location).Nodup)
    (done : layout.run operations = .ok final) :
    ∀ operation ∈ operations, Fits operation (layout.block? operation.location) := by
  induction operations generalizing layout with
  | nil => exact fun operation member => nomatch member
  | cons operation rest step =>
    rw [List.map_cons, List.nodup_cons] at distinct
    obtain ⟨first, done⟩ := run_cons_eq_ok_iff.mp done
    refine List.forall_mem_cons.mpr ⟨first, fun later member => ?_⟩
    have apart : operation.location ≠ later.location := fun same =>
      distinct.1 (List.mem_map.mpr ⟨later, member, same.symm⟩)
    have fits := step distinct.2 done later member
    rwa [block?_carry, if_neg apart] at fits

theorem block?_foldl_put (layout : Layout) (size : UInt32) (blocks : List (Location × Block))
    (location : Location) :
    Layout.block? (blocks.foldl (fun layout entry => Layout.put layout entry.1 entry.2) layout) location =
      ((Listing.mk size blocks).block? location).or (layout.block? location) := by
  induction blocks generalizing layout with
  | nil => rfl
  | cons entry rest step =>
    rw [List.foldl_cons, step, Listing.block?_cons, Option.or_assoc, block?_put]
    by_cases here : entry.1 = location
    · simp [here]
    · simp [here]

theorem block?_ofListing (listing : Listing) (location : Location) :
    (ofListing listing).block? location = listing.block? location := by
  rw [ofListing, block?_foldl_put ∅ listing.maxBlockSize]
  simp [block?]

theorem mem_foldl_put (layout : Layout) (blocks : List (Location × Block)) (path : String) :
    path ∈ blocks.foldl (fun layout entry => Layout.put layout entry.1 entry.2) layout ↔
      path ∈ layout ∨ ∃ entry ∈ blocks, entry.1.path = path := by
  induction blocks generalizing layout with
  | nil => simp
  | cons entry rest step =>
    rw [List.foldl_cons, step, mem_put, List.exists_mem_cons_iff, or_assoc, or_left_comm]

theorem mem_ofListing (listing : Listing) (path : String) :
    path ∈ ofListing listing ↔ ∃ entry ∈ listing.blocks, entry.1.path = path := by
  rw [ofListing, mem_foldl_put]
  simp

/-- The layout of a manifest names its files. -/
theorem file?_of_mem_ofListing {manifest : Manifest} (addressable : manifest.Addressable)
    {path : String} (named : path ∈ ofListing manifest.listing) :
    ∃ blocks, manifest.file? path = some blocks := by
  obtain ⟨⟨location, block⟩, listed, rfl⟩ := (mem_ofListing _ _).mp named
  exact Manifest.file?_of_block? ((Manifest.mem_listing_iff addressable).mp listed)

end Layout

end BuildDelivery
