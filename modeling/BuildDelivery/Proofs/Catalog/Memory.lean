import BuildDelivery.Catalog.Memory
import BuildDelivery.Proofs.Catalog.Lookup
import BuildDelivery.Proofs.Outcome

/-! What publishers can do to a catalog in memory. A build stays bound to its manifest whatever
they do, only a change that names a build can bind it, and what the catalog tells is bound. -/

set_option autoImplicit false

namespace BuildDelivery.MemoryCatalog

/-- One call of a publisher. -/
inductive Change where
  | insert (id : BuildId) (manifest : Manifest)
  | setLatest (channel : Channel) (id : BuildId)
  | publish (channel : Channel) (id : BuildId) (manifest : Manifest)

/-- The build that a call binds if it succeeds. -/
def Change.binding? : Change → Option (BuildId × Manifest)
  | .insert id manifest | .publish _ id manifest => some (id, manifest)
  | .setLatest _ _ => none

def attempt (catalog : MemoryCatalog) : Change → Except StoreFault MemoryCatalog
  | .insert id manifest => catalog.insert id manifest
  | .setLatest channel id => catalog.setLatest channel id
  | .publish channel id manifest => catalog.publish channel id manifest

/-- The catalog after a call; one that fails leaves it as it is. -/
def after (catalog : MemoryCatalog) (change : Change) : MemoryCatalog :=
  match catalog.attempt change with
  | .ok next => next
  | .error _ => catalog

variable {catalog next : MemoryCatalog} {id : BuildId} {manifest : Manifest}

theorem build?_of_insert (inserted : catalog.insert id manifest = .ok next) (other : BuildId) :
    next.build? other = if other = id then some manifest else catalog.build? other := by
  unfold insert at inserted
  cases found : catalog.build? id with
  | some known =>
    simp only [found] at inserted
    by_cases same : known = manifest
    · rw [if_pos same] at inserted
      cases inserted
      by_cases here : other = id
      · rw [if_pos here, here, found, same]
      · rw [if_neg here]
    · rw [if_neg same] at inserted
      cases inserted
  | none =>
    simp only [found] at inserted
    cases inserted
    by_cases here : other = id
    · simp [build?, here]
    · simp [build?, here, Std.ExtTreeMap.getElem?_insert, Std.LawfulEqCmp.compare_eq_iff_eq,
        Ne.symm here]

theorem bound_of_insert (inserted : catalog.insert id manifest = .ok next) {other : BuildId}
    {content : Manifest} (bound : catalog.build? other = some content) :
    next.build? other = some content := by
  rw [build?_of_insert inserted]
  by_cases here : other = id
  · subst here
    rw [if_pos rfl]
    -- An id that is bound can only be bound to the same manifest again.
    unfold insert at inserted
    simp only [bound] at inserted
    by_cases same : content = manifest
    · rw [same]
    · rw [if_neg same] at inserted
      cases inserted
  · rw [if_neg here, bound]

theorem build?_of_setLatest {channel : Channel} (set : catalog.setLatest channel id = .ok next)
    (other : BuildId) : next.build? other = catalog.build? other := by
  unfold setLatest at set
  cases found : catalog.build? id with
  | some known =>
    simp only [found] at set
    cases set
    rfl
  | none =>
    simp only [found] at set
    cases set

theorem bound_of_attempt {change : Change} (done : catalog.attempt change = .ok next)
    {other : BuildId} {content : Manifest} (bound : catalog.build? other = some content) :
    next.build? other = some content := by
  cases change with
  | insert id manifest => exact bound_of_insert done bound
  | setLatest channel id => rwa [build?_of_setLatest done]
  | publish channel id manifest =>
    -- First the build is bound, then it becomes the latest, which binds nothing.
    obtain ⟨between, inserted, set⟩ := bind_eq_ok_iff.mp done
    rw [build?_of_setLatest set]
    exact bound_of_insert inserted bound

theorem binding_of_attempt {change : Change} (done : catalog.attempt change = .ok next)
    {other : BuildId} {content : Manifest} (bound : next.build? other = some content) :
    catalog.build? other = some content ∨ change.binding? = some (other, content) := by
  have split {id : BuildId} {manifest : Manifest} {between : MemoryCatalog}
      (inserted : catalog.insert id manifest = .ok between)
      (bound : between.build? other = some content) :
      catalog.build? other = some content ∨ some (id, manifest) = some (other, content) := by
    rw [build?_of_insert inserted] at bound
    by_cases here : other = id
    · rw [if_pos here] at bound
      cases bound
      exact .inr (by rw [here])
    · rw [if_neg here] at bound
      exact .inl bound
  cases change with
  | insert id manifest => exact split done bound
  | setLatest channel id =>
    rw [build?_of_setLatest done] at bound
    exact .inl bound
  | publish channel id manifest =>
    obtain ⟨between, inserted, set⟩ := bind_eq_ok_iff.mp done
    rw [build?_of_setLatest set] at bound
    exact split inserted bound

/-- A build that is bound stays bound to its manifest. -/
theorem bound_after (change : Change) (bound : catalog.build? id = some manifest) :
    (catalog.after change).build? id = some manifest := by
  unfold after
  cases done : catalog.attempt change with
  | ok next => exact bound_of_attempt done bound
  | error fault => exact bound

/-- A build that is bound was bound before or is bound by the call. -/
theorem binding_after {change : Change} (bound : (catalog.after change).build? id = some manifest) :
    catalog.build? id = some manifest ∨ change.binding? = some (id, manifest) := by
  unfold after at bound
  cases done : catalog.attempt change with
  | ok next =>
    rw [done] at bound
    exact binding_of_attempt done bound
  | error fault =>
    rw [done] at bound
    exact .inl bound

theorem bound_of_latest? {channel : Channel} {latest : Published}
    (found : catalog.latest? channel = some latest) :
    catalog.build? latest.build = some latest.manifest := by
  obtain ⟨id, -, rest⟩ := Option.bind_eq_some_iff.mp found
  obtain ⟨manifest, bound, same⟩ := Option.bind_eq_some_iff.mp rest
  cases same
  exact bound

theorem passesOver_lookup {branch : BranchId} {targets : List Target}
    (passed : lookup.PassesOver branch targets catalog next) :
    next = catalog ∧ ∀ target ∈ targets, catalog.latest? ⟨branch, target⟩ = none := by
  induction passed with
  | none => exact ⟨rfl, nofun⟩
  | one missing _ step =>
    obtain ⟨answer, rfl⟩ := Prod.mk.inj missing
    obtain ⟨same, later⟩ := step
    exact ⟨same, List.forall_mem_cons.mpr ⟨Except.ok.inj answer, later⟩⟩

theorem state_of_decides {branch : BranchId} {targets : List Target}
    {answer : Except Failure (Option Published)}
    (decides : lookup.Decides branch targets catalog answer next) : next = catalog := by
  cases decides with
  | nobody passed => exact (passesOver_lookup passed).1
  | first split passed found other =>
    obtain ⟨rfl, -⟩ := passesOver_lookup passed
    exact (Prod.mk.inj found).2.symm

/-- The latest build that is found is that of the first target that has one. -/
theorem decides_lookup {branch : BranchId} {targets : List Target} {latest : Published}
    (decides : lookup.Decides branch targets catalog (.ok (some latest)) next) :
    ∃ before target after, targets = before ++ target :: after ∧
      (∀ earlier ∈ before, catalog.latest? ⟨branch, earlier⟩ = none) ∧
        catalog.latest? ⟨branch, target⟩ = some latest := by
  cases decides with
  | @first before after target between _ _ split passed found _ =>
    obtain ⟨rfl, none⟩ := passesOver_lookup passed
    have answer := (Prod.mk.inj found).1
    exact ⟨before, target, after, split, none, Except.ok.inj answer⟩

end BuildDelivery.MemoryCatalog
