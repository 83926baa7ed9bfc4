import BuildDelivery.Proofs.Catalog.Lookup
import BuildDelivery.Proofs.Delta.Bounded
import BuildDelivery.Resolution

/-! The rules by which a service decides. They are written down here without checksums that are
remembered, without a join that is broken off and without an order of evaluation; a service that
has nothing wrong in its memory follows them on every catalog. -/

set_option autoImplicit false

namespace BuildDelivery

namespace Request

/-- The request names a build that the client holds. -/
def Names (request : Request) (held : BuildId) : Prop :=
  request.held? = some held ∧ ¬held.isEmpty

theorem Names.unique {request : Request} {left right : BuildId} (one : request.Names left)
    (other : request.Names right) : left = right :=
  Option.some.inj (one.1.symm.trans other.1)

theorem localBuild?_eq_some_iff {request : Request} {held : BuildId} :
    request.localBuild? = some held ↔ request.Names held := by
  simp [localBuild?, Names, Option.filter_eq_some_iff]

theorem localBuild?_eq_none_iff {request : Request} :
    request.localBuild? = none ↔ ∀ held, ¬request.Names held := by
  simp only [← localBuild?_eq_some_iff, Option.eq_none_iff_forall_ne_some]

theorem check_eq_ok_iff {request : Request} :
    request.check = .ok () ↔ request.branch.value ≠ 0 ∧ request.targets ≠ [] := by
  unfold check BranchId.isUnset
  by_cases unset : request.branch.value = 0
  · simp [unset]
  · cases targets : request.targets with
    | nil => simp [unset]
    | cons target rest => simp [unset]

theorem check_of_branchMissing {request : Request} (unset : request.branch.value = 0) :
    request.check = .error .branchMissing := by
  simp [check, BranchId.isUnset, unset]

theorem check_of_targetsMissing {request : Request} (set : request.branch.value ≠ 0)
    (none : request.targets = []) : request.check = .error .targetsMissing := by
  simp [check, BranchId.isUnset, set, none]

end Request

namespace Service

/-- What a client gets that holds another known build. -/
inductive Comparison (policy : Policy) (held latest : Manifest) : Payload → Rule → Prop where
  | sameContent : held.checksum = latest.checksum →
      Comparison policy held latest .upToDate .upToDate
  | otherSize : held.checksum ≠ latest.checksum → held.maxBlockSize ≠ latest.maxBlockSize →
      Comparison policy held latest (.manifest latest)
        (.blockSizeChanged held.maxBlockSize latest.maxBlockSize)
  | changes : held.checksum ≠ latest.checksum → held.maxBlockSize = latest.maxBlockSize →
      (Delta.between held.listing latest.listing).changes ≤ policy.maxChanges →
        Comparison policy held latest (.delta (Delta.between held.listing latest.listing))
          (.delta (Delta.between held.listing latest.listing).changes)
  | tooMany : held.checksum ≠ latest.checksum → held.maxBlockSize = latest.maxBlockSize →
      policy.maxChanges < (Delta.between held.listing latest.listing).changes →
        Comparison policy held latest (.manifest latest) (.deltaTooLarge policy.maxChanges)

/-- What a client gets once the latest build is found. -/
inductive Conveyance {σ : Type} (policy : Policy) (catalog : Catalog σ) (request : Request)
    (latest : Published) (state : σ) : Except Failure (Payload × Rule) → Prop where
  | fresh : (∀ held, ¬request.Names held) →
      Conveyance policy catalog request latest state (.ok (.manifest latest.manifest, .freshInstall))
  | same : request.Names latest.build →
      Conveyance policy catalog request latest state (.ok (.upToDate, .upToDate))
  | failed {held : BuildId} {failure : Failure} : request.Names held → held ≠ latest.build →
      (catalog.byId held state).1 = .error failure →
        Conveyance policy catalog request latest state (.error failure)
  | unknown {held : BuildId} : request.Names held → held ≠ latest.build →
      (catalog.byId held state).1 = .ok none →
        Conveyance policy catalog request latest state
          (.ok (.manifest latest.manifest, .unknownLocalBuild))
  | compared {held : BuildId} {manifest : Manifest} {payload : Payload} {rule : Rule} :
      request.Names held → held ≠ latest.build →
        (catalog.byId held state).1 = .ok (some manifest) →
          Comparison policy manifest latest.manifest payload rule →
            Conveyance policy catalog request latest state (.ok (payload, rule))

/-- The outcome of a request on a catalog in a state. -/
inductive Decision {σ : Type} (policy : Policy) (catalog : Catalog σ) (request : Request)
    (state : σ) : Except Failure (Response × Rule) → Prop where
  | branchMissing : request.branch.value = 0 →
      Decision policy catalog request state (.error (.request .branchMissing))
  | targetsMissing : request.branch.value ≠ 0 → request.targets = [] →
      Decision policy catalog request state (.error (.request .targetsMissing))
  | failed {failure : Failure} {next : σ} :
      request.branch.value ≠ 0 → request.targets ≠ [] →
        catalog.Decides request.branch request.targets state (.error failure) next →
          Decision policy catalog request state (.error failure)
  | nobody {next : σ} : request.branch.value ≠ 0 → request.targets ≠ [] →
      catalog.Decides request.branch request.targets state (.ok none) next →
        Decision policy catalog request state
          (.error (.buildNotFound request.branch request.targets))
  | unheard {latest : Published} {next : σ} {failure : Failure} :
      request.branch.value ≠ 0 → request.targets ≠ [] →
        catalog.Decides request.branch request.targets state (.ok (some latest)) next →
          Conveyance policy catalog request latest next (.error failure) →
            Decision policy catalog request state (.error failure)
  | answered {latest : Published} {next : σ} {payload : Payload} {rule : Rule} :
      request.branch.value ≠ 0 → request.targets ≠ [] →
        catalog.Decides request.branch request.targets state (.ok (some latest)) next →
          Conveyance policy catalog request latest next (.ok (payload, rule)) →
            Decision policy catalog request state
              (.ok (⟨latest.build, latest.manifest.checksum, payload⟩, rule))

theorem exists_comparison (policy : Policy) (held latest : Manifest) :
    ∃ payload rule, Comparison policy held latest payload rule := by
  by_cases content : held.checksum = latest.checksum
  · exact ⟨_, _, .sameContent content⟩
  · by_cases sizes : held.maxBlockSize = latest.maxBlockSize
    · rcases Nat.lt_or_ge policy.maxChanges (Delta.between held.listing latest.listing).changes
        with many | few
      · exact ⟨_, _, .tooMany content sizes many⟩
      · exact ⟨_, _, .changes content sizes few⟩
    · exact ⟨_, _, .otherSize content sizes⟩

theorem compare_of_comparison {policy : Policy} {held latest : Manifest} {payload : Payload}
    {rule : Rule} (comparison : Comparison policy held latest payload rule) (pace : Pace) :
    compare policy pace held latest held.checksum latest.checksum = (payload, rule) := by
  unfold compare
  rw [pace.watch_none, ← Delta.operationsAtMost, Delta.operationsAtMost_eq]
  cases comparison with
  | sameContent content => rw [if_pos content]
  | otherSize content sizes => rw [if_neg content, if_pos sizes]
  | changes content sizes few =>
    rw [if_neg content, if_neg (not_not_intro sizes), if_neg (Nat.not_lt.mpr few)]
    rfl
  | tooMany content sizes many =>
    rw [if_neg content, if_neg (not_not_intro sizes), if_pos many]

theorem exists_conveyance {σ : Type} (policy : Policy) (catalog : Catalog σ) (request : Request)
    (latest : Published) (state : σ) :
    ∃ outcome, Conveyance policy catalog request latest state outcome := by
  by_cases fresh : ∀ held, ¬request.Names held
  · exact ⟨_, .fresh fresh⟩
  · obtain ⟨held, names⟩ := not_forall_not.mp fresh
    by_cases same : held = latest.build
    · subst same
      exact ⟨_, .same names⟩
    · cases answer : (catalog.byId held state).1 with
      | error failure => exact ⟨_, .failed names same answer⟩
      | ok known =>
        cases known with
        | none => exact ⟨_, .unknown names same answer⟩
        | some manifest =>
          obtain ⟨payload, rule, comparison⟩ :=
            exists_comparison policy manifest latest.manifest
          exact ⟨_, .compared names same answer comparison⟩

theorem exists_decision {σ : Type} (policy : Policy) (catalog : Catalog σ) (request : Request)
    (state : σ) : ∃ outcome, Decision policy catalog request state outcome := by
  by_cases unset : request.branch.value = 0
  · exact ⟨_, .branchMissing unset⟩
  · by_cases none : request.targets = []
    · exact ⟨_, .targetsMissing unset none⟩
    · have decides := catalog.decides_firstLatest request.branch request.targets state
      revert decides
      generalize (catalog.firstLatest request.branch request.targets state).1 = answer
      intro decides
      cases answer with
      | error failure => exact ⟨_, .failed unset none decides⟩
      | ok latest? =>
        cases latest? with
        | none => exact ⟨_, .nobody unset none decides⟩
        | some latest =>
          obtain ⟨outcome, conveyance⟩ := exists_conveyance policy catalog request latest
            (catalog.firstLatest request.branch request.targets state).2
          cases outcome with
          | error failure => exact ⟨_, .unheard unset none decides conveyance⟩
          | ok conveyed => exact ⟨_, .answered unset none decides conveyance⟩

section
variable {σ : Type} {policy other : Policy} {held latest : Manifest} {payload : Payload}
  {rule : Rule} {catalog : Catalog σ} {request : Request} {published : Published} {state : σ}

/-- The rules speak of a policy only where they speak of its limit. -/
theorem Comparison.of_limit (limit : policy.maxChanges = other.maxChanges)
    (comparison : Comparison policy held latest payload rule) :
    Comparison other held latest payload rule := by
  cases comparison with
  | sameContent content => exact .sameContent content
  | otherSize differ sizes => exact .otherSize differ sizes
  | changes differ sizes few => exact .changes differ sizes (limit ▸ few)
  | tooMany differ sizes many =>
    rw [limit] at many ⊢
    exact .tooMany differ sizes many

theorem Conveyance.of_limit (limit : policy.maxChanges = other.maxChanges)
    {outcome : Except Failure (Payload × Rule)}
    (conveyance : Conveyance policy catalog request published state outcome) :
    Conveyance other catalog request published state outcome := by
  cases conveyance with
  | fresh fresh => exact .fresh fresh
  | same names => exact .same names
  | failed names apart answer => exact .failed names apart answer
  | unknown names apart answer => exact .unknown names apart answer
  | compared names apart answer comparison =>
    exact .compared names apart answer (comparison.of_limit limit)

theorem Decision.of_limit (limit : policy.maxChanges = other.maxChanges)
    {outcome : Except Failure (Response × Rule)}
    (decision : Decision policy catalog request state outcome) :
    Decision other catalog request state outcome := by
  cases decision with
  | branchMissing unset => exact .branchMissing unset
  | targetsMissing set none => exact .targetsMissing set none
  | failed set some decides => exact .failed set some decides
  | nobody set some decides => exact .nobody set some decides
  | unheard set some decides conveyance =>
    exact .unheard set some decides (conveyance.of_limit limit)
  | answered set some decides conveyance =>
    exact .answered set some decides (conveyance.of_limit limit)

end

end Service

end BuildDelivery
