import BuildDelivery.Catalog.Lookup

/-! Which target decides. Targets are tried in order, each on the state that the question before
it left, and the first answer other than "no such build" is the answer for all of them. -/

set_option autoImplicit false

namespace BuildDelivery.Catalog

variable {σ : Type} {catalog : Catalog σ} {branch : BranchId}

/-- A row of targets for which there is no build. Asking for them leads from one state to another. -/
inductive PassesOver (catalog : Catalog σ) (branch : BranchId) : List Target → σ → σ → Prop where
  | none {state : σ} : PassesOver catalog branch [] state state
  | one {target : Target} {targets : List Target} {state between next : σ} :
      catalog.latest ⟨branch, target⟩ state = (.ok none, between) →
        PassesOver catalog branch targets between next →
          PassesOver catalog branch (target :: targets) state next

/-- The answer that decides for a row of targets, and the state behind it. -/
inductive Decides (catalog : Catalog σ) (branch : BranchId) (targets : List Target) (state : σ) :
    Except Failure (Option Published) → σ → Prop where
  | nobody {next : σ} : catalog.PassesOver branch targets state next →
      Decides catalog branch targets state (.ok none) next
  | first {before after : List Target} {target : Target} {between next : σ}
      {answer : Except Failure (Option Published)} :
      targets = before ++ target :: after → catalog.PassesOver branch before state between →
        catalog.latest ⟨branch, target⟩ between = (answer, next) → answer ≠ .ok none →
          Decides catalog branch targets state answer next

theorem firstLatest_append {before : List Target} {state between : σ}
    (passed : catalog.PassesOver branch before state between) (targets : List Target) :
    catalog.firstLatest branch (before ++ targets) state =
      catalog.firstLatest branch targets between := by
  induction passed with
  | none => rfl
  | one missing _ step => simp only [List.cons_append, firstLatest, missing, step]

theorem firstLatest_cons_of_answer {target : Target} {state next : σ}
    {answer : Except Failure (Option Published)}
    (answered : catalog.latest ⟨branch, target⟩ state = (answer, next)) (some : answer ≠ .ok none)
    (targets : List Target) :
    catalog.firstLatest branch (target :: targets) state = (answer, next) := by
  unfold firstLatest
  rw [answered]
  cases answer with
  | error failure => rfl
  | ok latest? =>
    cases latest? with
    | none => exact absurd rfl some
    | some latest => rfl

/-- Whoever decides for the rest decides for all. -/
theorem Decides.skip {target : Target} {targets : List Target} {state between next : σ}
    {answer : Except Failure (Option Published)}
    (missing : catalog.latest ⟨branch, target⟩ state = (.ok none, between))
    (later : catalog.Decides branch targets between answer next) :
    catalog.Decides branch (target :: targets) state answer next := by
  cases later with
  | nobody passed => exact .nobody (.one missing passed)
  | first split passed found other =>
    exact .first (congrArg (target :: ·) split) (.one missing passed) found other

theorem decides_firstLatest (catalog : Catalog σ) (branch : BranchId) (targets : List Target)
    (state : σ) :
    catalog.Decides branch targets state (catalog.firstLatest branch targets state).1
      (catalog.firstLatest branch targets state).2 := by
  induction targets generalizing state with
  | nil => exact .nobody .none
  | cons target rest step =>
    cases answered : catalog.latest ⟨branch, target⟩ state with
    | mk answer next =>
      by_cases some : answer = .ok none
      · subst some
        have later := firstLatest_append (.one answered .none) rest
        rw [List.singleton_append] at later
        rw [later]
        exact .skip answered (step next)
      · rw [firstLatest_cons_of_answer answered some]
        have split : target :: rest = [] ++ target :: rest := rfl
        exact .first split .none answered some

/-- What the catalog is found to answer is the answer that decides. -/
theorem firstLatest_eq_iff {targets : List Target} {state next : σ}
    {answer : Except Failure (Option Published)} :
    catalog.firstLatest branch targets state = (answer, next) ↔
      catalog.Decides branch targets state answer next := by
  constructor
  · intro found
    have decides := catalog.decides_firstLatest branch targets state
    rwa [found] at decides
  · intro decides
    cases decides with
    | nobody passed =>
      have all := firstLatest_append passed []
      rwa [List.append_nil] at all
    | first split passed found other =>
      rw [split, firstLatest_append passed, firstLatest_cons_of_answer found other]

end BuildDelivery.Catalog
