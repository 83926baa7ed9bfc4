/-! Outcomes of stages one after another. A row of stages succeeds with the successes of all of
them, and each stage is taken apart from the rest by one lemma. -/

set_option autoImplicit false

namespace BuildDelivery

variable {ε ε' σ α β : Type}

theorem bind_eq_ok_iff {stage : Except ε α} {next : α → Except ε β} {result : β} :
    (stage >>= next) = .ok result ↔ ∃ value, stage = .ok value ∧ next value = .ok result := by
  cases stage with
  | error fault => exact iff_of_false nofun fun ⟨value, impossible, _⟩ => nomatch impossible
  | ok value => exact ⟨fun done => ⟨value, rfl, done⟩, fun ⟨_, same, done⟩ => by cases same; exact done⟩

theorem mapError_eq_ok_iff {stage : Except ε α} {label : ε → ε'} {value : α} :
    stage.mapError label = .ok value ↔ stage = .ok value := by
  cases stage with
  | error fault => exact iff_of_false nofun nofun
  | ok found =>
    constructor
    · intro same
      cases same
      rfl
    · intro same
      cases same
      rfl

theorem mapError_eq_error_iff {stage : Except ε α} {label : ε → ε'} {told : ε'} :
    stage.mapError label = .error told ↔ ∃ fault, stage = .error fault ∧ label fault = told := by
  cases stage with
  | error fault =>
    constructor
    · intro same
      exact ⟨fault, rfl, Except.error.inj same⟩
    · rintro ⟨_, same, rfl⟩
      cases same
      rfl
  | ok value => exact iff_of_false nofun fun ⟨fault, impossible, _⟩ => nomatch impossible

theorem map_eq_ok_iff {stage : Except ε α} {change : α → β} {result : β} :
    stage.map change = .ok result ↔ ∃ value, stage = .ok value ∧ change value = result := by
  cases stage with
  | error fault => exact iff_of_false nofun fun ⟨value, impossible, _⟩ => nomatch impossible
  | ok value =>
    constructor
    · intro same
      exact ⟨value, rfl, Except.ok.inj same⟩
    · rintro ⟨_, same, rfl⟩
      cases same
      rfl

/-- What comes after a stage runs on the value and the state that the stage leaves. -/
theorem run_bind_of_run {state between : σ} {stage : StateM σ α} {value : α}
    (ran : stage.run state = (value, between)) (next : α → StateM σ β) :
    (stage >>= next).run state = (next value).run between := by
  rw [StateT.run_bind, ran]
  rfl

end BuildDelivery
