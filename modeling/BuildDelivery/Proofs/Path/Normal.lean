import BuildDelivery.Path

/-! The spelling of paths. A path that is accepted comes back with slashes for both separators;
that spelling is its own, and it stands before every other spelling of the same path. -/

set_option autoImplicit false

namespace BuildDelivery.Path

@[simp] theorem unifySeparator_twice (character : Char) :
    unifySeparator (unifySeparator character) = unifySeparator character := by
  by_cases backslash : character = '\\'
  · subst backslash
    decide
  · simp [unifySeparator, backslash]

theorem normalize_eq_ok_iff {path spelling : String} :
    normalize path = .ok spelling ↔
      ('\x00' ∉ path.toList.map unifySeparator ∧
        (split (path.toList.map unifySeparator)).all isProper) ∧
      spelling = String.ofList (path.toList.map unifySeparator) := by
  unfold normalize
  simp only
  split
  · next accepted => simp only [Except.ok.injEq, accepted, not_false_eq_true, true_and, eq_comm]
  · next refused => simp only [reduceCtorEq, refused, false_and]

/-- What comes out of the spelling rule stays as it is. -/
theorem isNormal_of_normalize {path spelling : String} (accepted : normalize path = .ok spelling) :
    IsNormal spelling := by
  obtain ⟨safe, rfl⟩ := normalize_eq_ok_iff.mp accepted
  apply normalize_eq_ok_iff.mpr
  have same : (String.ofList (path.toList.map unifySeparator)).toList.map unifySeparator =
      path.toList.map unifySeparator := by
    simp
  rw [same]
  exact ⟨safe, rfl⟩

theorem IsNormal.eq {path spelling : String} (normal : IsNormal path)
    (accepted : normalize path = .ok spelling) : spelling = path :=
  (Except.ok.inj (normal.symm.trans accepted)).symm

/-- Unifying separators makes a row of characters smaller, unless it changes nothing. -/
theorem map_unifySeparator_lt (characters : List Char)
    (changed : characters.map unifySeparator ≠ characters) :
    characters.map unifySeparator < characters := by
  induction characters with
  | nil => exact absurd rfl changed
  | cons character rest step =>
    -- The slash comes before the backslash, and nothing else changes.
    by_cases backslash : character = '\\'
    · subst backslash
      exact List.Lex.rel (by decide)
    · have kept : unifySeparator character = character := by simp [unifySeparator, backslash]
      rw [List.map_cons, kept] at changed ⊢
      have tail : rest.map unifySeparator ≠ rest := fun same => changed (by rw [same])
      exact List.Lex.cons (step tail)

/-- Of all spellings of a path, the accepted one is the first in the order of texts. -/
theorem compare_normalize {path spelling : String} (accepted : normalize path = .ok spelling)
    (other : spelling ≠ path) : compare spelling path = .lt := by
  obtain ⟨-, rfl⟩ := normalize_eq_ok_iff.mp accepted
  have changed : path.toList.map unifySeparator ≠ path.toList := fun same =>
    other (by rw [same, String.ofList_toList])
  have smaller : String.ofList (path.toList.map unifySeparator) < path := by
    change (String.ofList (path.toList.map unifySeparator)).toList < path.toList
    rw [String.toList_ofList]
    exact map_unifySeparator_lt path.toList changed
  exact if_pos smaller

end BuildDelivery.Path
