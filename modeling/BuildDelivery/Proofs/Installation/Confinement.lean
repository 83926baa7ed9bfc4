import BuildDelivery.Proofs.Installation.Places
import BuildDelivery.Proofs.Manifest.Valid
import Mathlib.Control.Monad.Basic

/-! Paths that stay below their directory. A text is accepted as a path exactly if what stands between
its separators, of either kind, are names that lead down. So following an accepted path name by name
never leaves the directory where it starts and ends below it, and this holds for the files of every
manifest that passes the check. -/

set_option autoImplicit false

namespace BuildDelivery

namespace Path

variable {path spelling : String}

/-- The text with slashes for both separators. -/
def slashed (text : String) : String :=
  text.map fun character => if character = '\\' then '/' else character

/-- What stands between the slashes of a text. -/
def names (text : String) : List String := (text.split '/').toList.map String.Slice.copy

/-- A text of names that lead down, and only of these. -/
structure IsSafe (text : String) : Prop where
  withoutNul : '\x00' ∉ text.toList
  descending : ∀ name ∈ names text, name ≠ "" ∧ name ≠ "." ∧ name ≠ ".."

theorem split_eq_splitOn (characters : List Char) : split characters = characters.splitOn '/' := by
  induction characters with
  | nil => rfl
  | cons character rest step =>
    rw [List.splitOn_eq_splitOnP] at step ⊢
    rw [List.splitOnP_cons_eq_if_modifyHead, ← step]
    by_cases slash : character = '/'
    · subst slash
      rfl
    · obtain ⟨first, others, pieces, same⟩ := exists_split_cons slash rest
      rw [same, pieces, if_neg (mt eq_of_beq slash)]
      rfl

theorem components_eq_names (path : String) : components path = names path := by
  rw [components, names, String.toList_split_char, split_eq_splitOn]

theorem isProper_toList_iff {name : String} :
    isProper name.toList ↔ name ≠ "" ∧ name ≠ "." ∧ name ≠ ".." := by
  simp only [isProper, Bool.and_eq_true, decide_eq_true_eq, ne_eq, ← String.toList_inj, and_assoc]
  rfl

theorem toList_slashed (path : String) : (slashed path).toList = path.toList.map unifySeparator :=
  String.toList_map

theorem isSafe_slashed_iff : IsSafe (slashed path) ↔ '\x00' ∉ path.toList.map unifySeparator ∧
    (split (path.toList.map unifySeparator)).all isProper := by
  have named : (∀ name ∈ names (slashed path), name ≠ "" ∧ name ≠ "." ∧ name ≠ "..") ↔
      (split (path.toList.map unifySeparator)).all isProper := by
    simp only [← isProper_toList_iff, ← components_eq_names, components, toList_slashed,
      List.forall_mem_map, String.toList_ofList, List.all_eq_true]
  rw [← named, ← toList_slashed]
  exact ⟨fun safe => ⟨safe.withoutNul, safe.descending⟩, fun parts => ⟨parts.1, parts.2⟩⟩

theorem normalize_eq_ok_iff_isSafe :
    normalize path = .ok spelling ↔ IsSafe (slashed path) ∧ spelling = slashed path := by
  rw [normalize_eq_ok_iff, isSafe_slashed_iff, ← toList_slashed, String.ofList_toList]

theorem notMem_slashed (path : String) : '\\' ∉ (slashed path).toList := by
  rw [toList_slashed]
  intro member
  obtain ⟨character, -, same⟩ := List.mem_map.mp member
  unfold unifySeparator at same
  split at same
  · cases same
  · next other => exact other same

end Path

namespace FileTree

variable {root names : List String}

/-- A place below a directory, and not the directory itself. -/
def IsBelow (root place : List String) : Prop := root <+: place ∧ place ≠ root

/-- Names that stay below a directory: no first part of them leads out of it, and they end below it. -/
structure Confined (root names : List String) : Prop where
  within : ∀ front, front <+: names → root <+: walk root front
  below : IsBelow root (walk root names)

theorem isBelow_append (some : names ≠ []) (root : List String) : IsBelow root (root ++ names) :=
  ⟨List.prefix_append root names, fun same => some (List.append_cancel_left (same.trans (List.append_nil root).symm))⟩

theorem confined_of_isProper (some : names ≠ [])
    (proper : ∀ name ∈ names, Path.isProper name.toList) (root : List String) :
    Confined root names where
  within front part := by
    rw [walk_of_isProper fun name member => proper name (part.subset member)]
    exact List.prefix_append root front
  below := by
    rw [walk_of_isProper proper]
    exact isBelow_append some root

theorem isBelow_target_join {path : String} (tree : FileTree) (normal : Path.IsNormal path)
    (directory : String) : IsBelow (tree.target directory) (tree.target (Path.join directory path)) := by
  rw [target_join tree normal]
  exact isBelow_append (Path.components_ne_nil path) _

end FileTree

open FileTree

/-- A path is accepted exactly if it is safe with its backslashes for slashes. It comes back so, needs
no further change and leads down from every directory. So do the paths of an accepted manifest, from
the directory of any installation. -/
theorem Path.safe_iff_accepted :
    (∀ path, (∃ spelling, normalize path = .ok spelling) ↔ IsSafe (slashed path)) ∧
    (∀ path spelling, normalize path = .ok spelling →
      spelling = slashed path ∧ IsNormal spelling ∧ '\\' ∉ spelling.toList ∧
        ∀ root, Confined root (names spelling)) ∧
    ∀ manifest : Manifest, manifest.check = .ok () →
      ∀ path blocks, manifest.file? path = some blocks →
        IsNormal path ∧ ∀ (tree : FileTree) (root : String),
          IsBelow (tree.target root) (tree.target (join root path)) ∧
          ∀ place, tree.locate (join root path) = .ok place → IsBelow (tree.target root) place := by
  refine ⟨fun path => ?_, fun path spelling accepted => ?_, fun manifest accepted path blocks held => ?_⟩
  · simp only [normalize_eq_ok_iff_isSafe, exists_and_left, exists_eq, and_true]
  · have normal := isNormal_of_normalize accepted
    obtain ⟨-, rfl⟩ := normalize_eq_ok_iff_isSafe.mp accepted
    refine ⟨rfl, normal, notMem_slashed path, fun root => ?_⟩
    rw [← components_eq_names]
    exact confined_of_isProper (components_ne_nil _) normal.proper root
  · have normal := (Manifest.check_eq_ok_iff.mp accepted).normal path blocks held
    refine ⟨normal, fun tree root => ⟨isBelow_target_join tree normal root, fun place located => ?_⟩⟩
    rw [eq_target_of_locate located]
    exact isBelow_target_join tree normal root

/-- A directory with nothing in it, from which paths start. -/
def FileTree.vacant : FileTree where
  entries := .ofList [(["w"], Entry.directory)]
  workingDirectory := ["w"]

/-- Separators of both kinds and a name that only looks like a way up are no hindrance, and a file
stays below a directory that itself is further up. -/
theorem Path.safe_iff_accepted_mixed :
    normalize "bin\\...\\tool/x" = .ok "bin/.../tool/x" ∧ IsNormal "bin/.../tool/x" ∧
    Confined ["w"] (names "bin/.../tool/x") ∧ ¬IsSafe (slashed "bin\\..\\tool/x") ∧
    Manifest.firstEdition.check = .ok () ∧
    vacant.locate (join ".." "readme") = .ok ["readme"] ∧ IsBelow (vacant.target "..") ["readme"] := by
  have accepted : normalize "bin\\...\\tool/x" = .ok "bin/.../tool/x" := by decide +kernel
  have refused : normalize "bin\\..\\tool/x" = .error (.path (.malformed "bin\\..\\tool/x")) := by
    decide +kernel
  have checked : Manifest.firstEdition.check = .ok () := by decide +kernel
  have held : Manifest.firstEdition.file? "readme" = some [.uniform 3] := by decide +kernel
  have located : vacant.locate (join ".." "readme") = .ok ["readme"] := by decide +kernel
  obtain ⟨-, normal, -, confined⟩ := safe_iff_accepted.2.1 _ _ accepted
  refine ⟨accepted, normal, confined ["w"], fun safe => ?_, checked, located, ?_⟩
  · obtain ⟨spelling, spelled⟩ := (safe_iff_accepted.1 _).mpr safe
    cases refused.symm.trans spelled
  · exact ((safe_iff_accepted.2.2 _ checked _ _ held).2 vacant "..").2 _ located

end BuildDelivery
