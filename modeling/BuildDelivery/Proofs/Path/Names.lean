import BuildDelivery.Proofs.Path.Normal

/-! Paths put together from names. No name holds a slash, so the names can be read off the path
again; and a path without a backslash has no spelling but its own. -/

set_option autoImplicit false

namespace BuildDelivery.Path

theorem split_of_notMem {characters : List Char} (whole : '/' ∉ characters) :
    split characters = [characters] := by
  induction characters with
  | nil => rfl
  | cons character rest step =>
    obtain ⟨other, later⟩ := not_or.mp (mt List.mem_cons.mpr whole)
    rw [split.eq_3 _ _ (Ne.symm other), step later]

theorem components_of_notMem {name : String} (whole : '/' ∉ name.toList) : components name = [name] := by
  rw [components, split_of_notMem whole, List.map_singleton, String.ofList_toList]

theorem split_append {name : List Char} (whole : '/' ∉ name) (rest : List Char) :
    split (name ++ '/' :: rest) = name :: split rest := by
  induction name with
  | nil => rfl
  | cons character name step =>
    obtain ⟨other, later⟩ := not_or.mp (mt List.mem_cons.mpr whole)
    rw [List.cons_append, split.eq_3 _ _ (Ne.symm other), step later]

theorem split_intercalate {names : List (List Char)} (some : names ≠ [])
    (whole : ∀ name ∈ names, '/' ∉ name) : split (['/'].intercalate names) = names := by
  induction names with
  | nil => exact absurd rfl some
  | cons name rest step =>
    obtain ⟨first, later⟩ := List.forall_mem_cons.mp whole
    cases rest with
    | nil => rw [List.intercalate_singleton, split_of_notMem first]
    | cons next rest =>
      rw [List.intercalate_cons_cons, List.append_assoc, List.singleton_append, split_append first,
        step (List.cons_ne_nil next rest) later]

theorem split_toList_intercalate {names : List String} (some : names ≠ [])
    (whole : ∀ name ∈ names, '/' ∉ name.toList) :
    split ("/".intercalate names).toList = names.map String.toList := by
  rw [String.toList_intercalate]
  exact split_intercalate (by simpa using some) (List.forall_mem_map.mpr whole)

/-- The names of a path are those that it was put together from. -/
theorem components_intercalate {names : List String} (some : names ≠ [])
    (whole : ∀ name ∈ names, '/' ∉ name.toList) : components ("/".intercalate names) = names := by
  rw [components, split_toList_intercalate some whole, List.map_map]
  exact List.map_id'' (fun name => String.ofList_toList) names

theorem eq_of_intercalate_eq {names others : List String} (some : names ≠ []) (some' : others ≠ [])
    (whole : ∀ name ∈ names, '/' ∉ name.toList) (whole' : ∀ name ∈ others, '/' ∉ name.toList)
    (same : "/".intercalate names = "/".intercalate others) : names = others := by
  rw [← components_intercalate some whole, same, components_intercalate some' whole']

theorem notMem_intercalate {character : Char} (other : character ≠ '/') {names : List String}
    (absent : ∀ name ∈ names, character ∉ name.toList) :
    character ∉ ("/".intercalate names).toList := by
  induction names with
  | nil => simp
  | cons name rest step =>
    obtain ⟨first, later⟩ := List.forall_mem_cons.mp absent
    cases rest with
    | nil => rwa [String.intercalate_singleton]
    | cons next rest =>
      rw [String.intercalate_cons_cons, String.toList_append, String.toList_append,
        List.mem_append, List.mem_append, not_or, not_or]
      exact ⟨⟨first, mt List.mem_singleton.mp other⟩, step later⟩

theorem map_unifySeparator_of_notMem {path : String} (plain : '\\' ∉ path.toList) :
    path.toList.map unifySeparator = path.toList := by
  refine (List.map_congr_left fun character member => ?_).trans (List.map_id path.toList)
  have other : character ≠ '\\' := fun backslash => plain (backslash ▸ member)
  exact if_neg other

/-- A path without a backslash is spelled as it is written, if it is accepted at all. -/
theorem isNormal_of_notMem {path spelling : String} (accepted : normalize path = .ok spelling)
    (plain : '\\' ∉ path.toList) : IsNormal path := by
  obtain ⟨-, rfl⟩ := normalize_eq_ok_iff.mp accepted
  rwa [map_unifySeparator_of_notMem plain, String.ofList_toList] at accepted

/-- A name that stands in a path as it is. Of the names that files have, these are all but those
with a backslash. -/
structure IsPlain (name : String) : Prop where
  proper : isProper name.toList
  withoutBackslash : '\\' ∉ name.toList
  withoutNul : '\x00' ∉ name.toList

theorem isPlain_iff {name : String} :
    IsPlain name ↔ isProper name.toList ∧ '\\' ∉ name.toList ∧ '\x00' ∉ name.toList :=
  ⟨fun plain => ⟨plain.1, plain.2, plain.3⟩, fun ⟨proper, backslash, nul⟩ => ⟨proper, backslash, nul⟩⟩

instance (name : String) : Decidable (IsPlain name) := decidable_of_iff _ isPlain_iff.symm

theorem isProper_of_length {component : List Char} (long : 2 < component.length) :
    isProper component := by
  have other (short : List Char) (few : short.length ≤ 2) : component ≠ short := by
    rintro rfl
    omega
  simp [isProper, other [] (by decide), other ['.'] (by decide), other ['.', '.'] (by decide)]

/-- A path of plain names is accepted and in its one spelling. -/
theorem isNormal_intercalate {names : List String} (some : names ≠ [])
    (whole : ∀ name ∈ names, '/' ∉ name.toList) (plain : ∀ name ∈ names, IsPlain name) :
    IsNormal ("/".intercalate names) := by
  have same : ("/".intercalate names).toList.map unifySeparator = ("/".intercalate names).toList :=
    map_unifySeparator_of_notMem
      (notMem_intercalate (by decide) fun name member => (plain name member).withoutBackslash)
  refine normalize_eq_ok_iff.mpr ⟨⟨?_, ?_⟩, ?_⟩
  · rw [same]
    exact notMem_intercalate (by decide) fun name member => (plain name member).withoutNul
  · rw [same, split_toList_intercalate some whole, List.all_eq_true]
    exact List.forall_mem_map.mpr fun name member => (plain name member).proper
  · rw [same, String.ofList_toList]

theorem isNormal_of_isPlain {name : String} (whole : '/' ∉ name.toList) (plain : IsPlain name) :
    IsNormal name := by
  have normal := isNormal_intercalate (List.cons_ne_nil name [])
    (List.forall_mem_singleton.mpr whole) (List.forall_mem_singleton.mpr plain)
  rwa [String.intercalate_singleton] at normal

end BuildDelivery.Path
