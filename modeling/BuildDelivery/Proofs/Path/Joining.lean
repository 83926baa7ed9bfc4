import BuildDelivery.Proofs.Path.Names

/-! Paths below a directory. A path in its one spelling consists of proper names, which tell it, and
behind a directory its names follow those of the directory. -/

set_option autoImplicit false

namespace BuildDelivery.Path

theorem split_ne_nil (characters : List Char) : split characters ≠ [] := by
  fun_cases split characters with
  | case1 => exact List.cons_ne_nil _ _
  | case2 => exact List.cons_ne_nil _ _
  | case3 => exact List.cons_ne_nil _ _
  | case4 => exact List.cons_ne_nil _ _

/-- A character that is no slash belongs to the first piece of what comes behind it. -/
theorem exists_split_cons {character : Char} (other : character ≠ '/') (rest : List Char) :
    ∃ first others, split rest = first :: others ∧
      split (character :: rest) = (character :: first) :: others := by
  rw [split.eq_3 character rest other]
  cases pieces : split rest with
  | nil => exact absurd pieces (split_ne_nil rest)
  | cons first others => exact ⟨first, others, rfl, rfl⟩

theorem split_append_slash (front rest : List Char) :
    split (front ++ '/' :: rest) = split front ++ split rest := by
  induction front with
  | nil => rfl
  | cons character front step =>
    by_cases slash : character = '/'
    · subst slash
      exact congrArg (List.cons []) step
    · obtain ⟨first, others, pieces, same⟩ := exists_split_cons slash front
      obtain ⟨first', others', pieces', same'⟩ := exists_split_cons slash (front ++ '/' :: rest)
      rw [step, pieces, List.cons_append] at pieces'
      obtain ⟨rfl, rfl⟩ := List.cons.inj pieces'
      rw [List.cons_append, same', same, List.cons_append]

theorem intercalate_split (characters : List Char) :
    ['/'].intercalate (split characters) = characters := by
  induction characters with
  | nil => rfl
  | cons character rest step =>
    by_cases slash : character = '/'
    · subst slash
      obtain ⟨first, others, pieces⟩ := List.exists_cons_of_ne_nil (split_ne_nil rest)
      rw [pieces] at step
      rw [split, pieces, List.intercalate_cons_cons, step]
      rfl
    · obtain ⟨first, others, pieces, same⟩ := exists_split_cons slash rest
      rw [pieces] at step
      rw [same, ← step]
      cases others with
      | nil => rfl
      | cons next others => rw [List.intercalate_cons_cons, List.intercalate_cons_cons]; rfl

theorem eq_of_components_eq {path other : String} (same : components path = components other) :
    path = other := by
  have pieces : split path.toList = split other.toList :=
    (List.map_inj_right fun left right => String.ofList_injective).mp same
  rw [← String.toList_inj, ← intercalate_split path.toList, pieces, intercalate_split]

theorem components_ne_nil (path : String) : components path ≠ [] :=
  mt List.map_eq_nil_iff.mp (split_ne_nil path.toList)

theorem IsNormal.proper {path : String} (normal : IsNormal path) :
    ∀ name ∈ components path, isProper name.toList := by
  obtain ⟨⟨-, proper⟩, spelled⟩ := normalize_eq_ok_iff.mp normal
  have same : path.toList.map unifySeparator = path.toList := by
    conv => rhs; rw [spelled, String.toList_ofList]
  rw [same, List.all_eq_true] at proper
  refine List.forall_mem_map.mpr fun piece member => ?_
  rw [String.toList_ofList]
  exact proper piece member

/-- The names of a directory that a path below it goes on from. -/
def way (directory : String) : List String :=
  if directory = "" ∨ directory.endsWith "/" then (components directory).dropLast
  else components directory

theorem startsWith_slash_iff {path : String} :
    path.startsWith "/" ↔ ∃ rest, path.toList = '/' :: rest := by
  rw [String.startsWith_string_iff]
  exact ⟨fun ⟨rest, whole⟩ => ⟨rest, whole.symm⟩, fun ⟨rest, whole⟩ => ⟨rest, whole.symm⟩⟩

theorem endsWith_slash_iff {path : String} :
    path.endsWith "/" ↔ ∃ front, path.toList = front ++ ['/'] := by
  have suffix : path.endsWith "/" ↔ "/".toList <:+ path.toSlice.copy.toList :=
    String.Slice.endsWith_string_iff
  rw [suffix, String.copy_toSlice]
  exact ⟨fun ⟨front, whole⟩ => ⟨front, whole.symm⟩, fun ⟨front, whole⟩ => ⟨front, whole.symm⟩⟩

/-- Behind the way to a directory there is at most a name that leads nowhere else. -/
theorem components_eq_way (directory : String) :
    components directory = way directory ∨ components directory = way directory ++ [""] := by
  by_cases closed : directory = "" ∨ directory.endsWith "/"
  · right
    rw [way, if_pos closed]
    rcases closed with rfl | closed
    · rfl
    · obtain ⟨front, whole⟩ := endsWith_slash_iff.mp closed
      have pieces : components directory = (split front).map String.ofList ++ [""] := by
        rw [components, whole, split_append_slash, List.map_append]
        rfl
      rw [pieces, List.dropLast_concat]
  · left
    rw [way, if_neg closed]

/-- A path in its one spelling does not start at the root. -/
theorem IsNormal.not_startsWith {path : String} (normal : IsNormal path) : ¬path.startsWith "/" := by
  intro rooted
  obtain ⟨rest, whole⟩ := startsWith_slash_iff.mp rooted
  have first := normal.proper ""
  rw [components, whole] at first
  exact absurd (first List.mem_cons_self) (by decide)

theorem components_join {path : String} (normal : IsNormal path) (directory : String) :
    components (join directory path) = way directory ++ components path := by
  by_cases none : directory = ""
  · subst none
    rw [join, if_pos (.inr rfl)]
    rfl
  · rw [join, if_neg (not_or.mpr ⟨normal.not_startsWith, none⟩), way]
    by_cases closed : directory.endsWith "/"
    · obtain ⟨front, whole⟩ := endsWith_slash_iff.mp closed
      rw [if_pos closed, if_pos (.inr closed), components, components, String.toList_append, whole]
      simp [split_append_slash, split, components]
    · rw [if_neg closed, if_neg (not_or.mpr ⟨none, closed⟩), components, String.toList_append,
        String.toList_append, List.append_assoc]
      exact (congrArg _ (split_append_slash _ _)).trans List.map_append

/-- The names of a directory that is itself below another. -/
theorem way_join {place : String} (normal : IsNormal place) (directory : String) :
    way (join directory place) = way directory ++ components place := by
  have joined := components_join normal directory
  rcases components_eq_way (join directory place) with same | same
  · rw [← same, joined]
  · -- The last name of a path in its one spelling is not empty.
    have last := congrArg List.getLast? (same.symm.trans joined)
    rw [List.getLast?_concat, List.getLast?_append] at last
    cases found : (components place).getLast? with
    | none => exact absurd (List.getLast?_eq_none_iff.mp found) (components_ne_nil place)
    | some name =>
      rw [found, Option.some_or] at last
      obtain rfl := Option.some.inj last
      exact absurd (normal.proper "" (List.mem_of_getLast? found)) (by decide)

theorem startsWith_join {path : String} (normal : IsNormal path) (directory : String) :
    (join directory path).startsWith "/" = directory.startsWith "/" := by
  by_cases none : directory = ""
  · subst none
    rw [join, if_pos (.inr rfl), Bool.eq_false_iff.mpr normal.not_startsWith]
    rfl
  · -- A directory with a first character decides by it, whatever is put behind.
    have other : directory.toList ≠ [] := mt String.toList_eq_nil_iff.mp none
    obtain ⟨character, rest, whole⟩ := List.exists_cons_of_ne_nil other
    have starts (behind : String) : (directory ++ behind).startsWith "/" = directory.startsWith "/" := by
      rw [Bool.eq_iff_iff, startsWith_slash_iff, startsWith_slash_iff, String.toList_append, whole]
      simp
    rw [join, if_neg (not_or.mpr ⟨normal.not_startsWith, none⟩)]
    split
    · exact starts path
    · rw [String.append_assoc]
      exact starts _

end BuildDelivery.Path
