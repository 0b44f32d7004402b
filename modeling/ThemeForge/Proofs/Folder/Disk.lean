import ThemeForge.Proofs.Folder.Proper

/-!
# Paths on disk

The path of a place below a root is the root, without a slash at its end, and then a slash and a
name for each step. Names have no slashes, so different places have different paths.
-/

namespace ThemeForge

def slashed (names : List String) : List Char := names.flatMap fun name => '/' :: name.toList

/-- A path without a slash at its end. -/
def stem (path : String) : List Char :=
  if path.toList.getLast? = some '/' then path.toList.dropLast else path.toList

theorem ProperName.unslashed (proper : ProperName name) : ∀ c ∈ name.toList, (c != '/') = true := by
  intro c found
  simp only [bne_iff_ne, ne_eq]
  rintro rfl
  exact proper.2 found

theorem takeWhile_name (proper : ProperName name) (rest : List String) :
    (name.toList ++ slashed rest).takeWhile (· != '/') = name.toList := by
  rw [List.takeWhile_append_of_pos proper.unslashed]
  cases rest with
  | nil => simp [slashed]
  | cons next rest => simp [slashed]

theorem slashed_injective (names others : List String) (proper : ∀ name ∈ names, ProperName name)
    (properOthers : ∀ name ∈ others, ProperName name) (same : slashed names = slashed others) :
    names = others := by
  induction names generalizing others with
  | nil =>
    cases others with
    | nil => rfl
    | cons other others => cases same
  | cons name names ih =>
    cases others with
    | nil => cases same
    | cons other others =>
      have after : name.toList ++ slashed names = other.toList ++ slashed others :=
        (List.cons.inj same).2
      have first : name.toList = other.toList := by
        rw [← takeWhile_name (proper name List.mem_cons_self) names, after,
          takeWhile_name (properOthers other List.mem_cons_self) others]
      rw [first] at after
      rw [String.toList_inj.mp first, ih others (fun n h => proper n (List.mem_cons_of_mem _ h))
        (fun n h => properOthers n (List.mem_cons_of_mem _ h)) (List.append_cancel_left after)]

theorem ProperName.no_front (proper : ProperName name) : name.toList.head? ≠ some '/' :=
  fun front => proper.2 (List.mem_of_mem_head? front)

theorem ProperName.no_end (proper : ProperName name) (before : List Char) :
    (before ++ name.toList).getLast? ≠ some '/' := by
  have some : name.toList ≠ [] := fun empty => proper.1 (String.toList_eq_nil_iff.mp empty)
  rw [List.getLast?_append_of_ne_nil _ some]
  exact fun last => proper.2 (List.mem_of_getLast? last)

theorem stem_open {path : String} (unended : path.toList.getLast? ≠ some '/') :
    stem path = path.toList := if_neg unended

theorem join_toList (proper : ProperName name) (named : path ≠ "") :
    (Path.join path name).toList = stem path ++ '/' :: name.toList := by
  rw [Path.join, if_neg proper.no_front]
  by_cases ended : path.toList.getLast? = some '/'
  · obtain ⟨before,cut⟩ := List.getLast?_eq_some_iff.mp ended
    rw [if_pos (.inr ended), stem, if_pos ended, String.toList_append, cut]
    simp
  · rw [if_neg (not_or.mpr ⟨named,ended⟩), stem_open ended]
    simp

theorem stem_join (proper : ProperName name) (named : path ≠ "") :
    stem (Path.join path name) = stem path ++ '/' :: name.toList := by
  have joined := join_toList proper named
  rw [stem_open, joined]
  rw [joined, List.append_cons]
  exact proper.no_end _

theorem join_ne_empty (proper : ProperName name) (named : path ≠ "") :
    Path.join path name ≠ "" := by
  intro empty
  have joined := join_toList proper named
  rw [empty] at joined
  simp at joined

theorem stem_joins (names : List String) (proper : ∀ name ∈ names, ProperName name)
    (named : path ≠ "") : stem (names.foldl Path.join path) = stem path ++ slashed names := by
  induction names generalizing path with
  | nil => simp [slashed]
  | cons name names ih =>
    have first := proper name List.mem_cons_self
    have further := ih (fun n h => proper n (List.mem_cons_of_mem _ h)) (join_ne_empty first named)
    rw [stem_join first named] at further
    rw [List.foldl_cons]
    refine further.trans ?_
    simp [slashed]

@[simp] theorem FilePath.text_join (path : FilePath) (name : String) :
    (path.join name).text = Path.join path.text name := by
  cases path with
  | given text => rfl
  | below place names => simp [FilePath.join, FilePath.text]

theorem text_pathOf (root : FilePath) (names : List String) :
    (SourceTree.pathOf root names).text = names.foldl Path.join root.text := by
  induction names generalizing root with
  | nil => rfl
  | cons name names ih => exact (ih (root.join name)).trans (by rw [FilePath.text_join]; rfl)

/-- Different places below a root have paths that are told apart by their text. -/
theorem pathOf_injective {root : FilePath} (named : root.text ≠ "") (names others : List String)
    (proper : ∀ name ∈ names, ProperName name) (properOthers : ∀ name ∈ others, ProperName name)
    (same : (SourceTree.pathOf root names).text = (SourceTree.pathOf root others).text) :
    names = others := by
  rw [text_pathOf, text_pathOf] at same
  have stems := congrArg stem same
  rw [stem_joins names proper named,stem_joins others properOthers named] at stems
  exact slashed_injective names others proper properOthers (List.append_cancel_left stems)

end ThemeForge
