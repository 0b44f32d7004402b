import ThemeForge.Text.Lines
import ThemeForge.Text.Split

/-!
# The parts of a text between separators

A separator between two texts keeps their parts apart; without one the last part of the first text
and the first one of the second are one part. Lines under one another are the parts between line
feeds.
-/

namespace ThemeForge.Text

variable {separator : Char} {cs : List Char}

theorem splitOn_eq (separator : Char) (cs : List Char) :
    splitOn separator cs = List.splitOn separator cs := by
  induction cs with
  | nil => rfl
  | cons c cs ih =>
    rw [splitOn, ih, List.splitOn, List.splitOn, List.splitOnP_cons_eq_if_modifyHead]
    by_cases cut : c = separator
    · simp [cut]
    · obtain ⟨part,rest,parts⟩ := List.exists_cons_of_ne_nil
        (List.splitOnP_ne_nil (fun d => d == separator) cs)
      simp [cut, parts]

theorem splitOn_free (free : separator ∉ cs) : splitOn separator cs = [cs] := by
  induction cs with
  | nil => rfl
  | cons c cs ih =>
    simp only [List.mem_cons, not_or] at free
    rw [splitOn, if_neg (Ne.symm free.1), ih free.2]

theorem splitOn_ne_nil (separator : Char) (cs : List Char) : splitOn separator cs ≠ [] := by
  cases cs with
  | nil => simp [splitOn]
  | cons c cs =>
    rw [splitOn]
    split
    · simp
    · split <;> simp

theorem splitOn_cons (other : c ≠ separator) (cs : List Char) :
    splitOn separator (c :: cs) = (splitOn separator cs).modifyHead (c :: ·) := by
  obtain ⟨part,others,parts⟩ := List.exists_cons_of_ne_nil (splitOn_ne_nil separator cs)
  rw [splitOn, if_neg other, parts, List.modifyHead_cons]

/-- Texts with a separator between them are cut into the parts of both. -/
theorem splitOn_append_cons (separator : Char) (cs rest : List Char) :
    splitOn separator (cs ++ separator :: rest) =
      splitOn separator cs ++ splitOn separator rest := by
  induction cs with
  | nil => simp [splitOn]
  | cons c cs ih =>
    rw [List.cons_append, splitOn, splitOn, ih]
    split
    · rfl
    · obtain ⟨part,others,parts⟩ := List.exists_cons_of_ne_nil (splitOn_ne_nil separator cs)
      simp [parts]

theorem splitOn_append (separator : Char) (cs : List Char) :
    ∃ front last, splitOn separator cs = front ++ [last] ∧ ∀ rest,
      splitOn separator (cs ++ rest) =
        front ++ (splitOn separator rest).modifyHead (last ++ ·) := by
  induction cs with
  | nil =>
    refine ⟨[],[],rfl,fun rest => ?_⟩
    rw [List.nil_append, List.nil_append]
    cases splitOn separator rest <;> rfl
  | cons c cs ih =>
    obtain ⟨front,last,parts,further⟩ := ih
    by_cases cut : c = separator
    · refine ⟨[] :: front,last,?_,fun rest => ?_⟩
      · rw [splitOn, if_pos cut, parts, List.cons_append]
      · rw [List.cons_append, splitOn, if_pos cut, further, List.cons_append]
    · cases front with
      | nil =>
        refine ⟨[],c :: last,?_,fun rest => ?_⟩
        · rw [splitOn_cons cut, parts]
          rfl
        · rw [List.cons_append, splitOn_cons cut, further]
          cases splitOn separator rest <;> rfl
      | cons first front =>
        refine ⟨(c :: first) :: front,last,?_,fun rest => ?_⟩
        · rw [splitOn_cons cut, parts]
          rfl
        · rw [List.cons_append, splitOn_cons cut, further]
          rfl

/-- The lines of a text beside what stands between its line feeds: a carriage return at the end of a
line is left out, and so is the part behind the last line feed if it is empty. -/
inductive Divided : List (List Char) → List (List Char) → Prop
  | nil : Divided [] []
  | ended : Divided [] [[]]
  | same (rest : Divided ls parts) : Divided (line :: ls) (line :: parts)
  | returned (rest : Divided ls parts) : Divided (line :: ls) ((line ++ ['\r']) :: parts)

theorem lines_divided (cs : List Char) : Divided (lines cs) (splitOn '\n' cs) := by
  induction cs with
  | nil => exact .ended
  | cons c cs ih =>
    by_cases feed : c = '\n'
    · rw [lines, if_pos feed, splitOn, if_pos feed]
      exact .same ih
    · rw [lines, if_neg feed, splitOn_cons feed]
      by_cases returned : c = '\r' ∧ cs.head? = some '\n'
      · obtain ⟨rfl,next⟩ := returned
        obtain ⟨cs,rfl⟩ := List.head?_eq_some_iff.mp next
        rw [lines_lineFeed, splitOn, if_pos rfl] at ih
        rw [if_pos ⟨rfl,rfl⟩, lines_lineFeed, splitOn, if_pos rfl]
        generalize lines cs = ls, splitOn '\n' cs = parts at ih
        cases ih with
        | same rest => exact .returned rest
      · rw [if_neg returned]
        have some := splitOn_ne_nil '\n' cs
        generalize lines cs = ls, splitOn '\n' cs = parts at ih some
        cases ih with
        | nil => exact absurd rfl some
        | ended => exact .same .nil
        | same rest => exact .same rest
        | returned rest => exact .returned rest

variable {ls others : List (List Char)}

@[simp] theorem unlines_nil : unlines [] = [] := rfl

@[simp] theorem unlines_singleton (line : List Char) : unlines [line] = line := by
  simp [unlines]

theorem unlines_cons_cons (line next : List Char) (rest : List (List Char)) :
    unlines (line :: next :: rest) = line ++ '\n' :: unlines (next :: rest) := by
  rw [unlines, List.intercalate_cons_cons, unlines, List.append_assoc]
  rfl

theorem unlines_append (some : ls ≠ []) (some' : others ≠ []) :
    unlines (ls ++ others) = unlines ls ++ '\n' :: unlines others := by
  induction ls with
  | nil => exact absurd rfl some
  | cons line rest ih =>
    cases rest with
    | nil =>
      obtain ⟨next,more,rfl⟩ := List.exists_cons_of_ne_nil some'
      rw [unlines_singleton]
      exact unlines_cons_cons line next more
    | cons next rest =>
      rw [List.cons_append, List.cons_append, unlines_cons_cons, ← List.cons_append,
        ih (List.cons_ne_nil _ _), unlines_cons_cons, List.append_assoc]
      rfl

theorem splitOn_unlines (single : ∀ line ∈ ls, '\n' ∉ line) (some : ls ≠ []) :
    splitOn '\n' (unlines ls) = ls := by
  rw [splitOn_eq]
  exact List.splitOn_intercalate '\n' single some

theorem unlines_splitOn (cs : List Char) : unlines (splitOn '\n' cs) = cs := by
  rw [splitOn_eq]
  exact List.intercalate_splitOn '\n'

theorem not_mem_of_mem_splitOn {line : List Char} (member : line ∈ splitOn separator cs) :
    separator ∉ line := by
  induction cs generalizing line with
  | nil => simp_all [splitOn]
  | cons c cs ih =>
    by_cases cut : c = separator
    · rw [splitOn, if_pos cut] at member
      rcases List.mem_cons.mp member with rfl | later
      · simp
      · exact ih later
    · rw [splitOn_cons cut] at member
      obtain ⟨part,rest,parts⟩ := List.exists_cons_of_ne_nil (splitOn_ne_nil separator cs)
      rw [parts, List.modifyHead_cons] at member
      rw [parts] at ih
      rcases List.mem_cons.mp member with rfl | later
      · have free := ih List.mem_cons_self
        simpa [Ne.symm cut] using free
      · exact ih (List.mem_cons_of_mem _ later)

end ThemeForge.Text
