import ThemeForge.Text.Blank
import ThemeForge.Text.Lines
import ThemeForge.Text.Split

/-!
# Trimmed text

Trimming leaves no blank at either end, and changes nothing more. A line without a line feed, and
without a carriage return at its end, is read back from a text as it is.
-/

namespace ThemeForge.Text

structure Trimmed (cs : List Char) : Prop where
  first : ∀ c ∈ cs.head?, isBlank c = false
  last : ∀ c ∈ cs.getLast?, isBlank c = false

theorem dropEndWhile_eq {p : Char → Bool} {cs : List Char}
    (last : ∀ c ∈ cs.getLast?, p c = false) : dropEndWhile p cs = cs := by
  induction cs with
  | nil => rfl
  | cons c cs ih =>
    cases cs with
    | nil => simp [dropEndWhile, last c rfl]
    | cons d ds => rw [dropEndWhile, ih (by simpa using last)]

theorem dropEndWhile_last (p : Char → Bool) (cs : List Char) :
    ∀ c ∈ (dropEndWhile p cs).getLast?, p c = false := by
  induction cs with
  | nil => nofun
  | cons c cs ih =>
    cases kept : dropEndWhile p cs with
    | nil =>
      by_cases cut : p c = true
      · simp [dropEndWhile, kept, cut]
      · simp [dropEndWhile, kept, cut]
    | cons d ds =>
      rw [kept] at ih
      simpa [dropEndWhile, kept] using ih

theorem dropEndWhile_front (p : Char → Bool) (cs : List Char) : dropEndWhile p cs <+: cs := by
  obtain ⟨cut,split,_⟩ := exists_dropEndWhile_append p cs
  exact ⟨cut,split.symm⟩

theorem head?_dropEndWhile {p : Char → Bool} {cs : List Char}
    (found : (dropEndWhile p cs).head? = some c) : cs.head? = some c := by
  obtain ⟨cut,split⟩ := dropEndWhile_front p cs
  rw [← split, List.head?_append, found]
  rfl

theorem trimStart_eq {cs : List Char} (first : ∀ c ∈ cs.head?, isBlank c = false) :
    trimStart cs = cs := by
  cases cs with
  | nil => rfl
  | cons c cs => exact List.dropWhile_cons_of_neg (by simp [first c rfl])

theorem trim_trimmed (cs : List Char) : Trimmed (trim cs) := by
  refine ⟨?_,dropEndWhile_last isBlank _⟩
  intro c found
  have first : (trimStart cs).head? = some c := head?_dropEndWhile found
  have stopped := List.head?_dropWhile_not isBlank cs
  rw [show (cs.dropWhile isBlank).head? = some c from first] at stopped
  simpa using stopped

/-- Trimmed text stays as it is. -/
theorem trim_eq {cs : List Char} (trimmed : Trimmed cs) : trim cs = cs := by
  rw [trim, trimStart_eq trimmed.first]
  exact dropEndWhile_eq trimmed.last

/-- Text without a blank in front keeps its first character. -/
theorem head?_trim {cs : List Char} (first : ∀ c ∈ cs.head?, isBlank c = false)
    (found : (trim cs).head? = some c) : cs.head? = some c := by
  rw [trim, trimStart_eq first] at found
  exact head?_dropEndWhile found

theorem mem_of_mem_trim {cs : List Char} (found : c ∈ trim cs) : c ∈ cs :=
  (List.dropWhile_sublist _).mem ((dropEndWhile_front isBlank _).mem found)

theorem trim_cons_blank {c : Char} (blank : isBlank c = true) (cs : List Char) :
    trim (c :: cs) = trim cs := by
  rw [trim, trimStart, List.dropWhile_cons_of_pos blank]
  rfl

theorem trim_concat_blank {c : Char} (blank : isBlank c = true) (cs : List Char) :
    trim (cs ++ [c]) = trim cs := by
  have ended (ds : List Char) : dropEndWhile isBlank (ds ++ [c]) = dropEndWhile isBlank ds := by
    induction ds with
    | nil => simp [dropEndWhile, blank]
    | cons d ds ih => rw [List.cons_append, dropEndWhile, dropEndWhile, ih]
  rw [trim, trim, trimStart, trimStart, List.dropWhile_append]
  split
  · next all =>
    rw [List.isEmpty_iff.mp all]
    simp [trimEnd, blank]
  · exact ended _

/-- What is cut off are blanks. -/
theorem exists_trim (cs : List Char) :
    ∃ w v, cs = w ++ trim cs ++ v ∧ (∀ c ∈ w, isBlank c = true) ∧ ∀ c ∈ v, isBlank c = true := by
  obtain ⟨v,split,blank⟩ := exists_dropEndWhile_append isBlank (trimStart cs)
  refine ⟨cs.takeWhile isBlank,v,?_,List.all_eq_true.mp List.all_takeWhile,blank⟩
  rw [List.append_assoc, trim, trimEnd, ← split, trimStart, List.takeWhile_append_dropWhile]

theorem dropEndWhile_append_front (p : Char → Bool) (cs rest : List Char) :
    dropEndWhile p cs <+: dropEndWhile p (cs ++ rest) := by
  induction cs with
  | nil => exact List.nil_prefix
  | cons c cs ih =>
    rw [List.cons_append, dropEndWhile, dropEndWhile]
    cases kept : dropEndWhile p cs with
    | nil =>
      by_cases cut : p c = true
      · simp [cut]
      · cases dropEndWhile p (cs ++ rest) <;> simp [cut]
    | cons d ds =>
      rw [kept] at ih
      obtain ⟨more,longer⟩ := ih
      rw [← longer]
      exact ⟨more,rfl⟩

theorem trim_append_front (cs rest : List Char) : trim cs <+: trim (cs ++ rest) := by
  rw [trim, trim, trimStart, trimStart, List.dropWhile_append]
  split
  · next all =>
    rw [List.isEmpty_iff.mp all]
    exact List.nil_prefix
  · exact dropEndWhile_append_front isBlank _ rest

theorem Trimmed.no_return {cs : List Char} (trimmed : Trimmed cs) :
    cs.getLast? ≠ some '\r' := by
  intro last
  have blank := trimmed.last '\r' last
  revert blank
  decide

/-- The first line of a text is what stands before the first line feed. -/
theorem lines_line {line : List Char} (single : '\n' ∉ line) (kept : line.getLast? ≠ some '\r')
    (rest : List Char) : lines (line ++ '\n' :: rest) = line :: lines rest := by
  induction line with
  | nil => exact lines_lineFeed rest
  | cons c cs ih =>
    have other : c ≠ '\n' := fun same => single (same ▸ List.mem_cons_self)
    have free : '\n' ∉ cs := fun found => single (List.mem_cons_of_mem _ found)
    have further : lines (cs ++ '\n' :: rest) = cs :: lines rest := by
      refine ih free ?_
      cases cs with
      | nil => nofun
      | cons d ds => simpa using kept
    have noReturn : ¬(c = '\r' ∧ (cs ++ '\n' :: rest).head? = some '\n') := by
      rintro ⟨rfl,next⟩
      cases cs with
      | nil => exact kept rfl
      | cons d ds =>
        cases next
        exact free List.mem_cons_self
    rw [List.cons_append, lines, if_neg other, if_neg noReturn, further]

/-- A text is cut at its first separator. -/
theorem splitFirst?_append {p : Char → Bool} {before : List Char}
    (free : ∀ c ∈ before, p c = false) (separator : p c = true) (after : List Char) :
    splitFirst? p (before ++ c :: after) = some (before,after) := by
  induction before with
  | nil => simp [splitFirst?, separator]
  | cons d ds ih =>
    have further := ih fun c found => free c (List.mem_cons_of_mem _ found)
    rw [List.cons_append, splitFirst?, if_neg (by simp [free d List.mem_cons_self]), further]
    rfl

end ThemeForge.Text
