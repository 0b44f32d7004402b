/-!
# Cutting a text at a separator

Every function here loses only the separators at which it cuts.
-/

namespace ThemeForge.Text

/-- The parts between the occurrences of `separator`, of which there is always at least one. -/
def splitOn (separator : Char) : List Char → List (List Char)
  | [] => [[]]
  | c :: cs =>
    if c = separator then [] :: splitOn separator cs
    else
      match splitOn separator cs with
      | [] => [[c]]
      | part :: rest => (c :: part) :: rest

def splitFirst? (p : Char → Bool) : List Char → Option (List Char × List Char)
  | [] => none
  | c :: cs =>
    if p c then some ([],cs)
    else (splitFirst? p cs).map fun (before,after) => (c :: before,after)

def splitLast? (p : Char → Bool) : List Char → Option (List Char × List Char)
  | [] => none
  | c :: cs =>
    match splitLast? p cs with
    | some (before,after) => some (c :: before,after)
    | none => if p c then some ([],cs) else none

/-- Cutting at the first place loses only the separator, and leaves none before it. -/
theorem eq_append_of_splitFirst? {p : Char → Bool} {cs before after : List Char}
    (cut : splitFirst? p cs = some (before,after)) :
    ∃ c, cs = before ++ c :: after ∧ p c = true ∧ ∀ d ∈ before, p d = false := by
  induction cs generalizing before after with
  | nil => simp [splitFirst?] at cut
  | cons c cs ih =>
    rw [splitFirst?] at cut
    split at cut
    · next holds =>
      obtain ⟨rfl,rfl⟩ : [] = before ∧ cs = after := by simpa using cut
      exact ⟨c,rfl,holds,by simp⟩
    · next fails =>
      obtain ⟨⟨first,last⟩,found,same⟩ := Option.map_eq_some_iff.1 cut
      obtain ⟨rfl,rfl⟩ : c :: first = before ∧ last = after := by simpa using same
      obtain ⟨d,rfl,holds,free⟩ := ih found
      exact ⟨d,rfl,holds,by simpa using ⟨by simpa using fails,free⟩⟩

/-- Cutting at the last place loses only the separator, and leaves none after it. -/
theorem eq_append_of_splitLast? {p : Char → Bool} {cs before after : List Char}
    (cut : splitLast? p cs = some (before,after)) :
    ∃ c, cs = before ++ c :: after ∧ p c = true := by
  induction cs generalizing before after with
  | nil => simp [splitLast?] at cut
  | cons c cs ih =>
    rw [splitLast?] at cut
    split at cut
    · next first last found =>
      obtain ⟨rfl,rfl⟩ : c :: first = before ∧ last = after := by simpa using cut
      obtain ⟨d,rfl,holds⟩ := ih found
      exact ⟨d,rfl,holds⟩
    · next missing =>
      split at cut
      · next holds =>
        obtain ⟨rfl,rfl⟩ : [] = before ∧ cs = after := by simpa using cut
        exact ⟨c,rfl,holds⟩
      · contradiction

end ThemeForge.Text
