import ThemeForge.Proofs.Text.Relaid

/-!
# The words of a text

A word is not empty and has no blank in it. Words that are written with blanks between them are the
words of the text.
-/

namespace ThemeForge.Text

structure Word (w : List Char) : Prop where
  nonempty : w ≠ []
  solid : ∀ c ∈ w, isBlank c = false

variable {w cs : List Char} {ws : List (List Char)} {c : Char}

theorem word_singleton (solid : isBlank c = false) : Word [c] :=
  ⟨List.cons_ne_nil _ _,List.forall_mem_singleton.mpr solid⟩

theorem Word.words_append (word : Word w) (ended : cs.head?.all isBlank = true) :
    words (w ++ cs) = w :: words cs := by
  obtain ⟨nonempty,solid⟩ := word
  induction w with
  | nil => exact absurd rfl nonempty
  | cons c w ih =>
    obtain ⟨first,others⟩ := List.forall_mem_cons.mp solid
    rw [List.cons_append, words, if_neg (by simp [first])]
    cases w with
    | nil => rw [List.nil_append, if_pos ended]
    | cons d w =>
      have inside : ((d :: w) ++ cs).head?.all isBlank = false := others d List.mem_cons_self
      rw [inside, if_neg Bool.false_ne_true, ih (List.cons_ne_nil _ _) others]

theorem Word.words_eq (word : Word w) : words w = [w] := by
  have whole : words (w ++ []) = w :: words [] := word.words_append rfl
  rwa [List.append_nil] at whole

theorem Word.append (word : Word w) (solid : ∀ c ∈ cs, isBlank c = false) : Word (cs ++ w) :=
  ⟨List.append_ne_nil_of_right_ne_nil _ word.nonempty,fun c member =>
    (List.mem_append.mp member).elim (solid c) (word.solid c)⟩

theorem word_of_mem_words (member : w ∈ words cs) : Word w := by
  induction cs generalizing w with
  | nil => cases member
  | cons c cs ih =>
    rw [words] at member
    split at member
    · exact ih member
    · next shown =>
      have solid : isBlank c = false := by simpa using shown
      split at member
      · rcases List.mem_cons.mp member with rfl | later
        · exact word_singleton solid
        · exact ih later
      · cases rest : words cs with
        | nil =>
          rw [rest] at member
          cases List.mem_singleton.mp member
          exact word_singleton solid
        | cons word others =>
          rw [rest] at member ih
          rcases List.mem_cons.mp member with rfl | later
          · exact (ih List.mem_cons_self).append (List.forall_mem_singleton.mpr solid)
          · exact ih (List.mem_cons_of_mem _ later)

theorem mem_intercalate {d : Char} (member : d ∈ [c].intercalate ws) : d = c ∨ ∃ w ∈ ws, d ∈ w := by
  induction ws with
  | nil => cases member
  | cons w ws ih =>
    cases ws with
    | nil =>
      rw [List.intercalate_singleton] at member
      exact .inr ⟨w,List.mem_cons_self,member⟩
    | cons v ws =>
      rw [List.intercalate_cons_cons, List.append_assoc] at member
      rcases List.mem_append.mp member with first | later
      · exact .inr ⟨w,List.mem_cons_self,first⟩
      · rcases List.mem_cons.mp later with between | others
        · exact .inl between
        · exact (ih others).imp_right fun ⟨u,inside,here⟩ => ⟨u,List.mem_cons_of_mem _ inside,here⟩

theorem words_intercalate (blank : isBlank c = true) (each : ∀ w ∈ ws, Word w) :
    words ([c].intercalate ws) = ws := by
  induction ws with
  | nil => rfl
  | cons w ws ih =>
    obtain ⟨first,others⟩ := List.forall_mem_cons.mp each
    cases ws with
    | nil => rw [List.intercalate_singleton, first.words_eq]
    | cons v ws =>
      rw [List.intercalate_cons_cons, List.append_assoc, first.words_append (by simpa using blank),
        words_append_blank (List.forall_mem_singleton.mpr blank), ih others]

end ThemeForge.Text
