import ThemeForge.Proofs.Directives.Grouping

/-!
# Where the comment of a line starts

The comment of a line starts at its first semicolon with an even number of backslashes right before
it, so what the line says has no comment, and cutting and trimming it again changes nothing.
-/

namespace ThemeForge.Directives

variable {line kept : List Char}

/-- Behind characters of which none starts a comment a line is read on in the state that the
backslashes at their end leave. -/
theorem beforeComment_behind (before : List Char)
    (escaped : ∀ front after, kept = front ++ ';' :: after → Odd (slashes (before ++ front)))
    (rest : List Char) :
    beforeComment (decide (Odd (slashes before))) (kept ++ rest) =
      kept ++ beforeComment (decide (Odd (slashes (before ++ kept)))) rest := by
  induction kept generalizing before with
  | nil => rw [List.nil_append, List.nil_append, List.append_nil]
  | cons c kept ih =>
    have continues : ¬(c = ';' ∧ decide (Odd (slashes before)) = false) := by
      rintro ⟨rfl,even⟩
      have odd := escaped [] kept rfl
      rw [List.append_nil] at odd
      simp [odd] at even
    have further := ih (before ++ [c]) fun front after cut => by
      simpa using escaped (c :: front) after (by rw [cut, List.cons_append])
    rw [List.cons_append, beforeComment, if_neg continues, escaped_concat, further,
      List.append_assoc, List.singleton_append, List.cons_append]

theorem Uncommented.beforeComment_append (uncommented : Uncommented kept) (rest : List Char) :
    beforeComment false (kept ++ rest) = kept ++ beforeComment (decide (Odd (slashes kept))) rest := by
  simpa using beforeComment_behind [] uncommented rest

theorem beforeComment_eq_nil_iff (escaped : Bool) :
    beforeComment escaped line = [] ↔ line = [] ∨ escaped = false ∧ ∃ after, line = ';' :: after := by
  cases line with
  | nil => simp [beforeComment]
  | cons c line =>
    rw [beforeComment]
    split
    · next starts => simp [starts]
    · next continues => simpa [and_comm] using continues

/-- What is kept of a line has no comment, and what follows it, if anything, is a semicolon with an
even number of backslashes right before it. Cutting and trimming what a line says changes nothing. -/
theorem comment_starts (line kept : List Char) :
    (beforeComment false line = kept ↔ Uncommented kept ∧
      (line = kept ∨ ∃ after, line = kept ++ ';' :: after ∧ Even (slashes kept))) ∧
    content (content line) = content line := by
  refine ⟨⟨?_,?_⟩,content_eq (Text.trim_trimmed _) (uncommented_content line)⟩
  · rintro rfl
    have uncommented := uncommented_iff.mpr (beforeComment_idem false line)
    obtain ⟨rest,whole⟩ := beforeComment_front false line
    -- Read on behind what is kept, nothing more is.
    have read := uncommented.beforeComment_append rest
    rw [whole, List.self_eq_append_right, beforeComment_eq_nil_iff] at read
    refine ⟨uncommented,?_⟩
    rcases read with rfl | ⟨even,after,rfl⟩
    · rw [List.append_nil] at whole
      exact .inl whole.symm
    · exact .inr ⟨after,whole.symm,by simpa using even⟩
  · rintro ⟨uncommented,rfl | ⟨after,rfl,even⟩⟩
    · exact uncommented_iff.mp uncommented
    · have state : decide (Odd (slashes kept)) = false := by simpa using even
      rw [uncommented.beforeComment_append, state, beforeComment, if_pos ⟨rfl,rfl⟩,
        List.append_nil]

example : beforeComment false "a \\; b \\\\; c; d".toList = "a \\; b \\\\".toList := by decide

end ThemeForge.Directives
