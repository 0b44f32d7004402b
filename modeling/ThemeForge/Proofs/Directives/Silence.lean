import ThemeForge.Proofs.Directives.Comments
import ThemeForge.Proofs.Directives.Minifying

/-!
# Comments that are silent

A piece without a comment is silent whatever the tables say. So is one whose comment has no braces and
stands at the start or behind a blank: then no expansion gets into it, and none ends right before it.
-/

namespace ThemeForge.Directives

variable {x y rest : List Char}

/-- Only the backslashes behind the last other character of a text are counted. -/
theorem slashes_behind (other : c ≠ '\\') (x y : List Char) :
    slashes (x ++ c :: y) = slashes y := by
  induction y using List.reverseRecOn with
  | nil => rw [slashes_concat, if_neg other, slashes_nil]
  | append_singleton y d ih =>
    rw [← List.cons_append, ← List.append_assoc, slashes_concat, slashes_concat, ih]

/-- The backslashes at the end of a text are those at the end of its last line. -/
theorem slashes_last (parts : Text.splitOn '\n' x = front ++ [last]) : slashes x = slashes last := by
  rw [← Text.unlines_splitOn x, parts]
  by_cases single : front = []
  · rw [single, List.nil_append, Text.unlines_singleton]
  · rw [Text.unlines_append single (List.cons_ne_nil _ _), Text.unlines_singleton,
      slashes_behind (by decide)]

/-- A comment behind a line that no backslash escapes is cut off. -/
theorem beforeComment_comment (even : Even (slashes x)) (rest : List Char) :
    beforeComment false (x ++ ';' :: rest) = beforeComment false x := by
  rcases beforeComment_append false x with ⟨plain,_⟩ | ⟨_,commented⟩
  · have state : decide (Odd (slashes x)) = false := by simpa using even
    rw [(uncommented_iff.mpr plain).beforeComment_append, state, beforeComment, if_pos ⟨rfl,rfl⟩,
      List.append_nil, plain]
  · exact commented _

theorem contents_comment (even : Even (slashes x)) (single : '\n' ∉ rest) :
    contents (x ++ ';' :: rest) = contents x := by
  obtain ⟨front,last,parts,further⟩ := Text.splitOn_append '\n' x
  have free : '\n' ∉ ';' :: rest := by simpa using single
  rw [slashes_last parts] at even
  have same : content (last ++ ';' :: rest) = content last := by
    rw [content, beforeComment_comment even, content]
  rw [contents_eq, contents_eq, further, Text.splitOn_free free, parts, List.modifyHead_cons,
    contentsOf_append, contentsOf_append, contentsOf_congr same rfl]

namespace Commented

variable {p : Commented} {t : Tables} {location : String}

theorem silent_of_nil (none : p.comment = []) : p.Silent t location := by
  intro alone whole own all
  rw [text, none, List.append_nil] at all
  cases own.unique all
  rfl

/-- The expansion of a text with a blank at its end has the blank at its end. -/
theorem expands_blank (blank : ∀ c, x.getLast? = some c → Text.isBlank c = true)
    (expands : t.Expands location (String.ofList x) (.ok alone)) : slashes alone.toList = 0 := by
  obtain ⟨pieces,cut,spells⟩ := Tables.expands_ok_iff.mp expands
  rw [Template.segments, String.toList_ofList] at cut
  rcases List.eq_nil_or_concat x with rfl | ⟨front,c,rfl⟩
  · rw [Template.segmentsOf_blank (by simp)] at cut
    cases cut
    rw [Tables.spells_nil.mp spells]
    rfl
  · have last : ∀ d ∈ [c], Text.isBlank d = true := by simpa using blank c (by simp)
    rw [List.concat_eq_append] at cut
    obtain ⟨others,own⟩ := Template.segmentsOf_append_blank last cut
    have open_ : front.getLast? = some '{' → [c].head? ≠ some '{' := fun _ first =>
      Text.not_mem_of_blank last (by decide) (List.mem_of_head? first)
    rw [Template.segmentsOf_append own open_, Template.segmentsOf_blank last] at cut
    cases cut
    obtain ⟨before,behind,_,back,rfl⟩ := Tables.spells_glue.mp spells
    have other := (not_comment_of_blank (last c (List.mem_singleton_self c))).2
    rw [Tables.spells_literal.mp back, String.toList_append, String.toList_ofList,
      slashes_concat, if_neg other]

/-- A comment without braces that stands at the start or behind a blank is silent. -/
theorem Apart.silent (apart : p.Apart) (plain : '{' ∉ p.comment)
    (blank : ∀ c, p.directives.getLast? = some c → Text.isBlank c = true) : p.Silent t location := by
  cases comment : p.comment with
  | nil => exact silent_of_nil comment
  | cons c rest =>
    intro alone whole own all
    cases apart.comment_head (by rw [comment]; rfl)
    have single : '\n' ∉ rest := by
      have single := apart.single
      rw [comment] at single
      exact (not_or.mp (mt List.mem_cons.mpr single)).2
    obtain ⟨pieces,cut⟩ := apart.closed
    obtain ⟨found,segments,spells⟩ := Tables.expands_ok_iff.mp all
    rw [Template.segments, String.toList_ofList, text, Template.segmentsOf_append cut apart.open_,
      Template.segmentsOf_eq, Text.splitPair?_free plain] at segments
    cases segments
    obtain ⟨alone',more,front,back,rfl⟩ := Tables.spells_glue.mp spells
    have own' : t.Expands location (String.ofList p.directives) (.ok alone') :=
      Tables.expands_ok_iff.mpr ⟨pieces,by rw [Template.segments, String.toList_ofList, cut],front⟩
    cases own.unique own'
    have even : Even (slashes alone.toList) := by simp [expands_blank blank own]
    rw [minified_inj, Tables.spells_literal.mp back, String.toList_append, String.toList_ofList,
      comment, contents_comment even single]

end Commented

end ThemeForge.Directives
