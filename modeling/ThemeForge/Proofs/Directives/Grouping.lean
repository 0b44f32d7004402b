import ThemeForge.Proofs.Directives.Contents
import ThemeForge.Proofs.Directives.Joining
import Mathlib

/-!
# Directives joined in groups

What is joined is its own body: joining it again changes nothing, and texts can be joined in groups
first. The lines of what is minified are bare, and minifying leaves bare lines as they are.
-/

namespace ThemeForge.Directives

open Text

variable {line w : List Char} {minify : Bool} {texts : List String}

def slashes (before : List Char) : Nat := (before.reverse.takeWhile (· == '\\')).length

@[simp] theorem slashes_nil : slashes [] = 0 := rfl

theorem slashes_concat (before : List Char) (c : Char) :
    slashes (before ++ [c]) = if c = '\\' then slashes before + 1 else 0 := by
  by_cases slash : c = '\\' <;> simp [slashes, slash]

theorem slashes_append (free : '\\' ∉ w) (before : List Char) :
    slashes (w ++ before) = slashes before := by
  induction before using List.reverseRecOn with
  | nil =>
    have none : w.reverse.takeWhile (· == '\\') = [] := by
      rw [List.takeWhile_eq_nil_iff]
      intro some
      have other : w.reverse[0] ≠ '\\' := fun same =>
        free (same ▸ List.mem_reverse.mp (List.getElem_mem some))
      simpa using other
    rw [List.append_nil, slashes, none]
    rfl
  | append_singleton before c ih => rw [← List.append_assoc, slashes_concat, slashes_concat, ih]

/-- No semicolon of a line starts a comment: an odd number of backslashes stands right before each. -/
def Uncommented (line : List Char) : Prop :=
  ∀ before after, line = before ++ ';' :: after → Odd (slashes before)

/-- Whether a character is escaped hangs on the number of backslashes right before it. -/
theorem escaped_concat (before : List Char) (c : Char) :
    (c == '\\' && !decide (Odd (slashes before))) = decide (Odd (slashes (before ++ [c]))) := by
  by_cases slash : c = '\\'
  · simp [slashes_concat, slash, Nat.odd_add_one, -Nat.not_odd_iff_even]
  · simp [slashes_concat, slash]

theorem beforeComment_eq_iff (before line : List Char) :
    beforeComment (decide (Odd (slashes before))) line = line ↔
      ∀ front after, line = front ++ ';' :: after → Odd (slashes (before ++ front)) := by
  induction line generalizing before with
  | nil => simp [beforeComment]
  | cons c line ih =>
    rw [beforeComment]
    split
    · next starts =>
      obtain ⟨rfl,even⟩ := starts
      refine iff_of_false (List.cons_ne_nil _ _).symm fun each => ?_
      have odd := each [] line rfl
      rw [List.append_nil] at odd
      simp [odd] at even
    · next continues =>
      rw [List.cons.injEq, and_iff_right rfl, escaped_concat, ih]
      constructor
      · intro each front after cut
        cases front with
        | nil =>
          obtain ⟨rfl,rfl⟩ := List.cons.inj cut
          simpa using continues
        | cons d front =>
          obtain ⟨rfl,rest⟩ := List.cons.inj cut
          simpa using each front after rest
      · intro each front after cut
        simpa using each (c :: front) after (by rw [cut, List.cons_append])

theorem uncommented_iff : Uncommented line ↔ beforeComment false line = line := by
  simpa [Uncommented] using (beforeComment_eq_iff [] line).symm

theorem Uncommented.trim (uncommented : Uncommented line) : Uncommented (trim line) := by
  intro before after cut
  obtain ⟨w,v,whole,blank,_⟩ := exists_trim line
  have free : '\\' ∉ w := fun member => (not_comment_of_blank (blank _ member)).2 rfl
  have odd := uncommented (w ++ before) (after ++ v) (by rw [whole, cut]; simp)
  rwa [slashes_append free] at odd

structure Bare (line : List Char) : Prop where
  some : line ≠ []
  trimmed : Trimmed line
  uncommented : Uncommented line

theorem uncommented_content (line : List Char) : Uncommented (content line) :=
  (uncommented_iff.mpr (beforeComment_idem false line)).trim

theorem bare_of_mem_contents (member : line ∈ contents x) : Bare line := by
  refine ⟨ne_nil_of_mem_contents member,?_,?_⟩
  all_goals
    obtain ⟨whole,_,rfl⟩ := List.mem_map.mp (List.mem_filter.mp member).1
  · exact trim_trimmed _
  · exact uncommented_content whole

theorem content_eq (trimmed : Trimmed line) (uncommented : Uncommented line) :
    content line = line := by
  rw [content, uncommented_iff.mp uncommented, trim_eq trimmed]

theorem Bare.contents (bare : Bare line) (single : '\n' ∉ line) : contents line = [line] := by
  have same := content_eq bare.trimmed bare.uncommented
  rw [contents_eq, splitOn_free single, contentsOf_cons (same.symm ▸ bare.some), same]
  rfl

theorem contents_unlines_contents (x : List Char) : contents (unlines (contents x)) = contents x := by
  have each : ∀ line ∈ contents x, contents line = [line] := fun line member =>
    (bare_of_mem_contents member).contents (lineFeed_not_mem_of_mem_contents member)
  rw [contents_unlines, List.flatMap_def, List.map_congr_left each, ← List.flatMap_def]
  exact List.flatMap_singleton' _

theorem minified_minified (text : String) : minified (minified text) = minified text := by
  rw [minified_inj, minified, String.toList_ofList, contents_unlines_contents]

theorem eq_of_divided (divided : Divided ls parts) (bare : ∀ part ∈ parts, Bare part) :
    ls = parts := by
  induction divided with
  | nil => rfl
  | ended => exact absurd rfl (bare [] List.mem_cons_self).some
  | same _ ih => rw [ih fun part member => bare part (List.mem_cons_of_mem _ member)]
  | returned _ _ => exact absurd (by simp) (bare _ List.mem_cons_self).trimmed.no_return

theorem lines_minified (text : String) : lines (minified text).toList = contents text.toList := by
  rw [minified, String.toList_ofList]
  rcases splitOn_contents text.toList with parts | ⟨none,_⟩
  · have divided := lines_divided (unlines (contents text.toList))
    rw [parts] at divided
    exact eq_of_divided divided fun part member => bare_of_mem_contents member
  · rw [none]
    rfl

theorem getLast?_unlines (some : line ≠ []) (ls : List (List Char)) :
    (unlines (ls ++ [line])).getLast? = line.getLast? := by
  by_cases first : ls = []
  · rw [first, List.nil_append, unlines_singleton]
  · rw [unlines_append first (by simp), unlines_singleton,
      List.getLast?_append_of_ne_nil _ (List.cons_ne_nil _ _), List.getLast?_cons_of_ne_nil some]

theorem toList_join_bodies (minify : Bool) (texts : List String) :
    (join minify texts).toList = unlines ((bodies minify texts).map String.toList) :=
  String.toList_intercalate

theorem ne_nil_of_mem_bodies (member : line ∈ (bodies minify texts).map String.toList) :
    line ≠ [] := by
  obtain ⟨text,within,rfl⟩ := List.mem_map.mp member
  have some := (List.mem_filter.mp within).2
  simpa [isEmpty_toList] using some

/-- Bodies that are not minified end in no line end, and so what they are joined to does not either. -/
theorem withoutLastEnds_join (texts : List String) :
    withoutLastEnds (join false texts) = join false texts := by
  rw [withoutLastEnds, ← String.toList_inj, String.toList_ofList]
  refine dropEndWhile_eq fun c last => ?_
  rw [toList_join_bodies] at last
  rcases List.eq_nil_or_concat' ((bodies false texts).map String.toList) with
    none | ⟨front,line,whole⟩
  · simp [none] at last
  · have member : line ∈ (bodies false texts).map String.toList := by simp [whole]
    rw [whole, getLast?_unlines (ne_nil_of_mem_bodies member)] at last
    obtain ⟨body_,within,rfl⟩ := List.mem_map.mp member
    obtain ⟨text,_,rfl⟩ := List.mem_map.mp (List.mem_filter.mp within).1
    rw [body, if_neg Bool.false_ne_true, withoutLastEnds, String.toList_ofList] at last
    exact dropEndWhile_last _ _ c last

theorem body_join (minify : Bool) (texts : List String) :
    body minify (join minify texts) = join minify texts := by
  cases minify with
  | false => exact withoutLastEnds_join texts
  | true =>
    rw [join_minified]
    exact minified_minified _

theorem bodies_flatten (minify : Bool) (groups : List (List String)) :
    bodies minify groups.flatten = (groups.map (bodies minify)).flatten := by
  simp only [bodies, List.map_flatten, List.filter_flatten, List.map_map]
  rfl

/-- Groups of texts are joined, and then what they are joined to. -/
theorem join_flatten (minify : Bool) (groups : List (List String)) :
    join minify (groups.map (join minify)) = join minify groups.flatten := by
  have each : (fun text => (body minify text).toList) ∘ join minify =
      unlines ∘ fun texts => (bodies minify texts).map String.toList := by
    funext texts
    rw [Function.comp_apply, Function.comp_apply, body_join, toList_join_bodies]
  rw [← String.toList_inj, toList_join, List.map_map, each, ← List.map_map, unlines_filter,
    toList_join_bodies, bodies_flatten, List.map_flatten, List.map_map]
  · rfl
  · intro ls within line member
    obtain ⟨texts,_,rfl⟩ := List.mem_map.mp within
    exact ne_nil_of_mem_bodies member

/-- Texts can be joined in groups, and what is joined stays as it is when it is joined again. Minifying
texts is minifying all that they are joined to, and leaves bare lines. -/
theorem join_groups (minify : Bool) (texts : List String) :
    (∀ groups : List (List String), groups.flatten = texts →
        join minify (groups.map (join minify)) = join minify texts) ∧
      join minify [join minify texts] = join minify texts ∧
      join true texts = minified (join false texts) ∧
      ∀ line ∈ lines (join true texts).toList, Bare line := by
  refine ⟨?_,?_,join_minified texts,?_⟩
  · rintro groups rfl
    exact join_flatten minify groups
  · simpa using join_flatten minify [texts]
  · intro line member
    rw [join_minified, lines_minified] at member
    exact bare_of_mem_contents member

/-- A group with an escaped semicolon and a text that is all comment, one of no texts, and one with a
backslash that is escaped itself. -/
def grouped : List (List String) := [["a \\; b ; c\r\n",";"],[],["\t x\\\\;y\r"]]

theorem join_grouped :
    grouped.flatten = ["a \\; b ; c\r\n",";","\t x\\\\;y\r"] ∧
      join true grouped.flatten = "a \\; b\nx\\\\" ∧
      join true (grouped.map (join true)) = "a \\; b\nx\\\\" ∧
      "a \\; b".toList ∈ lines (join true grouped.flatten).toList ∧ Bare "a \\; b".toList := by
  have joined : join true grouped.flatten = "a \\; b\nx\\\\" := by cbv
  have member : "a \\; b".toList ∈ lines (join true grouped.flatten).toList := by
    rw [joined]
    decide
  obtain ⟨each,_,_,bare⟩ := join_groups true grouped.flatten
  exact ⟨rfl,joined,(each grouped rfl).trans joined,member,bare _ member⟩

end ThemeForge.Directives
