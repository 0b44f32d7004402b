import Mathlib.Data.List.Forall2
import ThemeForge.Proofs.Results
import ThemeForge.Proofs.Template.Cutting
import ThemeForge.Proofs.Text.Relaid

/-!
# Other layouts of a template

Braces are not blank, so a template is cut at the same places in every layout. Blanks around a
template belong to its literals.
-/

namespace ThemeForge

namespace Text

variable {c : Char} {x y w : List Char}

theorem not_mem_of_blank (blank : ∀ d ∈ w, isBlank d = true) (shown : isBlank c = false) : c ∉ w :=
  fun member => Bool.false_ne_true (shown.symm.trans (blank c member))

theorem splitPair?_blank_append (blank : ∀ d ∈ w, isBlank d = true) (shown : isBlank c = false)
    (x : List Char) : splitPair? c (w ++ x) =
      (splitPair? c x).map fun (before,after) => (w ++ before,after) := by
  have free := not_mem_of_blank blank shown
  refine splitPair?_append_none (splitPair?_free free) fun last => ?_
  exact absurd (List.mem_of_getLast? last) free

theorem Relaid.splitPair? (relaid : Relaid x y) (shown : isBlank c = false) :
    Parted (splitPair? c x) (splitPair? c y) := by
  induction relaid with
  | nil => exact .none
  | @cons x y d relaid ih =>
    rw [Text.splitPair?, Text.splitPair?]
    by_cases pair : d = c ∧ x.head? = some c
    · have pair' : d = c ∧ y.head? = some c := ⟨pair.1,relaid.head?_eq shown pair.2⟩
      rw [if_pos pair, if_pos pair']
      obtain ⟨x,rfl⟩ := List.head?_eq_some_iff.mp pair.2
      obtain ⟨y,rfl,rest⟩ := relaid.solid shown
      exact .some .nil rest
    · have apart : ¬(d = c ∧ y.head? = some c) := fun both =>
        pair ⟨both.1,relaid.symm.head?_eq shown both.2⟩
      rw [if_neg pair, if_neg apart]
      exact ih.cons d
  | gap first second _ ih =>
    rw [splitPair?_blank_append first.blank shown, splitPair?_blank_append second.blank shown]
    exact ih.before (.gaps first second)

end Text

inductive Segment.Relaid : Segment → Segment → Prop
  | literal : Text.Alike text other → Relaid (.literal text) (.literal other)
  | expression : Text.Alike source other →
      Relaid (.expression source) (.expression other)

namespace Template

open Text

variable {x y v w : List Char} {pieces : List Segment}

theorem literal_relaid (relaid : Relaid x y) :
    List.Forall₂ Segment.Relaid (literal x) (literal y) := by
  unfold literal
  rw [relaid.isEmpty_eq]
  split
  · exact .nil
  · exact .cons (.literal (by simpa [Alike] using relaid)) .nil

theorem segmentsOf_relaid (cut : segmentsOf x = .ok pieces) (relaid : Relaid x y) :
    ∃ others, segmentsOf y = .ok others ∧ List.Forall₂ Segment.Relaid pieces others := by
  fun_induction segmentsOf x generalizing pieces y with
  | case1 x opened =>
    cases cut
    have same := relaid.splitPair? (c := '{') (by decide)
    rw [opened] at same
    refine ⟨literal y,?_,literal_relaid relaid⟩
    rw [segmentsOf_eq]
    generalize Text.splitPair? '{' y = found at same
    cases same
    rfl
  | case2 => cases cut
  | case3 => cases cut
  | case4 x before body opened source rest closed shown shorter ih =>
    obtain ⟨more,later,rfl⟩ := map_ok_iff.mp cut
    obtain ⟨before',body',found,front,inside⟩ :=
      (opened ▸ relaid.splitPair? (c := '{') (by decide)).exists_some
    obtain ⟨source',rest',found',written,behind⟩ :=
      (closed ▸ inside.splitPair? (c := '}') (by decide)).exists_some
    obtain ⟨others,again,alike⟩ := ih later behind
    refine ⟨literal before' ++ .expression (String.ofList source') :: others,?_,?_⟩
    · rw [segmentsOf_eq, found]
      simp only [found']
      rw [← written.allBlank_eq, if_neg shown, again]
      rfl
    · exact List.rel_append (literal_relaid front) (.cons (.expression (by simpa [Alike] using written)) alike)

theorem segmentsOf_blank (blank : ∀ c ∈ w, isBlank c = true) : segmentsOf w = .ok (literal w) := by
  rw [segmentsOf_eq, splitPair?_free (not_mem_of_blank blank (by decide))]

theorem segmentsOf_blank_append (blank : ∀ c ∈ w, isBlank c = true) (x : List Char) :
    segmentsOf (w ++ x) = (segmentsOf x).map (glue (literal w)) :=
  segmentsOf_append (segmentsOf_blank blank) fun last =>
    absurd (List.mem_of_getLast? last) (not_mem_of_blank blank (by decide))

theorem segmentsOf_append_blank (blank : ∀ c ∈ v, isBlank c = true)
    (cut : segmentsOf (x ++ v) = .ok pieces) : ∃ others, segmentsOf x = .ok others := by
  have free := not_mem_of_blank (c := '}') blank (by decide)
  fun_induction segmentsOf x generalizing pieces with
  | case1 x opened => exact ⟨_,rfl⟩
  | case2 x before body opened closed =>
    rw [segmentsOf_eq, splitPair?_append_some opened] at cut
    simp [splitPair?_append_free closed free] at cut
  | case3 x before body opened source rest closed shown =>
    rw [segmentsOf_eq, splitPair?_append_some opened] at cut
    simp [splitPair?_append_some closed, shown] at cut
  | case4 x before body opened source rest closed shown shorter ih =>
    rw [segmentsOf_eq, splitPair?_append_some opened] at cut
    simp only [splitPair?_append_some closed, if_neg shown] at cut
    obtain ⟨more,later,_⟩ := map_ok_iff.mp cut
    obtain ⟨others,found⟩ := ih later
    exact ⟨_,by rw [found]; rfl⟩

end Template

end ThemeForge
