import ThemeForge.Text.Blank

/-!
# Other layouts of a text

Lines may be indented in another way and blank lines may come and go: between what is not blank
there is a gap with a line feed in it before and after. Nothing else differs between two layouts of
a text.
-/

namespace ThemeForge.Text

structure Gap (w : List Char) : Prop where
  blank : ∀ c ∈ w, isBlank c = true
  feed : '\n' ∈ w

inductive Relaid : List Char → List Char → Prop
  | nil : Relaid [] []
  | cons : Relaid x y → Relaid (c :: x) (c :: y)
  | gap : Gap w → Gap v → Relaid x y → Relaid (w ++ x) (v ++ y)

theorem Gap.ne_nil (gap : Gap w) : w ≠ [] := List.ne_nil_of_mem gap.feed

theorem Gap.exists_cons (gap : Gap w) : ∃ c cs, w = c :: cs ∧ isBlank c = true := by
  obtain ⟨c,cs,rfl⟩ := List.exists_cons_of_ne_nil gap.ne_nil
  exact ⟨c,cs,rfl,gap.blank c List.mem_cons_self⟩

namespace Relaid

variable {x y x' y' : List Char} {c : Char} {p : Char → Bool}

theorem refl (x : List Char) : Relaid x x := by
  induction x with
  | nil => exact .nil
  | cons c x ih => exact .cons ih

theorem symm (relaid : Relaid x y) : Relaid y x := by
  induction relaid with
  | nil => exact .nil
  | cons _ ih => exact .cons ih
  | gap first second _ ih => exact .gap second first ih

theorem append (relaid : Relaid x y) (others : Relaid x' y') : Relaid (x ++ x') (y ++ y') := by
  induction relaid with
  | nil => exact others
  | cons _ ih => exact .cons ih
  | gap first second _ ih =>
    rw [List.append_assoc, List.append_assoc]
    exact .gap first second ih

theorem gaps (first : Gap w) (second : Gap v) : Relaid w v := by
  simpa using gap first second .nil

/-- Layouts differ only where there is a line feed. -/
theorem eq_or (relaid : Relaid x y) : x = y ∨ '\n' ∈ x ∧ '\n' ∈ y := by
  induction relaid with
  | nil => exact .inl rfl
  | cons _ ih =>
    rcases ih with rfl | ⟨left,right⟩
    · exact .inl rfl
    · exact .inr ⟨List.mem_cons_of_mem _ left,List.mem_cons_of_mem _ right⟩
  | gap first second =>
    exact .inr ⟨List.mem_append_left _ first.feed,List.mem_append_left _ second.feed⟩

theorem eq_nil (relaid : Relaid x []) : x = [] := by
  cases relaid.eq_or with
  | inl same => exact same
  | inr feeds => cases feeds.2

theorem isEmpty_eq (relaid : Relaid x y) : x.isEmpty = y.isEmpty := by
  cases y with
  | nil => rw [relaid.eq_nil]
  | cons c y =>
    cases x with
    | nil => cases relaid.symm.eq_nil
    | cons d x => rfl

theorem solid (relaid : Relaid (c :: x) y) (shown : isBlank c = false) :
    ∃ y', y = c :: y' ∧ Relaid x y' := by
  generalize whole : c :: x = z at relaid
  cases relaid with
  | nil => cases whole
  | cons relaid =>
    cases whole
    exact ⟨_,rfl,relaid⟩
  | gap first =>
    obtain ⟨d,ds,rfl,blank⟩ := first.exists_cons
    cases whole
    cases shown.symm.trans blank

theorem head?_eq (relaid : Relaid x y) (shown : isBlank c = false) (first : x.head? = some c) :
    y.head? = some c := by
  obtain ⟨x',rfl⟩ := List.head?_eq_some_iff.mp first
  obtain ⟨y',rfl,_⟩ := relaid.solid shown
  rfl

theorem head?_all (relaid : Relaid x y) : x.head?.all isBlank = y.head?.all isBlank := by
  cases relaid with
  | nil => rfl
  | cons _ => rfl
  | gap first second =>
    obtain ⟨c,cs,rfl,blank⟩ := first.exists_cons
    obtain ⟨d,ds,rfl,blank'⟩ := second.exists_cons
    simp [blank, blank']

theorem allBlank_eq (relaid : Relaid x y) : allBlank x = allBlank y := by
  unfold allBlank
  induction relaid with
  | nil => rfl
  | cons _ ih => simp [ih]
  | gap first second _ ih =>
    rw [List.all_append, List.all_append, List.all_eq_true.mpr first.blank,
      List.all_eq_true.mpr second.blank, ih]

/-- A run of characters that are not blank is the same in every layout, and so is what ends it. -/
theorem span (relaid : Relaid x y) (solid : ∀ c, isBlank c = true → p c = false) :
    x.takeWhile p = y.takeWhile p ∧ Relaid (x.dropWhile p) (y.dropWhile p) := by
  induction relaid with
  | nil => exact ⟨rfl,.nil⟩
  | @cons x y c relaid ih =>
    obtain ⟨same,rest⟩ := ih
    by_cases more : p c = true
    · simp [more, same, rest]
    · simp only [List.takeWhile_cons, List.dropWhile_cons, if_neg more]
      exact ⟨trivial,.cons relaid⟩
  | @gap w v x y first second relaid _ =>
    have whole : Relaid (w ++ x) (v ++ y) := .gap first second relaid
    obtain ⟨c,cs,rfl,blank⟩ := first.exists_cons
    obtain ⟨d,ds,rfl,blank'⟩ := second.exists_cons
    simp only [List.cons_append, List.takeWhile_cons, List.dropWhile_cons, solid c blank,
      solid d blank', Bool.false_eq_true, if_false]
    exact ⟨trivial,whole⟩

end Relaid

/-- What two layouts of a text are cut into, if they are cut. -/
inductive Parted : Option (List Char × List Char) → Option (List Char × List Char) → Prop
  | none : Parted none none
  | some : Relaid x x' → Relaid y y' → Parted (some (x,y)) (some (x',y'))

/-- Two layouts of a text before what is cut. -/
theorem Parted.before {x y : List Char} (relaid : Relaid x y) (parted : Parted a b) :
    Parted (a.map fun (before,after) => (x ++ before,after))
      (b.map fun (before,after) => (y ++ before,after)) := by
  cases parted with
  | none => exact .none
  | some front back => exact .some (relaid.append front) back

theorem Parted.cons (parted : Parted a b) (c : Char) :
    Parted (a.map fun (before,after) => (c :: before,after))
      (b.map fun (before,after) => (c :: before,after)) :=
  parted.before (.refl [c])

theorem Parted.exists_some (parted : Parted (Option.some (x,y)) b) :
    ∃ x' y', b = Option.some (x',y') ∧ Relaid x x' ∧ Relaid y y' := by
  cases parted with
  | some front back => exact ⟨_,_,rfl,front,back⟩

theorem words_append_blank {w : List Char} (blank : ∀ c ∈ w, isBlank c = true) (x : List Char) :
    words (w ++ x) = words x := by
  induction w with
  | nil => rfl
  | cons c cs ih =>
    obtain ⟨first,rest⟩ := List.forall_mem_cons.mp blank
    rw [List.cons_append, words, if_pos first, ih rest]

theorem Relaid.words_eq {x y : List Char} (relaid : Relaid x y) : words x = words y := by
  induction relaid with
  | nil => rfl
  | cons relaid ih => rw [words, words, relaid.head?_all, ih]
  | gap first second _ ih =>
    rw [words_append_blank first.blank, words_append_blank second.blank, ih]

def Alike (s other : String) : Prop := Relaid s.toList other.toList

namespace Alike

theorem refl (s : String) : Alike s s := Relaid.refl s.toList

theorem append (alike : Alike s other) (alike' : Alike s' other') :
    Alike (s ++ s') (other ++ other') := by
  unfold Alike
  rw [String.toList_append, String.toList_append]
  exact Relaid.append alike alike'

theorem eq_or (alike : Alike s other) : s = other ∨ '\n' ∈ s.toList := by
  rcases Relaid.eq_or alike with same | feeds
  · exact .inl (String.toList_inj.mp same)
  · exact .inr feeds.1

end Alike

end ThemeForge.Text
