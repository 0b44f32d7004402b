import ThemeForge.Directives
import ThemeForge.Proofs.Text.Parts
import ThemeForge.Proofs.Text.Relaid
import ThemeForge.Proofs.Text.Trimmed

/-!
# What directives say

The contents of a text are those of its lines, however it is laid out: blanks around lines, blank
lines and the kind of line ends say nothing. What follows a text can only add to its contents.
-/

namespace ThemeForge.Directives

open Text

variable {l r x y w : List Char} {c : Char}

/-- A comment starts in the first of two texts on a line, or else the second one is read in the state
in which the first one ends. -/
theorem beforeComment_append (escaped : Bool) (l : List Char) :
    (beforeComment escaped l = l ∧
        ∃ escaped', ∀ r, beforeComment escaped (l ++ r) = l ++ beforeComment escaped' r) ∨
      beforeComment escaped l ≠ l ∧
        ∀ r, beforeComment escaped (l ++ r) = beforeComment escaped l := by
  induction l generalizing escaped with
  | nil => exact .inl ⟨rfl,escaped,fun r => rfl⟩
  | cons c l ih =>
    by_cases starts : c = ';' ∧ escaped = false
    · have none (r : List Char) : beforeComment escaped (c :: r) = [] := by
        rw [beforeComment, if_pos starts]
      exact .inr ⟨by simp [none],fun r => by rw [List.cons_append, none, none]⟩
    · have some (r : List Char) : beforeComment escaped (c :: r) =
          c :: beforeComment (c == '\\' && !escaped) r := by
        rw [beforeComment, if_neg starts]
      rcases ih (c == '\\' && !escaped) with ⟨plain,escaped',further⟩ | ⟨cut,commented⟩
      · refine .inl ⟨by rw [some, plain],escaped',fun r => ?_⟩
        rw [List.cons_append, some, further, List.cons_append]
      · exact .inr ⟨by simpa [some] using cut,fun r => by rw [List.cons_append, some, commented, some]⟩

theorem beforeComment_nil (escaped : Bool) : beforeComment escaped [] = [] := rfl

theorem beforeComment_idem (escaped : Bool) (l : List Char) :
    beforeComment escaped (beforeComment escaped l) = beforeComment escaped l := by
  induction l generalizing escaped with
  | nil => rfl
  | cons c l ih =>
    by_cases starts : c = ';' ∧ escaped = false
    · rw [beforeComment, if_pos starts]
      rfl
    · rw [beforeComment, if_neg starts, beforeComment, if_neg starts, ih]

theorem beforeComment_front (escaped : Bool) (l : List Char) : beforeComment escaped l <+: l := by
  induction l generalizing escaped with
  | nil => exact List.nil_prefix
  | cons c l ih =>
    rw [beforeComment]
    split
    · exact List.nil_prefix
    · exact List.cons_prefix_cons.mpr ⟨rfl,ih _⟩

@[simp] theorem content_nil : content [] = [] := rfl

theorem not_comment_of_blank (blank : isBlank c = true) : c ≠ ';' ∧ c ≠ '\\' := by
  constructor
  all_goals
    rintro rfl
    revert blank
    decide

theorem content_concat_blank (blank : isBlank c = true) (l : List Char) :
    content (l ++ [c]) = content l := by
  unfold content
  rcases beforeComment_append false l with ⟨plain,escaped,further⟩ | ⟨_,commented⟩
  · rw [further, plain, beforeComment, if_neg fun starts => (not_comment_of_blank blank).1 starts.1,
      beforeComment_nil, trim_concat_blank blank]
  · rw [commented]

theorem content_cons_blank (blank : isBlank c = true) (l : List Char) :
    content (c :: l) = content l := by
  obtain ⟨solid,plain⟩ := not_comment_of_blank blank
  have open_ : (c == '\\' && !false) = false := by simpa using plain
  rw [content, beforeComment, if_neg fun starts => solid starts.1, open_, trim_cons_blank blank,
    content]

/-- What follows on the line can only add to what it says. -/
theorem content_append_front (l r : List Char) : content l <+: content (l ++ r) := by
  unfold content
  rcases beforeComment_append false l with ⟨plain,escaped,further⟩ | ⟨_,commented⟩
  · rw [further, plain]
    exact trim_append_front l _
  · exact (congrArg trim (commented r)).symm ▸ List.prefix_refl _

/-- The contents of lines, without the empty ones. -/
def contentsOf (ls : List (List Char)) : List (List Char) :=
  (ls.map content).filter fun line => !line.isEmpty

theorem contentsOf_append (ls others : List (List Char)) :
    contentsOf (ls ++ others) = contentsOf ls ++ contentsOf others := by
  simp [contentsOf]

theorem contentsOf_congr (same : content l = content r)
    (rest : contentsOf ls = contentsOf others) : contentsOf (l :: ls) = contentsOf (r :: others) := by
  unfold contentsOf at rest ⊢
  simp only [List.map_cons, List.filter_cons, same, rest]

theorem contentsOf_divided (divided : Divided ls parts) : contentsOf ls = contentsOf parts := by
  induction divided with
  | nil => rfl
  | ended => rfl
  | same _ ih => exact contentsOf_congr rfl ih
  | returned _ ih => exact contentsOf_congr (content_concat_blank (by decide) _).symm ih

/-- A carriage return at the end of a line makes no difference, and so it does not matter where
lines are told from their ends. -/
theorem contents_eq (x : List Char) : contents x = contentsOf (splitOn '\n' x) :=
  contentsOf_divided (lines_divided x)

@[simp] theorem contents_nil : contents [] = [] := rfl

theorem contents_append_lineFeed (x y : List Char) :
    contents (x ++ '\n' :: y) = contents x ++ contents y := by
  rw [contents_eq, splitOn_append_cons, contentsOf_append, ← contents_eq, ← contents_eq]

/-- Blanks in front say nothing, -/
theorem contents_blank_append (blank : ∀ c ∈ w, isBlank c = true) (x : List Char) :
    contents (w ++ x) = contents x := by
  induction w with
  | nil => rfl
  | cons c w ih =>
    obtain ⟨first,others⟩ := List.forall_mem_cons.mp blank
    rw [← ih others, List.cons_append]
    by_cases feed : c = '\n'
    · subst feed
      exact contents_append_lineFeed [] _
    · obtain ⟨part,parts,cut⟩ := List.exists_cons_of_ne_nil (splitOn_ne_nil '\n' (w ++ x))
      rw [contents_eq, contents_eq, splitOn_cons feed, cut, List.modifyHead_cons]
      exact contentsOf_congr (content_cons_blank first part) rfl

/-- and neither do blanks behind. -/
theorem contents_append_blank (blank : ∀ c ∈ w, isBlank c = true) (x : List Char) :
    contents (x ++ w) = contents x := by
  induction w generalizing x with
  | nil => rw [List.append_nil]
  | cons c w ih =>
    obtain ⟨first,others⟩ := List.forall_mem_cons.mp blank
    rw [List.append_cons, ih others]
    by_cases feed : c = '\n'
    · rw [feed, contents_append_lineFeed, contents_nil, List.append_nil]
    · obtain ⟨front,last,cut,further⟩ := splitOn_append '\n' x
      have single : splitOn '\n' [c] = [[c]] := splitOn_free (by simpa using Ne.symm feed)
      rw [contents_eq, contents_eq, further, single, cut, contentsOf_append, contentsOf_append,
        List.modifyHead_cons, contentsOf_congr (content_concat_blank first last) rfl]

theorem contents_append_gap (gap : Gap w) (l x : List Char) :
    contents (l ++ (w ++ x)) = contents l ++ contents x := by
  obtain ⟨front,back,rfl⟩ := List.append_of_mem gap.feed
  obtain ⟨blank,_,blank'⟩ := by simpa [or_imp, forall_and] using gap.blank
  have whole : l ++ (front ++ '\n' :: back ++ x) = (l ++ front) ++ '\n' :: (back ++ x) := by
    simp
  rw [whole, contents_append_lineFeed, contents_append_blank blank, contents_blank_append blank']

theorem contents_relaid (relaid : Relaid x y) : contents x = contents y := by
  -- A gap ends a line, so in front of what is compared there may be the beginning of one.
  suffices further : ∀ l, contents (l ++ x) = contents (l ++ y) from further []
  induction relaid with
  | nil => exact fun l => rfl
  | @cons x y c _ ih =>
    intro l
    rw [List.append_cons, List.append_cons l c y]
    exact ih _
  | @gap w v x y first second _ ih =>
    intro l
    rw [contents_append_gap first, contents_append_gap second,
      show contents x = contents y from ih []]

theorem flatten_contentsOf (ls : List (List Char)) :
    (contentsOf ls).flatten = (ls.map content).flatten := List.flatten_filter_not_isEmpty

theorem contentsOf_eq_nil (none : (contentsOf ls).flatten = []) : contentsOf ls = [] := by
  rw [flatten_contentsOf, List.flatten_eq_nil_iff] at none
  exact List.filter_eq_nil_iff.mpr fun line member => by simp [none line member]

def Within (ls others : List (List Char)) : Prop :=
  ls = others ∨ ls.flatten.length < others.flatten.length

theorem Within.length_le (within : Within ls others) :
    ls.flatten.length ≤ others.flatten.length := by
  rcases within with rfl | fewer
  · exact Nat.le_refl _
  · exact Nat.le_of_lt fewer

/-- Lines are put together to the same only if they are the same. -/
theorem Within.append_inj (first : Within ls ls') (second : Within others others')
    (same : ls ++ others = ls' ++ others') : ls = ls' ∧ others = others' := by
  rcases first with rfl | fewer
  · exact ⟨rfl,List.append_cancel_left same⟩
  · have length := congrArg (fun ls => ls.flatten.length) same
    have below := second.length_le
    simp only [List.flatten_append, List.length_append] at length
    omega

theorem Within.append (first : Within ls ls') (second : Within others others') :
    Within (ls ++ others) (ls' ++ others') := by
  rcases first with rfl | fewer
  · rcases second with rfl | fewer
    · exact .inl rfl
    · right
      simp only [List.flatten_append, List.length_append]
      omega
  · right
    have below := second.length_le
    simp only [List.flatten_append, List.length_append]
    omega

/-- What follows a text leaves its contents as they are or adds to them. -/
theorem contents_append_within (x r : List Char) : Within (contents x) (contents (x ++ r)) := by
  obtain ⟨front,last,cut,further⟩ := splitOn_append '\n' x
  obtain ⟨part,parts,rest⟩ := List.exists_cons_of_ne_nil (splitOn_ne_nil '\n' r)
  rw [contents_eq, contents_eq, further, cut, rest, List.modifyHead_cons, contentsOf_append,
    contentsOf_append]
  obtain ⟨more,longer⟩ := content_append_front last part
  by_cases same : more = [] ∧ (contentsOf parts).flatten = []
  · left
    obtain ⟨rfl,none⟩ := same
    rw [List.append_nil] at longer
    have gone : contentsOf parts = contentsOf [] := contentsOf_eq_nil none
    rw [contentsOf_congr longer gone.symm]
  · right
    have added : 0 < (more ++ (contentsOf parts).flatten).length := by
      rw [List.length_pos_iff]
      simpa using same
    simp only [List.flatten_append, flatten_contentsOf, List.map_cons, List.map_nil,
      List.flatten_cons, List.flatten_nil, ← longer, List.length_append, List.length_nil] at added ⊢
    omega

theorem contentsOf_cons_nil (none : content l = []) (ls : List (List Char)) :
    contentsOf (l :: ls) = contentsOf ls := by
  simp [contentsOf, none]

theorem contentsOf_cons (some : content l ≠ []) (ls : List (List Char)) :
    contentsOf (l :: ls) = content l :: contentsOf ls := by
  simp [contentsOf, some]

/-- A text, but for blanks around it, is a layout of lines under one another. -/
structure LaysOut (x : List Char) (ls : List (List Char)) (w inner v : List Char) : Prop where
  whole : x = w ++ inner ++ v
  before : ∀ c ∈ w, isBlank c = true
  behind : ∀ c ∈ v, isBlank c = true
  relaid : Relaid inner (unlines ls)

/-- A line without a comment is what it says, but for blanks. -/
theorem exists_content (plain : beforeComment false l = l) :
    ∃ w v, l = w ++ content l ++ v ∧ (∀ c ∈ w, isBlank c = true) ∧ ∀ c ∈ v, isBlank c = true := by
  rw [content, plain]
  exact exists_trim l

theorem LaysOut.under (laysOut : LaysOut x (contentsOf ls) w y v)
    (plain : beforeComment false l = l) :
    ∃ w y v, LaysOut (l ++ '\n' :: x) (contentsOf (l :: ls)) w y v := by
  obtain ⟨rfl,before,behind,relaid⟩ := laysOut
  obtain ⟨w',v',around,before',behind'⟩ := exists_content plain
  have gap : Gap (v' ++ '\n' :: w) := by
    refine ⟨?_,by simp⟩
    simp only [List.mem_append, List.mem_cons]
    rintro c (member | rfl | member)
    · exact behind' c member
    · decide
    · exact before c member
  by_cases silent : content l = []
  · rw [contentsOf_cons_nil silent]
    rw [silent, List.append_nil] at around
    refine ⟨w' ++ (v' ++ '\n' :: w),y,v,?_,List.forall_mem_append.mpr ⟨before',gap.blank⟩,behind,relaid⟩
    simp [around]
  · rw [contentsOf_cons silent]
    rcases said : contentsOf ls with _ | ⟨first,rest⟩
    · rw [said] at relaid
      obtain rfl := relaid.eq_nil
      refine ⟨w',content l,v' ++ '\n' :: w ++ v,?_,before',?_,?_⟩
      · conv => lhs; rw [around]
        simp
      · exact List.forall_mem_append.mpr ⟨gap.blank,behind⟩
      · exact unlines_singleton _ ▸ .refl _
    · rw [said] at relaid
      refine ⟨w',content l ++ ((v' ++ '\n' :: w) ++ y),v,?_,before',behind,?_⟩
      · conv => lhs; rw [around]
        simp
      · have feed : Gap ['\n'] := ⟨List.forall_mem_singleton.mpr (by decide),by simp⟩
        rw [unlines_cons_cons]
        exact (Relaid.refl _).append (.gap gap feed relaid)

theorem exists_laysOut (plain : ∀ line ∈ ls, beforeComment false line = line) :
    ∃ w y v, LaysOut (unlines ls) (contentsOf ls) w y v := by
  induction ls with
  | nil => exact ⟨[],[],[],rfl,nofun,nofun,.nil⟩
  | cons line ls ih =>
    obtain ⟨own,others⟩ := List.forall_mem_cons.mp plain
    cases ls with
    | nil =>
      obtain ⟨w,v,around,before,behind⟩ := exists_content own
      refine ⟨w,content line,v,by rw [unlines_singleton, ← around],before,behind,?_⟩
      by_cases silent : content line = []
      · rw [contentsOf_cons_nil silent, silent]
        exact .nil
      · rw [contentsOf_cons silent]
        exact unlines_singleton _ ▸ .refl _
    | cons next ls =>
      obtain ⟨w,y,v,laysOut⟩ := ih others
      rw [unlines_cons_cons]
      exact laysOut.under own

theorem contents_unlines (xs : List (List Char)) : contents (unlines xs) = xs.flatMap contents := by
  induction xs with
  | nil => rfl
  | cons x xs ih =>
    cases xs with
    | nil => simp
    | cons y xs => rw [unlines_cons_cons, contents_append_lineFeed, ih, ← List.flatMap_cons]

theorem flatMap_contents_filter (xs : List (List Char)) :
    (xs.filter fun x => !x.isEmpty).flatMap contents = xs.flatMap contents := by
  induction xs with
  | nil => rfl
  | cons x xs ih => cases x <;> simp [ih]

theorem unlines_eq_nil_iff {ls : List (List Char)} (some : ∀ l ∈ ls, l ≠ []) :
    unlines ls = [] ↔ ls = [] := by
  rcases ls with _ | ⟨line,_ | ⟨next,rest⟩⟩
  · simp
  · simpa using some
  · simp [unlines_cons_cons]

/-- Lists of lines that are put together, where some may be empty. -/
theorem unlines_filter {lss : List (List (List Char))} (some : ∀ ls ∈ lss, ∀ l ∈ ls, l ≠ []) :
    unlines ((lss.map unlines).filter fun x => !x.isEmpty) = unlines lss.flatten := by
  induction lss with
  | nil => rfl
  | cons ls lss ih =>
    obtain ⟨own,others⟩ := List.forall_mem_cons.mp some
    have rest := ih others
    rw [List.map_cons, List.flatten_cons]
    by_cases none : ls = []
    · simpa [none] using rest
    · have kept : unlines ls ≠ [] := mt (unlines_eq_nil_iff own).mp none
      rw [List.filter_cons_of_pos (by simpa using kept)]
      by_cases last : lss.flatten = []
      · have gone : (lss.map unlines).filter (fun x => !x.isEmpty) = [] := by
          rw [List.filter_eq_nil_iff]
          intro x member
          obtain ⟨ls',within,rfl⟩ := List.mem_map.mp member
          simp [List.flatten_eq_nil_iff.mp last ls' within]
        rw [gone, last, unlines_singleton, List.append_nil]
      · have more : (lss.map unlines).filter (fun x => !x.isEmpty) ≠ [] := by
          intro gone
          rw [gone] at rest
          refine last ((unlines_eq_nil_iff fun l member => ?_).mp rest.symm)
          obtain ⟨ls',within,member⟩ := List.mem_flatten.mp member
          exact others ls' within l member
        rw [unlines_append none last, ← rest, ← List.singleton_append, unlines_append (by simp) more,
          unlines_singleton]

theorem ne_nil_of_mem_contents (member : l ∈ contents x) : l ≠ [] := by
  simpa using (List.mem_filter.mp member).2

theorem isEmpty_toList (text : String) : text.isEmpty = text.toList.isEmpty := by
  rw [Bool.eq_iff_iff, String.isEmpty_iff, List.isEmpty_iff, String.toList_eq_nil_iff]

theorem toList_join (minify : Bool) (texts : List String) :
    (join minify texts).toList =
      unlines ((texts.map fun text => (body minify text).toList).filter fun x => !x.isEmpty) := by
  rw [join, String.toList_intercalate, show (fun text : String => !text.isEmpty) =
    (fun x => !x.isEmpty) ∘ String.toList from funext fun text => by simp [isEmpty_toList],
    ← List.filter_map, List.map_map]
  rfl

theorem contents_withoutLastEnds (text : String) :
    contents (withoutLastEnds text).toList = contents text.toList := by
  obtain ⟨cut,split,ends⟩ := exists_dropEndWhile_append (fun c => c == '\r' || c == '\n') text.toList
  have blank : ∀ c ∈ cut, isBlank c = true := by
    intro c member
    have end_ := ends c member
    simp only [Bool.or_eq_true, beq_iff_eq] at end_
    rcases end_ with rfl | rfl <;> decide
  conv => rhs; rw [split]
  rw [contents_append_blank blank, withoutLastEnds, String.toList_ofList]

theorem contents_join (texts : List String) :
    contents (join false texts).toList = texts.flatMap fun text => contents text.toList := by
  rw [toList_join, contents_unlines, flatMap_contents_filter, List.flatMap_map]
  exact congrArg (texts.flatMap ·) (funext contents_withoutLastEnds)

/-- Minifying texts before they are joined is minifying them together. -/
theorem join_minified (texts : List String) : join true texts = minified (join false texts) := by
  have each : (fun text => (body true text).toList) =
      unlines ∘ fun text : String => contents text.toList :=
    funext fun text => String.toList_ofList
  rw [← String.toList_inj, toList_join, minified, String.toList_ofList, contents_join, each,
    ← List.map_map, unlines_filter, List.flatMap_def]
  intro ls within l member
  obtain ⟨text,_,rfl⟩ := List.mem_map.mp within
  exact ne_nil_of_mem_contents member

theorem lineFeed_not_mem_of_mem_contents (member : l ∈ contents x) : '\n' ∉ l := by
  obtain ⟨line,within,rfl⟩ := List.mem_map.mp (List.mem_filter.mp member).1
  intro feed
  exact lineFeed_not_mem_of_mem_lines within
    ((beforeComment_front false line).mem (mem_of_mem_trim feed))

theorem splitOn_contents (x : List Char) :
    splitOn '\n' (unlines (contents x)) = contents x ∨
      contents x = [] ∧ splitOn '\n' (unlines (contents x)) = [[]] := by
  by_cases none : contents x = []
  · exact .inr ⟨none,by rw [none]; rfl⟩
  · exact .inl (splitOn_unlines (fun _ => lineFeed_not_mem_of_mem_contents) none)

/-- Texts are minified to the same exactly if they say the same. -/
theorem minified_inj {text other : String} :
    minified text = minified other ↔ contents text.toList = contents other.toList := by
  constructor
  · intro same
    have cut := congrArg (splitOn '\n') (String.ofList_injective same)
    have said (text : String) : [] ∉ contents text.toList := fun member =>
      ne_nil_of_mem_contents member rfl
    rcases splitOn_contents text.toList with some | ⟨none,some⟩ <;>
      rcases splitOn_contents other.toList with some' | ⟨none',some'⟩ <;> rw [some, some'] at cut
    · exact cut
    · exact absurd (cut ▸ List.mem_singleton_self _) (said text)
    · exact absurd (cut ▸ List.mem_singleton_self _) (said other)
    · rw [none, none']
  · intro same
    rw [minified, same, minified]

end ThemeForge.Directives
