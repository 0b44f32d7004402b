import ThemeForge.Proofs.Folder.Listed
import ThemeForge.Proofs.Folder.Paths
import ThemeForge.Proofs.Folder.Traversal

/-!
# Directories level by level

A queue visits a folder level by level, and each level in the order of a walk in depth. So what it
visits is the walk in depth, sorted by depth without a change of order within a level.
-/

namespace ThemeForge

section Sorting

variable {key : α → Nat} {l others : List α}

/-- Sorted lists that have the same members of each key in the same order are the same. -/
theorem eq_of_sorted (sorted : l.Pairwise fun a b => key a ≤ key b)
    (sortedOthers : others.Pairwise fun a b => key a ≤ key b)
    (same : ∀ k, (l.filter fun a => key a = k) = others.filter fun a => key a = k) :
    l = others := by
  induction l generalizing others with
  | nil =>
    cases others with
    | nil => rfl
    | cons b others => simpa using same (key b)
  | cons a l ih =>
    cases others with
    | nil => simpa using same (key a)
    | cons b others =>
      obtain ⟨first,rest⟩ := List.pairwise_cons.mp sorted
      obtain ⟨firstOther,restOthers⟩ := List.pairwise_cons.mp sortedOthers
      -- Each of the two first members is also in the other list, so neither key is the smaller one.
      have here : a ∈ (b :: others).filter fun c => key c = key a := by
        rw [← same]
        simp
      have there : b ∈ (a :: l).filter fun c => key c = key b := by
        rw [same]
        simp
      have le : key b ≤ key a := by
        rcases List.mem_cons.mp (List.mem_filter.mp here).1 with rfl | later
        · exact Nat.le_refl _
        · exact firstOther a later
      have ge : key a ≤ key b := by
        rcases List.mem_cons.mp (List.mem_filter.mp there).1 with rfl | later
        · exact Nat.le_refl _
        · exact first b later
      have keys : key a = key b := Nat.le_antisymm ge le
      have heads := same (key b)
      rw [List.filter_cons_of_pos (by simp [keys]), List.filter_cons_of_pos (by simp)] at heads
      obtain ⟨rfl,tails⟩ := List.cons.inj heads
      refine congrArg (a :: ·) (ih rest restOthers fun k => ?_)
      by_cases own : key a = k
      · subst own
        exact tails
      · have rest := same k
        rwa [List.filter_cons_of_neg (by simpa using own),
          List.filter_cons_of_neg (by simpa using own)] at rest

theorem le_trans_key (key : α → Nat) (a b c : α) (first : decide (key a ≤ key b) = true)
    (second : decide (key b ≤ key c) = true) : decide (key a ≤ key c) = true := by
  simp only [decide_eq_true_eq] at first second ⊢
  exact Nat.le_trans first second

theorem le_total_key (key : α → Nat) (a b : α) :
    (decide (key a ≤ key b) || decide (key b ≤ key a)) = true := by
  simpa using Nat.le_total (key a) (key b)

theorem filter_mergeSort (key : α → Nat) (l : List α) (k : Nat) :
    ((l.mergeSort fun a b => key a ≤ key b).filter fun a => key a = k) =
      l.filter fun a => key a = k := by
  have level : (l.filter fun a => key a = k).Pairwise fun a b => decide (key a ≤ key b) = true := by
    refine List.pairwise_of_forall_mem_list fun a found b other => ?_
    simp only [List.mem_filter, decide_eq_true_eq] at found other
    simp [found.2, other.2]
  have kept := (List.sublist_mergeSort (le_trans_key key) (le_total_key key) level
    List.filter_sublist).filter fun a => decide (key a = k)
  rw [List.filter_filter] at kept
  simp only [Bool.and_self] at kept
  have length := ((List.mergeSort_perm l fun a b => decide (key a ≤ key b)).filter
    fun a => decide (key a = k)).length_eq
  exact (kept.eq_of_length length.symm).symm

/-- A list is the other one sorted if it is sorted and has its members of each key in its order. -/
theorem eq_mergeSort (sorted : l.Pairwise fun a b => key a ≤ key b)
    (same : ∀ k, (l.filter fun a => key a = k) = others.filter fun a => key a = k) :
    l = others.mergeSort fun a b => key a ≤ key b := by
  refine eq_of_sorted sorted ?_ fun k => (same k).trans (filter_mergeSort key others k).symm
  simpa using List.pairwise_mergeSort (le_trans_key key) (le_total_key key) others

end Sorting

namespace Folder

def depth (f : Folder) : Nat := f.path.length

inductive Leveled : Folder → Prop
  | intro (below : ∀ child ∈ f.children, child.depth = f.depth + 1)
      (inner : ∀ child ∈ f.children, Leveled child) : Leveled f

variable {f d : Folder} {level : List Folder}

theorem addFile_depth (includes : String → Bool) (name : String) (f : Folder) :
    (addFile includes name f).depth = f.depth := by
  rw [depth, addFile_path, depth]

theorem Listed.leveled (listed : Listed includes place entries f) : f.Leveled := by
  induction listed with
  | nil => exact .intro nofun nofun
  | @file place entries f name rest ih =>
    obtain ⟨below,inner⟩ := ih
    refine .intro ?_ ?_
    · rw [addFile_children, addFile_depth]
      exact below
    · rw [addFile_children]
      exact inner
  | @directory place name inside child entries f inner rest ihInner ih =>
    obtain ⟨below,others⟩ := ih
    have first : child.depth = f.depth + 1 := by
      rw [depth, depth, inner.path_eq, rest.path_eq, List.length_append, List.length_singleton]
    exact .intro (List.forall_mem_cons.mpr ⟨first,below⟩) (List.forall_mem_cons.mpr ⟨ihInner,others⟩)

theorem Leveled.depth_lt (leveled : f.Leveled) : ∀ d ∈ depthFirsts f.children, f.depth < d.depth := by
  induction leveled with
  | intro below inner ih =>
    intro d found
    rw [depthFirsts_eq] at found
    obtain ⟨child,isChild,found⟩ := List.mem_flatMap.mp found
    have one := below child isChild
    rw [depthFirst_cons] at found
    rcases List.mem_cons.mp found with rfl | found
    · omega
    · have further := ih child isChild d found
      omega

/-- A queue is visited in order, and what its directories add comes behind all of it. -/
theorem breadthFirst_append (keep : Folder → Bool) (queue next : List Folder) :
    breadthFirst keep (queue ++ next) =
      queue ++ breadthFirst keep (next ++ queue.flatMap (kept keep)) := by
  induction queue generalizing next with
  | nil => simp
  | cons f queue ih =>
    rw [List.cons_append, breadthFirst, List.append_assoc, ih, List.flatMap_cons, List.append_assoc]
    rfl

theorem total_flatMap (folders : List Folder) :
    total (folders.flatMap children) + folders.length = total folders := by
  induction folders with
  | nil => rfl
  | cons f rest ih =>
    rw [List.flatMap_cons, total_append, total, size_eq, List.length_cons]
    omega

theorem depthFirsts_append (folders others : List Folder) :
    depthFirsts (folders ++ others) = depthFirsts folders ++ depthFirsts others := by
  simp only [depthFirsts_eq, List.flatMap_append]

/-- From one level on, a walk in depth meets the directories of each depth as if it met the level
first and then all below it. -/
theorem filter_depthFirsts (leveled : ∀ f ∈ level, f.Leveled ∧ f.depth = n) (k : Nat) :
    ((depthFirsts level).filter fun d => d.depth = k) =
      (level.filter fun d => d.depth = k) ++
        (depthFirsts (level.flatMap children)).filter fun d => d.depth = k := by
  induction level with
  | nil => rfl
  | cons f level ih =>
    obtain ⟨⟨own,here⟩,others⟩ := List.forall_mem_cons.mp leveled
    -- The rest of the level and what lies in this directory have no depth in common.
    have apart : ((depthFirsts f.children).filter fun d => d.depth = k) = [] ∨
        (level.filter fun d => d.depth = k) = [] := by
      by_cases same : n = k
      · refine .inl (List.filter_eq_nil_iff.mpr fun d found => ?_)
        have deeper := own.depth_lt d found
        simp only [decide_eq_true_eq]
        omega
      · refine .inr (List.filter_eq_nil_iff.mpr fun d found => ?_)
        simpa [(others d found).2] using same
    rw [depthFirsts, depthFirst_cons, List.flatMap_cons, depthFirsts_append, List.filter_append,
      List.filter_append, ih others]
    rcases apart with none | none <;> by_cases own : f.depth = k <;> simp [own, none]

theorem kept_all : kept (fun _ => true) = children := funext fun _ => List.filter_true _

theorem breadthFirst_level (leveled : ∀ f ∈ level, f.Leveled ∧ f.depth = n) :
    (∀ d ∈ breadthFirst (fun _ => true) level, n ≤ d.depth) ∧
      (breadthFirst (fun _ => true) level).Pairwise (fun d e => d.depth ≤ e.depth) ∧
      ∀ k, ((breadthFirst (fun _ => true) level).filter fun d => d.depth = k) =
        (depthFirsts level).filter fun d => d.depth = k := by
  induction size : total level using Nat.strongRecOn generalizing level n with
  | ind size fewer =>
    subst size
    by_cases empty : level = []
    · subst empty
      simp [breadthFirst, depthFirsts]
    have visited := breadthFirst_append (fun _ => true) level []
    rw [List.append_nil, List.nil_append, kept_all] at visited
    have next : ∀ f ∈ level.flatMap children, f.Leveled ∧ f.depth = n + 1 := by
      intro child found
      obtain ⟨f,among,isChild⟩ := List.mem_flatMap.mp found
      obtain ⟨⟨below,inner⟩,here⟩ := leveled f among
      exact ⟨inner child isChild,by rw [below child isChild, here]⟩
    have shorter : total (level.flatMap children) < total level := by
      have sum := total_flatMap level
      have length := List.length_pos_iff.mpr empty
      omega
    obtain ⟨deeper,sorted,levels⟩ := fewer _ shorter next rfl
    rw [visited]
    refine ⟨?_,List.pairwise_append.mpr ⟨?_,sorted,?_⟩,fun k => ?_⟩
    · intro d found
      rcases List.mem_append.mp found with here | later
      · exact Nat.le_of_eq (leveled d here).2.symm
      · exact Nat.le_of_succ_le (deeper d later)
    · refine List.pairwise_of_forall_mem_list fun d found e other => ?_
      exact Nat.le_of_eq ((leveled d found).2.trans (leveled e other).2.symm)
    · intro d here e later
      rw [(leveled d here).2]
      exact Nat.le_of_succ_le (deeper e later)
    · rw [List.filter_append, levels, filter_depthFirsts leveled]

theorem Leveled.dataFolders_sorted (leveled : f.Leveled) :
    f.dataFolders.Pairwise fun d e => d.depth ≤ e.depth := by
  have alone : ∀ g ∈ [f], g.Leveled ∧ g.depth = f.depth := by simpa using leveled
  exact (breadthFirst_level alone).2.1.filter isData

/-- The data directories are those that a walk in depth meets, sorted by depth. -/
theorem Leveled.dataFolders_eq (leveled : f.Leveled) :
    f.dataFolders = (f.depthFirst.filter isData).mergeSort fun d e => d.depth ≤ e.depth := by
  have alone : ∀ g ∈ [f], g.Leveled ∧ g.depth = f.depth := by simpa using leveled
  obtain ⟨_,_,levels⟩ := breadthFirst_level alone
  refine eq_mergeSort leveled.dataFolders_sorted fun k => ?_
  rw [depthFirsts, depthFirsts, List.append_nil] at levels
  rw [dataFolders, List.filter_comm, levels, List.filter_comm]

end Folder

end ThemeForge
