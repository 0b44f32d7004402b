import ThemeForge.Proofs.Folder.Arena
import Mathlib

/-!
# Visiting a table of directories

In a tree over numbers every number but that of the root is listed once, in a directory with a smaller
number. A work queue that enters children then ends, however few of them it enters, and visits no
directory twice.
-/

namespace ThemeForge.Arena

/-- A directory is entered from another one. `enter` tells which numbers are queued at a directory. -/
def Enters (a : Arena) (enter : Node → List Nat) (above number : Nat) : Prop :=
  ∃ node, a.nodes[above]? = some node ∧ number ∈ enter node

def Lists (a : Arena) : Nat → Nat → Prop := a.Enters Node.children

/-- Every number but that of the root is listed once, and in a directory with a smaller number. -/
structure Tree (a : Arena) : Prop where
  rooted : 0 < a.nodes.length
  once : (a.nodes.flatMap Node.children).Perm (List.range' 1 (a.nodes.length - 1))
  later : ∀ above number, a.Lists above number → above < number

/-- A run of a queue: the first number is visited, and those that its directory enters are queued
behind the others, until there are none. -/
inductive Visits (a : Arena) (enter : Node → List Nat) : List Nat → List Nat → Prop
  | done : Visits a enter [] []
  | visit (found : a.nodes[number]? = some node)
      (rest : Visits a enter (queue ++ enter node) visited) :
      Visits a enter (number :: queue) (number :: visited)

/-- A queue that starts at a directory runs empty. It visits what can be reached by entering, each
directory once. -/
structure Sweep (a : Arena) (enter : Node → List Nat) (first : Nat) (visited : List Nat) : Prop where
  run : a.Visits enter [first] visited
  once : visited.Nodup
  met : ∀ number, number ∈ visited ↔ Relation.ReflTransGen (a.Enters enter) first number

variable {a : Arena} {enter : Node → List Nat} {node : Node} {above number first : Nat}
  {seen queue visited : List Nat}

theorem lists_iff : (∃ above, a.Lists above number) ↔ number ∈ a.nodes.flatMap Node.children := by
  rw [List.mem_flatMap]
  constructor
  · rintro ⟨above,node,found,listed⟩
    exact ⟨node,List.mem_of_getElem? found,listed⟩
  · rintro ⟨node,among,listed⟩
    obtain ⟨above,found⟩ := List.mem_iff_getElem?.mp among
    exact ⟨above,node,found,listed⟩

namespace Tree

theorem listed_iff (tree : a.Tree) :
    (∃ above, a.Lists above number) ↔ 0 < number ∧ number < a.nodes.length := by
  have rooted := tree.rooted
  rw [lists_iff, tree.once.mem_iff, List.mem_range'_1]
  omega

theorem nodup (tree : a.Tree) : (a.nodes.flatMap Node.children).Nodup :=
  tree.once.nodup_iff.mpr List.nodup_range'

theorem children_nodup (tree : a.Tree) (among : node ∈ a.nodes) : node.children.Nodup :=
  (List.nodup_flatMap.mp tree.nodup).1 node among

theorem lists_unique (tree : a.Tree) (listed : a.Lists above number)
    (again : a.Lists other number) : above = other := by
  obtain ⟨node,found,member⟩ := listed
  obtain ⟨node',found',member'⟩ := again
  obtain ⟨inside,rfl⟩ := List.getElem?_eq_some_iff.mp found
  obtain ⟨inside',rfl⟩ := List.getElem?_eq_some_iff.mp found'
  have apart := List.pairwise_iff_getElem.mp (List.nodup_flatMap.mp tree.nodup).2
  rcases Nat.lt_trichotomy above other with less | same | less
  · exact absurd member' (List.disjoint_left.mp (apart _ _ inside inside' less) member)
  · exact same
  · exact absurd member (List.disjoint_left.mp (apart _ _ inside' inside less) member')

theorem existsUnique_parent (tree : a.Tree) (later : 0 < number) (inside : number < a.nodes.length) :
    ∃! above, a.Lists above number := by
  obtain ⟨above,listed⟩ := tree.listed_iff.mpr ⟨later,inside⟩
  exact ⟨above,listed,fun other again => tree.lists_unique again listed⟩

/-- The way up from a directory leads to smaller and smaller numbers, so to the root. -/
theorem reached (tree : a.Tree) (inside : number < a.nodes.length) :
    Relation.ReflTransGen a.Lists 0 number := by
  induction number using Nat.strongRecOn with
  | ind number smaller =>
    rcases Nat.eq_zero_or_pos number with rfl | later
    · exact .refl
    · obtain ⟨above,listed⟩ := tree.listed_iff.mpr ⟨later,inside⟩
      have less := tree.later above number listed
      exact (smaller above less (less.trans inside)).tail listed

end Tree

/-- The state of a queue that started at one directory: those that were visited and those that wait
are different, and each but the first was entered from one that was visited. -/
structure Waits (a : Arena) (enter : Node → List Nat) (first : Nat) (seen queue : List Nat) :
    Prop where
  once : (seen ++ queue).Nodup
  known : ∀ number ∈ seen ++ queue, number < a.nodes.length
  entered : ∀ number ∈ seen ++ queue,
    number = first ∨ first < number ∧ ∃ above ∈ seen, a.Enters enter above number

/-- Visiting the first of a queue. -/
theorem Waits.visit (tree : a.Tree)
    (enters : ∀ node ∈ a.nodes, (enter node).Sublist node.children)
    (waits : a.Waits enter first seen (number :: queue)) (found : a.nodes[number]? = some node) :
    a.Waits enter first (seen ++ [number]) (queue ++ enter node) := by
  have among := List.mem_of_getElem? found
  have lists : ∀ {above next}, a.Enters enter above next → a.Lists above next := by
    rintro above next ⟨other,found,entered⟩
    exact ⟨other,found,(enters other (List.mem_of_getElem? found)).subset entered⟩
  have whole : (seen ++ [number]) ++ (queue ++ enter node) =
      (seen ++ number :: queue) ++ enter node := by simp
  have entersNext : ∀ next ∈ enter node, a.Enters enter number next := fun next entered =>
    ⟨node,found,entered⟩
  have least : first ≤ number := by
    rcases waits.entered number (by simp) with rfl | ⟨less,_⟩
    · exact Nat.le_refl _
    · exact Nat.le_of_lt less
  -- What has been queued was entered from its one parent, and this directory is visited only now.
  have fresh : ∀ next ∈ enter node, next ∉ seen ++ number :: queue := by
    intro next entered old
    have listed := lists (entersNext next entered)
    have less := tree.later number next listed
    rcases waits.entered next old with rfl | ⟨_,above,before,again⟩
    · omega
    · obtain rfl := tree.lists_unique (lists again) listed
      exact (List.nodup_append.mp waits.once).2.2 above before above List.mem_cons_self rfl
  refine ⟨?_,?_,?_⟩
  · rw [whole, List.nodup_append]
    refine ⟨waits.once,(tree.children_nodup among).sublist (enters node among),?_⟩
    rintro old member next entered rfl
    exact fresh old entered member
  · intro next member
    rw [whole] at member
    rcases List.mem_append.mp member with old | entered
    · exact waits.known next old
    · exact (tree.listed_iff.mp ⟨number,lists (entersNext next entered)⟩).2
  · intro next member
    rw [whole] at member
    rcases List.mem_append.mp member with old | entered
    · rcases waits.entered next old with first | ⟨less,above,before,again⟩
      · exact .inl first
      · exact .inr ⟨less,above,List.mem_append_left _ before,again⟩
    · have less := tree.later number next (lists (entersNext next entered))
      exact .inr ⟨by omega,number,by simp,entersNext next entered⟩

/-- A queue runs empty: what was visited only grows, and stays different. -/
theorem Waits.exists_visits (tree : a.Tree)
    (enters : ∀ node ∈ a.nodes, (enter node).Sublist node.children)
    (waits : a.Waits enter first seen queue) :
    ∃ visited, a.Visits enter queue visited ∧ a.Waits enter first (seen ++ visited) [] := by
  -- Each visit leaves fewer numbers to be seen, since those seen stay different.
  induction left : a.nodes.length - seen.length using Nat.strongRecOn generalizing seen queue with
  | ind left fewer =>
    subst left
    cases queue with
    | nil => exact ⟨[],.done,by rwa [List.append_nil]⟩
    | cons number queue =>
      have found := List.getElem?_eq_getElem (waits.known number (by simp))
      have next := waits.visit tree enters found
      have few : (seen ++ number :: queue).length ≤ a.nodes.length := by
        have subset : seen ++ number :: queue ⊆ List.range a.nodes.length := fun other member =>
          List.mem_range.mpr (waits.known other member)
        simpa using (waits.once.subperm subset).length_le
      rw [List.length_append, List.length_cons] at few
      obtain ⟨visited,run,ends⟩ := fewer _
        (by rw [List.length_append, List.length_singleton]; omega) next rfl
      exact ⟨number :: visited,.visit found run,by simpa using ends⟩

theorem Visits.unique (run : a.Visits enter queue visited) (again : a.Visits enter queue others) :
    visited = others := by
  induction run generalizing others with
  | done =>
    cases again
    rfl
  | visit found rest ih =>
    cases again with
    | visit found' rest' =>
      cases found.symm.trans found'
      rw [ih rest']

theorem Visits.closed (run : a.Visits enter queue visited) :
    queue ⊆ visited ∧ ∀ above ∈ visited, ∀ number, a.Enters enter above number → number ∈ visited := by
  induction run with
  | done => exact ⟨List.Subset.refl _,nofun⟩
  | @visit number node queue visited found rest ih =>
    obtain ⟨queued,closed⟩ := ih
    refine ⟨?_,?_⟩
    · exact List.cons_subset_cons _ (List.Subset.trans (List.subset_append_left _ _) queued)
    · intro above member next entered
      rcases List.mem_cons.mp member with rfl | member
      · obtain ⟨other,found',among⟩ := entered
        cases found.symm.trans found'
        exact List.mem_cons_of_mem _ (queued (List.mem_append_right _ among))
      · exact List.mem_cons_of_mem _ (closed above member next entered)

/-- In a tree a queue runs empty from every directory, whatever children it enters. -/
theorem Tree.exists_sweep (tree : a.Tree)
    (enters : ∀ node ∈ a.nodes, (enter node).Sublist node.children)
    (inside : first < a.nodes.length) : ∃ visited, a.Sweep enter first visited := by
  have waits : a.Waits enter first [] [first] :=
    ⟨List.nodup_singleton _,by simpa using inside,by simp⟩
  obtain ⟨visited,run,ends⟩ := waits.exists_visits tree enters
  rw [List.nil_append] at ends
  refine ⟨visited,run,by simpa using ends.once,fun number => ⟨?_,?_⟩⟩
  · intro member
    induction number using Nat.strongRecOn with
    | ind number smaller =>
      rcases ends.entered number (by simpa using member) with rfl | ⟨_,above,before,entered⟩
      · exact .refl
      · obtain ⟨node,found,among⟩ := entered
        have less := tree.later above number
          ⟨node,found,(enters node (List.mem_of_getElem? found)).subset among⟩
        exact (smaller above less before).tail ⟨node,found,among⟩
  · intro reached
    obtain ⟨queued,closed⟩ := run.closed
    induction reached with
    | refl => exact queued List.mem_cons_self
    | tail _ entered ih => exact closed _ ih _ entered

theorem Tree.sweep_all (tree : a.Tree) (sweep : a.Sweep Node.children 0 visited) :
    visited.Perm (List.range a.nodes.length) := by
  refine (List.perm_ext_iff_of_nodup sweep.once List.nodup_range).mpr fun number => ?_
  rw [sweep.met, List.mem_range]
  refine ⟨fun reached => ?_,tree.reached⟩
  cases reached with
  | refl => exact tree.rooted
  | tail _ listed => exact (tree.listed_iff.mp ⟨_,listed⟩).2

end ThemeForge.Arena
